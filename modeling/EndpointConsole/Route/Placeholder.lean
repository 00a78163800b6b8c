import EndpointConsole.Text.Search

/-!
Placeholders of a route template. A placeholder is a brace, at least one
character other than a closing brace, and a closing brace; its name is what is
left of the content without constraint, default, catch-all stars and option mark
(`placeholderName`).
-/
namespace EndpointConsole.Route

/-- Reads a placeholder: its content and the text after it. -/
def readPlaceholder? : Text → Option (Text × Text)
  | [] => none
  | c :: rest =>
    if c = '\x7b' then
      match Text.cutAt? '\x7d' rest with
      | some (content, after) => if content.isEmpty then none else some (content, after)
      | none => none
    else none

/-- A placeholder as it is written. -/
def placeholderText (content : Text) : Text := '\x7b' :: content ++ ['\x7d']

/-- A route cut into placeholders and the characters between them. -/
def placeholderPieces (route : Text) : List (Text.Piece Text) := Text.pieces readPlaceholder? route

/-- The parameter name of a placeholder's content: `id:int`, `*path`, `page=1` and `id?` name `id`,
    `path`, `page` and `id`. -/
def placeholderName (content : Text) : Text :=
  let raw := Text.before '=' (Text.before ':' (Text.trim content))
  Text.trim (Text.dropEndWhile (· == '?') (raw.dropWhile (· == '*')))

/-- The names of the placeholders of a route that have one. -/
def placeholderNames (route : Text) : List Text :=
  ((Text.found (placeholderPieces route)).map placeholderName).filter fun name => !name.isEmpty

end EndpointConsole.Route
