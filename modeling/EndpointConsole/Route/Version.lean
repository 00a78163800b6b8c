import EndpointConsole.Source.Attribute
import EndpointConsole.Source.ClassHeader
import EndpointConsole.Source.Comment
import EndpointConsole.Text.Search

/-!
API versions of routes. A version placeholder is `{name:apiVersion}` in any
case (`hasVersionPlaceholder`, `fillVersion`). The version of a method is looked
up above the nearest controller class at or above it (`versionAbove?`).
-/
namespace EndpointConsole.Route

/-- Reads a version placeholder and gives the text after it. -/
def readVersionPlaceholder? : Text → Option (Unit × Text)
  | [] => none
  | c :: rest =>
    if c = '\x7b' ∧ rest.head?.any Text.isWord then
      match Text.stripFolded? ":apiversion".toList (rest.dropWhile Text.isWord) with
      | some ('\x7d' :: after) => some ((), after)
      | _ => none
    else none

/-- A route cut into version placeholders and the characters between them. -/
def versionPieces (route : Text) : List (Text.Piece Unit) := Text.pieces readVersionPlaceholder? route

def hasVersionPlaceholder (route : Text) : Bool := !(Text.found (versionPieces route)).isEmpty

/-- Writes a version for every version placeholder. -/
def fillVersion (version route : Text) : Text := Text.fill (fun () => version) (versionPieces route)

/-- The lines above the method's line that are searched for its class. -/
def classLookback : Nat := 50

/-- The lines above the class that are searched for its version. -/
def versionLookback : Nat := 20

/-- The version attribute in some lines, nearest first, before the next class line; lines that are
    commented out do not count. -/
def versionIn? : List Text → List Text → Option Text
  | [], _ => none
  | _, [] => none
  | line :: window, _ :: above =>
    if Source.isCommentedOut line above then versionIn? window above
    else
      match Source.apiVersionAttribute? (Text.trim line) with
      | some version => some version
      | none => if Source.hasClassKeyword (Text.trim line) then none else versionIn? window above

/-- The version above the first controller class within some lines, nearest first. `above` goes on
    beyond the window. -/
def versionOfClass? : List Text → List Text → Option Text
  | [], _ => none
  | _, [] => none
  | line :: window, _ :: above =>
    if (Source.controllerClass? (Text.trim line)).isSome then versionIn? (above.take versionLookback) above
    else versionOfClass? window above

/-- The API version that holds for a method on a line, if an attribute gives one. -/
def versionAbove? (lines : List Text) (methodLine : Nat) : Option Text :=
  let upward := (lines.take (methodLine + 1)).reverse
  versionOfClass? (upward.take (classLookback + 1)) upward

end EndpointConsole.Route
