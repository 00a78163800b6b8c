import EndpointConsole.Text

/-!
Comments in source lines. `isCommentLine` looks at one line; `isCommentedOut`
also at the ten lines above it, and takes the nearest comment opening or closing
there for the state of the line.
-/
namespace EndpointConsole.Source

/-- A line that opens a comment or goes on with one: `//`, `/*`, or a star. -/
def isCommentLine (line : Text) : Bool :=
  Text.startsWith "//".toList line || Text.startsWith "/*".toList line || Text.startsWith ['*'] line

/-- The number of lines looked at above a line. -/
def commentLookback : Nat := 10

/-- What the last comment mark on a line leaves: `some true` when it opens a block comment,
    `some false` when it closes one, `none` when there is no mark. -/
def blockAfter : Text → Option Bool
  | [] => none
  | c :: rest =>
    match blockAfter rest with
    | some inside => some inside
    | none =>
      match c, rest.head? with
      | '/', some '*' => some true
      | '*', some '/' => some false
      | _, _ => none

/-- Whether the nearest line with a comment mark, going up, leaves a block comment open. -/
def insideBlock : List Text → Bool
  | [] => false
  | line :: above =>
    match blockAfter line with
    | some inside => inside
    | none => insideBlock above

/-- Whether a line is commented out, given with the lines above it, nearest first. -/
def isCommentedOut (line : Text) (above : List Text) : Bool :=
  let trimmed := Text.trim line
  Text.startsWith "//".toList trimmed || Text.startsWith "/*".toList trimmed ||
    insideBlock (line :: above.take commentLookback)

end EndpointConsole.Source
