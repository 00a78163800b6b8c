import EndpointConsole.Glob

/-!
The rules of ignore files, one on a line. A rule leaves paths out or, after an
exclamation mark, takes them in again. A pattern with a slash before its end is
about paths from the folder of the file; any other is about names at any depth.
A slash at the end restricts a rule to folders. Blank lines, comments and spoiled
patterns say nothing.
-/
namespace EndpointConsole.Ignore

inductive Verdict where
  | ignored
  | kept
  deriving Repr, DecidableEq

structure Rule where
  pattern : List Glob.Token
  verdict : Verdict
  onlyFolders : Bool
  deriving Repr

namespace Rule

/-- The pattern of a rule as it is matched against paths. A name may lie at any depth, and two stars
    at the end stand for what is in a folder, not for the folder. -/
def fullPattern (anchored : Bool) (body : Text) : Text :=
  let placed := if anchored || body.any (· = '/') || body = "**".toList then body else "**/".toList ++ body
  if Text.endsWith "/**".toList placed then placed ++ "/*".toList else placed

/-- The part of a rule after its mark, without the slash that restricts it to folders. -/
def withoutEnd (body : Text) : Text := (Text.stripEnd? ['\\'] body.dropLast).getD body.dropLast

/-- The rule of a line that is not empty. -/
def ofWritten? (line : Text) : Option Rule :=
  let isEscaped := Text.startsWith "\\!".toList line || Text.startsWith "\\#".toList line
  let isKept := line.head? = some '!'
  let body := if isEscaped || isKept then line.drop 1 else line
  let anchored := body.head? = some '/'
  let body := if anchored then body.drop 1 else body
  let onlyFolders := body.getLast? = some '/'
  let body := if onlyFolders then withoutEnd body else body
  (Glob.parse? (fullPattern anchored body)).map fun pattern =>
    { pattern, verdict := if isKept then .kept else .ignored, onlyFolders }

/-- The rule on a line. White space at the end does not count unless a backslash stands before the
    last of it. -/
def ofLine? (line : Text) : Option Rule :=
  if line.head? = some '#' then none
  else
    let line := if Text.endsWith "\\ ".toList line then line else Text.trimEnd line
    if line.isEmpty then none else ofWritten? line

/-- Whether a rule is about a path. -/
def appliesTo (r : Rule) (path : List UInt8) (isFolder : Bool) : Bool :=
  Glob.matchesPath r.pattern path && (isFolder || !r.onlyFolders)

end Rule

/-- Lines as far as they are text; a line that is none ends them. -/
def textLines : List (List UInt8) → List Text
  | [] => []
  | bytes :: rest =>
    match Utf8.decode? bytes with
    | none => [[]]
    | some line => line :: textLines rest

/-- The mark of the byte order that a file may begin with. -/
def byteOrderMark : Char := Char.ofNat 0xFEFF

/-- The lines of a file without marks at its beginning. -/
def linesOf (bytes : List UInt8) : List Text :=
  match Text.lines (Text.joinWith ['\n'] (textLines (Text.splitOn 10 bytes))) with
  | [] => []
  | line :: rest => line.dropWhile (· = byteOrderMark) :: rest

/-- The rules of a file. -/
def rulesOf (bytes : List UInt8) : List Rule := (linesOf bytes).filterMap Rule.ofLine?

/-- What some rules say of a path: the last one that is about it counts. -/
def verdict? (rules : List Rule) (path : List UInt8) (isFolder : Bool) : Option Verdict :=
  (rules.reverse.find? (·.appliesTo path isFolder)).map (·.verdict)

end EndpointConsole.Ignore
