import EndpointConsole.Json.Written

/-!
JSON files with comments. A comment is a whole line that begins, after white
space, with two slashes; a byte order mark may stand in front of the text.
-/
namespace EndpointConsole.Json

def byteOrderMark : Char := Char.ofNat 0xFEFF

def dropMark (s : Text) : Text :=
  match s with
  | [] => []
  | c :: rest => if c = byteOrderMark then rest else s

/-- Whether a line is a comment as a whole. -/
def isComment (line : Text) : Bool := Text.startsWith ['/', '/'] (Text.trimStart line)

/-- The text without its byte order mark and its comments, with plain line feeds. -/
def withoutComments (s : Text) : Text :=
  Text.joinWith ['\n'] ((Text.lines (dropMark s)).filter fun line => !isComment line)

/-- The value of a JSON text with comments. -/
def parseCommented? (s : Text) : Option Json := parse? (withoutComments s)

end EndpointConsole.Json
