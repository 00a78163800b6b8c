/-!
Text as a list of characters, with the operations that every recogniser of the
library is written in: trimming, cutting, searching and replacing. White space
is the Unicode property `White_Space` (`isBlank`); letter case is folded for
ASCII letters only (`asciiLower`, `sameLetters`).
-/
namespace EndpointConsole

/-- A piece of text, by characters. -/
abbrev Text := List Char

namespace Text

/-- The Unicode property `White_Space`. -/
def isBlank (c : Char) : Bool :=
  let n := c.toNat
  (9 ≤ n && n ≤ 13) || n == 0x20 || n == 0x85 || n == 0xA0 || n == 0x1680 || (0x2000 ≤ n && n ≤ 0x200A) ||
    n == 0x2028 || n == 0x2029 || n == 0x202F || n == 0x205F || n == 0x3000

/-- Drops the characters in a class from the end. -/
def dropEndWhile (p : Char → Bool) (s : Text) : Text := (s.reverse.dropWhile p).reverse

def trimStart (s : Text) : Text := s.dropWhile isBlank

def trimEnd (s : Text) : Text := dropEndWhile isBlank s

/-- Without the white space at either end. -/
def trim (s : Text) : Text := trimEnd (trimStart s)

/-- The maximal runs of characters outside a class, where `current` holds the
    open run backwards. -/
def runsFrom (p : Char → Bool) (current : Text) : Text → List Text
  | [] => if current.isEmpty then [] else [current.reverse]
  | c :: rest =>
    if p c then
      if current.isEmpty then runsFrom p [] rest else current.reverse :: runsFrom p [] rest
    else runsFrom p (c :: current) rest

/-- The words of a text: its maximal runs without white space. -/
def words (s : Text) : List Text := runsFrom isBlank [] s

/-- Cuts at every occurrence of a character, or of a byte: one piece more than
    there are occurrences. -/
def splitOn {α : Type} [DecidableEq α] (sep : α) : List α → List (List α)
  | [] => [[]]
  | c :: rest =>
    if c = sep then [] :: splitOn sep rest
    else
      match splitOn sep rest with
      | [] => [[c]]
      | piece :: pieces => (c :: piece) :: pieces

/-- Cuts at the first occurrence of a character. -/
def cutAt? (sep : Char) : Text → Option (Text × Text)
  | [] => none
  | c :: rest => if c = sep then some ([], rest) else (cutAt? sep rest).map fun (a, b) => (c :: a, b)

/-- The piece before the first occurrence of a character, or everything. -/
def before (sep : Char) (s : Text) : Text := s.takeWhile (· ≠ sep)

/-- The piece after the last occurrence of a character, or everything. -/
def afterLast (sep : Char) (s : Text) : Text := (s.reverse.takeWhile (· ≠ sep)).reverse

/-- Puts a separator between the pieces. -/
def joinWith (sep : Text) : List Text → Text
  | [] => []
  | [s] => s
  | s :: t :: rest => s ++ sep ++ joinWith sep (t :: rest)

/-- The lines of a text: each ends at a line feed, whose preceding carriage
    return goes with it, and an empty last line is none. -/
def lines (s : Text) : List Text :=
  match (splitOn '\n' s).reverse with
  | [] => []
  | last :: ended =>
    (ended.map fun l => if l.getLast? = some '\r' then l.dropLast else l).reverse ++
      if last.isEmpty then [] else [last]

def startsWith (start s : Text) : Bool := start.isPrefixOf s

def endsWith (ending s : Text) : Bool := ending.isSuffixOf s

/-- What follows a given beginning. -/
def stripStart? : Text → Text → Option Text
  | [], s => some s
  | _ :: _, [] => none
  | a :: start, c :: s => if a = c then stripStart? start s else none

/-- What comes before a given ending. -/
def stripEnd? (ending s : Text) : Option Text :=
  (stripStart? ending.reverse s.reverse).map List.reverse

/-- Cuts around the first occurrence of a pattern. -/
def cutAround? (pattern : Text) : Text → Option (Text × Text)
  | [] => if pattern.isEmpty then some ([], []) else none
  | c :: rest =>
    match stripStart? pattern (c :: rest) with
    | some after => some ([], after)
    | none => (cutAround? pattern rest).map fun (a, b) => (c :: a, b)

def contains (pattern s : Text) : Bool := (cutAround? pattern s).isSome

/-- Replaces the occurrences of a pattern from left to right, none overlapping.
    The first argument counts the characters of an occurrence still to be passed over. -/
def replaceFrom (pattern value : Text) : Nat → Text → Text
  | _, [] => []
  | skip + 1, _ :: rest => replaceFrom pattern value skip rest
  | 0, c :: rest =>
    if !pattern.isEmpty && pattern.isPrefixOf (c :: rest) then
      value ++ replaceFrom pattern value (pattern.length - 1) rest
    else c :: replaceFrom pattern value 0 rest

/-- Replaces every occurrence of a non-empty pattern. -/
def replace (pattern value s : Text) : Text := replaceFrom pattern value 0 s

/-- Lowers the ASCII letters and keeps everything else. -/
def asciiLower (s : Text) : Text := s.map Char.toLower

def asciiUpper (s : Text) : Text := s.map Char.toUpper

/-- Equality up to the case of ASCII letters. -/
def sameLetters (a b : Text) : Bool := asciiLower a == asciiLower b

/-- The length of the UTF-8 encoding. -/
def byteLength : Text → Nat
  | [] => 0
  | c :: rest => c.utf8Size + byteLength rest

/-- The longest beginning of whole characters that fits a number of bytes. -/
def truncateBytes : Nat → Text → Text
  | _, [] => []
  | room, c :: rest => if c.utf8Size ≤ room then c :: truncateBytes (room - c.utf8Size) rest else []

end Text

end EndpointConsole
