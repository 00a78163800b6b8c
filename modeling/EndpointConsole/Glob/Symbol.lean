import EndpointConsole.Encoding.Utf8

/-!
The symbols that a path pattern is written in. A backslash takes the meaning from
the character after it. Brackets hold a class of bytes: a closing bracket counts
as a member when it comes first, and brackets that are not closed stand for
themselves. A class whose range runs backwards, or a backslash at the end, spoils
the pattern.
-/
namespace EndpointConsole.Glob

inductive Symbol where
  /-- A character that stands for itself. -/
  | char (c : Char)
  | slash
  | question
  | star
  | twoStars
  | opening
  | comma
  | closing
  /-- A byte in one of the ranges, or one in none of them. -/
  | byteClass (negated : Bool) (ranges : List (Nat × Nat))
  deriving Repr, DecidableEq

namespace Symbol

def ofChar (c : Char) : Symbol :=
  if c = '/' then slash
  else if c = '?' then question
  else if c = '*' then star
  else if c = '\x7b' then opening
  else if c = ',' then comma
  else if c = '\x7d' then closing
  else char c

end Symbol

/-- The ranges of characters that are written after an open range. A hyphen between two characters
    makes a range of them, or moves the end of one that is there. -/
def rangesFrom (low high : Char) : Text → Option (List (Char × Char))
  | [] => some [(low, high)]
  | [c] => if c = '-' then some [(low, high), ('-', '-')] else some [(low, high), (c, c)]
  | c :: d :: rest =>
    if c = '-' then if low ≤ d then rangesFrom low d rest else none
    else (rangesFrom c c (d :: rest)).map ((low, high) :: ·)

def bytesOf (c : Char) : List Nat := (Utf8.encode [c]).map UInt8.toNat

def singles (bytes : List Nat) : List (Nat × Nat) := bytes.map fun b => (b, b)

/-- The bytes that a range of characters stands for: the hyphen lies between the last byte of one
    and the first byte of the other. -/
def byteRanges (range : Char × Char) : List (Nat × Nat) :=
  if range.1 = range.2 then singles (bytesOf range.1)
  else
    singles (bytesOf range.1).dropLast ++ [((bytesOf range.1).getLastD 0, (bytesOf range.2).headD 0)] ++
      singles (bytesOf range.2).tail

/-- What an opening bracket begins. -/
inductive Bracket where
  /-- A class, and the number of characters after the bracket that belong to it. -/
  | closed (symbol : Symbol) (length : Nat)
  | unclosed
  | spoiled
  deriving Repr, DecidableEq

/-- Reads what follows an opening bracket. -/
def bracket (s : Text) : Bracket :=
  let negated := s.head? = some '!' || s.head? = some '^'
  let body := if negated then s.drop 1 else s
  match body with
  | [] => .unclosed
  | first :: rest =>
    let inner := Text.before ']' rest
    match rangesFrom first first inner with
    | none => .spoiled
    | some ranges =>
      if inner.length < rest.length then
        .closed (.byteClass negated (ranges.flatMap byteRanges)) ((if negated then 1 else 0) + inner.length + 2)
      else .unclosed

/-- The symbols of a pattern; the first argument counts the characters that were read before. -/
def symbolsFrom : Nat → Text → Option (List Symbol)
  | _, [] => some []
  | skip + 1, _ :: rest => symbolsFrom skip rest
  | 0, c :: rest =>
    if c = '\\' then
      match rest with
      | [] => none
      | d :: _ => (symbolsFrom 1 rest).map (.char d :: ·)
    else if c = '*' ∧ rest.head? = some '*' then (symbolsFrom 1 rest).map (.twoStars :: ·)
    else if c = '[' then
      match bracket rest with
      | .closed symbol length => (symbolsFrom length rest).map (symbol :: ·)
      | .unclosed => (symbolsFrom 0 rest).map (.char '[' :: ·)
      | .spoiled => none
    else (symbolsFrom 0 rest).map (.ofChar c :: ·)

def symbols? (s : Text) : Option (List Symbol) := symbolsFrom 0 s

end EndpointConsole.Glob
