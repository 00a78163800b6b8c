import EndpointConsole.Encoding.Hex
import EndpointConsole.Json
import EndpointConsole.Number.Shortest

/-!
JSON text of values: on one line without spaces (`compact`), or one item a line,
indented by two spaces (`pretty`). Strings escape the quote, the backslash and
control characters only; a floating-point number has the fewest digits that read
back, always with a fraction or an exponent.
-/
namespace EndpointConsole.Json

/-- One character within a string. -/
def escapeChar (c : Char) : Text :=
  if c = '"' then ['\\', '"']
  else if c = '\\' then ['\\', '\\']
  else if c = '\n' then ['\\', 'n']
  else if c = '\r' then ['\\', 'r']
  else if c = '\t' then ['\\', 't']
  else if c.toNat = 8 then ['\\', 'b']
  else if c.toNat = 12 then ['\\', 'f']
  else if c.toNat < 0x20 then
    ['\\', 'u', '0', '0', Hex.lowerDigit (c.toNat / 16), Hex.lowerDigit (c.toNat % 16)]
  else [c]

def quote (s : Text) : Text := '"' :: s.flatMap escapeChar ++ ['"']

def natText (n : Nat) : Text := Nat.toDigits 10 n

def intText (n : Int) : Text := if n < 0 then '-' :: natText n.natAbs else natText n.natAbs

/-- Numbers are written in full from 10 ^ -5 up to 10 ^ 16, and otherwise with an exponent that
    always has a sign. -/
def decimalText (d : Shortest.Decimal) : Text :=
  let digits := natText d.digits
  let point : Int := digits.length + d.exponent
  if -5 < point ∧ point ≤ 16 then
    if 0 ≤ d.exponent then digits ++ List.replicate d.exponent.toNat '0' ++ ".0".toList
    else if 0 < point then digits.take point.toNat ++ '.' :: digits.drop point.toNat
    else "0.".toList ++ List.replicate (-point).toNat '0' ++ digits
  else
    let mantissa :=
      match digits with
      | [] => []
      | [first] => [first]
      | first :: rest => first :: '.' :: rest
    let exponent := point - 1
    mantissa ++ 'e' :: (if exponent < 0 then '-' else '+') :: natText exponent.natAbs

def realText (x : Binary64) : Text :=
  let magnitude := if x.isZero then "0.0".toList else decimalText (Shortest.decimal x)
  if x.negative then '-' :: magnitude else magnitude

def numberText : Number → Text
  | .int n => intText n
  | .real x => realText x

mutual

def compact : Json → Text
  | .null => "null".toList
  | .bool b => if b then "true".toList else "false".toList
  | .number n => numberText n
  | .string s => quote s
  | .array items => '[' :: compactItems items
  | .object members => '\x7b' :: compactMembers members

/-- The items of an array and its end. -/
def compactItems : List Json → Text
  | [] => [']']
  | v :: rest => compact v ++ compactMoreItems rest

def compactMoreItems : List Json → Text
  | [] => [']']
  | v :: rest => ',' :: compact v ++ compactMoreItems rest

/-- The members of an object and its end. -/
def compactMembers : List (Text × Json) → Text
  | [] => ['\x7d']
  | (key, v) :: rest => quote key ++ ':' :: compact v ++ compactMoreMembers rest

def compactMoreMembers : List (Text × Json) → Text
  | [] => ['\x7d']
  | (key, v) :: rest => ',' :: quote key ++ ':' :: compact v ++ compactMoreMembers rest

end

/-- A new line at a level of nesting. -/
def newline (level : Nat) : Text := '\n' :: List.replicate (2 * level) ' '

mutual

/-- The text of a value whose first line stands at a level of nesting. -/
def prettyAt (level : Nat) : Json → Text
  | .null => "null".toList
  | .bool b => if b then "true".toList else "false".toList
  | .number n => numberText n
  | .string s => quote s
  | .array items => '[' :: prettyItems level items
  | .object members => '\x7b' :: prettyMembers level members

def prettyItems (level : Nat) : List Json → Text
  | [] => [']']
  | v :: rest => newline (level + 1) ++ prettyAt (level + 1) v ++ prettyMoreItems level rest

def prettyMoreItems (level : Nat) : List Json → Text
  | [] => newline level ++ [']']
  | v :: rest => ',' :: newline (level + 1) ++ prettyAt (level + 1) v ++ prettyMoreItems level rest

def prettyMembers (level : Nat) : List (Text × Json) → Text
  | [] => ['\x7d']
  | (key, v) :: rest =>
    newline (level + 1) ++ quote key ++ ": ".toList ++ prettyAt (level + 1) v ++ prettyMoreMembers level rest

def prettyMoreMembers (level : Nat) : List (Text × Json) → Text
  | [] => newline level ++ ['\x7d']
  | (key, v) :: rest =>
    ',' :: newline (level + 1) ++ quote key ++ ": ".toList ++ prettyAt (level + 1) v ++ prettyMoreMembers level rest

end

def pretty (v : Json) : Text := prettyAt 0 v

end EndpointConsole.Json
