import EndpointConsole.Encoding.Percent

/-!
Hosts of web URLs, as the URL Standard reads them: an IPv4 address in dotted,
octal, hexadecimal or short form, an IPv6 address in brackets, or a domain. A
domain is percent-decoded, mapped to lower case and refused when it holds a
forbidden character; a domain whose last label is a number must be an IPv4
address.
-/
namespace EndpointConsole.Url

inductive Host where
  | domain (name : Text)
  | ipv4 (address : Nat)
  | ipv6
  deriving Repr, DecidableEq

/-- The digits of a number in an address, with their base. -/
def radixOf (s : Text) : Nat × Text :=
  match s with
  | '0' :: 'x' :: rest => (16, rest)
  | '0' :: 'X' :: rest => (16, rest)
  | '0' :: c :: rest => (8, c :: rest)
  | _ => (10, s)

/-- The value of digits in a base. -/
def digitsValue? (base : Nat) : Nat → Text → Option Nat
  | n, [] => some n
  | n, c :: rest =>
    match Hex.digit? c with
    | none => none
    | some d => if d < base then digitsValue? base (n * base + d) rest else none

/-- A number of an address; a base without digits is zero. -/
def ipv4Number? (s : Text) : Option Nat :=
  if s.isEmpty then none
  else
    let (base, digits) := radixOf s
    digitsValue? base 0 digits

/-- Without an empty last part. -/
def dropEmptyLast (parts : List Text) : List Text :=
  if parts.getLast? = some [] then parts.dropLast else parts

/-- Whether the last part that is not empty is a number, so that the whole must be an address. -/
def endsInNumber (domain : Text) : Bool :=
  match (dropEmptyLast (Text.splitOn '.' domain)).getLast? with
  | none => false
  | some last => !last.isEmpty && (last.all Char.isDigit || (ipv4Number? last).isSome)

/-- Up to four numbers, each but the last below 256; the last fills the bytes that are left. -/
def ipv4? (domain : Text) : Option Nat := do
  let parts := dropEmptyLast (Text.splitOn '.' domain)
  let numbers ← parts.mapM ipv4Number?
  if 4 < numbers.length then none
  else
    match numbers.reverse with
    | [] => none
    | last :: before =>
      if before.any (255 < ·) ∨ Nat.pow 256 (4 - before.length) ≤ last then none
      else
        let high := before.reverse.foldl (fun sum n => sum * 256 + n) 0
        pure (high * Nat.pow 256 (4 - before.length) + last)

def ipv4Text (address : Nat) : Text :=
  let byte (shift : Nat) : Text := Nat.toDigits 10 (address / Nat.pow 256 shift % 256)
  Text.joinWith ['.'] [byte 3, byte 2, byte 1, byte 0]

def isPiece (s : Text) : Bool := !s.isEmpty && s.length ≤ 4 && s.all fun c => (Hex.digit? c).isSome

/-- One part of a dotted address at the end: at most 255 and without a leading zero. -/
def isDecimalByte (s : Text) : Bool :=
  !s.isEmpty && s.length ≤ 3 && s.all Char.isDigit && (s.length == 1 || s.head? != some '0') &&
    ((digitsValue? 10 0 s).any (· ≤ 255))

def isDotted (s : Text) : Bool :=
  let parts := Text.splitOn '.' s
  parts.length == 4 && parts.all isDecimalByte

/-- The number of 16-bit pieces in a list between colons; a dotted address may end it and counts
    for two. -/
def pieceCount? (dottedLast : Bool) : List Text → Option Nat
  | [] => some 0
  | [last] => if isPiece last then some 1 else if dottedLast && isDotted last then some 2 else none
  | s :: rest => if isPiece s then (pieceCount? dottedLast rest).map (· + 1) else none

/-- The pieces of a side of the double colon. -/
def sideCount? (dottedLast : Bool) (side : Text) : Option Nat :=
  if side.isEmpty then some 0 else pieceCount? dottedLast (Text.splitOn ':' side)

/-- Eight pieces, or fewer around one double colon. -/
def isIpv6 (s : Text) : Bool :=
  match Text.cutAround? "::".toList s with
  | none => sideCount? true s == some 8
  | some (left, right) =>
    match sideCount? false left, sideCount? true right with
    | some m, some n => m + n ≤ 7
    | _, _ => false

/-- The characters that a domain must not hold. -/
def isForbidden (c : Char) : Bool :=
  c.toNat ≤ 0x20 || c.toNat == 0x7F || "#/:<>?@[\\]^|%".toList.contains c ||
    (0x80 ≤ c.toNat && c.toNat ≤ 0x9F) || c.toNat == 0xFFFD

/-- The digit that a raised, lowered, circled or mathematical digit stands for. -/
def plainDigit? (n : Nat) : Option Nat :=
  if n = 0xB2 ∨ n = 0xB3 then some (n - 0xB0)
  else if n = 0xB9 then some 1
  else if n = 0x2070 ∨ (0x2074 ≤ n ∧ n ≤ 0x2079) then some (n - 0x2070)
  else if 0x2080 ≤ n ∧ n ≤ 0x2089 then some (n - 0x2080)
  else if 0x2460 ≤ n ∧ n ≤ 0x2468 then some (n - 0x245F)
  else if 0x1D7CE ≤ n ∧ n ≤ 0x1D7FF then some ((n - 0x1D7CE) % 10)
  else none

/-- Compatibility forms of ASCII characters; what is not seen is dropped. -/
def mapDomainChar (c : Char) : Text :=
  let n := c.toNat
  if n < 0x80 then [c.toLower]
  else if 0xFF01 ≤ n ∧ n ≤ 0xFF5E then [(Char.ofNat (n - 0xFEE0)).toLower]
  else if n = 0x3002 ∨ n = 0xFF61 then ['.']
  else if n = 0xAD ∨ n = 0x200B ∨ n = 0x2060 ∨ n = 0xFEFF ∨ (0xFE00 ≤ n ∧ n ≤ 0xFE0F) then []
  else
    match plainDigit? n with
    | some digit => Nat.toDigits 10 digit
    | none => [c]

/-- A label in encoded form has something after its mark. -/
def isEncodedRight (label : Text) : Bool := label != "xn--".toList

/-- A domain in ASCII as far as its characters stand for characters of ASCII; others are kept. -/
def toAscii? (domain : Text) : Option Text :=
  let mapped := domain.flatMap mapDomainChar
  if (Text.splitOn '.' mapped).all isEncodedRight then some mapped else none

def domain? (toAscii? : Text → Option Text) (s : Text) : Option Text := do
  let decoded ← Utf8.decode? (Percent.decodeBytes (Utf8.encode s))
  let mapped ← toAscii? decoded
  if mapped.isEmpty || mapped.any isForbidden then none else pure mapped

def host? (toAscii? : Text → Option Text) (s : Text) : Option Host :=
  match s with
  | [] => none
  | '[' :: rest =>
    if rest.getLast? = some ']' ∧ isIpv6 rest.dropLast then some .ipv6 else none
  | _ => do
    let name ← domain? toAscii? s
    if endsInNumber name then (ipv4? name).map .ipv4 else pure (.domain name)

end EndpointConsole.Url
