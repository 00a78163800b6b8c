import EndpointConsole.Text

/-!
UTF-8 with two readings: `decode?` accepts well-formed bytes only, and
`decodeLossy` puts a replacement character for each maximal ill-formed part.
Both follow one reader that goes through the bytes once.
-/
namespace EndpointConsole.Utf8

/-- A character that has begun: how many bytes are missing, the bits read so far, and the range of
    the next byte. -/
structure Begun where
  missing : Nat
  bits : Nat
  low : Nat
  high : Nat
  deriving Repr, DecidableEq

/-- What one byte is at the start of a character: a whole character, the first of several bytes, or
    nothing well-formed. -/
inductive Lead where
  | whole (c : Char)
  | first (begun : Begun)
  | none
  deriving Repr, DecidableEq

/-- The ranges of the second byte shut out overlong forms, surrogates and numbers past the last
    code point. -/
def lead (b : Nat) : Lead :=
  if b < 0x80 then .whole (Char.ofNat b)
  else if b < 0xC2 then .none
  else if b < 0xE0 then .first ⟨1, b - 0xC0, 0x80, 0xBF⟩
  else if b < 0xF0 then
    .first ⟨2, b - 0xE0, if b = 0xE0 then 0xA0 else 0x80, if b = 0xED then 0x9F else 0xBF⟩
  else if b < 0xF5 then
    .first ⟨3, b - 0xF0, if b = 0xF0 then 0x90 else 0x80, if b = 0xF4 then 0x8F else 0xBF⟩
  else .none

/-- Reads a byte at the start of a character. -/
def startWith (b : Nat) : List (Option Char) × Option Begun :=
  match lead b with
  | .whole c => ([some c], none)
  | .first begun => ([], some begun)
  | .none => ([none], none)

/-- Reads one byte after what has begun; `none` in the output is an ill-formed part. -/
def step (begun : Option Begun) (b : Nat) : List (Option Char) × Option Begun :=
  match begun with
  | none => startWith b
  | some p =>
    if p.low ≤ b ∧ b ≤ p.high then
      let bits := p.bits * 64 + (b - 0x80)
      if p.missing = 1 then ([some (Char.ofNat bits)], none) else ([], some ⟨p.missing - 1, bits, 0x80, 0xBF⟩)
    else
      let (out, next) := startWith b
      (none :: out, next)

/-- The characters of the bytes, with `none` for each ill-formed part. -/
def readFrom : Option Begun → List UInt8 → List (Option Char)
  | none, [] => []
  | some _, [] => [none]
  | begun, b :: rest =>
    let (out, next) := step begun b.toNat
    out ++ readFrom next rest

/-- The text of well-formed bytes. -/
def decode? (bytes : List UInt8) : Option Text := (readFrom none bytes).mapM id

/-- The text of any bytes, U+FFFD standing for what is ill-formed. -/
def decodeLossy (bytes : List UInt8) : Text :=
  (readFrom none bytes).map fun c => c.getD (Char.ofNat 0xFFFD)

/-- The UTF-8 bytes of a text. -/
def encode (s : Text) : List UInt8 := s.flatMap String.utf8EncodeChar

end EndpointConsole.Utf8
