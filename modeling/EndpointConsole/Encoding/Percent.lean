import EndpointConsole.Encoding.Hex
import EndpointConsole.Encoding.Utf8

/-!
Percent encoding of a URI component and of form fields. `encodeComponent` leaves
letters, digits and nine marks alone and writes every other byte as `%XX`;
`Form.parse` reads the pairs of a query string, taking `+` for a space.
-/
namespace EndpointConsole.Percent

/-- The characters that a URI component holds as they are. -/
def isUnreserved (c : Char) : Bool :=
  c.isAlphanum || c == '-' || c == '_' || c == '.' || c == '!' || c == '~' || c == '*' || c.toNat == 0x27 ||
    c == '(' || c == ')'

/-- One character: itself, or its UTF-8 bytes as `%XX`. -/
def encodeChar (c : Char) : Text :=
  if isUnreserved c then [c] else (String.utf8EncodeChar c).flatMap fun b => '%' :: Hex.upperByte b

def encodeComponent (s : Text) : Text := s.flatMap encodeChar

/-- The byte that two hexadecimal digits write. -/
def escaped? (high low : UInt8) : Option UInt8 := do
  let h ← Hex.digit? (Char.ofNat high.toNat)
  let l ← Hex.digit? (Char.ofNat low.toNat)
  pure (UInt8.ofNat (h * 16 + l))

/-- Reads `%XX` as a byte; a percent sign without two digits stands for itself. -/
def decodeBytes : List UInt8 → List UInt8
  | [] => []
  | b :: rest =>
    if b = 0x25 then
      match rest with
      | high :: low :: after =>
        match escaped? high low with
        | some byte => byte :: decodeBytes after
        | none => b :: decodeBytes (high :: low :: after)
      | short => b :: short
    else b :: decodeBytes rest

end EndpointConsole.Percent

namespace EndpointConsole.Form

/-- A key or a value: `+` is a space, `%XX` a byte, and ill-formed UTF-8 is replaced. -/
def decode (s : Text) : Text :=
  Utf8.decodeLossy (Percent.decodeBytes (Utf8.encode (s.map fun c => if c = '+' then ' ' else c)))

/-- One pair: without an equals sign the value is empty. -/
def pair (s : Text) : Text × Text :=
  match Text.cutAt? '=' s with
  | some (key, value) => (decode key, decode value)
  | none => (decode s, [])

/-- The pairs between ampersands, leaving out empty pieces. -/
def parse (s : Text) : List (Text × Text) :=
  ((Text.splitOn '&' s).filter fun piece => !piece.isEmpty).map pair

end EndpointConsole.Form
