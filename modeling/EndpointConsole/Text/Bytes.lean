import EndpointConsole.Encoding.Utf8

/-!
Positions in a text that count the bytes of its UTF-8 form. A text is cut only where one character
ends and the next begins (`isCharBoundary`), so that a limit in bytes is first moved down to such a
position (`boundaryBefore`).
-/
namespace EndpointConsole.Text

/-- Whether a byte goes on with a character that began before it. -/
def continues (b : UInt8) : Bool := 0x80 ≤ b.toNat && b.toNat < 0xC0

/-- Whether a position is an end of the text or the beginning of a character. -/
def isCharBoundary (s : Text) (position : Nat) : Bool :=
  position == 0 ||
    match (Utf8.encode s)[position]? with
    | some b => !continues b
    | none => position == byteLength s

/-- The part of a text between two positions; there is none if a cut would go through a character. -/
def slice? (s : Text) (start stop : Nat) : Option Text :=
  if start ≤ stop ∧ isCharBoundary s start ∧ isCharBoundary s stop then
    Utf8.decode? (((Utf8.encode s).take stop).drop start)
  else none

/-- The last boundary up to a position, looked for downwards from there. -/
def boundaryBefore (s : Text) : Nat → Nat
  | 0 => 0
  | n + 1 => if isCharBoundary s (n + 1) then n + 1 else boundaryBefore s n

/-- The beginning of a text that a number of bytes has room for. -/
def truncate? (room : Nat) (s : Text) : Option Text :=
  if byteLength s ≤ room then some s else slice? s 0 (boundaryBefore s (min room (byteLength s)))

end EndpointConsole.Text
