import EndpointConsole.Text

/-!
Hexadecimal digits: one digit's value, and the two digits of a byte.
-/
namespace EndpointConsole.Hex

/-- The value of a hexadecimal digit, in either case. -/
def digit? (c : Char) : Option Nat :=
  if '0' ≤ c ∧ c ≤ '9' then some (c.toNat - '0'.toNat)
  else if 'a' ≤ c ∧ c ≤ 'f' then some (c.toNat - 'a'.toNat + 10)
  else if 'A' ≤ c ∧ c ≤ 'F' then some (c.toNat - 'A'.toNat + 10)
  else none

/-- The lower-case digit of a number below sixteen. -/
def lowerDigit (n : Nat) : Char := if n < 10 then Char.ofNat (48 + n) else Char.ofNat (87 + n)

/-- The upper-case digit of a number below sixteen. -/
def upperDigit (n : Nat) : Char := if n < 10 then Char.ofNat (48 + n) else Char.ofNat (55 + n)

/-- Two lower-case digits. -/
def lowerByte (b : UInt8) : Text := [lowerDigit (b.toNat / 16), lowerDigit (b.toNat % 16)]

/-- Two upper-case digits. -/
def upperByte (b : UInt8) : Text := [upperDigit (b.toNat / 16), upperDigit (b.toNat % 16)]

end EndpointConsole.Hex
