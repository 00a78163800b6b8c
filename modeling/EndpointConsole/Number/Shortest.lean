import EndpointConsole.Number.Binary64
import EndpointConsole.Text

/-!
The shortest decimal digits that read back as a given binary floating-point
number. For one digit, two, and so on to seventeen, the two neighbours of the
number on the grid of decimals with that many digits are tried; the first grid
that has one within the interval of reals rounding to the number wins, and of
two hits the nearer, or the one with an even last digit if they are equally near.
-/
namespace EndpointConsole.Shortest

/-- A positive number and the bounds of the reals that round to it, all over one denominator. -/
structure Interval where
  value : Nat
  low : Nat
  high : Nat
  den : Nat
  /-- Whether the bounds themselves round to the number. -/
  closed : Bool
  deriving Repr

/-- Halfway to the neighbours on either side; below a power of two they lie closer together. -/
def interval (x : Binary64) : Interval :=
  let m := x.mantissa
  let low := if m = Nat.pow 2 52 ∧ Binary64.minExponent < x.exponent then 4 * m - 1 else 4 * m - 2
  let (unit, den) := Binary64.scale 1 1 (2 - x.exponent)
  ⟨4 * m * unit, low * unit, (4 * m + 2) * unit, den, m % 2 == 0⟩

def digitCount (n : Nat) : Nat := if n = 0 then 0 else (Nat.toDigits 10 n).length

/-- The exponent of the largest power of ten that is at most a positive ratio. -/
def floorLog10 (num den : Nat) : Int :=
  if den ≤ num then (digitCount (num / den) : Int) - 1
  else -(digitCount ((den - 1) / num) : Int)

/-- A decimal `digits * 10 ^ exponent`. -/
structure Decimal where
  digits : Nat
  exponent : Int
  deriving Repr, DecidableEq

/-- The two sides of a comparison with `digits * 10 ^ exponent` over a denominator: the decimal and
    a numerator on a common scale. -/
def onScale (d : Decimal) (num den : Nat) : Nat × Nat :=
  if 0 ≤ d.exponent then (d.digits * Nat.pow 10 d.exponent.toNat * den, num)
  else (d.digits * den, num * Nat.pow 10 (-d.exponent).toNat)

/-- Whether a decimal rounds to the number. -/
def readsBack (i : Interval) (d : Decimal) : Bool :=
  let (a, low) := onScale d i.low i.den
  let (b, high) := onScale d i.high i.den
  if i.closed then low ≤ a && b ≤ high else low < a && b < high

/-- The distance to the number, on the scale of the decimal's exponent. -/
def distance (i : Interval) (d : Decimal) : Nat :=
  let (a, v) := onScale d i.value i.den
  max a v - min a v

/-- Of two neighbours, the nearer or else the even one. -/
def nearer (i : Interval) (below above : Decimal) : Decimal :=
  if distance i above < distance i below then above
  else if distance i below < distance i above then below
  else if below.digits % 2 = 0 then below else above

/-- The best decimal on the grid of a given exponent. -/
def onGrid? (i : Interval) (exponent : Int) : Option Decimal :=
  let (num, den) :=
    if 0 ≤ exponent then (i.value, i.den * Nat.pow 10 exponent.toNat)
    else (i.value * Nat.pow 10 (-exponent).toNat, i.den)
  let below : Decimal := ⟨num / den, exponent⟩
  let above : Decimal := ⟨num / den + 1, exponent⟩
  match readsBack i below, readsBack i above with
  | true, true => some (nearer i below above)
  | true, false => some below
  | false, true => some above
  | false, false => none

/-- The grids from a given one on, each with a digit more. -/
def search (i : Interval) (exponent : Int) : Nat → Decimal
  | 0 => ⟨0, 0⟩
  | tries + 1 =>
    match onGrid? i exponent with
    | some d => d
    | none => search i (exponent - 1) tries

/-- Moves the zeros at the end of the digits into the exponent. -/
def normalize (d : Decimal) : Decimal :=
  let s := Nat.toDigits 10 d.digits
  let kept := Text.dropEndWhile (· == '0') s
  ⟨d.digits / Nat.pow 10 (s.length - kept.length), d.exponent + (s.length - kept.length : Nat)⟩

/-- The shortest decimal that reads back as a positive number, and of those the nearest; of two equally near ones
    the even one. -/
def decimal (x : Binary64) : Decimal :=
  let i := interval x
  normalize (search i (floorLog10 i.value i.den) 17)

end EndpointConsole.Shortest
