/-!
Finite binary floating-point numbers with 53 bits, as exact multiples of powers
of two. `ofRatio` rounds a ratio of natural numbers to the nearest such number,
ties to the even mantissa, and gives `none` beyond the largest; products,
quotients and the reading of decimals all round through it.
-/
namespace EndpointConsole

/-- The number `mantissa * 2 ^ exponent` with a sign, which zero has too. -/
structure Binary64 where
  negative : Bool
  mantissa : Nat
  exponent : Int
  deriving Repr, DecidableEq, Inhabited

namespace Binary64

/-- The least exponent of any number, which zero and the subnormal numbers have. -/
def minExponent : Int := -1074

def maxExponent : Int := 971

/-- The integer nearest to a ratio, the even one of two. -/
def roundHalfEven (num den : Nat) : Nat :=
  let q := num / den
  let r := num % den
  if 2 * r < den then q else if den < 2 * r then q + 1 else if q % 2 = 0 then q else q + 1

/-- The ratio divided by a power of two. -/
def scale (num den : Nat) (e : Int) : Nat × Nat :=
  if 0 ≤ e then (num, den * Nat.pow 2 e.toNat) else (num * Nat.pow 2 (-e).toNat, den)

/-- The exponent of the largest power of two that is at most a positive ratio. -/
def floorLog2 (num den : Nat) : Int :=
  let l : Int := (Nat.log2 num : Int) - Nat.log2 den
  let (n, d) := scale num den l
  if d ≤ n then l else l - 1

/-- The number nearest to a ratio, if it is not beyond the largest. -/
def ofRatio (negative : Bool) (num den : Nat) : Option Binary64 :=
  if num = 0 then some ⟨negative, 0, minExponent⟩
  else
    let e := max minExponent (floorLog2 num den - 52)
    let (n, d) := scale num den e
    let m := roundHalfEven n d
    let (m, e) := if m = Nat.pow 2 53 then (Nat.pow 2 52, e + 1) else (m, e)
    if maxExponent < e then none else some ⟨negative, m, e⟩

def isZero (x : Binary64) : Bool := x.mantissa == 0

/-- The magnitude as a ratio. -/
def ratio (x : Binary64) : Nat × Nat := scale x.mantissa 1 (-x.exponent)

/-- The nearest number to the product, with the sign of the left factor. -/
def times (x y : Binary64) : Option Binary64 :=
  let (a, b) := x.ratio
  let (c, d) := y.ratio
  ofRatio x.negative (a * c) (b * d)

/-- The nearest number to the quotient, with the sign of the dividend. -/
def dividedBy (x y : Binary64) : Option Binary64 :=
  let (a, b) := x.ratio
  let (c, d) := y.ratio
  ofRatio x.negative (a * d) (b * c)

/-- The number nearest to a power of ten. -/
def powerOfTen (n : Nat) : Option Binary64 := ofRatio false (Nat.pow 10 n) 1

/-- The largest power of ten that one step multiplies or divides by. -/
def maxPower : Nat := 308

/-- Scales a number by a power of ten, in steps that each round: a negative exponent beyond one
    step's range is worked off 308 at a time until nothing is left of the number. -/
def scaleByTen (x : Binary64) (exponent : Int) : Option Binary64 :=
  if exponent.natAbs ≤ maxPower then do
    let power ← powerOfTen exponent.natAbs
    if 0 ≤ exponent then x.times power else x.dividedBy power
  else if x.isZero then some x
  else if 0 ≤ exponent then none
  else do
    let power ← powerOfTen maxPower
    let y ← x.dividedBy power
    scaleByTen y (exponent + maxPower)
termination_by exponent.natAbs
decreasing_by simp only [maxPower] at *; omega

/-- A decimal with a natural significand. -/
def ofDecimal (negative : Bool) (significand : Nat) (exponent : Int) : Option Binary64 := do
  let x ← ofRatio negative significand 1
  x.scaleByTen exponent

/-- The integer part of the magnitude. -/
def floor (x : Binary64) : Nat :=
  let (a, b) := x.ratio
  a / b

end Binary64

end EndpointConsole
