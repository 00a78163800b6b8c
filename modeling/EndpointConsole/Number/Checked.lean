import EndpointConsole.Json

/-!
Arithmetic that must fit a machine word. A result that does not is an
`Overflow`, which ends the program.
-/
namespace EndpointConsole

/-- A result does not fit its machine word. -/
inductive Overflow where
  | overflow
  deriving Repr, DecidableEq

abbrev Checked := Except Overflow

/-- A natural number as an unsigned word. -/
def checkedWord (n : Nat) : Checked Nat := if n ≤ maxWord then .ok n else .error .overflow

/-- An integer as a signed word. -/
def checkedSigned (n : Int) : Checked Int :=
  if minSigned ≤ n ∧ n ≤ maxSigned then .ok n else .error .overflow

/-- The greatest word stands for everything beyond. -/
def saturatedWord (n : Nat) : Nat := min n maxWord

/-- The signed word with the same lowest 64 bits. -/
def wrappedSigned (n : Int) : Int := Int.bmod n (maxWord + 1)

end EndpointConsole
