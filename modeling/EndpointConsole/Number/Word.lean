import EndpointConsole.Json.Token

/-!
Machine words as text.
-/
namespace EndpointConsole

/-- The word of decimal digits after an optional plus sign, unless it is too large. -/
def wordOf? (s : Text) : Option Nat :=
  let digits := (Text.stripStart? ['+'] s).getD s
  if digits.isEmpty || !digits.all Char.isDigit then none
  else
    let n := Json.natOfDigits digits
    if n ≤ maxWord then some n else none

/-- The signed word of decimal digits after an optional sign, unless it is out of range. -/
def signedOf? (s : Text) : Option Int :=
  let negative := Text.stripStart? ['-'] s
  let digits := (negative <|> Text.stripStart? ['+'] s).getD s
  if digits.isEmpty || !digits.all Char.isDigit then none
  else
    let n := Json.natOfDigits digits
    let n : Int := if negative.isSome then -n else n
    if minSigned ≤ n ∧ n ≤ maxSigned then some n else none

end EndpointConsole
