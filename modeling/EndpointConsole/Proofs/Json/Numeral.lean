import EndpointConsole.Json.Printer
import EndpointConsole.Json.Token

/-!
A printed integer reads back as the token of that integer, wherever the text goes
on with what may follow a number. The digits are gathered without overflow,
because each beginning of a numeral stands for a smaller number.
-/
namespace EndpointConsole.Json

/-- What may follow a number: the end, what separates and closes values, or a new line. -/
def Ends : Text → Prop
  | [] => True
  | c :: _ => c = ',' ∨ c = ']' ∨ c = '\x7d' ∨ c = '\n'

theorem natText_step {n : Nat} (large : 10 ≤ n) : natText n = natText (n / 10) ++ [Nat.digitChar (n % 10)] :=
  Nat.toDigits_of_base_le (by decide) large

theorem isDigit_natText {n : Nat} {c : Char} (member : c ∈ natText n) : c.isDigit = true :=
  Nat.isDigit_of_mem_toDigits (by decide) (by decide) member

/-- No digit stands before a numeral's first one that counts. -/
theorem natText_leading {n : Nat} (zero : (natText n).head? = some '0') : natText n = ['0'] := by
  induction n using Nat.strongRecOn with
  | _ n ih =>
    by_cases large : 10 ≤ n
    · have start : natText (n / 10) ≠ [] := Nat.toDigits_ne_nil
      obtain ⟨first, more, digits⟩ := List.exists_cons_of_ne_nil start
      rw [natText_step large, digits, List.cons_append, List.head?_cons, ← List.head?_cons (l := more), ← digits] at zero
      have lone := ih (n / 10) (by omega) zero
      -- a tenth that is written as zero is zero
      have value : Nat.ofDigitChars 10 (natText (n / 10)) 0 = n / 10 := Nat.ofDigitChars_ten_toDigits
      rw [lone] at value
      change 0 = n / 10 at value
      omega
    · have one : natText n = [Nat.digitChar n] := Nat.toDigits_of_lt_base (by omega)
      rw [one] at zero ⊢
      rw [List.head?_cons, Option.some.injEq] at zero
      rw [zero]

theorem takeWhile_natText {n : Nat} {rest : Text} (ends : Ends rest) :
    (natText n ++ rest).takeWhile Char.isDigit = natText n ∧ (natText n ++ rest).dropWhile Char.isDigit = rest := by
  have digits : ∀ c ∈ natText n, c.isDigit = true := fun c member => isDigit_natText member
  have stop : rest.takeWhile Char.isDigit = [] ∧ rest.dropWhile Char.isDigit = rest := by
    cases rest with
    | nil => exact ⟨rfl, rfl⟩
    | cons c more => rcases ends with rfl | rfl | rfl | rfl <;> exact ⟨rfl, rfl⟩
  constructor
  · rw [List.takeWhile_append_of_pos digits, stop.1, List.append_nil]
  · rw [List.dropWhile_append_of_pos digits, stop.2]

theorem readDigits_natText {n : Nat} {rest : Text} (ends : Ends rest) :
    readDigits (natText n ++ rest) = some (natText n, rest) := by
  obtain ⟨taken, left⟩ := takeWhile_natText (n := n) ends
  have nonempty : natText n ≠ [] := Nat.toDigits_ne_nil
  unfold readDigits
  rw [taken, left]
  split
  · next empty => exact absurd empty nonempty
  · next first more digits => rw [digits]

theorem readFraction_of_ends {rest : Text} (ends : Ends rest) : readFraction rest = some (none, rest) := by
  cases rest with
  | nil => rfl
  | cons c more => rcases ends with rfl | rfl | rfl | rfl <;> rfl

theorem readExponent_of_ends {rest : Text} (ends : Ends rest) : readExponent rest = some (none, rest) := by
  cases rest with
  | nil => rfl
  | cons c more => rcases ends with rfl | rfl | rfl | rfl <;> rfl

theorem digitValue_digitChar {d : Nat} (small : d < 10) : digitValue (Nat.digitChar d) = d :=
  Nat.toNat_digitChar_sub_48_of_lt_ten small

/-- The digits of a word are gathered in full. -/
theorem whole_natText {n : Nat} (word : n ≤ maxWord) :
    (natText n).foldl (fun g c => g.whole (digitValue c)) ⟨0, 0, false⟩ = (⟨n, 0, false⟩ : Gathered) := by
  have gather {m d : Nat} (small : d < 10) (fits : m * 10 + d ≤ maxWord) :
      Gathered.whole ⟨m, 0, false⟩ (digitValue (Nat.digitChar d)) = ⟨m * 10 + d, 0, false⟩ := by
    have inside : Gathered.overflows ⟨m, 0, false⟩ d = false := by
      simpa [Gathered.overflows] using fits
    rw [digitValue_digitChar small, Gathered.whole, inside]
    rfl
  induction n using Nat.strongRecOn with
  | _ n ih =>
    by_cases large : 10 ≤ n
    · have whole : n / 10 * 10 + n % 10 = n := by omega
      rw [natText_step large, List.foldl_append, ih (n / 10) (by omega) (by omega), List.foldl_cons,
        List.foldl_nil, gather (by omega) (by omega), whole]
    · have one : natText n = [Nat.digitChar n] := Nat.toDigits_of_lt_base (by omega)
      rw [one, List.foldl_cons, List.foldl_nil, gather (by omega) (by omega)]
      simp

/-- A numeral with an optional sign reads as the integer that was written, if a word can hold it;
    minus zero, which is none, is not written. -/
theorem value?_natText {n : Nat} (negative : Bool) (word : n ≤ maxWord)
    (signed : negative = true → 0 < n ∧ minSigned ≤ -(n : Int)) :
    NumberText.value? ⟨negative, natText n, none, none⟩ = some (.int (if negative then -n else n)) := by
  rw [NumberText.value?]
  simp only [whole_natText word]
  cases negative with
  | false => simp
  | true => simp [signed rfl]

theorem readUnsigned_natText {n : Nat} {rest : Text} (negative : Bool) (word : n ≤ maxWord)
    (signed : negative = true → 0 < n ∧ minSigned ≤ -(n : Int)) (ends : Ends rest) :
    readUnsigned negative (natText n ++ rest) = some (some (.int (if negative then -n else n)), rest) := by
  have leading : ¬((natText n).head? = some '0' ∧ (natText n).length ≠ 1) := by
    rintro ⟨zero, long⟩
    rw [natText_leading zero] at long
    exact long rfl
  simp only [readUnsigned, Option.bind_eq_bind, readDigits_natText ends, Option.bind_some, readFraction_of_ends ends,
    readExponent_of_ends ends,
    if_neg leading, value?_natText negative word signed, Option.pure_def]

/-- A number whose text reads back. -/
def ReadsBack (n : Number) : Prop :=
  ∀ rest, Ends rest → readToken (numberText n ++ rest) = some (.number (some n), rest)

theorem punctuation?_digit {c : Char} (digit : c.isDigit = true) :
    punctuation? c = none ∧ c ≠ '"' ∧ c ≠ '-' := by
  have bounds : 48 ≤ c.toNat ∧ c.toNat ≤ 57 := by
    simpa [Char.isDigit, UInt32.le_iff_toNat_le] using digit
  have other {d : Char} (outside : d.toNat < 48 ∨ 57 < d.toNat) : c ≠ d := by
    rintro rfl
    omega
  refine ⟨?_, other (by decide), other (by decide)⟩
  rw [punctuation?, if_neg (other (by decide)), if_neg (other (by decide)), if_neg (other (by decide)),
    if_neg (other (by decide)), if_neg (other (by decide)), if_neg (other (by decide))]

/-- Every integer that JSON text can give reads back. -/
theorem int_readsBack {n : Int} (low : minSigned ≤ n) (high : n ≤ maxWord) : ReadsBack (.int n) := by
  intro rest ends
  rw [numberText, intText]
  by_cases negative : n < 0
  · have read := readUnsigned_natText (n := n.natAbs) true (by simp only [minSigned, maxWord] at *; omega)
      (fun _ => by omega) ends
    have value : (if true = true then -(n.natAbs : Int) else n.natAbs) = n := by
      rw [if_pos rfl]
      omega
    rw [value] at read
    rw [if_pos negative, List.cons_append, readToken]
    simp [punctuation?, read]
  · have read := readUnsigned_natText (n := n.natAbs) false (by omega) (by simp) ends
    have value : (if false = true then -(n.natAbs : Int) else n.natAbs) = n := by
      rw [if_neg Bool.false_ne_true]
      omega
    rw [value] at read
    rw [if_neg negative]
    obtain ⟨first, more, digits⟩ := List.exists_cons_of_ne_nil (l := natText n.natAbs) Nat.toDigits_ne_nil
    have digit : first.isDigit = true := isDigit_natText (digits ▸ List.mem_cons_self)
    obtain ⟨mark, quote, minus⟩ := punctuation?_digit digit
    rw [digits, List.cons_append] at read ⊢
    rw [readToken]
    simp [mark, quote, minus, digit, read]

/-- Minus zero, which is printed with a fraction, reads back as the floating-point number it is. -/
theorem minusZero_readsBack : ReadsBack (.real ⟨true, 0, Binary64.minExponent⟩) := by
  intro rest ends
  have value : NumberText.value? ⟨true, ['0'], some ['0'], none⟩ = some (.real ⟨true, 0, Binary64.minExponent⟩) := by
    decide +kernel
  have digits : readDigits ('0' :: rest) = some (['0'], rest) := readDigits_natText (n := 0) ends
  have unsigned : readUnsigned true ('0' :: '.' :: '0' :: rest) =
      some (some (.real ⟨true, 0, Binary64.minExponent⟩), rest) := by
    have whole : readDigits ('0' :: '.' :: '0' :: rest) = some (['0'], '.' :: '0' :: rest) := rfl
    simp only [readUnsigned, Option.bind_eq_bind, whole, Option.bind_some, readFraction, digits, Option.map_some,
      readExponent_of_ends ends, value]
    rfl
  have text : numberText (.real ⟨true, 0, Binary64.minExponent⟩) ++ rest = '-' :: '0' :: '.' :: '0' :: rest := rfl
  rw [text, readToken]
  simp [punctuation?, unsigned]

end EndpointConsole.Json
