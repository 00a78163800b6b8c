import EndpointConsole.Proofs.Text.Trimming
import EndpointConsole.Text.LowerCase
import EndpointConsole.Text.Search
import Mathlib.Data.List.Basic

/-!
What lower case brings into a text. Every capital letter has its lower-case letter among the ASCII
letters or beyond ASCII (`lowerRuns_letters`), so that any other ASCII character was there before
(`mem_of_mem_toLower`). The case in which ASCII letters are written makes no difference to lower case
(`toLower_map_toLower`).
-/
namespace EndpointConsole.Text

variable {c d : Char} {s : Text}

theorem isLower_of_between (low : 0x61 ≤ d.toNat) (high : d.toNat ≤ 0x7A) : d.isLower = true := by
  change (decide (d.val ≥ 'a'.val) && decide (d.val ≤ 'z'.val)) = true
  rw [Bool.and_eq_true, decide_eq_true_eq, decide_eq_true_eq]
  exact ⟨UInt32.le_iff_toNat_le.mpr low, UInt32.le_iff_toNat_le.mpr high⟩

/-- Only a lower-case letter is the lower case of another character. -/
theorem eq_of_toLower_eq (other : d.isLower = false) (lowered : c.toLower = d) : c = d := by
  by_cases upper : c.val ≥ 'A'.val ∧ c.val ≤ 'Z'.val
  · have low : 65 ≤ c.toNat := UInt32.le_iff_toNat_le.mp upper.1
    have high : c.toNat ≤ 90 := UInt32.le_iff_toNat_le.mp upper.2
    have letter : c.toLower.val = c.val + ('a'.val - 'A'.val) := congrArg Char.val (dif_pos upper)
    have shifted : d.toNat = (c.toNat + 32) % 2 ^ 32 := by
      rw [← lowered]
      exact congrArg UInt32.toNat letter
    have lower := isLower_of_between (d := d) (by omega) (by omega)
    rw [other] at lower
    cases lower
  · exact (dif_neg upper).symm.trans lowered

/-- A run of capital letters whose lower-case letters are ASCII letters or code points beyond ASCII. -/
def isLetterRun : Nat × Nat × Nat × Int → Bool
  | (low, high, _, shift) =>
    (0x61 ≤ low + shift && high + shift ≤ 0x7A) || (0x80 ≤ low + shift && high + shift < 0xD800) ||
      (0xE000 ≤ low + shift && high + shift < 0x110000)

theorem lowerRuns_letters : lowerRuns.all isLetterRun = true := by decide +kernel

theorem lowerShift_cases (n : Nat) (runs : List (Nat × Nat × Nat × Int)) : lowerShift n runs = 0 ∨
    ∃ low high step, (low, high, step, lowerShift n runs) ∈ runs ∧ low ≤ n ∧ n ≤ high := by
  induction runs with
  | nil => exact .inl rfl
  | cons run rest ih =>
    obtain ⟨low, high, step, shift⟩ := run
    rw [lowerShift]
    split
    · exact .inl rfl
    · next from_low =>
      split
      · next within =>
        rw [Bool.and_eq_true, decide_eq_true_eq] at within
        exact .inr ⟨low, high, step, List.mem_cons_self, Nat.le_of_not_lt from_low, within.1⟩
      · exact ih.imp_right fun ⟨low, high, step, among, between⟩ =>
          ⟨low, high, step, List.mem_cons_of_mem _ among, between⟩

/-- The lower-case letter that a run gives for one of its letters is one of ASCII or none of ASCII. -/
theorem isLetterRun_shift {low high step n : Nat} {shift : Int} (letters : isLetterRun (low, high, step, shift) = true)
    (above : low ≤ n) (below : n ≤ high) (lowered : d = Char.ofNat (n + shift).toNat) :
    d.isLower = true ∨ 0x80 ≤ d.toNat := by
  simp only [isLetterRun, Bool.or_eq_true, Bool.and_eq_true, decide_eq_true_eq] at letters
  have valid : (n + shift).toNat.isValidChar := by
    rw [Nat.isValidChar]
    omega
  have code : d.toNat = (n + shift).toNat := by
    rw [lowered, Char.ofNat, dif_pos valid]
    rfl
  by_cases ascii : d.toNat < 0x80
  · exact .inl (isLower_of_between (by omega) (by omega))
  · exact .inr (Nat.le_of_not_lt ascii)

theorem eq_of_mem_lowerChar (ascii : d.toNat < 0x80) (other : d.isLower = false) (among : d ∈ lowerChar c) : c = d := by
  rw [lowerChar] at among
  split at among
  · exact eq_of_toLower_eq other (List.mem_singleton.mp among).symm
  · split at among
    · -- the dotted capital I
      rcases List.mem_pair.mp among with rfl | rfl
      · cases other
      · exact absurd ascii (by decide)
    · have lowered := List.mem_singleton.mp among
      rcases lowerShift_cases c.toNat lowerRuns with same | ⟨low, high, step, run, above, below⟩
      · rw [lowered, same, Int.add_zero, Int.toNat_natCast, Char.ofNat_toNat]
      · have letters := List.all_eq_true.mp lowerRuns_letters _ run
        rcases isLetterRun_shift letters above below lowered with lower | beyond
        · rw [other] at lower
          cases lower
        · exact absurd ascii (Nat.not_lt_of_le beyond)

/-- Lower case brings in no ASCII character but letters. -/
theorem mem_of_mem_toLower (ascii : d.toNat < 0x80) (other : d.isLower = false) (among : d ∈ toLower s) : d ∈ s := by
  have past (before s : Text) (among : d ∈ lowerAfter before s) : d ∈ s := by
    induction s generalizing before with
    | nil => exact among
    | cons c rest ih =>
      rw [lowerAfter, List.mem_append] at among
      rcases among with here | later
      · split at here
        · -- a capital sigma
          have sigma := List.mem_singleton.mp here
          split at sigma <;> exact absurd ascii (by rw [sigma]; decide)
        · exact eq_of_mem_lowerChar ascii other here ▸ List.mem_cons_self
      · exact List.mem_cons_of_mem c (ih _ later)
  exact past [] s among

theorem toLower_of_beyond (beyond : 0x80 ≤ c.toNat) : c.toLower = c := by
  refine dif_neg ?_
  rintro ⟨-, high⟩
  have most : c.toNat ≤ 90 := UInt32.le_iff_toNat_le.mp high
  omega

/-- A property of the characters of ASCII, checked one by one. -/
theorem forall_ascii {P : Char → Prop} (each : ∀ n : Fin 0x80, P (Char.ofNat n)) (ascii : c.toNat < 0x80) : P c := by
  have here := each ⟨c.toNat, ascii⟩
  rwa [Char.ofNat_toNat] at here

/-- What looks at a character of ASCII up to its case does so at every character. -/
theorem same_of_ascii {α : Type} (look : Char → α)
    (ascii : ∀ n : Fin 0x80, look (Char.ofNat n).toLower = look (Char.ofNat n)) (c : Char) :
    look c.toLower = look c := by
  by_cases beyond : 0x80 ≤ c.toNat
  · rw [toLower_of_beyond beyond]
  · exact forall_ascii (P := fun c => look c.toLower = look c) ascii (Nat.lt_of_not_le beyond)

theorem isBlank_toLower (c : Char) : isBlank c.toLower = isBlank c := same_of_ascii isBlank (by decide) c

theorem isCased_toLower (c : Char) : isCased c.toLower = isCased c := same_of_ascii isCased (by decide) c

theorem isCaseIgnorable_toLower (c : Char) : isCaseIgnorable c.toLower = isCaseIgnorable c :=
  same_of_ascii isCaseIgnorable (by decide) c

theorem lowerChar_toLower (c : Char) : lowerChar c.toLower = lowerChar c := same_of_ascii lowerChar (by decide) c

theorem eq_toLower_iff (same : ∀ n : Fin 0x80, ((Char.ofNat n).toLower == d) = (Char.ofNat n == d)) :
    c.toLower = d ↔ c = d := by
  have here := same_of_ascii (· == d) same c
  rw [Bool.eq_iff_iff] at here
  simpa using here

theorem isFinalSigma_map_toLower (before after : Text) :
    isFinalSigma (before.map Char.toLower) (after.map Char.toLower) = isFinalSigma before after := by
  rw [isFinalSigma, dropWhile_map_of_same isCaseIgnorable_toLower, dropWhile_map_of_same isCaseIgnorable_toLower,
    head?_any_map_of_same isCased_toLower, head?_any_map_of_same isCased_toLower]
  rfl

theorem lowerAfter_map_toLower (before s : Text) :
    lowerAfter (before.map Char.toLower) (s.map Char.toLower) = lowerAfter before s := by
  induction s generalizing before with
  | nil => rfl
  | cons c rest ih =>
    have sigma : c.toLower = 'Σ' ↔ c = 'Σ' := eq_toLower_iff (by decide)
    have later := ih (c :: before)
    rw [List.map_cons] at later
    simp only [List.map_cons, lowerAfter, beq_iff_eq, sigma, isFinalSigma_map_toLower, lowerChar_toLower, later]

/-- Lower case does not look at the case of ASCII letters. -/
theorem toLower_map_toLower (s : Text) : toLower (s.map Char.toLower) = toLower s := lowerAfter_map_toLower [] s

theorem stripFolded?_eq_some_iff {start rest : Text} :
    stripFolded? start s = some rest ↔ ∃ first, s = first ++ rest ∧ first.map foldChar = start := by
  induction start generalizing s with
  | nil =>
    rw [stripFolded?]
    simp [eq_comm]
  | cons a start ih =>
    cases s with
    | nil => simp [stripFolded?]
    | cons c s =>
      rw [stripFolded?]
      constructor
      · intro strip
        split at strip
        · next same =>
          obtain ⟨first, rfl, folded⟩ := ih.mp strip
          exact ⟨c :: first, rfl, by rw [List.map_cons, folded, same]⟩
        · cases strip
      · rintro ⟨first, whole, folded⟩
        obtain ⟨d, more, rfl, same, later⟩ := List.map_eq_cons_iff.mp folded
        obtain ⟨rfl, rfl⟩ := List.cons.inj whole
        rw [if_pos same.symm]
        exact ih.mpr ⟨more, rfl, later⟩

/-- A character of ASCII folds onto its lower case. -/
theorem foldChar_of_ascii (ascii : c.toNat < 0x80) : foldChar c = c.toLower := by
  rw [foldChar, if_neg (by omega), if_neg (by omega)]

/-- No lower case of ASCII comes from beyond ASCII. -/
theorem ascii_of_toLower (ascii : c.toLower.toNat < 0x80) : c.toNat < 0x80 := by
  by_cases upper : c.val ≥ 'A'.val ∧ c.val ≤ 'Z'.val
  · have high : c.toNat ≤ 90 := UInt32.le_iff_toNat_le.mp upper.2
    omega
  · have same : c.toLower = c := dif_neg upper
    rwa [same] at ascii

end EndpointConsole.Text
