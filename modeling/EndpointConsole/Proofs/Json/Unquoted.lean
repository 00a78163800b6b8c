import EndpointConsole.Proofs.Json.Indented

/-!
JSON text outside its strings. No token but a string holds an equals sign (`readToken_passes`), so that a
text with such a sign before its first quote is no JSON (`parse?_of_unquoted`).
-/
namespace EndpointConsole.Json

variable {s rest after : Text}

/-- What has been read of a text when the rest is left holds no equals sign. -/
def Passes (s rest : Text) : Prop := ∃ taken, s = taken ++ rest ∧ '=' ∉ taken

theorem Passes.refl (s : Text) : Passes s s := ⟨[], rfl, List.not_mem_nil⟩

theorem Passes.trans (first : Passes s rest) (second : Passes rest after) : Passes s after := by
  obtain ⟨one, rfl, absent⟩ := first
  obtain ⟨two, rfl, absent'⟩ := second
  exact ⟨one ++ two, by simp, by simp [absent, absent']⟩

theorem Passes.cons {c : Char} (other : c ≠ '=') (passes : Passes s rest) : Passes (c :: s) rest := by
  obtain ⟨taken, rfl, absent⟩ := passes
  exact ⟨c :: taken, rfl, by simp [absent, Ne.symm other]⟩

/-- What is passed over ends before an equals sign. -/
theorem Passes.left (passes : Passes (s ++ '=' :: rest) after) : ∃ left, left <:+ s ∧ after = left ++ '=' :: rest := by
  obtain ⟨taken, whole, absent⟩ := passes
  rcases List.append_eq_append_iff.mp whole with ⟨extra, rfl, ends⟩ | ⟨left, rfl, ends⟩
  · cases extra with
    | nil => exact ⟨[], List.nil_suffix, ends.symm⟩
    | cons d extra =>
      obtain ⟨rfl, -⟩ := List.cons.inj ends
      exact absurd (by simp) absent
  · exact ⟨left, List.suffix_append taken left, ends⟩

theorem passes_dropWhile {p : Char → Bool} (outside : p '=' = false) (s : Text) : Passes s (s.dropWhile p) := by
  refine ⟨s.takeWhile p, List.takeWhile_append_dropWhile.symm, fun among => ?_⟩
  have inside := List.mem_takeWhile_imp among
  rw [outside] at inside
  cases inside

theorem readDigits_passes {digits : Text} (read : readDigits s = some (digits, rest)) : Passes s rest := by
  rw [readDigits] at read
  split at read
  · cases read
  · cases read
    exact passes_dropWhile (by decide) s

theorem readFraction_passes {fraction : Option Text} (read : readFraction s = some (fraction, rest)) :
    Passes s rest := by
  rw [readFraction.eq_def] at read
  split at read
  · obtain ⟨⟨digits, behind⟩, found, same⟩ := Option.map_eq_some_iff.mp read
    cases same
    exact (readDigits_passes found).cons (by decide)
  · cases read
    exact .refl s

theorem takeSign_passes (s : Text) : Passes s (takeSign s).2 := by
  rw [takeSign.eq_def]
  split
  · exact (Passes.refl _).cons (by decide)
  · exact (Passes.refl _).cons (by decide)
  · exact .refl s

theorem readExponent_passes {exponent : Option Int} (read : readExponent s = some (exponent, rest)) :
    Passes s rest := by
  rw [readExponent.eq_def] at read
  split at read
  · cases read
    exact .refl []
  · next c more =>
    split at read
    · next letter =>
      obtain ⟨⟨digits, behind⟩, found, same⟩ := Option.map_eq_some_iff.mp read
      cases same
      have other : c ≠ '=' := by
        rintro rfl
        exact absurd letter (by decide)
      exact ((takeSign_passes more).trans (readDigits_passes found)).cons other
    · cases read
      exact .refl _

theorem readUnsigned_passes {negative : Bool} {n : Option Number} (read : readUnsigned negative s = some (n, rest)) :
    Passes s rest := by
  simp only [readUnsigned, Option.bind_eq_bind, Option.bind_eq_some_iff] at read
  obtain ⟨⟨_, _⟩, whole, ⟨_, _⟩, fraction, ⟨_, _⟩, exponent, read⟩ := read
  split at read
  · cases read
  · cases read
    exact (readDigits_passes whole).trans ((readFraction_passes fraction).trans (readExponent_passes exponent))

theorem readWord_passes {t : Token} {words : List (Text × Token)} (plain : ∀ w ∈ words, '=' ∉ w.1)
    (read : readWord s words = some (t, rest)) : Passes s rest := by
  induction words with
  | nil => cases read
  | cons word more ih =>
    rw [List.forall_mem_cons] at plain
    rw [readWord] at read
    split at read
    · next found =>
      cases read
      exact ⟨word.1, Text.eq_append_of_stripStart? found, plain.1⟩
    · exact ih plain.2 read

theorem readToken_equals (s : Text) : readToken ('=' :: s) = none := rfl

/-- A token that is no string holds no equals sign. -/
theorem readToken_passes {t : Token} (unquoted : s.head? ≠ some '"') (read : readToken s = some (t, rest)) :
    Passes s rest := by
  cases s with
  | nil => cases read
  | cons c more =>
    have other : c ≠ '=' := by
      rintro rfl
      rw [readToken_equals] at read
      cases read
    have no_quote : c ≠ '"' := fun quote => unquoted (congrArg some quote)
    rw [readToken] at read
    split at read
    · cases read
      exact (Passes.refl _).cons other
    · rw [if_neg no_quote] at read
      split at read
      · obtain ⟨⟨n, behind⟩, found, same⟩ := Option.map_eq_some_iff.mp read
        cases same
        exact (readUnsigned_passes found).cons other
      · split at read
        · obtain ⟨⟨n, behind⟩, found, same⟩ := Option.map_eq_some_iff.mp read
          cases same
          exact readUnsigned_passes found
        · exact readWord_passes (by decide) read

/-- An equals sign before the first quote is part of no token. -/
theorem tokens?_of_unquoted {s : Text} (unquoted : '"' ∉ s) (rest : Text) : tokens? (s ++ '=' :: rest) = none := by
  cases s with
  | nil =>
    rw [List.nil_append, tokens?, if_neg (by decide)]
    split
    · rfl
    · next read => cases read
  | cons c more =>
    rw [List.mem_cons, not_or] at unquoted
    rw [List.cons_append]
    by_cases space : isSpace c = true
    · rw [tokens?_space space]
      exact tokens?_of_unquoted unquoted.2 rest
    · rw [tokens?, if_neg space]
      split
      · rfl
      · next t after read =>
        -- what is left still has the equals sign, and no quote before it
        obtain ⟨left, suffix, rfl⟩ := (readToken_passes (by simpa using Ne.symm unquoted.1) read).left (s := c :: more)
        have shorter : left.length < (c :: more).length := by
          have fewer := readToken_length read
          simp only [List.length_append, List.length_cons] at fewer ⊢
          omega
        have no_quote : '"' ∉ left := fun among =>
          (List.mem_cons.mp (suffix.subset among)).elim unquoted.1 unquoted.2
        rw [tokens?_of_unquoted no_quote rest]
        rfl
termination_by s.length

theorem parse?_of_unquoted (unquoted : '"' ∉ s) (rest : Text) : parse? (s ++ '=' :: rest) = none := by
  rw [parse?, Written.parse?, tokens?_of_unquoted unquoted]
  rfl

end EndpointConsole.Json
