import EndpointConsole.Proofs.Json.Indented
import Mathlib.Data.Option.NAry

/-!
Line breaks in JSON text. No token goes over a line feed or a carriage return, as strings must
escape both: what is read at the beginning of a text is read alike when a line break and anything
else follow (`readToken_break`), so that the tokens of a text are those before a line break and
those behind it (`tokens?_break`).
-/
namespace EndpointConsole.Json

/-- The characters that end a line, or stand before the one that ends it. -/
def IsBreak (c : Char) : Prop := c = '\n' ∨ c = '\r'

theorem takeUnit?_eq_some_iff {s after : Text} {n : Nat} : takeUnit? s = some (n, after) ↔
    ∃ i j k l, s = ['\\', 'u', i, j, k, l] ++ after ∧ fourDigits? i j k l = some n := by
  constructor
  · intro read
    rw [takeUnit?.eq_def] at read
    split at read
    · next i j k l more =>
      obtain ⟨m, digits, same⟩ := Option.map_eq_some_iff.mp read
      cases same
      exact ⟨i, j, k, l, rfl, digits⟩
    · cases read
  · rintro ⟨i, j, k, l, rfl, digits⟩
    simp [takeUnit?, digits]

/-- What was read, with more behind what is left. -/
def leaving {β : Type} (more : Text) (read : Option (β × Text)) : Option (β × Text) :=
  read.map fun (b, after) => (b, after ++ more)

theorem map_leaving {β γ : Type} (f : β → γ) (more : Text) (read : Option (β × Text)) :
    (leaving more read).map (fun (b, after) => (f b, after)) = leaving more (read.map fun (b, after) => (f b, after)) := by
  cases read <;> rfl

/-- A control character may not stand in a string. -/
theorem readPiece_control {c : Char} (control : c.toNat < 0x20) (rest : Text) : readPiece (c :: rest) = none := by
  unfold readPiece
  split
  · rfl
  · next same => exact absurd ((List.cons.inj same).1 ▸ control) (by decide)
  · next same => exact absurd ((List.cons.inj same).1 ▸ control) (by decide)
  · next same => exact absurd ((List.cons.inj same).1 ▸ control) (by decide)
  · next d more _ _ _ same =>
    obtain ⟨rfl, rfl⟩ := List.cons.inj same
    simp [control]

section
variable {c : Char} (ends : IsBreak c) (rest : Text)
include ends

theorem readDigits_break (s : Text) : readDigits (s ++ c :: rest) = leaving (c :: rest) (readDigits s) := by
  have other : c.isDigit = false := by rcases ends with rfl | rfl <;> rfl
  rw [readDigits, readDigits, Text.takeWhile_append_cons other, Text.dropWhile_append_cons other]
  split <;> rfl

theorem readFraction_break (s : Text) : readFraction (s ++ c :: rest) = leaving (c :: rest) (readFraction s) := by
  cases s with
  | nil => rcases ends with rfl | rfl <;> rfl
  | cons d more =>
    by_cases point : d = '.'
    · subst point
      simp only [List.cons_append, readFraction, readDigits_break ends, map_leaving]
    · simp [readFraction, point, leaving]

theorem takeSign_break (s : Text) :
    takeSign (s ++ c :: rest) = ((takeSign s).1, (takeSign s).2 ++ c :: rest) := by
  cases s with
  | nil => rcases ends with rfl | rfl <;> rfl
  | cons d more =>
    by_cases minus : d = '-'
    · subst minus
      rfl
    · by_cases plus : d = '+'
      · subst plus
        rfl
      · simp [takeSign, minus, plus]

theorem readExponent_break (s : Text) : readExponent (s ++ c :: rest) = leaving (c :: rest) (readExponent s) := by
  cases s with
  | nil => rcases ends with rfl | rfl <;> rfl
  | cons d more =>
    rw [List.cons_append, readExponent, readExponent]
    by_cases letter : d = 'e' ∨ d = 'E'
    · rw [if_pos letter, if_pos letter, takeSign_break ends]
      simp only [readDigits_break ends]
      cases readDigits (takeSign more).2 <;> rfl
    · rw [if_neg letter, if_neg letter]
      rfl

theorem readUnsigned_break (negative : Bool) (s : Text) :
    readUnsigned negative (s ++ c :: rest) = leaving (c :: rest) (readUnsigned negative s) := by
  rw [readUnsigned, readUnsigned, readDigits_break ends]
  cases readDigits s with
  | none => rfl
  | some read =>
    obtain ⟨whole, behind⟩ := read
    simp only [leaving, Option.map_some, Option.bind_eq_bind, Option.bind_some]
    rw [readFraction_break ends]
    cases readFraction behind with
    | none => rfl
    | some read =>
      obtain ⟨fraction, behind⟩ := read
      simp only [leaving, Option.map_some, Option.bind_some]
      rw [readExponent_break ends]
      cases readExponent behind with
      | none => rfl
      | some read =>
        obtain ⟨exponent, behind⟩ := read
        simp only [leaving, Option.map_some, Option.bind_some]
        split <;> rfl

/-- The escape of a UTF-16 unit holds no line break. -/
theorem takeUnit?_break (s : Text) : takeUnit? (s ++ c :: rest) = leaving (c :: rest) (takeUnit? s) := by
  cases short : takeUnit? s with
  | some read =>
    obtain ⟨i, j, k, l, rfl, digits⟩ := takeUnit?_eq_some_iff.mp short
    exact takeUnit?_eq_some_iff.mpr ⟨i, j, k, l, by simp, digits⟩
  | none =>
    apply Option.eq_none_iff_forall_ne_some.mpr
    rintro ⟨n, after⟩ long
    obtain ⟨i, j, k, l, whole, digits⟩ := takeUnit?_eq_some_iff.mp long
    have within {left : Text} (same : s = ['\\', 'u', i, j, k, l] ++ left) : False := by
      rw [takeUnit?_eq_some_iff.mpr ⟨i, j, k, l, same, digits⟩] at short
      cases short
    rcases List.append_eq_append_iff.mp whole with ⟨extra, unit, behind⟩ | ⟨left, same, _⟩
    · cases extra with
      | nil =>
        have whole : s = ['\\', 'u', i, j, k, l] ++ [] := by simpa using unit.symm
        exact within whole
      | cons d extra =>
        -- the break would be a part of the escape
        obtain ⟨rfl, -⟩ := List.cons.inj behind
        have among : c ∈ ['\\', 'u', i, j, k, l] := unit ▸ List.mem_append_right s List.mem_cons_self
        have no_digit : Hex.digit? c = none := by rcases ends with rfl | rfl <;> rfl
        have no_mark : c ≠ '\\' ∧ c ≠ 'u' := by rcases ends with rfl | rfl <;> decide
        simp only [List.mem_cons, no_mark, List.not_mem_nil, or_false, false_or] at among
        rcases among with rfl | rfl | rfl | rfl <;> simp [fourDigits?, no_digit] at digits
    · exact within same

theorem readPiece_break (s : Text) : readPiece (s ++ c :: rest) = leaving (c :: rest) (readPiece s) := by
  cases s with
  | nil => rcases ends with rfl | rfl <;> rfl
  | cons d more =>
    by_cases quote : d = '"'
    · subst quote
      rfl
    by_cases backslash : d = '\\'
    · subst backslash
      cases more with
      | nil => rcases ends with rfl | rfl <;> rfl
      | cons e more =>
        by_cases unit : e = 'u'
        · subst unit
          have first := takeUnit?_break ends rest ('\\' :: 'u' :: more)
          simp only [List.cons_append] at first
          simp only [List.cons_append, readPiece, first]
          cases takeUnit? ('\\' :: 'u' :: more) with
          | none => rfl
          | some read =>
            obtain ⟨n, behind⟩ := read
            simp only [leaving, Option.map_some, Option.bind_eq_bind, Option.bind_some]
            rw [takeUnit?_break ends]
            split
            · cases takeUnit? behind with
              | none => rfl
              | some read =>
                simp only [leaving, Option.map_some]
                split <;> rfl
            · split <;> rfl
        · simp [readPiece, leaving, Function.comp_def]
    · by_cases control : d.toNat < 0x20
      · rw [List.cons_append, readPiece_control control, readPiece_control control]
        rfl
      · rw [List.cons_append, readPiece_plain quote backslash control, readPiece_plain quote backslash control]
        rfl

theorem readString_break (s : Text) : readString (s ++ c :: rest) = leaving (c :: rest) (readString s) := by
  fun_induction readString s with
  | case1 s failed =>
    have piece := readPiece_break ends rest s
    rw [failed] at piece
    rw [readString]
    split <;> simp_all [leaving]
  | case2 s after closed =>
    have piece := readPiece_break ends rest s
    rw [closed] at piece
    rw [readString]
    split <;> simp_all [leaving]
  | case3 s d after read shorter ih =>
    have piece := readPiece_break ends rest s
    rw [read] at piece
    rw [readString_char piece, ih]
    simp [leaving, Function.comp_def]

omit ends in
theorem stripStart?_break {start : Text} (absent : c ∉ start) (s : Text) :
    Text.stripStart? start (s ++ c :: rest) = (Text.stripStart? start s).map (· ++ c :: rest) := by
  induction start generalizing s with
  | nil => rfl
  | cons d start ih =>
    rw [List.mem_cons, not_or] at absent
    cases s with
    | nil => exact if_neg (Ne.symm absent.1)
    | cons e more =>
      rw [List.cons_append, Text.stripStart?, Text.stripStart?, ih absent.2]
      split <;> rfl

omit ends in
theorem readWord_break {words : List (Text × Token)} (plain : ∀ w ∈ words, c ∉ w.1) (s : Text) :
    readWord (s ++ c :: rest) words = leaving (c :: rest) (readWord s words) := by
  induction words with
  | nil => rfl
  | cons word more ih =>
    rw [List.forall_mem_cons] at plain
    rw [readWord, readWord, stripStart?_break rest plain.1, ih plain.2]
    cases Text.stripStart? word.1 s <;> rfl

theorem readToken_break (s : Text) : readToken (s ++ c :: rest) = leaving (c :: rest) (readToken s) := by
  cases s with
  | nil => rcases ends with rfl | rfl <;> rfl
  | cons d more =>
    have words : ∀ w ∈ wordTokens, c ∉ w.1 := by rcases ends with rfl | rfl <;> decide
    have string := readString_break ends rest more
    have negative := readUnsigned_break ends rest true more
    have positive := readUnsigned_break ends rest false (d :: more)
    have word := readWord_break rest words (d :: more)
    rw [List.cons_append] at positive word
    rw [List.cons_append, readToken, readToken]
    cases punctuation? d with
    | some t => rfl
    | none =>
      simp only [string, negative, positive, word, map_leaving]
      split
      · rfl
      · split
        · rfl
        · split <;> rfl

/-- The tokens of a text are those before a line break and those behind it. -/
theorem tokens?_break (s : Text) :
    tokens? (s ++ c :: rest) = Option.map₂ (· ++ ·) (tokens? s) (tokens? rest) := by
  have space : isSpace c = true := by rcases ends with rfl | rfl <;> rfl
  fun_induction tokens? s with
  | case1 => simp [tokens?_space space]
  | case2 d more blank ih => rw [List.cons_append, tokens?_space blank, ih]
  | case3 d more solid failed =>
    have read := readToken_break ends rest (d :: more)
    rw [failed, List.cons_append] at read
    rw [List.cons_append, tokens?_of_no_token (by simpa using solid) read]
    rfl
  | case4 d more solid t after found shorter ih =>
    have read := readToken_break ends rest (d :: more)
    rw [found] at read
    rw [tokens?_of_readToken read, ih]
    cases tokens? after <;> simp [Function.comp_def]

end

end EndpointConsole.Json
