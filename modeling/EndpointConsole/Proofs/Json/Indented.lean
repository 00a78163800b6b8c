import EndpointConsole.Proofs.Json.Within
import EndpointConsole.Proofs.Text.Cutting

/-!
The indented text of a value reads back as that value (`parse?_pretty`). Indentation
adds white space between the tokens and none of its own, so that the text falls into
the same tokens as the text on one line. The text on one line holds no line feed
(`newline_not_mem_compact`); the indented text holds one as soon as a container has
something in it.
-/
namespace EndpointConsole.Json

theorem tokens?_space {c : Char} (space : isSpace c = true) (s : Text) : tokens? (c :: s) = tokens? s := by
  rw [tokens?, if_pos space]

theorem tokens?_newline (level : Nat) (s : Text) : tokens? (newline level ++ s) = tokens? s := by
  have indented (n : Nat) : tokens? (List.replicate n ' ' ++ s) = tokens? s := by
    induction n with
    | zero => rfl
    | succ n ih => rw [List.replicate_succ, List.cons_append, tokens?_space rfl, ih]
  rw [newline, List.cons_append, tokens?_space rfl, indented]

/-- The mark between a name and its value. -/
theorem tokens?_colon (s : Text) : tokens? (": ".toList ++ s) = (tokens? s).map (.colon :: ·) := by
  have text : ": ".toList ++ s = ':' :: ' ' :: s := rfl
  rw [text, tokens?_mark rfl, tokens?_space rfl]

theorem ends_prettyMoreItems (level : Nat) (items : List Json) (rest : Text) :
    Ends (prettyMoreItems level items ++ rest) := by
  cases items with
  | nil => exact .inr (.inr (.inr rfl))
  | cons v more => exact .inl rfl

theorem ends_prettyMoreMembers (level : Nat) (members : List (Text × Json)) (rest : Text) :
    Ends (prettyMoreMembers level members ++ rest) := by
  cases members with
  | nil => exact .inr (.inr (.inr rfl))
  | cons m more => exact .inl rfl

theorem readToken_of_blank {c : Char} (blank : Text.isBlank c = true) (rest : Text) : readToken (c :: rest) = none := by
  have other {d : Char} (solid : Text.isBlank d = false) : c ≠ d := by
    rintro rfl
    rw [blank] at solid
    cases solid
  have digit : c.isDigit = false := by
    by_contra number
    have bounds : 48 ≤ c.toNat ∧ c.toNat ≤ 57 := by
      simpa [Char.isDigit, UInt32.le_iff_toNat_le] using number
    exact other (Text.isBlank_of_printable (by omega) (by omega)) rfl
  have mark : punctuation? c = none := by
    rw [punctuation?, if_neg (other rfl), if_neg (other rfl), if_neg (other rfl), if_neg (other rfl),
      if_neg (other rfl), if_neg (other rfl)]
  have word {d : Char} (solid : Text.isBlank d = false) (more : Text) :
      Text.stripStart? (d :: more) (c :: rest) = none := if_neg (Ne.symm (other solid))
  have no_word : readWord (c :: rest) wordTokens = none := by
    have words : wordTokens = [(['n', 'u', 'l', 'l'], .null), (['t', 'r', 'u', 'e'], .bool true),
      (['f', 'a', 'l', 's', 'e'], .bool false)] := rfl
    simp only [words, readWord, word (d := 'n') rfl, word (d := 't') rfl, word (d := 'f') rfl]
  simp only [readToken, mark, if_neg (other (d := '"') rfl), if_neg (other (d := '-') rfl), digit, no_word]
  rfl

/-- A blank text holds no token, even if it holds white space that JSON has not. -/
theorem tokens?_of_blank {s : Text} (blank : ∀ c ∈ s, Text.isBlank c = true) :
    tokens? s = none ∨ tokens? s = some [] := by
  induction s with
  | nil => exact .inr tokens?_nil
  | cons c rest ih =>
    rw [List.forall_mem_cons] at blank
    by_cases space : isSpace c = true
    · rw [tokens?_space space]
      exact ih blank.2
    · exact .inl (tokens?_of_no_token (by simpa using space) (readToken_of_blank blank.1 rest))

theorem trim_of_parse? {s : Text} {v : Json} (parsed : parse? s = some v) : Text.trim s ≠ [] := by
  intro empty
  have blank : ∀ c ∈ s, Text.isBlank c = true := Text.blank_of_trim empty
  rcases tokens?_of_blank blank with failed | none_left
  · rw [parse?, Written.parse?, failed] at parsed
    cases parsed
  · rw [parse?, Written.parse?, none_left] at parsed
    cases parsed

mutual

/-- The indented text of a value is cut into the tokens of that value. -/
theorem tokens?_prettyAt {depth : Nat} {v : Json} (faithful : Faithful depth v) (level : Nat) {rest : Text}
    (ends : Ends rest) : tokens? (prettyAt level v ++ rest) = (tokens? rest).map (tokensOf v ++ ·) := by
  cases v with
  | null => exact tokens?_of_readToken rfl
  | bool b => cases b <;> exact tokens?_of_readToken rfl
  | number n =>
    rw [Faithful] at faithful
    exact tokens?_of_readToken (faithful rest ends)
  | string s => exact tokens?_quote s rest
  | array items =>
    cases depth with
    | zero => rw [Faithful] at faithful; exact faithful.elim
    | succ depth =>
      rw [Faithful] at faithful
      rw [prettyAt, List.cons_append, tokens?_mark rfl, tokens?_prettyItems faithful level, Option.map_map, tokensOf]
      rfl
  | object members =>
    cases depth with
    | zero => rw [Faithful] at faithful; exact faithful.elim
    | succ depth =>
      rw [Faithful] at faithful
      rw [prettyAt, List.cons_append, tokens?_mark rfl, tokens?_prettyMembers faithful.2 level, Option.map_map,
        tokensOf]
      rfl

theorem tokens?_prettyItems {depth : Nat} {items : List Json} (faithful : FaithfulItems depth items) (level : Nat)
    (rest : Text) : tokens? (prettyItems level items ++ rest) = (tokens? rest).map (itemTokens items ++ ·) := by
  cases items with
  | nil => exact tokens?_mark rfl rest
  | cons v more =>
    rw [FaithfulItems] at faithful
    rw [prettyItems, List.append_assoc, List.append_assoc, tokens?_newline,
      tokens?_prettyAt faithful.1 (level + 1) (ends_prettyMoreItems level more rest),
      tokens?_prettyMoreItems faithful.2 level, Option.map_map, itemTokens]
    simp only [Function.comp_def, List.append_assoc]

theorem tokens?_prettyMoreItems {depth : Nat} {items : List Json} (faithful : FaithfulItems depth items)
    (level : Nat) (rest : Text) :
    tokens? (prettyMoreItems level items ++ rest) = (tokens? rest).map (moreItemTokens items ++ ·) := by
  cases items with
  | nil =>
    rw [prettyMoreItems, List.append_assoc, tokens?_newline]
    exact tokens?_mark rfl rest
  | cons v more =>
    rw [FaithfulItems] at faithful
    simp only [prettyMoreItems, List.cons_append, List.append_assoc]
    rw [tokens?_mark rfl, tokens?_newline,
      tokens?_prettyAt faithful.1 (level + 1) (ends_prettyMoreItems level more rest),
      tokens?_prettyMoreItems faithful.2 level, Option.map_map, Option.map_map, moreItemTokens]
    simp only [Function.comp_def, List.cons_append, List.append_assoc]

theorem tokens?_prettyMembers {depth : Nat} {members : List (Text × Json)} (faithful : FaithfulMembers depth members)
    (level : Nat) (rest : Text) :
    tokens? (prettyMembers level members ++ rest) = (tokens? rest).map (memberTokens members ++ ·) := by
  cases members with
  | nil => exact tokens?_mark rfl rest
  | cons m more =>
    obtain ⟨key, v⟩ := m
    rw [FaithfulMembers] at faithful
    rw [prettyMembers, List.append_assoc, List.append_assoc, List.append_assoc, List.append_assoc, tokens?_newline,
      tokens?_quote, tokens?_colon,
      tokens?_prettyAt faithful.1 (level + 1) (ends_prettyMoreMembers level more rest),
      tokens?_prettyMoreMembers faithful.2 level, Option.map_map, Option.map_map, Option.map_map, memberTokens]
    simp only [Function.comp_def, List.cons_append, List.append_assoc]

theorem tokens?_prettyMoreMembers {depth : Nat} {members : List (Text × Json)}
    (faithful : FaithfulMembers depth members) (level : Nat) (rest : Text) :
    tokens? (prettyMoreMembers level members ++ rest) = (tokens? rest).map (moreMemberTokens members ++ ·) := by
  cases members with
  | nil =>
    rw [prettyMoreMembers, List.append_assoc, tokens?_newline]
    exact tokens?_mark rfl rest
  | cons m more =>
    obtain ⟨key, v⟩ := m
    rw [FaithfulMembers] at faithful
    simp only [prettyMoreMembers, List.cons_append, List.append_assoc]
    rw [tokens?_mark rfl, tokens?_newline, tokens?_quote, tokens?_colon,
      tokens?_prettyAt faithful.1 (level + 1) (ends_prettyMoreMembers level more rest),
      tokens?_prettyMoreMembers faithful.2 level, Option.map_map, Option.map_map, Option.map_map, Option.map_map,
      moreMemberTokens]
    simp only [Function.comp_def, List.cons_append, List.append_assoc]

end

/-- A value reads back from its indented text. -/
theorem parse?_pretty {v : Json} (faithful : Faithful maxDepth v) : parse? (pretty v) = some v := by
  have ends : Ends [] := trivial
  have tokens := tokens?_prettyAt faithful 0 ends
  rw [List.append_nil, tokens?_nil, Option.map_some, List.append_nil] at tokens
  exact parse?_of_tokens? faithful tokens

theorem newline_mem_prettyItems (level : Nat) (v : Json) (rest : List Json) : '\n' ∈ prettyItems level (v :: rest) := by
  rw [prettyItems, newline, List.cons_append, List.cons_append]
  exact List.mem_cons_self

theorem newline_mem_prettyMembers (level : Nat) (m : Text × Json) (rest : List (Text × Json)) :
    '\n' ∈ prettyMembers level (m :: rest) := by
  rw [prettyMembers, newline, List.cons_append, List.cons_append]
  exact List.mem_cons_self

theorem newline_not_mem_escapeChar (c : Char) : '\n' ∉ escapeChar c := by
  have digit {n : Nat} (small : n < 16) : '\n' ≠ Hex.lowerDigit n := by
    revert n
    decide
  by_cases named : c = '"' ∨ c = '\\' ∨ c = '\n' ∨ c = '\r' ∨ c = '\t'
  · rcases named with rfl | rfl | rfl | rfl | rfl <;> decide
  obtain ⟨quote, backslash, newline, carriage, tab⟩ : c ≠ '"' ∧ c ≠ '\\' ∧ c ≠ '\n' ∧ c ≠ '\r' ∧ c ≠ '\t' := by
    simpa only [not_or] using named
  rw [escapeChar, if_neg quote, if_neg backslash, if_neg newline, if_neg carriage, if_neg tab]
  by_cases backspace : c.toNat = 8
  · rw [if_pos backspace]
    decide
  by_cases feed : c.toNat = 12
  · rw [if_neg backspace, if_pos feed]
    decide
  rw [if_neg backspace, if_neg feed]
  by_cases control : c.toNat < 0x20
  · have high := digit (n := c.toNat / 16) (by omega)
    have low := digit (n := c.toNat % 16) (by omega)
    simp [control, high, low]
  · rw [if_neg control, List.mem_singleton]
    exact Ne.symm newline

theorem newline_not_mem_quote (s : Text) : '\n' ∉ quote s := by
  intro member
  rw [quote, List.cons_append, List.mem_cons, List.mem_append, List.mem_singleton] at member
  rcases member with mark | inside | mark
  · exact absurd mark (by decide)
  · obtain ⟨c, _, escaped⟩ := List.mem_flatMap.mp inside
    exact newline_not_mem_escapeChar c escaped
  · exact absurd mark (by decide)

theorem newline_not_mem_numberText {n : Number} (integer : n.IsInteger) : '\n' ∉ numberText n := by
  cases n with
  | int n =>
    have digits : '\n' ∉ natText n.natAbs := fun member => absurd (isDigit_natText member) (by decide)
    rw [numberText, intText]
    split
    · simp [digits]
    · exact digits
  | real x =>
    rw [Number.IsInteger] at integer
    subst integer
    decide

mutual

theorem newline_not_mem_compact {v : Json} (integers : OnlyIntegers v) : '\n' ∉ compact v := by
  cases v with
  | null => decide
  | bool b => cases b <;> decide
  | number n => exact newline_not_mem_numberText (onlyIntegers_number.mp integers)
  | string s => exact newline_not_mem_quote s
  | array items =>
    have inside := newline_not_mem_compactItems (onlyIntegers_array.mp integers)
    simp [compact, inside]
  | object members =>
    have inside := newline_not_mem_compactMembers (onlyIntegers_object.mp integers)
    simp [compact, inside]

theorem newline_not_mem_compactItems {items : List Json} (integers : ∀ v ∈ items, OnlyIntegers v) :
    '\n' ∉ compactItems items := by
  cases items with
  | nil => decide
  | cons v rest =>
    have head := newline_not_mem_compact (integers v List.mem_cons_self)
    have tail := newline_not_mem_compactMoreItems fun w among => integers w (List.mem_cons_of_mem v among)
    simp [compactItems, head, tail]

theorem newline_not_mem_compactMoreItems {items : List Json} (integers : ∀ v ∈ items, OnlyIntegers v) :
    '\n' ∉ compactMoreItems items := by
  cases items with
  | nil => decide
  | cons v rest =>
    have head := newline_not_mem_compact (integers v List.mem_cons_self)
    have tail := newline_not_mem_compactMoreItems fun w among => integers w (List.mem_cons_of_mem v among)
    simp [compactMoreItems, head, tail]

theorem newline_not_mem_compactMembers {members : List (Text × Json)} (integers : ∀ m ∈ members, OnlyIntegers m.2) :
    '\n' ∉ compactMembers members := by
  cases members with
  | nil => decide
  | cons m rest =>
    obtain ⟨key, v⟩ := m
    have head := newline_not_mem_compact (integers (key, v) List.mem_cons_self)
    have tail := newline_not_mem_compactMoreMembers fun n among => integers n (List.mem_cons_of_mem (key, v) among)
    simp [compactMembers, newline_not_mem_quote key, head, tail]

theorem newline_not_mem_compactMoreMembers {members : List (Text × Json)}
    (integers : ∀ m ∈ members, OnlyIntegers m.2) : '\n' ∉ compactMoreMembers members := by
  cases members with
  | nil => decide
  | cons m rest =>
    obtain ⟨key, v⟩ := m
    have head := newline_not_mem_compact (integers (key, v) List.mem_cons_self)
    have tail := newline_not_mem_compactMoreMembers fun n among => integers n (List.mem_cons_of_mem (key, v) among)
    simp [compactMoreMembers, newline_not_mem_quote key, head, tail]

end

end EndpointConsole.Json
