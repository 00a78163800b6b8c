import EndpointConsole.Proofs.History.TokenPair
import EndpointConsole.Proofs.Json.Unquoted

/-!
What becomes of the string of a token in a body that is nearly JSON. Where reading comes to the quoted key
depends only on what stands before it (`arrival`): at its opening quote, or behind that quote since it
closes the value of an earlier pair, and else within or behind the value of an earlier pair. In the first two
cases the string is masked, but no further than to the first quote in it, even an escaped one, so that what
comes behind that quote is all the masked body tells of it (`maskBody_eq_iff`). In the others it is left in
plain sight.
-/
namespace EndpointConsole.History
open Text (isBlank)

variable {key u v rest content : Text} {c d : Char}

/-- Where reading comes to a quoted key: before its opening quote, between that quote and the name, behind a key that
    was taken for the value of a pair, or within a value without quotes that the key is part of. -/
inductive Arrival where
  | quote
  | name
  | asValue
  | inValue
  deriving DecidableEq

/-- What is left to read at a quoted key and the text behind it. -/
def Arrival.left (key u : Text) : Arrival → Text
  | .quote => '"' :: (key ++ '"' :: u)
  | .name => key ++ '"' :: u
  | .asValue => u
  | .inValue => u.dropWhile isValueChar

/-- How far a value goes that begins before a quoted key. -/
inductive Extent where
  | none
  | within (after : Text)
  | reaches (a : Arrival)

/-- The extent of a value, by the text from its beginning up to the opening quote of the key. -/
def extent : Text → Extent
  | [] => .reaches .asValue
  | c :: rest =>
    if c = '"' then
      match Text.cutAt? '"' rest with
      | some (_, after) => .within after
      | none => .reaches .name
    else if isValueChar c then
      match rest.dropWhile isValueChar with
      | [] => .reaches .inValue
      | d :: after => .within (d :: after)
    else .none

theorem extent_within {after : Text} (within : extent v = .within after) : after.length < v.length := by
  cases v with
  | nil => cases within
  | cons c rest =>
    rw [extent] at within
    split at within
    · split at within
      · next body behind cut =>
        cases within
        obtain ⟨rfl, -⟩ := Text.cutAt?_eq_some_iff.mp cut
        simp only [List.length_cons, List.length_append]
        omega
      · cases within
    · split at within
      · split at within
        · cases within
        · next d behind dropped =>
          cases within
          have fewer := (List.dropWhile_suffix (l := rest) isValueChar).length_le
          rw [dropped] at fewer
          exact Nat.lt_succ_of_le fewer
      · cases within

theorem extent_shorter {s head after : Text} (read : readHead? s = some (head, v)) (goes : extent v = .within after) :
    after.length < s.length := by
  have shorter := extent_within goes
  have whole := congrArg List.length (readHead?_parts read).1
  rw [List.length_append] at whole
  omega

/-- Where reading comes to a quoted key, by the text before its opening quote. -/
def arrival (before : Text) : Arrival :=
  match before with
  | [] => .quote
  | c :: rest =>
    match read : readHead? (c :: rest) with
    | none => arrival rest
    | some (_, value) =>
      match goes : extent value with
      | .none => arrival rest
      | .within after =>
        have : after.length ≤ rest.length := Nat.le_of_lt_succ (extent_shorter read goes)
        arrival after
      | .reaches a => a
termination_by before.length

section
variable (isKey : ∀ c ∈ key, isNameChar c = true)
include isKey

/-- A quoted key is no end of a value without quotes. -/
theorem dropWhile_isValueChar_quoted (v u : Text) : (v ++ '"' :: (key ++ '"' :: u)).dropWhile isValueChar =
    if (v.dropWhile isValueChar).isEmpty then u.dropWhile isValueChar
    else v.dropWhile isValueChar ++ '"' :: (key ++ '"' :: u) := by
  have quote : isValueChar '"' = true := by decide
  have inKey : ∀ c ∈ key, isValueChar c = true := fun c among => (nameChar_of_isNameChar (isKey c among)).inValue
  rw [List.dropWhile_append, List.dropWhile_cons_of_pos quote, List.dropWhile_append_of_pos inKey,
    List.dropWhile_cons_of_pos quote]

/-- The extent of a value says how much of it is passed over. -/
theorem skipValue?_extent (u v : Text) : skipValue? (v ++ '"' :: (key ++ '"' :: u)) =
    match extent v with
    | .none => none
    | .within after => some (after ++ '"' :: (key ++ '"' :: u))
    | .reaches a => some (a.left key u) := by
  have unquoted : '"' ∉ key := fun among => absurd (isKey _ among) (by decide)
  cases v with
  | nil =>
    rw [List.nil_append, skipValue?, if_pos rfl, Text.cutAt?_append unquoted]
    rfl
  | cons c rest =>
    rw [List.cons_append, skipValue?, extent]
    by_cases quoted : c = '"'
    · rw [if_pos quoted, if_pos quoted]
      by_cases closes : '"' ∈ rest
      · obtain ⟨body, after, rfl, first⟩ := List.eq_append_cons_of_mem closes
        rw [List.append_assoc, List.cons_append, Text.cutAt?_append first, Text.cutAt?_append first]
      · rw [Text.cutAt?_append closes, Text.cutAt?_of_not_mem closes]
        rfl
    · rw [if_neg quoted, if_neg quoted, skipBare?]
      by_cases bare : isValueChar c = true
      · rw [if_pos bare, List.takeWhile_cons_of_pos bare, List.dropWhile_cons_of_pos bare,
          dropWhile_isValueChar_quoted isKey]
        cases rest.dropWhile isValueChar with
        | nil => rfl
        | cons d after => rfl
      · simp [bare]

/-- A pair that begins before a quoted key begins there whatever follows the key. -/
theorem readTokenPair?_quoted (some_key : key ≠ []) (some_text : v ≠ []) (u : Text) :
    readTokenPair? (v ++ '"' :: (key ++ '"' :: u)) = (readHead? v).bind fun (head, value) =>
      match extent value with
      | .none => none
      | .within after => some (head, after ++ '"' :: (key ++ '"' :: u))
      | .reaches a => some (head, a.left key u) := by
  have no_separator : readSeparator? (key ++ '"' :: u) = none := by
    obtain ⟨c, more, rfl⟩ := List.exists_cons_of_ne_nil some_key
    have first := nameChar_of_isNameChar (isKey c List.mem_cons_self)
    exact readSeparator?_of_plain first.solid first.separates _
  rw [readTokenPair?_eq, readHead?_append (by decide) (by decide) (by decide) fun _ => ⟨some_text, no_separator⟩]
  cases readHead? v with
  | none => rfl
  | some x =>
    obtain ⟨head, value⟩ := x
    simp only [Option.map_some, Option.bind_some, skipValue?_extent isKey]
    cases extent value with
    | none => rfl
    | within after => rfl
    | reaches a => rfl

/-- Up to a quoted key a text is masked in the same way whatever follows the key, and then what is left. -/
theorem exists_maskPlain_eq (some_key : key ≠ []) (before : Text) : ∃ lead, ∀ u,
    maskPlain (before ++ '"' :: (key ++ '"' :: u)) = lead ++ maskPlain ((arrival before).left key u) := by
  have pair (c : Char) (rest u : Text) := readTokenPair?_quoted isKey some_key (List.cons_ne_nil c rest) u
  fun_induction arrival before with
  | case1 => exact ⟨[], fun u => rfl⟩
  | case2 c rest read ih =>
    obtain ⟨lead, masked⟩ := ih
    refine ⟨c :: lead, fun u => ?_⟩
    have unread := pair c rest u
    rw [read, Option.bind_none] at unread
    exact (maskPlain_cons unread).trans (congrArg (c :: ·) (masked u))
  | case3 c rest head value read goes ih =>
    obtain ⟨lead, masked⟩ := ih
    refine ⟨c :: lead, fun u => ?_⟩
    have unread := pair c rest u
    simp only [read, Option.bind_some, goes] at unread
    exact (maskPlain_cons unread).trans (congrArg (c :: ·) (masked u))
  | case4 c rest head value read after goes shorter ih =>
    obtain ⟨lead, masked⟩ := ih
    refine ⟨head ++ maskText ++ lead, fun u => ?_⟩
    have found := pair c rest u
    simp only [read, Option.bind_some, goes] at found
    rw [maskPlain_pair found, masked, ← List.append_assoc]
  | case5 c rest head value read a goes =>
    refine ⟨head ++ maskText, fun u => ?_⟩
    have found := pair c rest u
    simp only [read, Option.bind_some, goes] at found
    exact maskPlain_pair found

end

theorem readSeparator?_blanks {blanks more : Text} (blank : Text.IsBlank blanks) (alsoBlank : Text.IsBlank more)
    (u : Text) : readSeparator? (blanks ++ ':' :: (more ++ '"' :: u)) = some (blanks ++ ':' :: more, '"' :: u) := by
  have quote : isBlank '"' = false := rfl
  have colon : isBlank ':' = false := rfl
  simp [readSeparator?, List.dropWhile_append_of_pos blank, List.takeWhile_append_of_pos blank,
    List.dropWhile_append_of_pos alsoBlank, List.takeWhile_append_of_pos alsoBlank, quote, colon]

/-- Nothing is read where no name begins, not even behind a quote. -/
theorem readHead?_of_nameless (nameless : ∀ c ∈ (takeQuote v).2.head?, isNameChar c = false) : readHead? v = none := by
  have empty : (takeQuote v).2.takeWhile isNameChar = [] := by
    cases rest : (takeQuote v).2 with
    | nil => rfl
    | cons c more =>
      have first : isNameChar c = false := nameless c (by rw [rest]; rfl)
      exact List.takeWhile_cons_of_neg (by simp [first])
  rw [readHead?, empty]
  rfl

theorem maskPlain_of_nameless (nameless : ∀ c ∈ v, isNameChar c = false) (outside : isNameChar d = false)
    (unquoted : d ≠ '"') (u : Text) : maskPlain (v ++ d :: u) = v ++ d :: maskPlain u := by
  have next : readTokenPair? (d :: u) = none := by
    refine readTokenPair?_of_unread (readHead?_of_nameless fun c first => ?_)
    rw [takeQuote_of_ne unquoted] at first
    exact Option.some.inj first ▸ outside
  rw [maskPlain_append ?_, maskPlain_cons next]
  intro b suffix some_text
  refine readTokenPair?_of_unread (readHead?_of_nameless fun c first => ?_)
  obtain ⟨e, rest, rfl⟩ := List.exists_cons_of_ne_nil some_text
  rw [List.cons_append, takeQuote] at first
  split at first
  · -- behind a quote comes another character of the text or the last one
    cases rest with
    | nil => exact Option.some.inj first ▸ outside
    | cons f more => exact Option.some.inj first ▸ nameless f (suffix.subset (by simp))
  · exact Option.some.inj first ▸ nameless e (suffix.subset (by simp))

/-- What a string of JSON may hold between its quotes. -/
def IsContent (s : Text) : Prop := ∃ t, ∀ rest, Json.readString (s ++ '"' :: rest) = some (t, rest)

/-- A place in a body for a string behind a quoted key that names a token and a colon. -/
structure TokenMember where
  before : Text
  key : Text
  blanks : Text
  more : Text
  after : Text
  isKey : ∀ c ∈ key, isNameChar c = true
  token : NamesToken key
  blank : Text.IsBlank blanks
  alsoBlank : Text.IsBlank more

namespace TokenMember

variable (m : TokenMember)

/-- What stands behind the quoted key. -/
def tail (content : Text) : Text := m.blanks ++ ':' :: (m.more ++ '"' :: (content ++ '"' :: m.after))

/-- The body with a string in its place. -/
def body (content : Text) : Text := m.before ++ '"' :: (m.key ++ '"' :: m.tail content)

/-- What stands behind the first quote within or behind a string. -/
def behind (content : Text) : Text := ((Text.cutAt? '"' (content ++ '"' :: m.after)).map Prod.snd).getD []

/-- What comes before the string from the name of the key on, behind an opening quote or none. -/
def lead (quote : Text) : Text := quote ++ m.key ++ '"' :: (m.blanks ++ ':' :: m.more)

/-- Whether the name of the key is read as the name of a pair. -/
def IsMet : Prop := arrival m.before = .quote ∨ arrival m.before = .name

theorem key_ne_nil : m.key ≠ [] := by
  intro empty
  obtain ⟨before, word, behind, whole, lowered⟩ := m.token.exists_word
  rw [empty] at whole
  simp only [List.nil_eq, List.append_eq_nil_iff] at whole
  rw [whole.1.2] at lowered
  cases lowered

theorem behind_of_not_mem (plain : '"' ∉ content) : m.behind content = m.after := by
  rw [behind, Text.cutAt?_append plain]
  rfl

theorem skipValue?_content (content : Text) :
    skipValue? ('"' :: (content ++ '"' :: m.after)) = some (m.behind content) := by
  have closes : '"' ∈ content ++ '"' :: m.after := by simp
  obtain ⟨body, rest, whole, first⟩ := List.eq_append_cons_of_mem closes
  rw [behind, skipValue?, if_pos rfl, whole, Text.cutAt?_append first]
  rfl

theorem readNameEnd?_tail (content : Text) : readNameEnd? ('"' :: m.tail content) =
    some ('"' :: (m.blanks ++ ':' :: m.more), '"' :: (content ++ '"' :: m.after)) := by
  rw [readNameEnd?, takeQuote_quote, tail, readSeparator?_blanks m.blank m.alsoBlank]
  rfl

/-- From the name of the key on, behind its opening quote or with it, the string is masked up to the first quote. -/
theorem maskPlain_of_takeQuote {quote s : Text} (content : Text)
    (rest : takeQuote s = (quote, m.key ++ '"' :: m.tail content)) :
    maskPlain s = m.lead quote ++ maskText ++ maskPlain (m.behind content) := by
  have head := readHead?_of_takeQuote rest m.isKey (by decide)
  rw [if_pos (namesToken_of_NamesToken m.token), m.readNameEnd?_tail, Option.map_some] at head
  have pair := readTokenPair?_of_head head
  rw [m.skipValue?_content, Option.map_some] at pair
  exact maskPlain_pair pair

theorem exists_maskPlain_of_met (met : m.IsMet) :
    ∃ front, ∀ content, maskPlain (m.body content) = front ++ maskPlain (m.behind content) := by
  obtain ⟨front, masked⟩ := exists_maskPlain_eq m.isKey m.key_ne_nil m.before
  rcases met with quote | name
  · refine ⟨front ++ (m.lead ['"'] ++ maskText), fun content => ?_⟩
    rw [body, masked, quote, Arrival.left, m.maskPlain_of_takeQuote content (takeQuote_quote _),
      ← List.append_assoc front]
  · refine ⟨front ++ (m.lead [] ++ maskText), fun content => ?_⟩
    rw [body, masked, name, Arrival.left,
      m.maskPlain_of_takeQuote content (takeQuote_of_names m.isKey (.inl m.key_ne_nil) _), ← List.append_assoc front]

/-- Where the name of the key is not met, nothing is read up to the string if that begins with a character that ends
    a value. -/
theorem exists_left_of_not_met (unmet : ¬m.IsMet) : ∃ front, (∀ c ∈ front, isNameChar c = false) ∧
    ∀ d content, isValueChar d = false →
      (arrival m.before).left m.key (m.tail (d :: content)) = front ++ d :: (content ++ '"' :: m.after) := by
  have plain : ∀ c ∈ m.blanks ++ ':' :: (m.more ++ ['"']), isNameChar c = false := by
    intro c among
    simp only [List.mem_append, List.mem_cons, List.not_mem_nil, or_false] at among
    rcases among with blank | rfl | blank | rfl
    · exact isNameChar_of_blank (m.blank c blank)
    · decide
    · exact isNameChar_of_blank (m.alsoBlank c blank)
    · decide
  have whole (d : Char) (content : Text) :
      m.tail (d :: content) = (m.blanks ++ ':' :: (m.more ++ ['"'])) ++ d :: (content ++ '"' :: m.after) := by
    simp [tail]
  rw [IsMet, not_or] at unmet
  cases reached : arrival m.before with
  | quote => exact absurd reached unmet.1
  | name => exact absurd reached unmet.2
  | asValue => exact ⟨_, plain, fun d content _ => whole d content⟩
  | inValue =>
    refine ⟨_, fun c among => plain c ((List.dropWhile_suffix isValueChar).subset among), fun d content ends => ?_⟩
    rw [Arrival.left, whole, Text.dropWhile_append_cons ends]

/-- Characters that end a value without quotes and that are kept. -/
theorem mark_classes {d : Char} (mark : d ∈ [',', ';']) :
    isValueChar d = false ∧ isNameChar d = false ∧ d ≠ '"' := by
  simp only [List.mem_cons, List.not_mem_nil, or_false] at mark
  rcases mark with rfl | rfl <;> decide

theorem exists_maskPlain_of_not_met (unmet : ¬m.IsMet) : ∃ front, ∀ d ∈ [',', ';'],
    maskPlain (m.body [d]) = front ++ d :: maskPlain ('"' :: m.after) := by
  obtain ⟨front, masked⟩ := exists_maskPlain_eq m.isKey m.key_ne_nil m.before
  obtain ⟨more, nameless, left⟩ := m.exists_left_of_not_met unmet
  refine ⟨front ++ more, fun d mark => ?_⟩
  obtain ⟨ends, outside, unquoted⟩ := mark_classes mark
  rw [body, masked, left d [] ends, maskPlain_of_nameless nameless outside unquoted, List.append_assoc, List.nil_append]

/-- Behind an escaped quote a string is left too. -/
theorem maskPlain_behind {d : Char} (mark : d ∈ [',', ';']) :
    maskPlain (m.behind ['\\', '"', d]) = d :: maskPlain ('"' :: m.after) := by
  obtain ⟨-, outside, unquoted⟩ := mark_classes mark
  have left : m.behind ['\\', '"', d] = d :: '"' :: m.after := by simp [behind, Text.cutAt?]
  rw [left]
  exact maskPlain_of_nameless (List.forall_mem_nil _) outside unquoted _

theorem maskBody_body (content : Text) (broken : Json.parse? (m.body content) = none) :
    maskBody (m.body content) = maskPlain (m.body content) := by
  have quote : '"' ∈ m.body content := by simp [body]
  exact maskBody_of_broken quote rfl broken

end TokenMember

theorem isContent_escaped (s : Text) : IsContent (s.flatMap Json.escapeChar) :=
  ⟨some s, fun rest => Json.readString_escaped s rest⟩

theorem isContent_mark {d : Char} (mark : d ∈ [',', ';']) : IsContent [d] ∧ IsContent ['\\', '"', d] := by
  have escaped : [d].flatMap Json.escapeChar = [d] ∧ ['"', d].flatMap Json.escapeChar = ['\\', '"', d] := by
    simp only [List.mem_cons, List.not_mem_nil, or_false] at mark
    rcases mark with rfl | rfl <;> decide
  exact ⟨escaped.1 ▸ isContent_escaped [d], escaped.2 ▸ isContent_escaped ['"', d]⟩

/-- A broken body with a string for a token is masked in the same way for all strings that have the same behind their
    first quote just when the name of the key is met, and it is never masked in the same way for all strings. -/
theorem maskBody_eq_iff (m : TokenMember)
    (broken : ∀ content, IsContent content → Json.parse? (m.body content) = none) :
    ((∀ content content', IsContent content → IsContent content' → m.behind content = m.behind content' →
      maskBody (m.body content) = maskBody (m.body content')) ↔ m.IsMet) ∧
    ∃ content content', IsContent content ∧ IsContent content' ∧
      maskBody (m.body content) ≠ maskBody (m.body content') := by
  have masked {content : Text} (valid : IsContent content) := m.maskBody_body content (broken content valid)
  have comma := isContent_mark (d := ',') (by decide)
  have semicolon := isContent_mark (d := ';') (by decide)
  by_cases met : m.IsMet
  · obtain ⟨front, shown⟩ := m.exists_maskPlain_of_met met
    refine ⟨iff_of_true (fun content content' valid valid' same => ?_) met, _, _, comma.2, semicolon.2, ?_⟩
    · rw [masked valid, masked valid', shown, shown, same]
    · rw [masked comma.2, masked semicolon.2, shown, shown, m.maskPlain_behind (by decide),
        m.maskPlain_behind (by decide)]
      simp
  · obtain ⟨front, shown⟩ := m.exists_maskPlain_of_not_met met
    have differ : maskBody (m.body [',']) ≠ maskBody (m.body [';']) := by
      rw [masked comma.1, masked semicolon.1, shown ',' (by decide), shown ';' (by decide)]
      simp
    refine ⟨iff_of_false (fun same => differ (same _ _ comma.1 semicolon.1 ?_)) met, _, _, comma.1, semicolon.1, differ⟩
    rw [m.behind_of_not_mem (by decide), m.behind_of_not_mem (by decide)]

/-- A broken object within a form. -/
def TokenMember.assigned : TokenMember where
  before := "json=\x7b".toList
  key := "token".toList
  blanks := []
  more := []
  after := []
  isKey := List.all_eq_true.mp (by decide)
  token := by decide
  blank := Text.isBlank_nil
  alsoBlank := Text.isBlank_nil

theorem maskBody_assigned : (∀ content, IsContent content → Json.parse? (TokenMember.assigned.body content) = none) ∧
    TokenMember.assigned.IsMet ∧
    (∀ content content', IsContent content → IsContent content' →
      TokenMember.assigned.behind content = TokenMember.assigned.behind content' →
        maskBody (TokenMember.assigned.body content) = maskBody (TokenMember.assigned.body content')) ∧
    ∃ content content', IsContent content ∧ IsContent content' ∧
      maskBody (TokenMember.assigned.body content) ≠ maskBody (TokenMember.assigned.body content') := by
  have broken : ∀ content, IsContent content → Json.parse? (TokenMember.assigned.body content) = none := by
    intro content _
    exact Json.parse?_of_unquoted (s := "json".toList) (by decide) _
  have met : TokenMember.assigned.IsMet := .inl (by decide +kernel)
  have masking := maskBody_eq_iff TokenMember.assigned broken
  exact ⟨broken, met, masking.1.mpr met, masking.2⟩

/-- An object that is not closed. -/
def TokenMember.unclosed : TokenMember where
  before := "\x7b".toList
  key := "token".toList
  blanks := []
  more := []
  after := []
  isKey := List.all_eq_true.mp (by decide)
  token := by decide
  blank := Text.isBlank_nil
  alsoBlank := Text.isBlank_nil

/-- What comes behind an escaped quote in the string of a token is not masked. -/
theorem maskBody_unclosed : ¬∀ (m : TokenMember) (content content' : Text), IsContent content → IsContent content' →
    Json.parse? (m.body content) = none → Json.parse? (m.body content') = none →
      maskBody (m.body content) = maskBody (m.body content') := by
  intro same
  have escaped : IsContent "a\\\"b".toList := isContent_escaped "a\"b".toList
  have plain : IsContent "a".toList := isContent_escaped "a".toList
  have broken : (Json.parse? (TokenMember.unclosed.body "a\\\"b".toList)).isNone = true := by decide +kernel
  have broken' : (Json.parse? (TokenMember.unclosed.body "a".toList)).isNone = true := by decide +kernel
  have masked := same _ _ _ escaped plain (Option.isNone_iff_eq_none.mp broken) (Option.isNone_iff_eq_none.mp broken')
  exact absurd masked (by decide +kernel)

end EndpointConsole.History
