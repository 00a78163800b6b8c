import EndpointConsole.Proofs.Encoding.Percent
import EndpointConsole.Proofs.History.TokenPair
import EndpointConsole.Proofs.Json.Unquoted

/-!
The masking of form bodies. The pairs of a form are masked one by one (`maskBody_formBody`): in the values
no pair begins, in a key none begins that the key does not name, and an ampersand ends both.
-/
namespace EndpointConsole.History
open Text (isBlank)

/-- A pair of a form. -/
structure FormPair where
  key : Text
  value : Text
  named : key ≠ []
  keyChars : ∀ c ∈ key, c.isAlphanum = true ∨ c = '_' ∨ c = '-'
  valueChars : ∀ c ∈ value, c ∉ ['&', ',', ';', ':', '=', '"'] ∧ isBlank c = false

namespace FormPair

def text (p : FormPair) : Text := p.key ++ '=' :: p.value

/-- Whether a pair has something to mask. -/
def IsSecret (p : FormPair) : Prop := NamesToken p.key ∧ p.value ≠ []

instance (p : FormPair) : Decidable p.IsSecret := inferInstanceAs (Decidable (_ ∧ _))

theorem stars_plain : ∀ c ∈ "***".toList, c ∉ ['&', ',', ';', ':', '=', '"'] ∧ isBlank c = false := by
  intro c among
  obtain rfl : c = '*' := by simpa using among
  decide

/-- A pair with its value masked if its key names a token. -/
def masked (p : FormPair) : FormPair :=
  if p.IsSecret then { p with value := "***".toList, valueChars := stars_plain } else p

end FormPair

/-- The body of a form. -/
def formBody (pairs : List FormPair) : Text := Text.joinWith ['&'] (pairs.map FormPair.text)

variable {p : FormPair} {s t value rest : Text} {c : Char}

namespace FormPair

theorem ascii_key (among : c ∈ p.key) : c.toNat < 0x80 := by
  rcases p.keyChars c among with letter | rfl | rfl
  · have bounds := Percent.isAlphanum_bounds letter
    omega
  · decide
  · decide

theorem isNameChar_key (among : c ∈ p.key) : isNameChar c = true := by
  have ascii := ascii_key among
  rcases p.keyChars c among with letter | rfl | rfl
  · simp [isNameChar, Text.isWord, ascii, letter]
  · rfl
  · rfl

theorem unquoted_key : '"' ∉ p.key := fun among => absurd (isNameChar_key among) (by decide)

end FormPair

/-- The end of a body, or another pair. -/
def Closed (rest : Text) : Prop := rest = [] ∨ ∃ more, rest = '&' :: more

theorem readHead?_closed (closed : Closed rest) (t : Text) :
    readHead? (t ++ rest) = (readHead? t).map fun (head, value) => (head, value ++ rest) := by
  rcases closed with rfl | ⟨more, rfl⟩
  · simp
  · exact readHead?_append (by decide) (by decide) (by decide) nofun

/-- Nothing is read up to a value where no white space, quote or separator is. -/
theorem readHead?_of_plain (plain : ∀ c ∈ s, isBlank c = false ∧ c ∉ [':', '=', '"']) : readHead? s = none := by
  have unquoted {t : Text} (part : t ⊆ s) : takeQuote t = ([], t) := by
    cases t with
    | nil => rfl
    | cons c more =>
      have here := plain c (part List.mem_cons_self)
      exact takeQuote_of_ne (by rintro rfl; simp at here) more
  have ended : readNameEnd? (s.dropWhile isNameChar) = none := by
    have part := (List.dropWhile_suffix (l := s) isNameChar).subset
    rw [readNameEnd?, unquoted part]
    cases behind : s.dropWhile isNameChar with
    | nil => rfl
    | cons c more =>
      obtain ⟨solid, other⟩ := plain c (part (behind ▸ List.mem_cons_self))
      rw [readSeparator?_of_plain solid (by rintro (rfl | rfl) <;> simp at other)]
      rfl
  rw [readHead?, unquoted (List.Subset.refl s)]
  simp [ended]

theorem readHead?_key (names : ∀ c ∈ t, isNameChar c = true) (solid : ∀ c ∈ value.head?, isBlank c = false) :
    readHead? (t ++ '=' :: value) = if namesToken t then some (t ++ ['='], value) else none := by
  have separated : readNameEnd? ('=' :: value) = some (['='], value) := by
    cases value with
    | nil => rfl
    | cons c more =>
      have first : isBlank c = false := solid c rfl
      have equals : isBlank '=' = false := rfl
      simp [readNameEnd?, readSeparator?, takeQuote, equals, first]
  rw [readHead?_of_takeQuote (takeQuote_of_names names (.inr (by decide)) value) names (by decide), separated]
  rfl

theorem skipValue?_bare (bare : ∀ c ∈ value, isValueChar c = true ∧ c ≠ '"') (some_value : value ≠ [])
    (closed : Closed rest) : skipValue? (value ++ rest) = some rest := by
  have skipped : skipBare? (value ++ rest) = some rest := by
    have taken : ((value ++ rest).takeWhile isValueChar).isEmpty = false := by
      rw [List.takeWhile_append_of_pos fun c among => (bare c among).1]
      simp [some_value]
    have dropped : (value ++ rest).dropWhile isValueChar = rest := by
      rw [List.dropWhile_append_of_pos fun c among => (bare c among).1]
      rcases closed with rfl | ⟨more, rfl⟩ <;> rfl
    rw [skipBare?, taken, dropped]
    rfl
  cases value with
  | nil => exact absurd rfl some_value
  | cons c more =>
    rw [List.cons_append, skipValue?, if_neg (bare c List.mem_cons_self).2, ← List.cons_append]
    exact skipped

theorem skipValue?_closed (closed : Closed rest) : skipValue? rest = none := by
  rcases closed with rfl | ⟨more, rfl⟩ <;> rfl

namespace FormPair

theorem solid_value (p : FormPair) : ∀ c ∈ p.value.head?, isBlank c = false := fun c first =>
  (p.valueChars c (List.mem_of_mem_head? first)).2

theorem bare_value (p : FormPair) : ∀ c ∈ p.value, isValueChar c = true ∧ c ≠ '"' := by
  intro c among
  obtain ⟨other, solid⟩ := p.valueChars c among
  simp only [List.mem_cons, List.not_mem_nil, or_false, not_or] at other
  simp [isValueChar, solid, other]

/-- A pair that the key names is read if it has a value, and nothing is read at any other place of a key. -/
theorem readTokenPair?_text (suffix : t <:+ p.key) (closed : Closed rest) :
    readTokenPair? (t ++ '=' :: (p.value ++ rest)) =
      if namesToken t ∧ p.value ≠ [] then some (t ++ ['='], rest) else none := by
  have head : readHead? (t ++ '=' :: (p.value ++ rest)) =
      (if namesToken t then some (t ++ ['='], p.value) else none).map fun (head, value) => (head, value ++ rest) := by
    rw [← readHead?_key (fun c among => isNameChar_key (suffix.subset among)) p.solid_value, ← readHead?_closed closed,
      List.append_assoc, List.cons_append]
  by_cases names : namesToken t = true
  · rw [if_pos names, Option.map_some] at head
    rw [readTokenPair?_of_head head]
    by_cases empty : p.value = []
    · simp [empty, skipValue?_closed closed]
    · simp [skipValue?_bare p.bare_value empty closed, names, empty]
  · rw [if_neg names, Option.map_none] at head
    rw [readTokenPair?_of_unread head, if_neg fun both => names both.1]

theorem readTokenPair?_value (suffix : t <:+ p.value) (closed : Closed rest) : readTokenPair? (t ++ rest) = none := by
  have plain : ∀ c ∈ t, isBlank c = false ∧ c ∉ [':', '=', '"'] := by
    intro c among
    obtain ⟨other, solid⟩ := p.valueChars c (suffix.subset among)
    simp only [List.mem_cons, List.not_mem_nil, or_false, not_or] at other
    simp [solid, other]
  refine readTokenPair?_of_unread ?_
  rw [readHead?_closed closed, readHead?_of_plain plain]
  rfl

theorem text_masked (p : FormPair) :
    p.masked.text = if p.IsSecret then p.key ++ '=' :: maskText else p.text := by
  rw [masked]
  split <;> rfl

theorem isSecret_iff : p.IsSecret ↔ namesToken p.key = true ∧ p.value ≠ [] := by
  rw [IsSecret, namesToken_iff_NamesToken fun c among => ascii_key among]

theorem maskPlain_text (p : FormPair) (closed : Closed rest) :
    maskPlain (p.text ++ rest) = p.masked.text ++ maskPlain rest := by
  have whole : p.text ++ rest = p.key ++ '=' :: (p.value ++ rest) := by simp [text]
  rw [text_masked, whole]
  by_cases secret : p.IsSecret
  · have read := readTokenPair?_text (List.suffix_refl p.key) closed
    rw [if_pos (isSecret_iff.mp secret)] at read
    rw [maskPlain_pair read, if_pos secret]
    simp
  · have unread : ∀ t, t <:+ p.key → readTokenPair? (t ++ '=' :: (p.value ++ rest)) = none := by
      intro t suffix
      rw [readTokenPair?_text suffix closed]
      exact if_neg fun ⟨names, some_value⟩ => secret (isSecret_iff.mpr ⟨namesToken_suffix suffix names, some_value⟩)
    rw [if_neg secret, maskPlain_append fun t suffix _ => unread t suffix, maskPlain_cons (unread [] List.nil_suffix),
      maskPlain_append fun t suffix _ => readTokenPair?_value suffix closed, text]
    simp

end FormPair

theorem maskPlain_formBody (pairs : List FormPair) :
    maskPlain (formBody pairs) = formBody (pairs.map FormPair.masked) := by
  induction pairs with
  | nil => exact maskPlain_nil
  | cons p more ih =>
    cases more with
    | nil =>
      have last := p.maskPlain_text (.inl rfl)
      rwa [List.append_nil, maskPlain_nil, List.append_nil] at last
    | cons q more =>
      have joined (p q : FormPair) (more : List FormPair) :
          formBody (p :: q :: more) = p.text ++ '&' :: formBody (q :: more) := by
        simp [formBody, Text.joinWith]
      have between : readTokenPair? ('&' :: formBody (q :: more)) = none :=
        readTokenPair?_of_unread (readHead?_closed (.inr ⟨_, rfl⟩) [])
      rw [joined, p.maskPlain_text (.inr ⟨_, rfl⟩), maskPlain_cons between, ih]
      exact (joined p.masked q.masked (more.map FormPair.masked)).symm

theorem formBody_cons (p : FormPair) (more : List FormPair) :
    ∃ tail, formBody (p :: more) = p.key ++ '=' :: tail := by
  cases more with
  | nil => exact ⟨p.value, rfl⟩
  | cons q more => exact ⟨p.value ++ '&' :: formBody (q :: more), by simp [formBody, Text.joinWith, FormPair.text]⟩

/-- In the body of a form the values that are there of keys that name a token are masked, and nothing else changes. -/
theorem maskBody_formBody (pairs : List FormPair) :
    maskBody (formBody pairs) = formBody (pairs.map FormPair.masked) := by
  cases pairs with
  | nil => rfl
  | cons p more =>
    obtain ⟨tail, whole⟩ := formBody_cons p more
    have equals : '=' ∈ formBody (p :: more) := by simp [whole]
    have no_json : Json.parse? (formBody (p :: more)) = none := by
      rw [whole]
      exact Json.parse?_of_unquoted FormPair.unquoted_key tail
    rw [maskBody_of_broken equals rfl no_json]
    exact maskPlain_formBody (p :: more)

/-- A secret, a token without a value and a pair that names none. -/
def loginForm : List FormPair := [
  { key := "access_Token".toList, value := "a-b".toList, named := by decide,
    keyChars := by simp, valueChars := by simp [isBlank] },
  { key := "csrf-token".toList, value := [], named := by decide,
    keyChars := by simp, valueChars := by simp },
  { key := "page".toList, value := "token".toList, named := by decide,
    keyChars := by simp, valueChars := by simp [isBlank] }]

theorem maskBody_formBody_login :
    maskBody "access_Token=a-b&csrf-token=&page=token".toList = "access_Token=***&csrf-token=&page=token".toList := by
  have masked := maskBody_formBody loginForm
  have before : formBody loginForm = "access_Token=a-b&csrf-token=&page=token".toList := by decide
  have after : formBody (loginForm.map FormPair.masked) = "access_Token=***&csrf-token=&page=token".toList := by decide
  rwa [before, after] at masked

end EndpointConsole.History
