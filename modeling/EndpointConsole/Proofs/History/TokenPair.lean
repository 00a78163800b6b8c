import EndpointConsole.Proofs.History.MaskedValue
import EndpointConsole.Proofs.Text.Blank
import EndpointConsole.Proofs.Text.LowerCase
import EndpointConsole.Proofs.Text.Marks

/-!
The pairs of a body that is not JSON. A pair is read in two steps, up to its value (`readHead?`) and over
its value (`skipValue?`), and each step passes over runs of characters of some class. A character of none
of these classes stops the first step wherever it stands, so that what is read before it does not depend
on what follows (`readHead?_append`). Where no pair begins, masking leaves the text as it is and goes on
behind it (`maskPlain_append`).
-/
namespace EndpointConsole.History
open Text (isBlank)

variable {s t u head value after name : Text} {c d : Char}

theorem isNameChar_of_blank (blank : isBlank c = true) : isNameChar c = false := by
  rw [isNameChar, Text.isWord_of_blank blank, Bool.false_or, beq_eq_false_iff_ne]
  exact Text.ne_of_blank blank (by decide)

/-- What stands around a name: white space, quotes and separators are no part of it. -/
structure NameChar (c : Char) : Prop where
  solid : isBlank c = false
  unquoted : c ≠ '"'
  separates : ¬(c = ':' ∨ c = '=')
  inValue : isValueChar c = true

theorem nameChar_of_isNameChar (isName : isNameChar c = true) : NameChar c := by
  have other {d : Char} (outside : isNameChar d = false) : c ≠ d := by
    rintro rfl
    rw [isName] at outside
    cases outside
  have solid : isBlank c = false := by
    rw [Bool.eq_false_iff]
    intro blank
    rw [isNameChar_of_blank blank] at isName
    cases isName
  refine ⟨solid, other (by decide), not_or.mpr ⟨other (by decide), other (by decide)⟩, ?_⟩
  have and : c ≠ '&' := other (by decide)
  have comma : c ≠ ',' := other (by decide)
  have semicolon : c ≠ ';' := other (by decide)
  simp [isValueChar, and, comma, semicolon, solid]

instance : DecidablePred NamesToken := fun key => decidable_of_iff _ (isTokenKey_iff key)

theorem namesToken_iff : namesToken name = true ↔
    ∃ before word behind, name = before ++ word ++ behind ∧ word.map Text.foldChar = tokenWord := by
  induction name with
  | nil => simp [namesToken, tokenWord]
  | cons c rest ih =>
    rw [namesToken, Bool.or_eq_true, Option.isSome_iff_exists, ih]
    constructor
    · rintro (⟨behind, strip⟩ | ⟨before, word, behind, rfl, folded⟩)
      · obtain ⟨word, whole, folded⟩ := Text.stripFolded?_eq_some_iff.mp strip
        exact ⟨[], word, behind, whole, folded⟩
      · exact ⟨c :: before, word, behind, rfl, folded⟩
    · rintro ⟨before, word, behind, whole, folded⟩
      cases before with
      | nil => exact .inl ⟨behind, Text.stripFolded?_eq_some_iff.mpr ⟨word, whole, folded⟩⟩
      | cons b before =>
        obtain ⟨rfl, rfl⟩ := List.cons.inj whole
        exact .inr ⟨before, word, behind, rfl, folded⟩

theorem namesToken_suffix (suffix : t <:+ s) (names : namesToken t = true) : namesToken s = true := by
  obtain ⟨front, rfl⟩ := suffix
  obtain ⟨before, word, behind, rfl, folded⟩ := namesToken_iff.mp names
  exact namesToken_iff.mpr ⟨front ++ before, word, behind, by simp, folded⟩

theorem NamesToken.exists_word (names : NamesToken name) :
    ∃ before word behind, name = before ++ word ++ behind ∧ Text.asciiLower word = tokenWord := by
  obtain ⟨before, behind, whole⟩ := names
  obtain ⟨front, third, rfl, most, -⟩ := List.map_eq_append_iff.mp whole.symm
  obtain ⟨first, second, rfl, -, lowered⟩ := List.map_eq_append_iff.mp most
  exact ⟨first, second, third, rfl, lowered⟩

/-- A name that holds `token` in some case of ASCII is taken for one. -/
theorem namesToken_of_NamesToken (names : NamesToken name) : namesToken name = true := by
  obtain ⟨before, word, behind, rfl, lowered⟩ := names.exists_word
  refine namesToken_iff.mpr ⟨before, word, behind, rfl, ?_⟩
  rw [← lowered, Text.asciiLower]
  refine List.map_congr_left fun c among => Text.foldChar_of_ascii (Text.ascii_of_toLower ?_)
  have letter : c.toLower ∈ tokenWord := lowered ▸ List.mem_map_of_mem among
  have ascii : (tokenWord.all fun d => decide (d.toNat < 0x80)) = true := by decide
  exact of_decide_eq_true (List.all_eq_true.mp ascii _ letter)

/-- Of the names in ASCII no others are. -/
theorem namesToken_iff_NamesToken (ascii : ∀ c ∈ name, c.toNat < 0x80) : namesToken name = true ↔ NamesToken name := by
  refine ⟨fun names => ?_, namesToken_of_NamesToken⟩
  obtain ⟨before, word, behind, rfl, folded⟩ := namesToken_iff.mp names
  refine ⟨Text.asciiLower before, Text.asciiLower behind, ?_⟩
  have lowered : Text.asciiLower word = tokenWord := by
    rw [← folded, Text.asciiLower]
    exact List.map_congr_left fun c among => (Text.foldChar_of_ascii (ascii c (by simp [among]))).symm
  rw [Text.asciiLower, Text.asciiLower, Text.asciiLower, List.map_append, List.map_append]
  exact congrArg (fun middle => List.map Char.toLower before ++ middle ++ List.map Char.toLower behind) lowered.symm

/-- What stands between a name and its value, and the value. -/
def readSeparator? (s : Text) : Option (Text × Text) :=
  match s.dropWhile isBlank with
  | [] => none
  | c :: rest =>
    if c = ':' ∨ c = '=' then some (s.takeWhile isBlank ++ c :: rest.takeWhile isBlank, rest.dropWhile isBlank)
    else none

/-- What stands between a name, which a quote may end, and its value, and the value. -/
def readNameEnd? (s : Text) : Option (Text × Text) :=
  (readSeparator? (takeQuote s).2).map fun (separator, value) => ((takeQuote s).1 ++ separator, value)

/-- What a pair has before its value, and the value. -/
def readHead? (s : Text) : Option (Text × Text) :=
  let name := (takeQuote s).2.takeWhile isNameChar
  if namesToken name then
    (readNameEnd? ((takeQuote s).2.dropWhile isNameChar)).map fun (ending, value) =>
      ((takeQuote s).1 ++ name ++ ending, value)
  else none

theorem readTokenPair?_eq (s : Text) :
    readTokenPair? s = (readHead? s).bind fun (head, value) => (skipValue? value).map (head, ·) := by
  simp only [readTokenPair?, readHead?, readNameEnd?, readSeparator?, takeBlanks]
  cases namesToken ((takeQuote s).2.takeWhile isNameChar) with
  | false => rfl
  | true =>
    cases (takeQuote ((takeQuote s).2.dropWhile isNameChar)).2.dropWhile isBlank with
    | nil => rfl
    | cons c rest =>
      by_cases separates : c = ':' ∨ c = '='
      · simp [separates]
      · simp [separates]

theorem readTokenPair?_of_head (read : readHead? s = some (head, value)) :
    readTokenPair? s = (skipValue? value).map (head, ·) := by
  rw [readTokenPair?_eq, read]
  rfl

theorem readTokenPair?_of_unread (unread : readHead? s = none) : readTokenPair? s = none := by
  rw [readTokenPair?_eq, unread]
  rfl

theorem takeQuote_of_ne (unquoted : c ≠ '"') (s : Text) : takeQuote (c :: s) = ([], c :: s) := if_neg unquoted

theorem takeQuote_of_names (names : ∀ c ∈ t, isNameChar c = true) (some_text : t ≠ [] ∨ d ≠ '"') (u : Text) :
    takeQuote (t ++ d :: u) = ([], t ++ d :: u) := by
  cases t with
  | nil => exact takeQuote_of_ne (some_text.resolve_left (· rfl)) u
  | cons c more => exact takeQuote_of_ne (nameChar_of_isNameChar (names c List.mem_cons_self)).unquoted _

theorem takeQuote_quote (s : Text) : takeQuote ('"' :: s) = (['"'], s) := rfl

theorem takeQuote_parts (s : Text) : (takeQuote s).1 ++ (takeQuote s).2 = s := by
  cases s with
  | nil => rfl
  | cons c rest =>
    rw [takeQuote]
    split
    · next quote => rw [quote]; rfl
    · rfl

theorem takeQuote_append (some_text : t ≠ [] ∨ c ≠ '"') (s : Text) :
    takeQuote (t ++ c :: s) = ((takeQuote t).1, (takeQuote t).2 ++ c :: s) := by
  cases t with
  | nil => exact takeQuote_of_ne (some_text.resolve_left (· rfl)) s
  | cons b rest =>
    rw [List.cons_append, takeQuote, takeQuote]
    split <;> rfl

theorem readSeparator?_parts (read : readSeparator? s = some (head, value)) :
    s = head ++ value ∧ head ≠ [] ∧ ∀ c ∈ value.head?, isBlank c = false := by
  rw [readSeparator?] at read
  split at read
  · cases read
  · next c rest ends =>
    split at read
    · cases read
      refine ⟨?_, by simp, ?_⟩
      · rw [List.append_assoc, List.cons_append, List.takeWhile_append_dropWhile, ← ends,
          List.takeWhile_append_dropWhile]
      · intro d first
        have outside := List.head?_dropWhile_not isBlank rest
        rwa [first] at outside
    · cases read

theorem readNameEnd?_parts (read : readNameEnd? s = some (head, value)) :
    s = head ++ value ∧ head ≠ [] ∧ ∀ c ∈ value.head?, isBlank c = false := by
  obtain ⟨⟨separator, value⟩, separated, same⟩ := Option.map_eq_some_iff.mp read
  cases same
  obtain ⟨rest, some_text, solid⟩ := readSeparator?_parts separated
  refine ⟨?_, by simp [some_text], solid⟩
  rw [List.append_assoc, ← rest, takeQuote_parts]

theorem readHead?_parts (read : readHead? s = some (head, value)) :
    s = head ++ value ∧ head ≠ [] ∧ ∀ c ∈ value.head?, isBlank c = false := by
  rw [readHead?] at read
  split at read
  · obtain ⟨⟨ending, value⟩, ended, same⟩ := Option.map_eq_some_iff.mp read
    cases same
    obtain ⟨rest, some_text, solid⟩ := readNameEnd?_parts ended
    refine ⟨?_, by simp [some_text], solid⟩
    rw [List.append_assoc, List.append_assoc, ← rest, List.takeWhile_append_dropWhile, takeQuote_parts]
  · cases read

/-- A name that a character of another class ends is read whole. -/
theorem readHead?_of_takeQuote {quote : Text} (rest : takeQuote s = (quote, name ++ d :: u))
    (names : ∀ c ∈ name, isNameChar c = true) (outside : isNameChar d = false) :
    readHead? s = if namesToken name then
      (readNameEnd? (d :: u)).map fun (ending, value) => (quote ++ name ++ ending, value) else none := by
  have taken : (name ++ d :: u).takeWhile isNameChar = name := by
    rw [Text.takeWhile_append_cons outside]
    exact List.takeWhile_eq_self_iff.mpr names
  have dropped : (name ++ d :: u).dropWhile isNameChar = d :: u := by
    rw [List.dropWhile_append_of_pos names, List.dropWhile_cons_of_neg (by simp [outside])]
  rw [readHead?, rest]
  simp only [taken, dropped]

theorem readSeparator?_append (solid : isBlank c = false) (plain : ¬(c = ':' ∨ c = '=')) (t u : Text) :
    readSeparator? (t ++ c :: u) = (readSeparator? t).map fun (separator, value) => (separator, value ++ c :: u) := by
  rw [readSeparator?, readSeparator?, Text.dropWhile_append_cons solid]
  cases t.dropWhile isBlank with
  | nil => simp [plain]
  | cons d rest =>
    by_cases separates : d = ':' ∨ d = '='
    · simp [separates, Text.takeWhile_append_cons solid, Text.dropWhile_append_cons solid]
    · simp [separates]

theorem readSeparator?_of_plain (solid : isBlank c = false) (plain : ¬(c = ':' ∨ c = '=')) (u : Text) :
    readSeparator? (c :: u) = none := readSeparator?_append solid plain [] u

/-- Behind a name a quote stops the reading too, unless it ends the name and a separator follows. -/
theorem readNameEnd?_append (solid : isBlank c = false) (plain : ¬(c = ':' ∨ c = '='))
    (quote : c = '"' → readSeparator? u = none) (t : Text) :
    readNameEnd? (t ++ c :: u) = (readNameEnd? t).map fun (ending, value) => (ending, value ++ c :: u) := by
  by_cases some_text : t ≠ [] ∨ c ≠ '"'
  · rw [readNameEnd?, readNameEnd?, takeQuote_append some_text, readSeparator?_append solid plain]
    simp [Function.comp_def]
  · obtain ⟨rfl, rfl⟩ : t = [] ∧ c = '"' := by simpa using some_text
    rw [readNameEnd?, List.nil_append, takeQuote_quote, quote rfl]
    rfl

/-- A character that is no part of a name, no white space and no separator stops the reading up to the value. A quote
    does so if it does not begin the text and no separator comes behind it. -/
theorem readHead?_append (outside : isNameChar c = false) (solid : isBlank c = false) (plain : ¬(c = ':' ∨ c = '='))
    (quote : c = '"' → t ≠ [] ∧ readSeparator? u = none) :
    readHead? (t ++ c :: u) = (readHead? t).map fun (head, value) => (head, value ++ c :: u) := by
  have first : takeQuote (t ++ c :: u) = ((takeQuote t).1, (takeQuote t).2 ++ c :: u) := by
    refine takeQuote_append ?_ u
    by_cases quoted : c = '"'
    · exact .inl (quote quoted).1
    · exact .inr quoted
  rw [readHead?, readHead?, first]
  simp only [Text.takeWhile_append_cons outside, Text.dropWhile_append_cons outside]
  rw [readNameEnd?_append solid plain fun quoted => (quote quoted).2]
  split
  · simp [Function.comp_def]
  · rfl

theorem skipBare?_suffix (skip : skipBare? value = some after) : after <:+ value := by
  rw [skipBare?] at skip
  split at skip
  · cases skip
  · cases skip
    exact List.dropWhile_suffix isValueChar

theorem skipValue?_suffix (skip : skipValue? value = some after) : after <:+ value := by
  cases value with
  | nil => cases skip
  | cons c rest =>
    rw [skipValue?] at skip
    split at skip
    · split at skip
      · next body behind cut =>
        cases skip
        obtain ⟨rfl, -⟩ := Text.cutAt?_eq_some_iff.mp cut
        exact ⟨c :: (body ++ ['"']), by simp⟩
      · exact skipBare?_suffix skip
    · exact skipBare?_suffix skip

theorem readTokenPair?_shorter (read : readTokenPair? s = some (head, after)) : after.length < s.length := by
  rw [readTokenPair?_eq] at read
  obtain ⟨⟨before, value⟩, begun, skipped⟩ := Option.bind_eq_some_iff.mp read
  obtain ⟨behind, skip, same⟩ := Option.map_eq_some_iff.mp skipped
  cases same
  obtain ⟨rfl, some_text, -⟩ := readHead?_parts begun
  have fewer := (skipValue?_suffix skip).length_le
  have more := List.length_pos_iff.mpr some_text
  rw [List.length_append]
  omega

theorem maskPlain_nil : maskPlain [] = [] := by
  rw [maskPlain, Text.pieces]
  rfl

theorem maskPlain_cons (unread : readTokenPair? (c :: s) = none) : maskPlain (c :: s) = c :: maskPlain s := by
  rw [maskPlain, Text.fill_pieces_cons, unread]
  rfl

theorem maskPlain_pair (read : readTokenPair? s = some (head, after)) :
    maskPlain s = head ++ maskText ++ maskPlain after := by
  have shorter := readTokenPair?_shorter read
  cases s with
  | nil => cases shorter
  | cons c rest =>
    rw [maskPlain, Text.fill_pieces_cons, read]
    exact if_pos shorter

/-- Text within which no pair begins stays. -/
theorem maskPlain_append (unread : ∀ b, b <:+ t → b ≠ [] → readTokenPair? (b ++ s) = none) :
    maskPlain (t ++ s) = t ++ maskPlain s := by
  induction t with
  | nil => rfl
  | cons c rest ih =>
    have here : readTokenPair? (c :: (rest ++ s)) = none :=
      unread (c :: rest) (List.suffix_refl _) (List.cons_ne_nil c rest)
    rw [List.cons_append, maskPlain_cons here, ih fun b suffix => unread b (suffix.trans (List.suffix_cons c rest)),
      List.cons_append]

/-- A body with something in it that is no JSON is masked pair by pair. -/
theorem maskBody_of_broken (among : c ∈ s) (solid : isBlank c = false) (broken : Json.parse? s = none) :
    maskBody s = maskPlain s := by
  have written : ¬(Text.trim s).isEmpty = true := by
    rw [List.isEmpty_iff]
    intro empty
    rw [Text.blank_of_trim empty c among] at solid
    cases solid
  rw [maskBody, if_neg written, broken]

end EndpointConsole.History
