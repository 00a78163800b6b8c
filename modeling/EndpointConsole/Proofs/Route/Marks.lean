import EndpointConsole.Proofs.Source.Names
import EndpointConsole.Proofs.Text.LowerCase
import EndpointConsole.Proofs.Text.Marks
import EndpointConsole.Route.Compose

/-!
The marks of a route: the tokens between brackets (`read?_tokenMarks`) and the version placeholders
between braces (`read?_versionMarks`). What is written for them has none of these characters: names in
lower case (`not_mem_lowered`) and versions, which are digits and dots (`IsVersion.of_attribute`).
-/
namespace EndpointConsole.Route
open Text (Marks asciiLower isWord isDecimal stripFolded?_eq_some_iff dropWhile_append_cons)

variable {s t after name : Text}

/-- What a route holds in place of a name or a version. -/
inductive Mark where
  | controller
  | action
  | version (written : Text)

/-- A name between brackets, in any ASCII case. -/
def tokenMarks (name : Text) (mark : Mark) : Marks Mark where
  opening := '['
  closing := ']'
  meaning? body := if asciiLower body = name then some mark else none

def controllerMarks : Marks Mark := tokenMarks "controller".toList .controller

def actionMarks : Marks Mark := tokenMarks "action".toList .action

theorem readToken?_eq_some_iff {token : Text} {u : Unit} :
    readToken? token s = some (u, after) ↔ ∃ t, s = t ++ after ∧ asciiLower t = token := by
  rw [readToken?]
  constructor
  · intro read
    split at read
    · next lowered =>
      cases read
      exact ⟨s.take token.length, (List.take_append_drop token.length s).symm, lowered⟩
    · cases read
  · rintro ⟨t, rfl, rfl⟩
    have same : (asciiLower t).length = t.length := List.length_map _
    rw [same, List.take_left, List.drop_left, if_pos rfl]

/-- Brackets are kept by lower case. -/
theorem asciiLower_eq_bracketed_iff :
    asciiLower t = '[' :: (name ++ [']']) ↔ ∃ body, t = '[' :: (body ++ [']']) ∧ asciiLower body = name := by
  constructor
  · intro lowered
    obtain ⟨c, rest, rfl, first, more⟩ := List.map_eq_cons_iff.mp lowered
    obtain ⟨body, ending, rfl, inner, last⟩ := List.map_eq_append_iff.mp more
    obtain ⟨d, rfl, same⟩ := List.map_eq_singleton_iff.mp last
    obtain rfl := Text.eq_of_toLower_eq rfl first
    obtain rfl := Text.eq_of_toLower_eq rfl same
    exact ⟨body, rfl, inner⟩
  · rintro ⟨body, rfl, rfl⟩
    simp [asciiLower]

theorem tokenMarks_meaning? {mark a : Mark} {body : Text} :
    (tokenMarks name mark).meaning? body = some a ↔ asciiLower body = name ∧ mark = a := by
  simp [tokenMarks]

theorem read?_tokenMarks (unclosed : ']' ∉ name) (mark : Mark) (s : Text) :
    (tokenMarks name mark).read? s = (readToken? ('[' :: (name ++ [']'])) s).map fun x => (mark, x.2) := by
  ext ⟨a, after⟩
  rw [Marks.read?_eq_some_iff, Option.map_eq_some_iff]
  constructor
  · rintro ⟨body, rfl, -, means⟩
    obtain ⟨lowered, rfl⟩ := tokenMarks_meaning?.mp means
    refine ⟨((), after), readToken?_eq_some_iff.mpr ⟨'[' :: (body ++ [']']), by simp [tokenMarks], ?_⟩, rfl⟩
    exact asciiLower_eq_bracketed_iff.mpr ⟨body, rfl, lowered⟩
  · rintro ⟨⟨u, behind⟩, read, same⟩
    cases same
    obtain ⟨t, rfl, lowered⟩ := readToken?_eq_some_iff.mp read
    obtain ⟨body, rfl, rfl⟩ := asciiLower_eq_bracketed_iff.mp lowered
    refine ⟨body, by simp [tokenMarks], ?_, tokenMarks_meaning?.mpr ⟨rfl, rfl⟩⟩
    exact fun closes => unclosed (List.mem_map_of_mem (f := Char.toLower) closes)

/-- Where no such mark is, the token is not in the text in any case. -/
theorem contains_token_eq_false {mark : Mark} (unclosed : ']' ∉ name) (absent : (tokenMarks name mark).Absent s) :
    Text.contains ('[' :: (name ++ [']'])) (asciiLower s) = false := by
  rw [Bool.eq_false_iff, ne_eq, Text.contains_iff]
  rintro ⟨before, behind, whole⟩
  obtain ⟨front, rest, rfl, lowered, -⟩ := List.map_eq_append_iff.mp whole.symm
  obtain ⟨a, t, rfl, -, lowered⟩ := List.map_eq_append_iff.mp lowered
  have read : readToken? ('[' :: (name ++ [']'])) (t ++ rest) = some ((), rest) :=
    readToken?_eq_some_iff.mpr ⟨t, rfl, lowered⟩
  have nothing := absent (t ++ rest) ⟨a, (List.append_assoc a t rest).symm⟩
  rw [read?_tokenMarks unclosed, read] at nothing
  cases nothing

/-- A word and the constraint of a version. -/
def namesVersion (body : Text) : Bool :=
  body.head?.any isWord && Text.stripFolded? ":apiversion".toList (body.dropWhile isWord) == some []

def versionMarks : Marks Mark where
  opening := '\x7b'
  closing := '\x7d'
  meaning? body := if namesVersion body then some (.version ('\x7b' :: (body ++ ['\x7d']))) else none

/-- What follows the constraint begins with the closing brace if nothing stands between them. -/
theorem stripFolded?_brace {behind : Text} (unclosed : '\x7d' ∉ s) :
    Text.stripFolded? ":apiversion".toList (s ++ '\x7d' :: after) = some ('\x7d' :: behind) ↔
      Text.stripFolded? ":apiversion".toList s = some [] ∧ after = behind := by
  rw [stripFolded?_eq_some_iff, stripFolded?_eq_some_iff]
  constructor
  · rintro ⟨first, whole, folded⟩
    have open_first : '\x7d' ∉ first := by
      intro among
      have letter := List.mem_map_of_mem (f := Text.foldChar) among
      rw [folded] at letter
      exact absurd letter (by decide)
    have cut := Text.cutAt?_append unclosed after
    rw [whole, Text.cutAt?_append open_first] at cut
    cases cut
    exact ⟨⟨s, (List.append_nil s).symm, folded⟩, rfl⟩
  · rintro ⟨⟨first, whole, folded⟩, rfl⟩
    rw [List.append_nil] at whole
    exact ⟨first, by rw [whole], folded⟩

theorem readVersionPlaceholder?_closed {body : Text} (unclosed : '\x7d' ∉ body) (after : Text) :
    readVersionPlaceholder? ('\x7b' :: (body ++ '\x7d' :: after)) =
      if namesVersion body then some ((), after) else none := by
  have stops : isWord '\x7d' = false := by decide
  have first : (body ++ '\x7d' :: after).head?.any isWord = body.head?.any isWord := by
    cases body with
    | nil => exact stops
    | cons c rest => rfl
  have open_rest : '\x7d' ∉ body.dropWhile isWord := fun among => unclosed ((List.dropWhile_sublist isWord).subset among)
  rw [readVersionPlaceholder?, first, dropWhile_append_cons stops, namesVersion]
  cases word : body.head?.any isWord with
  | false => simp
  | true =>
    rw [if_pos ⟨rfl, rfl⟩, Bool.true_and]
    by_cases ends : Text.stripFolded? ":apiversion".toList (body.dropWhile isWord) = some []
    · rw [(stripFolded?_brace open_rest).mpr ⟨ends, rfl⟩, if_pos (beq_iff_eq.mpr ends)]
      rfl
    · rw [if_neg fun same => ends (beq_iff_eq.mp same)]
      split
      · next behind strip => exact absurd ((stripFolded?_brace open_rest).mp strip).1 ends
      · rfl

theorem readVersionPlaceholder?_eq_some_iff {u : Unit} : readVersionPlaceholder? s = some (u, after) ↔
    ∃ body, s = '\x7b' :: (body ++ '\x7d' :: after) ∧ '\x7d' ∉ body ∧ namesVersion body = true := by
  constructor
  · intro read
    have closed : ∃ rest, s = '\x7b' :: rest ∧ '\x7d' ∈ rest := by
      cases s with
      | nil => cases read
      | cons c rest =>
        rw [readVersionPlaceholder?] at read
        split at read
        · next opens =>
          split at read
          · next behind strip =>
            obtain ⟨first, whole, -⟩ := stripFolded?_eq_some_iff.mp strip
            have among : '\x7d' ∈ rest.dropWhile isWord := whole ▸ List.mem_append_right first List.mem_cons_self
            exact ⟨rest, by rw [opens.1], (List.dropWhile_sublist isWord).subset among⟩
          · cases read
        · cases read
    obtain ⟨rest, rfl, closed⟩ := closed
    obtain ⟨body, behind, rfl, unclosed⟩ := List.eq_append_cons_of_mem closed
    rw [readVersionPlaceholder?_closed unclosed] at read
    split at read
    · next names =>
      cases read
      exact ⟨body, rfl, unclosed, names⟩
    · cases read
  · rintro ⟨body, rfl, unclosed, names⟩
    rw [readVersionPlaceholder?_closed unclosed, if_pos names]

theorem versionMarks_meaning? {body : Text} {a : Mark} : versionMarks.meaning? body = some a ↔
    namesVersion body = true ∧ .version ('\x7b' :: (body ++ ['\x7d'])) = a := by
  simp [versionMarks]

theorem read?_versionMarks (s : Text) : versionMarks.read? s =
    (readVersionPlaceholder? s).map fun x => (.version (s.take (s.length - x.2.length)), x.2) := by
  have written (body after : Text) : ('\x7b' :: (body ++ '\x7d' :: after)).take
      (('\x7b' :: (body ++ '\x7d' :: after)).length - after.length) = '\x7b' :: (body ++ ['\x7d']) := by
    have whole : '\x7b' :: (body ++ '\x7d' :: after) = '\x7b' :: (body ++ ['\x7d']) ++ after := by simp
    rw [whole, List.length_append, Nat.add_sub_cancel, List.take_left]
  ext ⟨a, after⟩
  rw [Marks.read?_eq_some_iff, Option.map_eq_some_iff]
  constructor
  · rintro ⟨body, rfl, unclosed, means⟩
    obtain ⟨names, rfl⟩ := versionMarks_meaning?.mp means
    exact ⟨((), after), readVersionPlaceholder?_eq_some_iff.mpr ⟨body, rfl, unclosed, names⟩,
      by rw [Prod.mk.injEq]; exact ⟨congrArg Mark.version (written body after), rfl⟩⟩
  · rintro ⟨⟨u, behind⟩, read, same⟩
    cases same
    obtain ⟨body, rfl, unclosed, names⟩ := readVersionPlaceholder?_eq_some_iff.mp read
    exact ⟨body, rfl, unclosed, versionMarks_meaning?.mpr ⟨names, by rw [written]⟩⟩

/-- A text without version placeholders is one without such marks. -/
theorem hasVersionPlaceholder_eq_false_iff : hasVersionPlaceholder s = false ↔ versionMarks.Absent s := by
  have progress (s : Text) (u : Unit) (after : Text) (read : readVersionPlaceholder? s = some (u, after)) :
      after.length < s.length := by
    obtain ⟨body, rfl, -⟩ := readVersionPlaceholder?_eq_some_iff.mp read
    simp only [List.length_cons, List.length_append]
    omega
  have nothing := Text.found_pieces_eq_nil_iff progress s
  rw [hasVersionPlaceholder, Bool.not_eq_false', List.isEmpty_iff]
  refine nothing.trans (forall_congr' fun t => imp_congr_right fun _ => ?_)
  rw [read?_versionMarks, Option.map_eq_none_iff]

/-- The characters that open and close marks. -/
def delimiters : List Char := ['[', ']', '\x7b', '\x7d']

theorem delimiter_plain {c : Char} (delimiter : c ∈ delimiters) :
    c.toNat < 0x80 ∧ c.isLower = false ∧ isWord c = false ∧ (isDecimal c || c == '.') = false := by
  simp only [delimiters, List.mem_cons, List.not_mem_nil, or_false] at delimiter
  rcases delimiter with rfl | rfl | rfl | rfl <;> decide

/-- Names of word characters hold none of them in lower case. -/
theorem not_mem_lowered {c : Char} (delimiter : c ∈ delimiters) (words : ∀ d ∈ name, isWord d = true) (suffix : Text) :
    c ∉ Text.toLower (dropSuffix suffix name) := by
  obtain ⟨ascii, letter, not_word, -⟩ := delimiter_plain delimiter
  intro among
  have kept : c ∈ name := by
    have before := Text.mem_of_mem_toLower ascii letter among
    rw [dropSuffix] at before
    split at before
    · exact List.mem_of_mem_take before
    · exact before
  rw [words c kept] at not_word
  cases not_word

/-- What a version is made of. -/
structure IsVersion (version : Text) : Prop where
  nonempty : version ≠ []
  chars : ∀ c ∈ version, (isDecimal c || c == '.') = true

theorem IsVersion.not_mem {version : Text} {c : Char} (isVersion : IsVersion version) (delimiter : c ∈ delimiters) :
    c ∉ version := by
  intro among
  have here := isVersion.chars c among
  rw [(delimiter_plain delimiter).2.2.2] at here
  cases here

theorem isVersion_of_readApiVersion? {version : Text} (read : Source.readApiVersion? s = some version) :
    IsVersion version := by
  simp only [Source.readApiVersion?, Option.bind_eq_bind, Option.bind_eq_some_iff] at read
  obtain ⟨_, -, _, -, rest, -, read⟩ := read
  split at read
  · cases read
  · split at read
    · next conditions =>
      cases read
      exact ⟨conditions.2.1, fun c among => List.mem_takeWhile_imp (p := fun c => isDecimal c || c == '.') among⟩
    · cases read

theorem exists_attribute_of_versionIn? {window above : List Text} {version : Text}
    (found : versionIn? window above = some version) : ∃ line, Source.apiVersionAttribute? line = some version := by
  fun_induction versionIn? window above with
  | case1 | case2 => cases found
  | case3 _ _ _ _ _ ih => exact ih found
  | case4 _ _ _ _ _ _ here => exact ⟨_, here.trans found⟩
  | case5 => cases found
  | case6 _ _ _ _ _ _ _ ih => exact ih found

theorem exists_attribute_of_versionOfClass? {window above : List Text} {version : Text}
    (found : versionOfClass? window above = some version) : ∃ line, Source.apiVersionAttribute? line = some version := by
  fun_induction versionOfClass? window above with
  | case1 | case2 => cases found
  | case3 => exact exists_attribute_of_versionIn? found
  | case4 _ _ _ _ _ ih => exact ih found

/-- The versions that attributes give are digits and dots. -/
theorem isVersion_of_version? {p : Parts} {version : Text} (found : p.version? = some version) : IsVersion version := by
  obtain ⟨line, given⟩ := exists_attribute_of_versionOfClass? found
  obtain ⟨⟨n, _⟩, here, rfl⟩ := Option.map_eq_some_iff.mp given
  obtain ⟨_, _, _, -, -, read⟩ := Text.firstMatch?_eq_some here
  exact isVersion_of_readApiVersion? read

end EndpointConsole.Route
