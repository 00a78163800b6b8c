import EndpointConsole.Proofs.Source.Names

/-!
An attribute put before the signature of a method. Where nothing in its arguments is a signature or a class
header by itself, the line has the same signature as before, further to the right (`Insertion.ofLine?_annotated`),
and declares the same class (`Insertion.controllerClass?_annotated`).
-/
namespace EndpointConsole

namespace Text

variable {α : Type} {read : Text → Option α} {a s t : Text} {x : α}

/-- What ends a text that is put together ends its second part or begins within the first one. -/
theorem suffix_append_cases (suffix : t <:+ a ++ s) : t <:+ s ∨ ∃ b, b <:+ a ∧ b ≠ [] ∧ t = b ++ s := by
  obtain ⟨front, whole⟩ := suffix
  rcases List.append_eq_append_iff.mp whole with ⟨b, rfl, rfl⟩ | ⟨b, rfl, rfl⟩
  · by_cases empty : b = []
    · exact .inl ⟨[], by simp [empty]⟩
    · exact .inr ⟨b, List.suffix_append front b, empty, rfl⟩
  · exact .inl (List.suffix_append b t)

/-- A search that minds no character before it succeeds behind a text just if it succeeds there and nowhere within
    the text. -/
theorem firstMatch?_append_iff {left : Option Char} :
    firstMatch? (fun _ u => read u) left (a ++ s) = some (a.length, x) ↔
      (∀ t, t <:+ a → t ≠ [] → read (t ++ s) = none) ∧ read s = some x := by
  induction a generalizing left with
  | nil =>
    cases s with
    | nil => simp [firstMatch?]
    | cons c rest =>
      cases here : read (c :: rest) with
      | some y => simp [firstMatch?, here]
      | none => simp [firstMatch?, here]
  | cons c rest ih =>
    rw [List.cons_append, firstMatch?]
    cases here : read (c :: (rest ++ s)) with
    | some y =>
      refine iff_of_false (by simp) fun both => ?_
      have unread := both.1 (c :: rest) (List.suffix_refl _) (List.cons_ne_nil c rest)
      rw [List.cons_append, here] at unread
      cases unread
    | none =>
      have nowhere : (∀ t, t <:+ c :: rest → t ≠ [] → read (t ++ s) = none) ↔
          ∀ t, t <:+ rest → t ≠ [] → read (t ++ s) = none := by
        refine ⟨fun unread t suffix => unread t (suffix.trans (List.suffix_cons c rest)),
          fun unread t suffix some_text => ?_⟩
        rcases List.suffix_cons_iff.mp suffix with rfl | later
        · exact here
        · exact unread t later some_text
      rw [nowhere, ← @ih (some c), List.length_cons]
      cases firstMatch? (fun _ u => read u) (some c) (rest ++ s) with
      | none => simp
      | some found => simp [Prod.ext_iff]

theorem read_of_firstMatch?_eq_none {left : Option Char} (missed : firstMatch? (fun _ u => read u) left s = none)
    (suffix : t <:+ s) : read t = none := by
  induction s generalizing left with
  | nil =>
    rw [List.suffix_nil.mp suffix]
    exact Option.map_eq_none_iff.mp missed
  | cons c rest ih =>
    rw [firstMatch?] at missed
    cases here : read (c :: rest) with
    | some y =>
      rw [here] at missed
      cases missed
    | none =>
      rw [here] at missed
      rcases List.suffix_cons_iff.mp suffix with rfl | later
      · exact here
      · exact ih (Option.map_eq_none_iff.mp missed) later

theorem words_ne_nil {c : Char} (among : c ∈ s) (solid : isBlank c = false) : words s ≠ [] := by
  rcases blank_or_last_word s with blank | ⟨before, w, gap, rfl, blank, nonempty, inside, ends⟩
  · rw [blank c among] at solid
    cases solid
  · rw [words_append_blank blank, words_append_solid ends nonempty inside]
    simp

/-- The last word of a text has all the text behind its last white space. -/
theorem exists_last_word {w : Text} (nonempty : w ≠ []) (solid : ∀ c ∈ w, isBlank c = false) (b : Text) :
    ∃ front last, words (b ++ w) = front ++ [last] ∧ w <:+ last := by
  rcases blank_or_last_word (b ++ w) with blank | ⟨before, last, gap, whole, blank, some_last, inside, ends⟩
  · have first := List.head_mem nonempty
    have here := blank _ (List.mem_append_right b first)
    rw [solid _ first] at here
    cases here
  · have no_gap : gap = [] := by
      by_contra some_gap
      have same := congrArg List.getLast? whole
      rw [List.getLast?_append, List.getLast?_append, List.getLast?_eq_some_getLast nonempty,
        List.getLast?_eq_some_getLast some_gap, Option.some_or, Option.some_or, Option.some.injEq] at same
      have here := solid _ (List.getLast_mem nonempty)
      rw [same, blank _ (List.getLast_mem some_gap)] at here
      cases here
    rw [no_gap, List.append_nil] at whole
    refine ⟨words before, last, by rw [whole, words_append_solid ends some_last inside], ?_⟩
    rcases List.append_eq_append_iff.mp whole with ⟨more, rfl, rfl⟩ | ⟨more, rfl, rfl⟩
    · by_cases empty : more = []
      · subst empty
        exact List.suffix_refl last
      · -- a word that begins within `w` would have white space of `w` before it
        have ends := ends.resolve_left (List.append_ne_nil_of_right_ne_nil b empty)
        exact absurd (fun c among => solid c (List.mem_append_left last among)) (ends.of_append empty).not_solid
    · exact List.suffix_append more w

end Text

namespace Source
open Text

namespace Signature

/-! ### Declarations -/

/-- Reads what stands before the first parenthesis as the declaration of a method. -/
def readDeclaration? (s : Text) : Option (Text × Nat) :=
  if accessLevels.any (startsWith · s) then
    match words s with
    | [] => none
    | access :: rest =>
      if accessLevels.contains access then
        (nameOfWords? rest.reverse).map fun name => (name, (trimEnd s).length - name.length)
      else none
  else none

variable {a b s front w : Text} {x : Text × Nat}

theorem startsWith_parenthesis {start : Text} (absent : '(' ∉ start) (s rest : Text) :
    startsWith start (s ++ '(' :: rest) = startsWith start s := by
  induction start generalizing s with
  | nil => rfl
  | cons c start ih =>
    rw [List.mem_cons, not_or] at absent
    cases s with
    | nil =>
      have other : (c == '(') = false := beq_eq_false_iff_ne.mpr (Ne.symm absent.1)
      simp [startsWith, List.isPrefixOf, other]
    | cons d s =>
      have later := ih absent.2 s
      simp only [startsWith, List.cons_append, List.isPrefixOf_cons_cons] at later ⊢
      rw [later]

theorem accessLevels_plain : ∀ level ∈ accessLevels, '(' ∉ level ∧ level ∉ modifiers ∧ level ≠ asyncKeyword := by
  decide

/-- A signature is read off what stands before the first parenthesis. -/
theorem read?_parenthesis (absent : '(' ∉ s) (rest : Text) : read? (s ++ '(' :: rest) = readDeclaration? s := by
  have access : (accessLevels.any fun level => startsWith level (s ++ '(' :: rest)) =
      accessLevels.any fun level => startsWith level s := by
    rw [Bool.eq_iff_iff, List.any_eq_true, List.any_eq_true]
    refine exists_congr fun level => and_congr_right fun among => ?_
    rw [startsWith_parenthesis (accessLevels_plain level among).1]
  have shorter : s.length < (s ++ '(' :: rest).length := by
    rw [List.length_append, List.length_cons]
    omega
  simp only [read?, access, before_append absent, shorter, if_true]
  rfl

theorem read?_of_not_mem (absent : '(' ∉ s) : read? s = none := by
  rw [read?, before_of_not_mem absent]
  simp

theorem words_of_readDeclaration? (found : readDeclaration? s = some x) : ∃ access rest name,
    words s = access :: rest ∧ access ∈ accessLevels ∧ nameOfWords? rest.reverse = some name := by
  unfold readDeclaration? at found
  split at found
  · split at found
    · cases found
    · next access rest cut =>
      split at found
      · next level =>
        obtain ⟨name, named, -⟩ := Option.map_eq_some_iff.mp found
        exact ⟨access, rest, name, cut, by simpa using level, named⟩
      · cases found
  · cases found

/-- The last word of a declaration is a name, and words stand before it. -/
theorem name_of_readDeclaration? {front : List Text} (cut : words s = front ++ [w])
    (found : readDeclaration? s = some x) : front ≠ [] ∧ ∀ c ∈ w, isWord c = true := by
  obtain ⟨access, rest, name, words, -, named⟩ := words_of_readDeclaration? found
  obtain ⟨type, more, backwards, word⟩ := exists_of_nameOfWords? named
  have whole : front ++ [w] = (access :: (more.reverse ++ [type])) ++ [name] := by
    rw [← cut, words, ← List.reverse_reverse rest, backwards]
    simp
  obtain ⟨rfl, last⟩ := List.append_inj' whole rfl
  cases last
  exact ⟨List.cons_ne_nil _ _, word⟩

theorem mem_dropAsync {words : List Text} (other : w ≠ asyncKeyword) (among : w ∈ words) : w ∈ dropAsync words := by
  cases words with
  | nil => cases among
  | cons first rest =>
    rw [dropAsync]
    split
    · next keyword => exact (List.mem_cons.mp among).resolve_left fun same => other (same.trans keyword)
    · exact among

/-- A declaration has no other one behind its first word: its access level is no modifier. -/
theorem readDeclaration?_append (some_words : words a ≠ []) (declared : readDeclaration? b = some x) :
    readDeclaration? (a ++ ' ' :: b) = none := by
  obtain ⟨access, rest, name, cut, level, named⟩ := words_of_readDeclaration? declared
  obtain ⟨type, more, backwards, -⟩ := exists_of_nameOfWords? named
  obtain ⟨first, others, cut'⟩ := List.exists_cons_of_ne_nil some_words
  obtain ⟨-, unmodified, no_async⟩ := accessLevels_plain access level
  rw [Option.eq_none_iff_forall_ne_some]
  intro y found
  obtain ⟨access', rest', name', words, -, named'⟩ := words_of_readDeclaration? found
  rw [words_append_cons rfl, cut, cut', List.cons_append] at words
  obtain ⟨rfl, rfl⟩ := List.cons.inj words
  have whole : (others ++ access :: rest).reverse = name :: type :: (more ++ access :: others.reverse) := by
    rw [List.reverse_append, List.reverse_cons, backwards]
    simp
  rw [whole, nameOfWords?] at named'
  split at named'
  · next fits =>
    simp only [Bool.and_eq_true, List.all_eq_true] at fits
    have modifier := fits.2 access (mem_dropAsync no_async (by simp))
    exact unmodified (by simpa using modifier)
  · cases named'

/-- A declaration begins with its access level, which is a word. -/
theorem takeWhile_of_readDeclaration? (found : readDeclaration? s = some x) :
    trimStart s = s ∧ s.takeWhile isWord ∈ accessLevels := by
  obtain ⟨access, rest, name, cut, level, -⟩ := words_of_readDeclaration? found
  have word : (accessLevels.all fun level => level.all isWord) = true := by decide
  simp only [List.all_eq_true] at word
  have solid : trimStart s = s := by
    unfold readDeclaration? at found
    split at found
    · next starts =>
      obtain ⟨level, among, starts⟩ := List.any_eq_true.mp starts
      obtain ⟨more, rfl⟩ := List.isPrefixOf_iff_prefix.mp starts
      obtain ⟨solid, nonempty⟩ := accessLevels_solid level among
      exact (Solid.of_all solid nonempty).trimStart_append more
    · cases found
  refine ⟨solid, ?_⟩
  have whole := List.takeWhile_append_dropWhile (p := fun c => !isBlank c) (l := s)
  have first : ∀ c ∈ s.takeWhile fun c => !isBlank c, isBlank c = false := fun c among => by
    simpa using List.mem_takeWhile_imp among
  cases behind : s.dropWhile fun c => !isBlank c with
  | nil =>
    rw [behind, List.append_nil] at whole
    rw [whole] at first
    have nonempty : s ≠ [] := by
      rintro rfl
      cases cut
    rw [words_of_solid first nonempty] at cut
    obtain ⟨rfl, -⟩ := List.cons.inj cut
    rwa [List.takeWhile_eq_self_iff.mpr (word s level)]
  | cons c more =>
    have blank : isBlank c = true := by
      have last := List.head_dropWhile_not (fun c => !isBlank c) (l := s) (by simp [behind])
      simpa [behind] using last
    rw [behind] at whole
    have nonempty : (s.takeWhile fun c => !isBlank c) ≠ [] := by
      intro empty
      rw [empty, List.nil_append] at whole
      rw [← whole, trimStart, List.dropWhile_cons_of_pos blank] at solid
      have shorter := (List.dropWhile_suffix (l := more) isBlank).length_le
      rw [solid] at shorter
      exact Nat.not_succ_le_self _ shorter
    rw [← whole, words_append_cons blank, words_of_solid first nonempty] at cut
    obtain ⟨same, -⟩ := List.cons.inj cut
    rw [← whole, takeWhile_append_cons (isWord_of_blank blank), same, List.takeWhile_eq_self_iff.mpr (word access level)]
    exact level

end Signature

/-! ### Class headers -/

section
variable {left left' : Option Char} {d : Char} {s : Text}

/-- Of what stands to the left of a text only matters whether it is a part of a word. -/
theorem findBehind?_left (same : left.any isWord = left'.any isWord) (s : Text) :
    findBehind? readControllerClass? left s = findBehind? readControllerClass? left' s := by
  have here (t : Text) : readControllerClass? left t = readControllerClass? left' t := by
    rw [readControllerClass?_eq, readControllerClass?_eq, readClassKeyword?, readClassKeyword?, same]
  cases s with
  | nil => rw [findBehind?, findBehind?, firstMatch?, firstMatch?, here]
  | cons c rest => rw [findBehind?_cons, findBehind?_cons, here]

theorem stripStart?_append_cons {start : Text} (absent : d ∉ start) (s t : Text) :
    stripStart? start (s ++ d :: t) = (stripStart? start s).map (· ++ d :: t) := by
  induction start generalizing s with
  | nil => simp [stripStart?]
  | cons c start ih =>
    rw [List.mem_cons, not_or] at absent
    cases s with
    | nil => simp [stripStart?, Ne.symm absent.1]
    | cons e s =>
      rw [List.cons_append, stripStart?, stripStart?, ih absent.2]
      split <;> rfl

section
variable (outside : isWord d = false) (solid : isBlank d = false)
include outside solid

/-- A character that is neither white space nor part of a word ends a class header. -/
theorem readControllerClass?_append_cons (left : Option Char) (s t : Text) :
    readControllerClass? left (s ++ d :: t) = readControllerClass? left s := by
  have absent : d ∉ classKeyword := fun among => by
    rw [classKeyword_word d among] at outside
    cases outside
  have named (u : Text) : nameAfter? (u ++ d :: t) = nameAfter? u := by
    rw [nameAfter?, nameAfter?, trimStart, trimStart, dropWhile_append_cons solid]
    simp only [takeWhile_append_cons outside, List.length_append, Nat.add_lt_add_iff_right]
  rw [readControllerClass?_eq, readControllerClass?_eq, readClassKeyword?, readClassKeyword?]
  split
  · rfl
  · rw [stripStart?_append_cons absent]
    cases stripStart? classKeyword s with
    | none => rfl
    | some u => exact named u

theorem findBehind?_append_cons (left : Option Char) (s t : Text) :
    findBehind? readControllerClass? left (s ++ d :: t) =
      (findBehind? readControllerClass? left s).or (findBehind? readControllerClass? (s.getLast?.or left) (d :: t)) := by
  induction s generalizing left with
  | nil =>
    rw [findBehind?_of_not_mem List.not_mem_nil, Option.none_or]
    rfl
  | cons c rest ih =>
    have here := readControllerClass?_append_cons outside solid left (c :: rest) t
    rw [List.cons_append] at here ⊢
    rw [findBehind?_cons, findBehind?_cons, here, ih, Option.or_assoc, getLast?_cons_or]

end

theorem findBehind?_of_solid (solid : ∀ c ∈ s, isBlank c = false) (left : Option Char) :
    findBehind? readControllerClass? left s = none := by
  induction s generalizing left with
  | nil => exact findBehind?_of_not_mem List.not_mem_nil left
  | cons c rest ih =>
    have here : readControllerClass? left (c :: rest) = none := by
      rw [readControllerClass?_eq, readClassKeyword?]
      split
      · rfl
      · cases strip : stripStart? classKeyword (c :: rest) with
        | none => rfl
        | some u =>
          -- no white space follows the keyword
          have inside : ∀ d ∈ u, isBlank d = false := fun d among =>
            solid d (eq_append_of_stripStart? strip ▸ List.mem_append_right classKeyword among)
          have kept : trimStart u = u := by
            cases u with
            | nil => rfl
            | cons d more => exact List.dropWhile_cons_of_neg (by simp [inside d List.mem_cons_self])
          rw [Option.bind_some, nameAfter?, kept]
          exact if_neg fun named => Nat.lt_irrefl _ named.1
    rw [findBehind?_cons, here, ih fun d among => solid d (List.mem_cons_of_mem c among)]
    rfl

section
variable {declared : Text} (begins : trimStart declared = declared ∧ declared.takeWhile isWord ∈ Signature.accessLevels)
include begins

/-- No access level is the name of a controller. -/
theorem nameAfter?_declared {gap : Text} (blank : IsBlank gap) : nameAfter? (gap ++ declared) = none := by
  have unnamed : ∀ level ∈ Signature.accessLevels, endsWith controllerSuffix level = false := by decide
  rw [nameAfter?, trimStart_blank_append blank, begins.1]
  refine if_neg fun named => ?_
  rw [unnamed _ begins.2] at named
  exact Bool.false_ne_true named.2.1

theorem readControllerClass?_declared (left : Option Char) (outside : isWord d = false) (s : Text) :
    readControllerClass? left (s ++ d :: declared) = readControllerClass? left (s ++ [d]) := by
  by_cases blank : isBlank d = true
  · have ends : EndsBlank (s ++ [d]) := ⟨d, by simp, blank⟩
    have split : s ++ d :: declared = s ++ [d] ++ declared := by simp
    by_cases keyword : left.any isWord = false ∧ ∃ gap, IsBlank gap ∧ s ++ [d] = classKeyword ++ gap
    · obtain ⟨outside, gap, blank, whole⟩ := keyword
      rw [split, whole, List.append_assoc, readControllerClass?_keyword outside, readControllerClass?_keyword outside,
        nameAfter?_declared begins blank, nameAfter?_of_blank blank]
    · rw [split]
      exact readControllerClass?_endsBlank ends
        (fun outside gap blank whole => keyword ⟨outside, gap, blank, whole⟩) declared
  · have solid := Bool.eq_false_iff.mpr blank
    rw [readControllerClass?_append_cons outside solid, readControllerClass?_append_cons outside solid]

/-- A class is looked for before a declaration, and then from there on. -/
theorem findBehind?_declared (left : Option Char) (boundary : s.getLast?.any isWord = false) :
    findBehind? readControllerClass? left (s ++ declared) = (findBehind? readControllerClass? left s).or
      (findBehind? readControllerClass? (s.getLast?.or left) declared) := by
  induction s generalizing left with
  | nil =>
    rw [findBehind?_of_not_mem List.not_mem_nil, Option.none_or]
    rfl
  | cons c rest ih =>
    have here : readControllerClass? left (c :: rest ++ declared) = readControllerClass? left (c :: rest) := by
      obtain ⟨front, d, whole⟩ := List.eq_nil_or_concat (c :: rest) |>.resolve_left (List.cons_ne_nil c rest)
      rw [List.concat_eq_append] at whole
      rw [whole] at boundary ⊢
      have outside : isWord d = false := by simpa using boundary
      rw [List.append_assoc]
      exact readControllerClass?_declared begins left outside front
    have boundary' : rest.getLast?.any isWord = false := by
      cases rest with
      | nil => rfl
      | cons e more => rwa [List.getLast?_cons_cons] at boundary
    rw [List.cons_append] at here ⊢
    rw [findBehind?_cons, findBehind?_cons, here, ih _ boundary', Option.or_assoc, getLast?_cons_or]

end

end

/-! ### Attributes before a signature -/

/-- A line with a signature, cut where that begins, and an attribute to put there. -/
structure Insertion where
  start : Text
  declared : Text
  name : Text
  args : Text
  found : Text × Nat
  signed : firstMatch? (fun _ s => Signature.read? s) none (start ++ declared) = some (start.length, found)
  boundary : start.getLast?.any isWord = false
  nameChars : ∀ c ∈ name, isBlank c = false ∧ c ≠ '('
  unsigned : Signature.ofLine? args = none
  unclassed : controllerClass? args = none

namespace Insertion

variable (i : Insertion)

/-- The line as it was. -/
def line : Text := i.start ++ i.declared

/-- The section of the attribute and the space after it. -/
def attributeText : Text := '[' :: (i.name ++ '(' :: (i.args ++ [')', ']', ' ']))

/-- The line with the attribute. -/
def annotated : Text := i.start ++ (i.attributeText ++ i.declared)

theorem exists_declared : ∃ d rest, i.declared = d ++ '(' :: rest ∧ '(' ∉ d ∧
    Signature.readDeclaration? d = some i.found := by
  obtain ⟨-, here⟩ := firstMatch?_append_iff.mp i.signed
  have parenthesis : '(' ∈ i.declared := by
    by_contra absent
    rw [Signature.read?_of_not_mem absent] at here
    cases here
  obtain ⟨d, rest, whole, absent⟩ := List.eq_append_cons_of_mem parenthesis
  rw [whole, Signature.read?_parenthesis absent] at here
  exact ⟨d, rest, whole, absent, here⟩

theorem begins : trimStart i.declared = i.declared ∧ i.declared.takeWhile isWord ∈ Signature.accessLevels := by
  obtain ⟨d, rest, whole, -, here⟩ := i.exists_declared
  obtain ⟨solid, level⟩ := Signature.takeWhile_of_readDeclaration? here
  rw [whole]
  refine ⟨?_, by rwa [takeWhile_append_cons (by decide)]⟩
  rw [trimStart, dropWhile_append_cons (by decide)]
  exact congrArg (· ++ '(' :: rest) solid

theorem solid_name : ∀ c ∈ i.name, isBlank c = false := fun c among => (i.nameChars c among).1

theorem findBehind?_attributeText (left : Option Char) :
    findBehind? readControllerClass? left (i.attributeText ++ i.declared) =
      findBehind? readControllerClass? (some ' ') i.declared := by
  have outside : (some '(').any isWord = (none : Option Char).any isWord := rfl
  have undeclared : findBehind? readControllerClass? (some '(') i.args = none :=
    (findBehind?_left outside i.args).trans i.unclassed
  have split : i.attributeText ++ i.declared =
      '[' :: (i.name ++ '(' :: (i.args ++ ')' :: ']' :: ' ' :: i.declared)) := by simp [attributeText]
  have plain {c : Char} (other : 'c' ≠ c) (left : Option Char) (s : Text) :
      findBehind? readControllerClass? left (c :: s) = findBehind? readControllerClass? (some c) s := by
    rw [findBehind?_cons, readControllerClass?_of_ne other, Option.none_or]
  rw [split, plain (by decide), findBehind?_append_cons (by decide) (by decide), findBehind?_of_solid i.solid_name,
    Option.none_or, plain (by decide), findBehind?_append_cons (by decide) (by decide), undeclared, Option.none_or,
    plain (by decide), plain (by decide), plain (by decide)]

theorem controllerClass?_annotated : controllerClass? i.annotated = controllerClass? i.line := by
  have onLine (t : Text) : controllerClass? t = findBehind? readControllerClass? none t := rfl
  have bracketed : i.attributeText ++ i.declared = '[' :: (i.attributeText.tail ++ i.declared) := rfl
  have same : i.start.getLast?.any isWord = (some ' ').any isWord := i.boundary
  rw [onLine, onLine, line, annotated, findBehind?_declared i.begins none i.boundary, bracketed,
    findBehind?_append_cons (by decide) (by decide), ← bracketed, i.findBehind?_attributeText, Option.or_none,
    findBehind?_left same]

variable {b : Text}

theorem parenthesis_not_mem_name : '(' ∉ '[' :: i.name := by
  rw [List.mem_cons, not_or]
  exact ⟨by decide, fun among => (i.nameChars _ among).2 rfl⟩

theorem solid_bracket : ∀ c ∈ '[' :: i.name, isBlank c = false := List.forall_mem_cons.mpr ⟨rfl, i.solid_name⟩

/-- Up to the name of the attribute there is no name of a method. -/
theorem read?_bracket (absent : '(' ∉ b) (rest : Text) :
    Signature.read? (b ++ ('[' :: i.name ++ '(' :: rest)) = none := by
  have none_open : '(' ∉ b ++ '[' :: i.name := List.mem_append.not.mpr (not_or.mpr ⟨absent, i.parenthesis_not_mem_name⟩)
  obtain ⟨front, last, cut, ⟨more, rfl⟩⟩ := exists_last_word (List.cons_ne_nil '[' i.name) i.solid_bracket b
  rw [← List.append_assoc, Signature.read?_parenthesis none_open, Option.eq_none_iff_forall_ne_some]
  intro x found
  have word := (Signature.name_of_readDeclaration? cut found).2 '[' (by simp)
  exact absurd word (by decide)

theorem read?_start (suffix : b <:+ i.start) (some_text : b ≠ []) :
    Signature.read? (b ++ (i.attributeText ++ i.declared)) = none := by
  by_cases opens : '(' ∈ b
  · obtain ⟨d, rest, rfl, absent⟩ := List.eq_append_cons_of_mem opens
    have unread := (firstMatch?_append_iff.mp i.signed).1 _ suffix some_text
    rw [List.append_assoc, List.cons_append, Signature.read?_parenthesis absent] at unread ⊢
    exact unread
  · have split : i.attributeText ++ i.declared = '[' :: i.name ++ '(' :: (i.args ++ [')', ']', ' '] ++ i.declared) := by
      simp [attributeText]
    rw [split]
    exact i.read?_bracket opens _

theorem read?_name (suffix : b <:+ '[' :: i.name) (some_text : b ≠ []) (rest : Text) :
    Signature.read? (b ++ '(' :: rest) = none := by
  have absent : '(' ∉ b := fun among => i.parenthesis_not_mem_name (suffix.subset among)
  have solid : ∀ c ∈ b, isBlank c = false := fun c among => i.solid_bracket c (suffix.subset among)
  rw [Signature.read?_parenthesis absent, Option.eq_none_iff_forall_ne_some]
  intro x found
  have cut : words b = [] ++ [b] := words_of_solid solid some_text
  exact (Signature.name_of_readDeclaration? cut found).1 rfl

/-- In the arguments no signature begins, and none that would go on over the end of the attribute. -/
theorem read?_args (suffix : b <:+ i.args ++ [')', ']']) (some_text : b ≠ []) :
    Signature.read? (b ++ ' ' :: i.declared) = none := by
  by_cases opens : '(' ∈ b
  · obtain later | ⟨a, part, some_args, rfl⟩ := suffix_append_cases suffix
    · exact absurd (later.subset opens) (by decide)
    · have opens : '(' ∈ a := (List.mem_append.mp opens).resolve_right (by decide)
      have missed : firstMatch? (fun _ s => Signature.read? s) none i.args = none := Option.map_eq_none_iff.mp i.unsigned
      have unread := read_of_firstMatch?_eq_none missed part
      obtain ⟨d, rest, rfl, absent⟩ := List.eq_append_cons_of_mem opens
      rw [Signature.read?_parenthesis absent] at unread
      rw [List.append_assoc, List.append_assoc, List.cons_append, Signature.read?_parenthesis absent, unread]
  · obtain ⟨d, rest, whole, absent, declared⟩ := i.exists_declared
    have none_open : '(' ∉ b ++ ' ' :: d := by simp [opens, absent]
    have ends : ']' ∈ b := by
      have reshaped : i.args ++ [')', ']'] = i.args ++ [')'] ++ [']'] := by simp
      obtain last | ⟨a, -, -, rfl⟩ := suffix_append_cases (reshaped ▸ suffix)
      · rcases List.suffix_cons_iff.mp last with rfl | empty
        · exact List.mem_cons_self
        · exact absurd (List.suffix_nil.mp empty) some_text
      · simp
    rw [whole, ← List.cons_append, ← List.append_assoc, Signature.read?_parenthesis none_open]
    exact Signature.readDeclaration?_append (words_ne_nil ends rfl) declared

theorem read?_annotated {t : Text} (suffix : t <:+ i.start ++ i.attributeText) (some_text : t ≠ []) :
    Signature.read? (t ++ i.declared) = none := by
  obtain inside | ⟨b, part, some_start, rfl⟩ := suffix_append_cases suffix
  · have split : i.attributeText = ('[' :: i.name) ++ '(' :: (i.args ++ [')', ']'] ++ [' ']) := by simp [attributeText]
    rw [split] at inside
    obtain inside | ⟨b, part, some_name, rfl⟩ := suffix_append_cases inside
    · rcases List.suffix_cons_iff.mp inside with rfl | inside
      · exact Signature.read?_parenthesis (s := []) List.not_mem_nil _
      · obtain space | ⟨b, part, some_args, rfl⟩ := suffix_append_cases inside
        · obtain rfl : t = [' '] := by
            rcases List.suffix_cons_iff.mp space with same | empty
            · exact same
            · exact absurd (List.suffix_nil.mp empty) some_text
          exact Signature.read?_ignores.leading rfl none i.declared
        · rw [List.append_assoc]
          exact i.read?_args part some_args
    · rw [List.append_assoc, List.cons_append]
      exact i.read?_name part some_name _
  · rw [List.append_assoc]
    exact i.read?_start part some_start

theorem ofLine?_line : Signature.ofLine? i.line = some ⟨i.found.1, i.start.length + i.found.2⟩ := by
  rw [Signature.ofLine?, line, i.signed]
  rfl

/-- The line has the signature it had, further to the right. -/
theorem ofLine?_annotated :
    Signature.ofLine? i.annotated = some ⟨i.found.1, (i.start ++ i.attributeText).length + i.found.2⟩ := by
  have there : firstMatch? (fun _ s => Signature.read? s) none (i.start ++ i.attributeText ++ i.declared) =
      some ((i.start ++ i.attributeText).length, i.found) :=
    firstMatch?_append_iff.mpr ⟨fun t => i.read?_annotated, (firstMatch?_append_iff.mp i.signed).2⟩
  rw [Signature.ofLine?, annotated, ← List.append_assoc, there]
  rfl

end Insertion

end Source

end EndpointConsole
