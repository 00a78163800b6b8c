import EndpointConsole.Proofs.Source.Margins
import EndpointConsole.Proofs.Text.Words

/-!
Names on a line. The name of a signature is a word between white space and an opening
parenthesis (`Signature.ofLine?_around`). A class header may stand before it, or after
the parenthesis, or end in the very name of the signature, if the type in front of it is
the class keyword (`controllerClass?_around`).
-/
namespace EndpointConsole

namespace Text

variable {α : Type} {read : Option Char → Text → Option α}

/-- What is found begins somewhere in the text. -/
theorem firstMatch?_eq_some {left : Option Char} {s : Text} {n : Nat} {x : α}
    (found : firstMatch? read left s = some (n, x)) : ∃ before rest last, s = before ++ rest ∧ before.length = n ∧
      read last rest = some x := by
  induction s generalizing left n with
  | nil =>
    obtain ⟨y, here, same⟩ := Option.map_eq_some_iff.mp found
    cases same
    exact ⟨[], [], left, rfl, rfl, here⟩
  | cons c rest ih =>
    rw [firstMatch?] at found
    cases here : read left (c :: rest) with
    | some y =>
      rw [here] at found
      cases found
      exact ⟨[], c :: rest, left, rfl, rfl, here⟩
    | none =>
      rw [here] at found
      obtain ⟨⟨m, y⟩, later, same⟩ := Option.map_eq_some_iff.mp found
      cases same
      obtain ⟨before, after, last, rfl, rfl, given⟩ := ih later
      exact ⟨c :: before, after, last, rfl, rfl, given⟩

/-- What a search finds that begins behind a given character. -/
def findBehind? (read : Option Char → Text → Option α) (left : Option Char) (s : Text) : Option α :=
  (firstMatch? read left s).map (·.2)

theorem findBehind?_cons (left : Option Char) (c : Char) (s : Text) :
    findBehind? read left (c :: s) = (read left (c :: s)).or (findBehind? read (some c) s) := by
  rw [findBehind?, findBehind?, firstMatch?]
  cases read left (c :: s) with
  | some x => rfl
  | none =>
    rw [Option.none_or, Option.map_map]
    rfl

end Text

namespace Source
open Text

/-- A line with a signature, cut at the ends of its name and at the parenthesis after it. -/
structure Signature.Around (line : Text) (s : Signature) (before gap rest : Text) : Prop where
  whole : line = before ++ s.name ++ gap ++ '(' :: rest
  column : before.length = s.column
  ends : EndsBlank before
  nonempty : s.name ≠ []
  word : ∀ c ∈ s.name, isWord c = true
  gap : IsBlank gap

namespace Signature

theorem exists_of_nameOfWords? {words : List Text} {name : Text} (named : nameOfWords? words = some name) :
    ∃ type more, words = name :: type :: more ∧ ∀ c ∈ name, isWord c = true := by
  unfold nameOfWords? at named
  split at named
  · next name' type more =>
    split at named
    · next fits =>
      cases named
      simp only [Bool.and_eq_true, List.all_eq_true] at fits
      exact ⟨type, more, rfl, fits.1.1⟩
    · cases named
  · cases named

/-- What is read as a signature goes up to the first parenthesis, and its last word is the name. -/
theorem read?_eq_some {s name : Text} {offset : Nat} (found : read? s = some (name, offset)) :
    ∃ before gap rest, s = before ++ name ++ gap ++ '(' :: rest ∧ before.length = offset ∧ EndsBlank before ∧
      name ≠ [] ∧ (∀ c ∈ name, isWord c = true) ∧ IsBlank gap := by
  unfold read? at found
  split at found
  · dsimp only at found
    split at found
    · next shorter =>
      split at found
      · cases found
      · next access words cut =>
        split at found
        · obtain ⟨name', named, same⟩ := Option.map_eq_some_iff.mp found
          obtain ⟨rfl, rfl⟩ := Prod.mk.inj same
          obtain ⟨type, more, backwards, word⟩ := exists_of_nameOfWords? named
          have front : Text.words (Text.before '(' s) = (access :: (more.reverse ++ [type])) ++ [name'] := by
            rw [cut, ← List.reverse_reverse words, backwards]
            simp
          obtain ⟨before, gap, declaration, blank, solid, nonempty, earlier, ends⟩ := exists_of_words_eq_concat front
          have started : before ≠ [] := by
            rintro rfl
            cases earlier
          have parenthesis : '(' ∈ s := by
            by_contra absent
            rw [before_of_not_mem absent] at shorter
            exact Nat.lt_irrefl _ shorter
          obtain ⟨first, rest, rfl, absent⟩ := List.eq_append_cons_of_mem parenthesis
          rw [before_append absent] at declaration
          have trimmed : trimEnd first = before ++ name' := by
            obtain ⟨init, c, rfl⟩ := List.eq_nil_or_concat name' |>.resolve_left nonempty
            rw [declaration, trimEnd_append_blank blank, List.concat_eq_append, ← List.append_assoc,
              trimEnd_append (solid c (by simp))]
            rfl
          refine ⟨before, gap, rest, by rw [declaration], ?_, ends.resolve_left started, nonempty, word, blank⟩
          rw [before_append absent, trimmed, List.length_append, Nat.add_sub_cancel]
        · cases found
    · cases found
  · cases found

theorem ofLine?_around {line : Text} {s : Signature} (signed : ofLine? line = some s) :
    ∃ before gap rest, Around line s before gap rest := by
  obtain ⟨⟨n, name, offset⟩, found, rfl⟩ := Option.map_eq_some_iff.mp signed
  obtain ⟨start, s, _, rfl, rfl, given⟩ := firstMatch?_eq_some found
  obtain ⟨before, gap, rest, rfl, rfl, ⟨c, last, blank⟩, nonempty, word, gap_blank⟩ := read?_eq_some given
  refine ⟨start ++ before, gap, rest, by simp, List.length_append, ⟨c, ?_, blank⟩, nonempty, word, gap_blank⟩
  rw [List.getLast?_append, last, Option.some_or]

end Signature

/-! ### Class headers around a name -/

/-- A name with something before its ending. -/
def IsControllerName (name : Text) : Prop := ∃ stem, stem ≠ [] ∧ name = stem ++ controllerSuffix

/-- A text that ends in the class keyword and white space, where a character stands to the left of it. -/
def EndsInKeyword (left : Option Char) (s : Text) : Prop :=
  ∃ outer gap, s = outer ++ classKeyword ++ gap ∧ IsBlank gap ∧ gap ≠ [] ∧ (outer.getLast?.or left).any isWord = false

/-- The class name that follows the keyword. -/
def nameAfter? (rest : Text) : Option Text :=
  let named := trimStart rest
  let name := named.takeWhile isWord
  if named.length < rest.length ∧ endsWith controllerSuffix name ∧ controllerSuffix.length < name.length
  then some name else none

theorem readControllerClass?_eq (left : Option Char) (s : Text) :
    readControllerClass? left s = (readClassKeyword? left s).bind nameAfter? := rfl

theorem isControllerName_iff {name : Text} :
    IsControllerName name ↔ endsWith controllerSuffix name = true ∧ controllerSuffix.length < name.length := by
  rw [endsWith, List.isSuffixOf_iff_suffix]
  constructor
  · rintro ⟨stem, nonempty, rfl⟩
    have longer := List.length_pos_iff.mpr nonempty
    exact ⟨List.suffix_append stem _, by rw [List.length_append]; omega⟩
  · rintro ⟨⟨stem, rfl⟩, longer⟩
    refine ⟨stem, ?_, rfl⟩
    rintro rfl
    exact Nat.lt_irrefl _ longer

section
variable {name gap rest a : Text}

theorem classKeyword_word : ∀ c ∈ classKeyword, isWord c = true := by
  have word : classKeyword.all isWord = true := by decide
  simpa using word

theorem takeWhile_isWord_append (word : ∀ c ∈ name, isWord c = true) (blank : IsBlank gap) (rest : Text) :
    (name ++ (gap ++ '(' :: rest)).takeWhile isWord = name := by
  have stop : (gap ++ '(' :: rest).takeWhile isWord = [] := by
    cases gap with
    | nil => exact List.takeWhile_cons_of_neg (by decide)
    | cons c more =>
      rw [List.cons_append, List.takeWhile_cons_of_neg (by simp [isWord_of_blank (blank c List.mem_cons_self)])]
  rw [List.takeWhile_append_of_pos word, stop, List.append_nil]

theorem trimStart_word_append (word : ∀ c ∈ name, isWord c = true) (nonempty : name ≠ []) (s : Text) :
    trimStart (name ++ s) = name ++ s := by
  obtain ⟨c, more, rfl⟩ := List.exists_cons_of_ne_nil nonempty
  refine List.dropWhile_cons_of_neg fun blank => ?_
  have first := word c List.mem_cons_self
  rw [isWord_of_blank blank] at first
  cases first

open scoped Classical in
/-- Between the keyword with white space and a parenthesis, a name is read if it is that of a controller. -/
theorem nameAfter?_blank (some_blank : a ≠ []) (before : IsBlank a) (word : ∀ c ∈ name, isWord c = true)
    (nonempty : name ≠ []) (blank : IsBlank gap) (rest : Text) :
    nameAfter? (a ++ (name ++ (gap ++ '(' :: rest))) = if IsControllerName name then some name else none := by
  have solid := trimStart_word_append word nonempty (gap ++ '(' :: rest)
  have shorter : (name ++ (gap ++ '(' :: rest)).length < (a ++ (name ++ (gap ++ '(' :: rest))).length := by
    have longer := List.length_pos_iff.mpr some_blank
    rw [@List.length_append _ a]
    omega
  simp only [nameAfter?, trimStart_blank_append before, solid, takeWhile_isWord_append word blank]
  by_cases controller : IsControllerName name
  · rw [if_pos controller]
    exact if_pos ⟨shorter, isControllerName_iff.mp controller⟩
  · rw [if_neg controller]
    exact if_neg fun named => controller (isControllerName_iff.mpr named.2)

theorem nameAfter?_of_blank (blank : IsBlank a) : nameAfter? a = none := by
  rw [nameAfter?, trimStart_of_blank blank]
  exact if_neg fun named => absurd named.2.2 (Nat.not_lt_zero _)

theorem nameAfter?_endsBlank (ends : EndsBlank a) (some_solid : ¬IsBlank a) (t : Text) :
    nameAfter? (a ++ t) = nameAfter? a := by
  have left_over : trimStart a ≠ [] := fun emptied => some_solid (List.dropWhile_eq_nil_iff.mp emptied)
  have kept : trimStart (a ++ t) = trimStart a ++ t := by
    have some_left : ¬(List.dropWhile isBlank a).isEmpty = true := mt List.isEmpty_iff.mp left_over
    rw [trimStart, List.dropWhile_append, if_neg some_left, trimStart]
  have ends' : EndsBlank (trimStart a) := by
    rw [← List.takeWhile_append_dropWhile (p := isBlank) (l := a)] at ends
    exact ends.of_append left_over
  simp only [nameAfter?, kept, ends'.takeWhile_isWord, List.length_append, Nat.add_lt_add_iff_right]

theorem readControllerClass?_keyword {left : Option Char} (outside : left.any isWord = false) (s : Text) :
    readControllerClass? left (classKeyword ++ s) = nameAfter? s := by
  rw [readControllerClass?_eq, readClassKeyword?, outside, if_neg Bool.false_ne_true, stripStart?_append_self,
    Option.bind_some]

/-- Before white space a header is read without what follows, unless it is but the keyword. -/
theorem readControllerClass?_endsBlank {left : Option Char} (ends : EndsBlank a)
    (longer : left.any isWord = false → ∀ gap, IsBlank gap → a ≠ classKeyword ++ gap) (t : Text) :
    readControllerClass? left (a ++ t) = readControllerClass? left a := by
  rw [readControllerClass?_eq, readControllerClass?_eq, readClassKeyword?, readClassKeyword?]
  by_cases inside : left.any isWord = true
  · rw [if_pos inside, if_pos inside]
  · rw [if_neg inside, if_neg inside, stripStart?_endsBlank classKeyword_solid ends]
    cases found : stripStart? classKeyword a with
    | none => rfl
    | some after =>
      have ends' := ends.of_stripStart? classKeyword_solid found
      refine nameAfter?_endsBlank ends' (fun blank => ?_) t
      exact longer (Bool.eq_false_iff.mpr inside) after blank (eq_append_of_stripStart? found)

theorem readControllerClass?_of_ne {c : Char} (other : 'c' ≠ c) (left : Option Char) (s : Text) :
    readControllerClass? left (c :: s) = none := by
  have keyword : stripStart? classKeyword (c :: s) = none := if_neg other
  rw [readControllerClass?_eq, readClassKeyword?, keyword, ite_self, Option.bind_none]

theorem findBehind?_of_not_mem (absent : 'c' ∉ a) (left : Option Char) :
    findBehind? readControllerClass? left a = none := by
  induction a generalizing left with
  | nil => rw [findBehind?, firstMatch?, readControllerClass?_ignores.empty]; rfl
  | cons c more ih =>
    rw [List.mem_cons, not_or] at absent
    rw [findBehind?_cons, readControllerClass?_of_ne absent.1, ih absent.2, Option.none_or]

/-- Nothing is declared by the keyword and white space alone. -/
theorem findBehind?_keyword (blank : IsBlank gap) (left : Option Char) :
    findBehind? readControllerClass? left (classKeyword ++ gap) = none := by
  have unnamed : readControllerClass? left (classKeyword ++ gap) = none := by
    by_cases inside : left.any isWord = true
    · rw [readControllerClass?_eq, readClassKeyword?, if_pos inside, Option.bind_none]
    · rw [readControllerClass?_keyword (Bool.eq_false_iff.mpr inside), nameAfter?_of_blank blank]
  have absent : 'c' ∉ "lass".toList ++ gap := by
    rw [List.mem_append, not_or]
    exact ⟨by decide, fun among => ne_of_blank (blank 'c' among) rfl rfl⟩
  have first : classKeyword ++ gap = 'c' :: ("lass".toList ++ gap) := rfl
  rw [first] at unnamed ⊢
  rw [findBehind?_cons, unnamed, findBehind?_of_not_mem absent, Option.none_or]

/-- What stands to the left does not matter at a gap or a parenthesis. -/
theorem findBehind?_after (blank : IsBlank gap) (left : Option Char) (rest : Text) :
    findBehind? readControllerClass? left (gap ++ '(' :: rest) = controllerClass? (gap ++ '(' :: rest) := by
  have at_first {c : Char} (other : 'c' ≠ c) (s : Text) :
      findBehind? readControllerClass? left (c :: s) = controllerClass? (c :: s) := by
    have line : controllerClass? (c :: s) = findBehind? readControllerClass? none (c :: s) := rfl
    rw [line, findBehind?_cons, findBehind?_cons, readControllerClass?_of_ne other, readControllerClass?_of_ne other]
  cases gap with
  | nil => exact at_first (by decide) rest
  | cons c more => exact at_first (ne_of_blank (blank c List.mem_cons_self) rfl).symm _

/-- No header begins within a name that a parenthesis follows. -/
theorem readControllerClass?_word (word : ∀ c ∈ name, isWord c = true) (blank : IsBlank gap) (left : Option Char)
    (rest : Text) : readControllerClass? left (name ++ (gap ++ '(' :: rest)) = none := by
  rw [readControllerClass?_eq, readClassKeyword?]
  by_cases inside : left.any isWord = true
  · rw [if_pos inside, Option.bind_none]
  · rw [if_neg inside]
    cases found : stripStart? classKeyword (name ++ (gap ++ '(' :: rest)) with
    | none => rfl
    | some after =>
      -- the name begins with the keyword, which no white space follows before the name goes on
      have whole := eq_append_of_stripStart? found
      have keyword := congrArg (List.takeWhile isWord) whole
      rw [takeWhile_isWord_append word blank, List.takeWhile_append_of_pos classKeyword_word] at keyword
      generalize after.takeWhile isWord = more at keyword
      rw [keyword, List.append_assoc] at whole
      rw [Option.bind_some, ← List.append_cancel_left whole]
      refine if_neg fun named => ?_
      by_cases ended : more = []
      · rw [ended, List.nil_append, trimStart_blank_append blank] at named
        exact absurd named.2.2 (Nat.not_lt_zero _)
      · have inside : ∀ c ∈ more, isWord c = true := fun c among =>
          word c (by rw [keyword]; exact List.mem_append_right _ among)
        rw [trimStart_word_append inside ended] at named
        exact Nat.lt_irrefl _ named.1

theorem findBehind?_word (word : ∀ c ∈ name, isWord c = true) (blank : IsBlank gap) (left : Option Char) (rest : Text) :
    findBehind? readControllerClass? left (name ++ (gap ++ '(' :: rest)) = controllerClass? (gap ++ '(' :: rest) := by
  induction name generalizing left with
  | nil => exact findBehind?_after blank left rest
  | cons c more ih =>
    have here := readControllerClass?_word word blank left rest
    rw [List.cons_append] at here ⊢
    rw [findBehind?_cons, here, ih fun d among => word d (List.mem_cons_of_mem c among)]
    rfl

theorem getLast?_cons_or (c : Char) (outer : Text) (left : Option Char) :
    (c :: outer).getLast?.or left = outer.getLast?.or (some c) := by
  rw [List.getLast?_cons]
  cases outer.getLast? <;> rfl

theorem endsInKeyword_cons {left : Option Char} {c : Char}
    (other : left.any isWord = false → ∀ gap, IsBlank gap → c :: a ≠ classKeyword ++ gap) :
    EndsInKeyword left (c :: a) ↔ EndsInKeyword (some c) a := by
  constructor
  · rintro ⟨outer, gap, whole, blank, some_blank, outside⟩
    cases outer with
    | nil => exact absurd whole (other outside gap blank)
    | cons d outer =>
      rw [List.cons_append, List.cons_append, List.cons.injEq] at whole
      obtain ⟨rfl, whole⟩ := whole
      rw [getLast?_cons_or] at outside
      exact ⟨outer, gap, whole, blank, some_blank, outside⟩
  · rintro ⟨outer, gap, rfl, blank, some_blank, outside⟩
    rw [← getLast?_cons_or c outer left] at outside
    exact ⟨c :: outer, gap, rfl, blank, some_blank, outside⟩

open scoped Classical in
/-- A class is looked for before the name, then in a header that ends in the name, then after it. -/
theorem findBehind?_around (ends : EndsBlank a) (left : Option Char) (word : ∀ c ∈ name, isWord c = true)
    (nonempty : name ≠ []) (blank : IsBlank gap) (rest : Text) :
    findBehind? readControllerClass? left (a ++ (name ++ (gap ++ '(' :: rest))) =
      (findBehind? readControllerClass? left a).or
        ((if EndsInKeyword left a ∧ IsControllerName name then some name else none).or
          (controllerClass? (gap ++ '(' :: rest))) := by
  induction a generalizing left with
  | nil => exact absurd rfl ends.ne_nil
  | cons c a ih =>
    -- what is found further on, by the induction unless the name comes next
    have further : findBehind? readControllerClass? (some c) (a ++ (name ++ (gap ++ '(' :: rest))) =
        (findBehind? readControllerClass? (some c) a).or
          ((if EndsInKeyword (some c) a ∧ IsControllerName name then some name else none).or
            (controllerClass? (gap ++ '(' :: rest))) := by
      by_cases last : a = []
      · have empty : ¬EndsInKeyword (some c) [] := by
          rintro ⟨outer, gap, whole, _, some_blank, _⟩
          exact some_blank (List.append_eq_nil_iff.mp whole.symm).2
        rw [last, List.nil_append, findBehind?_word word blank, findBehind?_of_not_mem List.not_mem_nil,
          if_neg fun header => empty header.1, Option.none_or, Option.none_or]
      · exact ih (EndsBlank.of_append (a := [c]) ends last) (some c)
    by_cases keyword : left.any isWord = false ∧ ∃ gap, IsBlank gap ∧ c :: a = classKeyword ++ gap
    · obtain ⟨outside, between, blank_between, whole⟩ := keyword
      have some_blank : between ≠ [] := by
        rintro rfl
        rw [whole, List.append_nil] at ends
        exact ends.not_solid classKeyword_solid
      have header : EndsInKeyword left (c :: a) := ⟨[], between, whole, blank_between, some_blank, outside⟩
      have here : readControllerClass? left (c :: a ++ (name ++ (gap ++ '(' :: rest))) =
          if IsControllerName name then some name else none := by
        rw [whole, List.append_assoc, readControllerClass?_keyword outside,
          nameAfter?_blank some_blank blank_between word nonempty blank]
      -- nothing is found before the name, neither from here nor further on
      have before := findBehind?_keyword blank_between left
      rw [← whole] at before
      obtain ⟨_, later⟩ := Option.or_eq_none_iff.mp ((findBehind?_cons left c a).symm.trans before)
      rw [List.cons_append] at here ⊢
      rw [findBehind?_cons, here, further, before, later]
      by_cases controller : IsControllerName name
      · rw [if_pos controller, if_pos (And.intro header controller), Option.some_or, Option.none_or, Option.some_or]
      · simp only [if_neg controller, if_neg fun named : _ ∧ _ => controller named.2, Option.none_or]
    · have longer : left.any isWord = false → ∀ gap, IsBlank gap → c :: a ≠ classKeyword ++ gap :=
        fun outside gap blank whole => keyword ⟨outside, gap, blank, whole⟩
      have here := readControllerClass?_endsBlank ends longer (name ++ (gap ++ '(' :: rest))
      rw [List.cons_append] at here ⊢
      simp only [findBehind?_cons, here, further, endsInKeyword_cons longer, Option.or_assoc]

end

/-- How the name of a signature can be that of the class found on its line. -/
inductive NamesClass (before name rest : Text) : Prop where
  /-- The keyword stands right before the name: what is read as a signature is a class header with a
      parameter list. -/
  | header (undeclared : controllerClass? before = none) (keyword : EndsInKeyword none before)
      (named : IsControllerName name)
  /-- A class of that name is declared before the signature's name. -/
  | behind (declared : controllerClass? before = some name)
  /-- The first class on the line is declared in the rest of it, and has that name. -/
  | ahead (undeclared : controllerClass? before = none) (declared : controllerClass? rest = some name)

open scoped Classical in
theorem controllerClass?_around {line : Text} {s : Signature} {before gap rest : Text}
    (around : s.Around line before gap rest) :
    controllerClass? line = some s.name ↔ NamesClass before s.name (gap ++ '(' :: rest) := by
  have found := findBehind?_around around.ends none around.word around.nonempty around.gap rest
  have whole : line = before ++ (s.name ++ (gap ++ '(' :: rest)) := by simp [around.whole]
  have onLine (t : Text) : findBehind? readControllerClass? none t = controllerClass? t := rfl
  rw [← whole, onLine, onLine] at found
  rw [found]
  constructor
  · intro declared
    cases first : controllerClass? before with
    | some name =>
      rw [first, Option.some_or] at declared
      exact .behind (first.trans declared)
    | none =>
      rw [first, Option.none_or] at declared
      by_cases header : EndsInKeyword none before ∧ IsControllerName s.name
      · exact .header first header.1 header.2
      · rw [if_neg header, Option.none_or] at declared
        exact .ahead first declared
  · rintro (⟨undeclared, keyword, named⟩ | declared | ⟨undeclared, declared⟩)
    · rw [undeclared, if_pos ⟨keyword, named⟩, Option.none_or, Option.some_or]
    · rw [declared, Option.some_or]
    · rw [undeclared, declared, Option.none_or]
      split <;> rfl

end Source

end EndpointConsole
