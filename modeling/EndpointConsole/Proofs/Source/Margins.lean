import EndpointConsole.Proofs.Text.Blank
import EndpointConsole.Source.Comment
import EndpointConsole.Source.ClassHeader
import EndpointConsole.Source.Document
import EndpointConsole.Source.Signature

/-!
Source lines between margins. White space at the ends of a line, a carriage return
included, is seen by no recogniser that reads the line as it stands: the class
header (`controllerClass?_trim`), the marks of block comments (`blockAfter_trim`) and
the signature, whose column alone moves (`Signature.ofLine?_margins`).
-/
namespace EndpointConsole

namespace Text

variable {start before after : Text}

theorem stripStart?_append_blank (solid : ∀ c ∈ start, isBlank c = false) (blank : IsBlank after) (s : Text) :
    stripStart? start (s ++ after) = (stripStart? start s).map (· ++ after) := by
  fun_induction stripStart? start s with
  | case1 s => rw [stripStart?, Option.map_some]
  | case2 a start =>
    rw [List.nil_append, Option.map_none]
    cases after with
    | nil => rw [stripStart?]
    | cons c rest =>
      rw [stripStart?, if_neg]
      rintro rfl
      have first := solid a List.mem_cons_self
      rw [blank a List.mem_cons_self] at first
      cases first
  | case3 start c s ih =>
    rw [List.cons_append, stripStart?, if_pos rfl]
    exact ih fun d among => solid d (List.mem_cons_of_mem c among)
  | case4 a start c s other => rw [List.cons_append, stripStart?, if_neg other, Option.map_none]

theorem stripStart?_blank_cons {c : Char} (solid : ∀ c ∈ start, isBlank c = false) (some_start : start ≠ [])
    (blank : isBlank c = true) (s : Text) : stripStart? start (c :: s) = none := by
  cases start with
  | nil => exact absurd rfl some_start
  | cons a start =>
    rw [stripStart?, if_neg]
    rintro rfl
    have first := solid a List.mem_cons_self
    rw [blank] at first
    cases first

theorem startsWith_eq (start s : Text) : startsWith start s = (stripStart? start s).isSome := by
  rw [Bool.eq_iff_iff, isSome_stripStart?, startsWith, List.isPrefixOf_iff_prefix]

theorem takeWhile_isWord_append_blank (blank : IsBlank after) (s : Text) :
    (s ++ after).takeWhile isWord = s.takeWhile isWord := by
  have stop : after.takeWhile isWord = [] := by
    cases after with
    | nil => rfl
    | cons c rest => rw [List.takeWhile_cons_of_neg (by simp [isWord_of_blank (blank c List.mem_cons_self)])]
  rw [List.takeWhile_append, stop, List.append_nil]
  split
  · next all => exact (List.takeWhile_prefix isWord).eq_of_length all |>.symm
  · rfl

end Text

namespace Source
open Text

variable {before after : Text}

theorem classKeyword_solid : ∀ c ∈ classKeyword, isBlank c = false := by
  have solid : (classKeyword.all fun c => !isBlank c) = true := by decide
  simpa using solid

theorem readClassKeyword?_append_blank (blank : IsBlank after) (left : Option Char) (s : Text) :
    readClassKeyword? left (s ++ after) = (readClassKeyword? left s).map (· ++ after) := by
  rw [readClassKeyword?, readClassKeyword?]
  split
  · rfl
  · exact stripStart?_append_blank classKeyword_solid blank s

theorem readControllerClass?_append_blank (blank : IsBlank after) (left : Option Char) (s : Text) :
    readControllerClass? left (s ++ after) = readControllerClass? left s := by
  simp only [readControllerClass?, readClassKeyword?_append_blank blank]
  cases readClassKeyword? left s with
  | none => rfl
  | some rest =>
    simp only [Option.map_some, Option.bind_eq_bind, Option.bind_some]
    rcases trimStart_append_blank blank rest with kept | ⟨first, second⟩
    · rw [kept, takeWhile_isWord_append_blank blank]
      simp only [List.length_append, Nat.add_lt_add_iff_right]
    · rw [first, second, if_neg (fun named => absurd named.2.2 (Nat.not_lt_zero _)),
        if_neg (fun named => absurd named.2.2 (Nat.not_lt_zero _))]

theorem readControllerClass?_ignores : IgnoresMargins readControllerClass? where
  left blank s := by
    simp only [readControllerClass?, readClassKeyword?, Option.any_some, isWord_of_blank blank, Option.any_none]
  leading blank left s := by
    have keyword : stripStart? classKeyword (_ :: s) = none :=
      stripStart?_blank_cons classKeyword_solid (List.cons_ne_nil _ _) blank s
    simp only [readControllerClass?, readClassKeyword?, keyword, ite_self, Option.bind_eq_bind, Option.bind_none]
  empty left := by
    have keyword : stripStart? classKeyword [] = none := rfl
    simp only [readControllerClass?, readClassKeyword?, keyword, ite_self, Option.bind_eq_bind, Option.bind_none]
  trailing := readControllerClass?_append_blank

theorem controllerClass?_margins (blankBefore : IsBlank before) (blankAfter : IsBlank after) (s : Text) :
    controllerClass? (before ++ s ++ after) = controllerClass? s :=
  find?_margins readControllerClass?_ignores blankBefore blankAfter s

theorem controllerClass?_trim (line : Text) : controllerClass? (trim line) = controllerClass? line := by
  obtain ⟨before, after, blankBefore, blankAfter, whole⟩ := exists_margins line
  have around := controllerClass?_margins blankBefore blankAfter (trim line)
  rw [← whole] at around
  exact around.symm

/-- What a character and the next one say of block comments. -/
def markAt (c : Char) (next : Option Char) : Option Bool :=
  match c, next with
  | '/', some '*' => some true
  | '*', some '/' => some false
  | _, _ => none

theorem blockAfter_cons (c : Char) (s : Text) : blockAfter (c :: s) = (blockAfter s).or (markAt c s.head?) := by
  cases held : blockAfter s with
  | some inside =>
    unfold blockAfter
    rw [held]
    rfl
  | none =>
    unfold blockAfter
    rw [held]
    rfl

theorem markAt_first {c : Char} (slash : c ≠ '/') (star : c ≠ '*') (next : Option Char) : markAt c next = none := by
  unfold markAt
  split
  · exact absurd rfl slash
  · exact absurd rfl star
  · rfl

theorem markAt_next {next : Option Char} (slash : next ≠ some '/') (star : next ≠ some '*') (c : Char) :
    markAt c next = none := by
  unfold markAt
  split
  · exact absurd rfl star
  · exact absurd rfl slash
  · rfl

theorem blockAfter_blank (blank : IsBlank before) (s : Text) : blockAfter (before ++ s) = blockAfter s := by
  induction before with
  | nil => rfl
  | cons c rest ih =>
    have here := blank c List.mem_cons_self
    rw [List.cons_append, blockAfter_cons, markAt_first (ne_of_blank here rfl) (ne_of_blank here rfl), Option.or_none,
      ih fun d among => blank d (List.mem_cons_of_mem c among)]

theorem blockAfter_append_blank (blank : IsBlank after) (s : Text) : blockAfter (s ++ after) = blockAfter s := by
  induction s with
  | nil => rw [List.nil_append, ← List.append_nil after, blockAfter_blank blank]
  | cons c rest ih =>
    have next : markAt c (rest ++ after).head? = markAt c rest.head? := by
      cases rest with
      | cons d more => rfl
      | nil =>
        have other {d : Char} (solid : isBlank d = false) : after.head? ≠ some d := fun first =>
          ne_of_blank (blank d (List.mem_of_head? first)) solid rfl
        have last : markAt c none = none := markAt_next (by simp) (by simp) c
        rw [List.nil_append, markAt_next (other rfl) (other rfl), List.head?_nil, last]
    rw [List.cons_append, blockAfter_cons, blockAfter_cons, ih, next]

theorem blockAfter_trim (line : Text) : blockAfter (trim line) = blockAfter line := by
  obtain ⟨before, after, blankBefore, blankAfter, whole⟩ := exists_margins line
  have around := (blockAfter_append_blank blankAfter (before ++ trim line)).trans
    (blockAfter_blank blankBefore (trim line))
  rw [← whole] at around
  exact around.symm

namespace Signature

theorem accessLevels_solid : ∀ level ∈ accessLevels, (∀ c ∈ level, isBlank c = false) ∧ level ≠ [] := by
  have solid : (accessLevels.all fun level => (level.all fun c => !isBlank c) && !level.isEmpty) = true := by
    decide
  simpa using solid

theorem startsAccess_append_blank (blank : IsBlank after) (s : Text) :
    (accessLevels.any fun level => startsWith level (s ++ after)) = accessLevels.any fun level => startsWith level s := by
  rw [Bool.eq_iff_iff, List.any_eq_true, List.any_eq_true]
  refine exists_congr fun level => and_congr_right fun among => ?_
  rw [startsWith_eq, startsWith_eq, stripStart?_append_blank (accessLevels_solid level among).1 blank,
    Option.isSome_map]

theorem read?_append_blank (blank : IsBlank after) (s : Text) : read? (s ++ after) = read? s := by
  rw [read?, read?, startsAccess_append_blank blank]
  by_cases parenthesis : '(' ∈ s
  · obtain ⟨declaration, rest, rfl, absent⟩ := List.eq_append_cons_of_mem parenthesis
    have length : declaration.length < (declaration ++ '(' :: rest).length := by
      rw [List.length_append, List.length_cons]
      omega
    have length' : declaration.length < (declaration ++ '(' :: rest ++ after).length := by
      rw [List.length_append]
      omega
    have cut : Text.before '(' (declaration ++ '(' :: rest ++ after) = declaration := by
      rw [List.append_assoc, List.cons_append, before_append absent]
    simp only [before_append absent, cut, length, length']
  · have whole (t : Text) (absent : '(' ∉ t) : Text.before '(' t = t := by
      rw [Text.before, List.takeWhile_eq_self_iff]
      intro c among
      rw [decide_eq_true_eq]
      rintro rfl
      exact absent among
    have absent : '(' ∉ s ++ after := by
      rw [List.mem_append, not_or]
      exact ⟨parenthesis, fun among => ne_of_blank (blank '(' among) rfl rfl⟩
    simp only [whole s parenthesis, whole _ absent, lt_irrefl, if_false]

theorem read?_ignores : IgnoresMargins fun _ s => read? s where
  left _ _ := rfl
  leading {c} blank _ s := by
    have none_starts : (accessLevels.any fun level => startsWith level (c :: s)) = false := by
      rw [List.any_eq_false]
      intro level among
      rw [startsWith_eq, stripStart?_blank_cons (accessLevels_solid level among).1 (accessLevels_solid level among).2 blank]
      exact Bool.false_ne_true
    simp only [read?, none_starts, Bool.false_eq_true, if_false]
  empty _ := rfl
  trailing blank _ := read?_append_blank blank

theorem ofLine?_margins (blankBefore : IsBlank before) (blankAfter : IsBlank after) (s : Text) :
    ofLine? (before ++ s ++ after) =
      (ofLine? s).map fun found => { found with column := found.column + before.length } := by
  rw [ofLine?, ofLine?, firstMatch?_margins read?_ignores blankBefore blankAfter]
  cases firstMatch? (fun _ s => read? s) none s with
  | none => rfl
  | some found =>
    obtain ⟨start, name, offset⟩ := found
    simp only [Option.map_some, Option.some.injEq, Signature.mk.injEq, true_and]
    omega

end Signature

end Source

end EndpointConsole
