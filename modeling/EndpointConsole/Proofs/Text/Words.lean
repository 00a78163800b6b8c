import EndpointConsole.Proofs.Text.Blank

/-!
The words of a text. White space cuts them apart wherever it stands
(`words_append_cons`), and so does a gap of any length (`words_gap`). A text without white
space is a word of its own (`words_of_solid`), and trimming leaves a text alone that
has no white space at its ends (`Solid.trim`). The last word of a text stands at its end
(`exists_of_words_eq_concat`).
-/
namespace EndpointConsole.Text

variable {a b gap before s start t : Text}

theorem runsFrom_append_cons {p : Char → Bool} {c : Char} (ends : p c = true) (current a b : Text) :
    runsFrom p current (a ++ c :: b) = runsFrom p current a ++ runsFrom p [] b := by
  induction a generalizing current with
  | nil =>
    rw [List.nil_append, runsFrom, runsFrom, if_pos ends]
    split <;> rfl
  | cons d rest ih =>
    rw [List.cons_append, runsFrom, runsFrom]
    split
    · split
      · exact ih []
      · rw [ih, List.cons_append]
    · exact ih (d :: current)

/-- White space between two texts keeps their words apart. -/
theorem words_append_cons {c : Char} (blank : isBlank c = true) (a b : Text) :
    words (a ++ c :: b) = words a ++ words b := runsFrom_append_cons blank [] a b

theorem words_cons {c : Char} (blank : isBlank c = true) (s : Text) : words (c :: s) = words s :=
  words_append_cons blank [] s

theorem words_blank_append (blank : IsBlank before) (s : Text) : words (before ++ s) = words s := by
  induction before with
  | nil => rfl
  | cons c rest ih =>
    rw [List.cons_append, words_cons (blank c List.mem_cons_self),
      ih fun d among => blank d (List.mem_cons_of_mem c among)]

theorem words_gap (blank : IsBlank gap) (some_blank : gap ≠ []) (a b : Text) :
    words (a ++ gap ++ b) = words a ++ words b := by
  obtain ⟨c, rest, rfl⟩ := List.exists_cons_of_ne_nil some_blank
  rw [List.append_assoc, List.cons_append, words_append_cons (blank c List.mem_cons_self),
    words_blank_append fun d among => blank d (List.mem_cons_of_mem c among)]

theorem runsFrom_of_all_not {p : Char → Bool} {s : Text} (outside : ∀ c ∈ s, p c = false) (current : Text)
    (open_run : current.reverse ++ s ≠ []) : runsFrom p current s = [current.reverse ++ s] := by
  induction s generalizing current with
  | nil =>
    rw [List.append_nil, ne_eq, List.reverse_eq_nil_iff] at open_run
    rw [runsFrom, if_neg (by simpa using open_run), List.append_nil]
  | cons c rest ih =>
    have step := ih (fun d among => outside d (List.mem_cons_of_mem c among)) (c :: current) (by simp)
    rw [runsFrom, if_neg (by simp [outside c List.mem_cons_self]), step]
    simp

theorem runsFrom_ne_nil {p : Char → Bool} {current : Text} (started : current ≠ []) (s : Text) :
    runsFrom p current s ≠ [] := by
  induction s generalizing current with
  | nil =>
    rw [runsFrom, if_neg (by simpa using started)]
    exact List.cons_ne_nil _ _
  | cons c rest ih =>
    rw [runsFrom]
    split
    · rw [if_neg (by simpa using started)]
      exact List.cons_ne_nil _ _
    · exact ih (List.cons_ne_nil c current)

/-- A text without white space is one word. -/
theorem words_of_solid (solid : ∀ c ∈ s, isBlank c = false) (nonempty : s ≠ []) : words s = [s] :=
  runsFrom_of_all_not solid [] nonempty

/-- A text that neither begins nor ends with white space. -/
structure Solid (s : Text) : Prop where
  nonempty : s ≠ []
  first : isBlank (s.head nonempty) = false
  last : isBlank (s.getLast nonempty) = false

theorem Solid.of_all (solid : ∀ c ∈ s, isBlank c = false) (nonempty : s ≠ []) : Solid s :=
  ⟨nonempty, solid _ (List.head_mem nonempty), solid _ (List.getLast_mem nonempty)⟩

theorem Solid.singleton {c : Char} (solid : isBlank c = false) : Solid [c] := ⟨List.cons_ne_nil c [], solid, solid⟩

theorem Solid.between (first : Solid a) (last : Solid b) (middle : Text) : Solid (a ++ middle ++ b) where
  nonempty := by simp [first.nonempty]
  first := by simpa [List.head_append_of_ne_nil, first.nonempty] using first.first
  last := by simpa [List.getLast_append_of_ne_nil, last.nonempty] using last.last

theorem Solid.trimStart_append (solid : Solid s) (t : Text) : Text.trimStart (s ++ t) = s ++ t := by
  obtain ⟨c, rest, rfl⟩ := List.exists_cons_of_ne_nil solid.nonempty
  exact List.dropWhile_cons_of_neg (Bool.eq_false_iff.mp solid.first)

theorem Solid.trimStart (solid : Solid s) : trimStart s = s := by
  simpa using solid.trimStart_append []

theorem Solid.trim (solid : Solid s) : trim s = s := by
  have kept : s.reverse.dropWhile isBlank = s.reverse := by
    rw [List.dropWhile_eq_self_iff]
    intro inside
    rw [← List.head_eq_getElem (List.reverse_ne_nil_iff.mpr solid.nonempty), List.head_reverse, solid.last]
    exact Bool.false_ne_true
  rw [Text.trim, solid.trimStart, trimEnd, dropEndWhile, kept, List.reverse_reverse]

theorem Solid.words_ne_nil (solid : Solid s) : words s ≠ [] := by
  obtain ⟨c, rest, rfl⟩ := List.exists_cons_of_ne_nil solid.nonempty
  have first : ¬isBlank c = true := Bool.eq_false_iff.mp solid.first
  rw [words, runsFrom, if_neg first]
  exact runsFrom_ne_nil (List.cons_ne_nil c []) rest

/-- A text that ends in white space. -/
def EndsBlank (s : Text) : Prop := ∃ c, s.getLast? = some c ∧ isBlank c = true

theorem EndsBlank.ne_nil (ends : EndsBlank a) : a ≠ [] := by
  rintro rfl
  obtain ⟨c, last, _⟩ := ends
  cases last

/-- White space at the end is left when something else has gone. -/
theorem EndsBlank.of_append (ends : EndsBlank (a ++ t)) (rest : t ≠ []) : EndsBlank t := by
  obtain ⟨c, last, blank⟩ := ends
  rw [List.getLast?_append, List.getLast?_eq_some_getLast rest, Option.some_or] at last
  exact ⟨c, (List.getLast?_eq_some_getLast rest).trans last, blank⟩

theorem EndsBlank.not_solid (ends : EndsBlank a) : ¬∀ c ∈ a, isBlank c = false := by
  obtain ⟨c, last, blank⟩ := ends
  intro solid
  have here := solid c (List.mem_of_getLast? last)
  rw [blank] at here
  cases here

/-- What is read without white space does not reach beyond white space. -/
theorem stripStart?_endsBlank (solid : ∀ c ∈ start, isBlank c = false) (ends : EndsBlank a) (t : Text) :
    stripStart? start (a ++ t) = (stripStart? start a).map (· ++ t) := by
  fun_induction stripStart? start a with
  | case1 a => rw [stripStart?, Option.map_some]
  | case2 => exact absurd rfl ends.ne_nil
  | case3 start c a ih =>
    rw [List.cons_append, stripStart?, if_pos rfl]
    refine ih (fun d among => solid d (List.mem_cons_of_mem c among)) (EndsBlank.of_append (a := [c]) ends ?_)
    rintro rfl
    refine ends.not_solid fun d among => ?_
    rw [List.mem_singleton.mp among]
    exact solid c List.mem_cons_self
  | case4 a start c s other => rw [List.cons_append, stripStart?, if_neg other, Option.map_none]

theorem EndsBlank.of_stripStart? (solid : ∀ c ∈ start, isBlank c = false) (ends : EndsBlank a) {rest : Text}
    (found : stripStart? start a = some rest) : EndsBlank rest := by
  obtain rfl := eq_append_of_stripStart? found
  refine ends.of_append ?_
  rintro rfl
  rw [List.append_nil] at ends
  exact ends.not_solid solid

/-- A word ends at white space. -/
theorem EndsBlank.takeWhile_isWord (ends : EndsBlank a) (t : Text) :
    (a ++ t).takeWhile isWord = a.takeWhile isWord := by
  rw [List.takeWhile_append, if_neg]
  intro all
  obtain ⟨c, last, blank⟩ := ends
  have same := (List.takeWhile_prefix isWord).eq_of_length all
  have word := List.takeWhile_eq_self_iff.mp same c (List.mem_of_getLast? last)
  rw [isWord_of_blank blank] at word
  cases word

theorem words_of_blank (blank : IsBlank s) : words s = [] := by
  have alone := words_blank_append blank []
  rwa [List.append_nil] at alone

theorem words_append_blank (blank : IsBlank gap) (s : Text) : words (s ++ gap) = words s := by
  cases gap with
  | nil => rw [List.append_nil]
  | cons c rest =>
    rw [words_append_cons (blank c List.mem_cons_self),
      words_of_blank fun d among => blank d (List.mem_cons_of_mem c among), List.append_nil]

/-- Every text is white space, or has a last word with white space after it. -/
theorem blank_or_last_word (s : Text) :
    IsBlank s ∨ ∃ before w gap, s = before ++ w ++ gap ∧ IsBlank gap ∧ w ≠ [] ∧ (∀ c ∈ w, isBlank c = false) ∧
      (before = [] ∨ EndsBlank before) := by
  by_cases blank : s.reverse.dropWhile isBlank = []
  · exact .inl fun c among => List.dropWhile_eq_nil_iff.mp blank c (List.mem_reverse.mpr among)
  · have first := List.head_dropWhile_not isBlank blank
    generalize core : s.reverse.dropWhile isBlank = t at blank first
    refine .inr ⟨(t.dropWhile fun c => !isBlank c).reverse, (t.takeWhile fun c => !isBlank c).reverse,
      (s.reverse.takeWhile isBlank).reverse, ?_, ?_, ?_, ?_, ?_⟩
    · rw [← List.reverse_append, ← List.reverse_append, List.takeWhile_append_dropWhile, ← core,
        List.takeWhile_append_dropWhile, List.reverse_reverse]
    · exact fun c among => List.mem_takeWhile_imp (List.mem_reverse.mp among)
    · obtain ⟨c, rest, rfl⟩ := List.exists_cons_of_ne_nil blank
      rw [List.takeWhile_cons_of_pos (by simpa using first)]
      simp
    · exact fun c among => by simpa using List.mem_takeWhile_imp (List.mem_reverse.mp among)
    · by_cases none_left : t.dropWhile (fun c => !isBlank c) = []
      · exact .inl (by rw [none_left, List.reverse_nil])
      · have last := List.head_dropWhile_not (fun c => !isBlank c) none_left
        refine .inr ⟨_, ?_, by simpa using last⟩
        rw [List.getLast?_reverse, List.head?_eq_some_head none_left]

theorem words_append_solid {w : Text} (front : before = [] ∨ EndsBlank before) (nonempty : w ≠ [])
    (solid : ∀ c ∈ w, isBlank c = false) : words (before ++ w) = words before ++ [w] := by
  rcases front with rfl | ⟨c, last, blank⟩
  · exact words_of_solid solid nonempty
  · obtain ⟨start, rfl⟩ := List.getLast?_eq_some_iff.mp last
    have closing : IsBlank [c] := by simpa [IsBlank] using blank
    rw [List.append_assoc, List.singleton_append, words_append_cons blank, words_of_solid solid nonempty,
      words_append_blank closing]

/-- The last of the words of a text ends it, but for white space. -/
theorem exists_of_words_eq_concat {w : Text} {front : List Text} (cut : words s = front ++ [w]) :
    ∃ before gap, s = before ++ w ++ gap ∧ IsBlank gap ∧ (∀ c ∈ w, isBlank c = false) ∧ w ≠ [] ∧
      words before = front ∧ (before = [] ∨ EndsBlank before) := by
  rcases blank_or_last_word s with blank | ⟨before, last, gap, rfl, blank, nonempty, solid, ends⟩
  · rw [words_of_blank blank] at cut
    simp at cut
  · rw [words_append_blank blank, words_append_solid ends nonempty solid] at cut
    obtain ⟨same, rfl⟩ := List.append_inj' cut rfl |>.imp id List.singleton_inj.mp
    exact ⟨before, gap, rfl, blank, solid, nonempty, same, ends⟩

end EndpointConsole.Text
