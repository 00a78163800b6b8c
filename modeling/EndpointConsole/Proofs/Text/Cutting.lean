import EndpointConsole.Text
import Mathlib.Data.List.TakeWhile

/-!
Cutting a text undoes putting it together. A text that was joined from pieces
without the separator is cut into the same pieces (`splitOn_joinWith`), the first
separator is where a text is cut in two (`cutAt?_append`, `before_append`), and
trimming leaves a text without white space as it is. A pattern is found wherever
it stands (`contains_iff`).
-/
namespace EndpointConsole.Text

section
variable {α : Type} [DecidableEq α]

theorem splitOn_of_not_mem {sep : α} {piece : List α} (absent : sep ∉ piece) : splitOn sep piece = [piece] := by
  induction piece with
  | nil => rfl
  | cons c rest ih =>
    rw [List.mem_cons, not_or] at absent
    rw [splitOn, if_neg (Ne.symm absent.1), ih absent.2]

theorem splitOn_append {sep : α} {piece : List α} (absent : sep ∉ piece) (rest : List α) :
    splitOn sep (piece ++ sep :: rest) = piece :: splitOn sep rest := by
  induction piece with
  | nil => rw [List.nil_append, splitOn, if_pos rfl]
  | cons c more ih =>
    rw [List.mem_cons, not_or] at absent
    rw [List.cons_append, splitOn, if_neg (Ne.symm absent.1), ih absent.2]

end

theorem mem_joinWith {sep c : Char} {pieces : List Text} (member : c ∈ joinWith [sep] pieces) :
    c = sep ∨ ∃ piece ∈ pieces, c ∈ piece := by
  fun_induction joinWith [sep] pieces with
  | case1 => cases member
  | case2 s => exact .inr ⟨s, List.mem_cons_self, member⟩
  | case3 s t rest ih =>
    rw [List.mem_append, List.mem_append, List.mem_singleton] at member
    rcases member with (first | separator) | later
    · exact .inr ⟨s, List.mem_cons_self, first⟩
    · exact .inl separator
    · rcases ih later with separator | ⟨piece, among, inside⟩
      · exact .inl separator
      · exact .inr ⟨piece, List.mem_cons_of_mem _ among, inside⟩

/-- Pieces that do not hold the separator are what the joined text is cut into. -/
theorem splitOn_joinWith {sep : Char} {pieces : List Text} (some_piece : pieces ≠ [])
    (absent : ∀ piece ∈ pieces, sep ∉ piece) : splitOn sep (joinWith [sep] pieces) = pieces := by
  fun_induction joinWith [sep] pieces with
  | case1 => exact absurd rfl some_piece
  | case2 s => exact splitOn_of_not_mem (absent s List.mem_cons_self)
  | case3 s t rest ih =>
    have tail := ih (List.cons_ne_nil t rest) fun piece among => absent piece (List.mem_cons_of_mem _ among)
    rw [List.append_assoc, List.singleton_append, splitOn_append (absent s List.mem_cons_self), tail]

theorem cutAt?_append {sep : Char} {first : Text} (absent : sep ∉ first) (rest : Text) :
    cutAt? sep (first ++ sep :: rest) = some (first, rest) := by
  induction first with
  | nil => rw [List.nil_append, cutAt?, if_pos rfl]
  | cons c more ih =>
    rw [List.mem_cons, not_or] at absent
    rw [List.cons_append, cutAt?, if_neg (Ne.symm absent.1), ih absent.2]
    rfl

theorem cutAt?_eq_some_iff {sep : Char} {s first rest : Text} :
    cutAt? sep s = some (first, rest) ↔ s = first ++ sep :: rest ∧ sep ∉ first := by
  constructor
  · intro cut
    induction s generalizing first with
    | nil => cases cut
    | cons c more ih =>
      rw [cutAt?] at cut
      split at cut
      · next same =>
        cases cut
        exact ⟨by rw [same, List.nil_append], List.not_mem_nil⟩
      · next other =>
        simp only [Option.map_eq_some_iff, Prod.exists, Prod.mk.injEq] at cut
        obtain ⟨front, _, tail, rfl, rfl⟩ := cut
        obtain ⟨whole, absent⟩ := ih tail
        refine ⟨by rw [whole, List.cons_append], ?_⟩
        rw [List.mem_cons, not_or]
        exact ⟨Ne.symm other, absent⟩
  · rintro ⟨rfl, absent⟩
    exact cutAt?_append absent rest

/-- The first separator tells what stands before it from what stands after it. -/
theorem append_separator_inj {sep : Char} {a b s t : Text} (left : sep ∉ a) (right : sep ∉ b) :
    a ++ sep :: s = b ++ sep :: t ↔ a = b ∧ s = t := by
  constructor
  · intro whole
    have cut := cutAt?_append left s
    rw [whole, cutAt?_append right] at cut
    cases cut
    exact ⟨rfl, rfl⟩
  · rintro ⟨rfl, rfl⟩
    rfl

theorem cutAt?_of_not_mem {sep : Char} {s : Text} (absent : sep ∉ s) : cutAt? sep s = none := by
  rw [Option.eq_none_iff_forall_ne_some]
  rintro ⟨first, rest⟩ cut
  rw [(cutAt?_eq_some_iff.mp cut).1] at absent
  exact absent (List.mem_append_right first List.mem_cons_self)

theorem before_of_not_mem {sep : Char} {s : Text} (absent : sep ∉ s) : before sep s = s := by
  rw [before, List.takeWhile_eq_self_iff]
  intro c among
  exact decide_eq_true fun same => absurd (same ▸ among) absent

theorem before_append {sep : Char} {first : Text} (absent : sep ∉ first) (rest : Text) :
    before sep (first ++ sep :: rest) = first := by
  induction first with
  | nil => simp [before]
  | cons c more ih =>
    rw [List.mem_cons, not_or] at absent
    rw [before, List.cons_append, List.takeWhile_cons_of_pos (by simpa using Ne.symm absent.1)]
    exact congrArg (c :: ·) (ih absent.2)

theorem isBlank_of_printable {c : Char} (low : 0x21 ≤ c.toNat) (high : c.toNat < 0x80) : isBlank c = false := by
  simp only [isBlank, Bool.or_eq_false_iff, Bool.and_eq_false_iff, decide_eq_false_iff_not, beq_eq_false_iff_ne]
  omega

theorem dropEndWhile_of_all_not {p : Char → Bool} {s : Text} (outside : ∀ c ∈ s, p c = false) :
    dropEndWhile p s = s := by
  have kept : s.reverse.dropWhile p = s.reverse := by
    rw [List.dropWhile_eq_self_iff]
    intro nonempty
    rw [outside _ (List.mem_reverse.mp (List.getElem_mem nonempty))]
    exact Bool.false_ne_true
  rw [dropEndWhile, kept, List.reverse_reverse]

theorem trim_of_no_blank {s : Text} (outside : ∀ c ∈ s, isBlank c = false) : trim s = s := by
  have start : trimStart s = s := by
    rw [trimStart, List.dropWhile_eq_self_iff]
    intro nonempty
    rw [outside _ (List.getElem_mem nonempty)]
    exact Bool.false_ne_true
  rw [trim, start, trimEnd, dropEndWhile_of_all_not outside]

theorem blank_of_trim {s : Text} (empty : trim s = []) : ∀ c ∈ s, isBlank c = true := by
  rw [trim, trimEnd, dropEndWhile, List.reverse_eq_nil_iff, List.dropWhile_eq_nil_iff] at empty
  rw [← List.dropWhile_eq_nil_iff]
  by_contra solid
  -- what is left in front begins with a character that is not blank
  have first := List.head_dropWhile_not isBlank solid
  have blank := empty ((s.dropWhile isBlank).head solid) (List.mem_reverse.mpr (List.head_mem solid))
  rw [first] at blank
  cases blank

theorem stripStart?_of_not_mem {c : Char} {s : Text} (absent : c ∉ s) : stripStart? [c] s = none := by
  cases s with
  | nil => rfl
  | cons d rest =>
    rw [List.mem_cons, not_or] at absent
    rw [stripStart?, if_neg absent.1]

theorem eq_append_of_stripStart? {start s rest : Text} (found : stripStart? start s = some rest) :
    s = start ++ rest := by
  fun_induction stripStart? start s with
  | case1 s => exact Option.some.inj found
  | case2 => cases found
  | case3 start c s ih => rw [ih found, List.cons_append]
  | case4 => cases found

theorem stripStart?_append_self (start s : Text) : stripStart? start (start ++ s) = some s := by
  induction start with
  | nil => rfl
  | cons c start ih => rw [List.cons_append, stripStart?, if_pos rfl, ih]

theorem eq_cons_of_stripStart? {c : Char} {s rest : Text} (found : stripStart? [c] s = some rest) : s = c :: rest :=
  eq_append_of_stripStart? found

theorem isSome_stripStart? (start s : Text) : (stripStart? start s).isSome = true ↔ start <+: s := by
  fun_induction stripStart? start s with
  | case1 s => simp
  | case2 => simp
  | case3 a start s ih => rw [ih, List.prefix_cons_inj]
  | case4 a start c s other => simp [List.cons_prefix_cons, other]

theorem contains_iff (pattern s : Text) : contains pattern s = true ↔ pattern <:+: s := by
  rw [contains]
  induction s with
  | nil => cases pattern <;> simp [cutAround?]
  | cons c rest ih =>
    rw [List.infix_cons_iff, ← isSome_stripStart?, ← ih, cutAround?]
    cases stripStart? pattern (c :: rest) <;> simp

section
variable {p : Char → Bool} {c : Char}

/-- A character outside a class ends a run of that class. -/
theorem takeWhile_append_cons (stops : p c = false) (s t : Text) : (s ++ c :: t).takeWhile p = s.takeWhile p := by
  rw [List.takeWhile_append, List.takeWhile_cons_of_neg (by simp [stops]), List.append_nil]
  split
  · next whole =>
    refine (List.IsPrefix.eq_of_length ?_ whole).symm
    exact List.takeWhile_prefix p
  · rfl

theorem dropWhile_append_cons (stops : p c = false) (s t : Text) :
    (s ++ c :: t).dropWhile p = s.dropWhile p ++ c :: t := by
  rw [List.dropWhile_append, List.dropWhile_cons_of_neg (by simp [stops])]
  split
  · next emptied => rw [List.isEmpty_iff.mp emptied, List.nil_append]
  · rfl

end

end EndpointConsole.Text
