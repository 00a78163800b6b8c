import EndpointConsole.Proofs.Text.Cutting
import Mathlib.Data.List.Basic

/-!
Trimming a text that is cut at a separator. If the separator is no white space,
trimming reaches the first and the last piece only (`splitOn_trim`), so that the
pieces of a text and of the trimmed text stand at the same places.
-/
namespace EndpointConsole.Text

section
variable {α : Type} [DecidableEq α]

theorem splitOn_ne_nil (sep : α) (s : List α) : splitOn sep s ≠ [] := by
  cases s with
  | nil => exact List.cons_ne_nil _ _
  | cons c rest =>
    rw [splitOn]
    split
    · exact List.cons_ne_nil _ _
    · split <;> exact List.cons_ne_nil _ _

/-- A character other than the separator goes to the first piece. -/
theorem splitOn_cons {sep c : α} (other : c ≠ sep) (s : List α) :
    splitOn sep (c :: s) = (splitOn sep s).modify 0 (c :: ·) := by
  obtain ⟨piece, pieces, cut⟩ := List.exists_cons_of_ne_nil (splitOn_ne_nil sep s)
  rw [splitOn, if_neg other, cut]
  rfl

/-- A text is cut wherever a separator stands. -/
theorem splitOn_append_cons (sep : α) (a b : List α) : splitOn sep (a ++ sep :: b) = splitOn sep a ++ splitOn sep b := by
  induction a with
  | nil => simp [splitOn]
  | cons c rest ih =>
    by_cases same : c = sep
    · rw [List.cons_append, splitOn, splitOn, if_pos same, if_pos same, ih, List.cons_append]
    · obtain ⟨piece, pieces, cut⟩ := List.exists_cons_of_ne_nil (splitOn_ne_nil sep rest)
      rw [List.cons_append, splitOn_cons same, splitOn_cons same, ih, cut, List.cons_append, List.modify_zero_cons,
        List.modify_zero_cons, List.cons_append]

theorem not_mem_of_mem_splitOn {sep : α} {s piece : List α} (member : piece ∈ splitOn sep s) : sep ∉ piece := by
  induction s generalizing piece with
  | nil =>
    rw [splitOn, List.mem_singleton] at member
    exact member ▸ List.not_mem_nil
  | cons c rest ih =>
    by_cases same : c = sep
    · rw [splitOn, if_pos same, List.mem_cons] at member
      rcases member with rfl | later
      · exact List.not_mem_nil
      · exact ih later
    · obtain ⟨first, pieces, cut⟩ := List.exists_cons_of_ne_nil (splitOn_ne_nil sep rest)
      rw [splitOn_cons same, cut, List.modify_zero_cons, List.mem_cons] at member
      rcases member with rfl | later
      · rw [List.mem_cons, not_or]
        exact ⟨Ne.symm same, ih (cut ▸ List.mem_cons_self)⟩
      · exact ih (cut ▸ List.mem_cons_of_mem _ later)

theorem mem_of_mem_splitOn {sep c : α} {s piece : List α} (among : piece ∈ splitOn sep s) (inside : c ∈ piece) :
    c ∈ s := by
  induction s generalizing piece with
  | nil =>
    rw [splitOn, List.mem_singleton] at among
    exact among ▸ inside
  | cons d rest ih =>
    by_cases same : d = sep
    · rw [splitOn, if_pos same, List.mem_cons] at among
      rcases among with rfl | later
      · cases inside
      · exact List.mem_cons_of_mem d (ih later inside)
    · obtain ⟨first, pieces, cut⟩ := List.exists_cons_of_ne_nil (splitOn_ne_nil sep rest)
      rw [splitOn_cons same, cut, List.modify_zero_cons, List.mem_cons] at among
      rcases among with rfl | later
      · rcases List.mem_cons.mp inside with rfl | inside
        · exact List.mem_cons_self
        · exact List.mem_cons_of_mem d (ih (cut ▸ List.mem_cons_self) inside)
      · exact List.mem_cons_of_mem d (ih (cut ▸ List.mem_cons_of_mem _ later) inside)

end

theorem dropEndWhile_append {p : Char → Bool} {c : Char} (kept : p c = false) (s t : Text) :
    dropEndWhile p (s ++ c :: t) = s ++ c :: dropEndWhile p t := by
  have reversed : (s ++ c :: t).reverse = t.reverse ++ c :: s.reverse := by
    rw [List.reverse_append, List.reverse_cons, List.append_assoc, List.singleton_append]
  rw [dropEndWhile, reversed, List.dropWhile_append]
  split
  · next emptied =>
    rw [List.dropWhile_cons_of_neg (by simp [kept]), dropEndWhile, List.isEmpty_iff.mp emptied]
    simp
  · rw [dropEndWhile, List.reverse_append, List.reverse_cons, List.reverse_reverse, List.append_assoc,
      List.singleton_append]

theorem trimEnd_append {c : Char} (solid : isBlank c = false) (s t : Text) :
    trimEnd (s ++ c :: t) = s ++ c :: trimEnd t := dropEndWhile_append solid s t

theorem trimStart_append {c : Char} (solid : isBlank c = false) (s t : Text) :
    trimStart (s ++ c :: t) = trimStart s ++ c :: t := by
  rw [trimStart, List.dropWhile_append]
  split
  · next emptied =>
    rw [List.dropWhile_cons_of_neg (by simp [solid]), trimStart, List.isEmpty_iff.mp emptied]
    rfl
  · rfl

section
variable {p : Char → Bool} {f : Char → Char} {s : Text}

theorem dropWhile_map_of_same (same : ∀ c, p (f c) = p c) : (s.map f).dropWhile p = (s.dropWhile p).map f := by
  have composed : p ∘ f = p := funext same
  rw [List.dropWhile_map, composed]

theorem head?_any_map_of_same (same : ∀ c, p (f c) = p c) : (s.map f).head?.any p = s.head?.any p := by
  cases s with
  | nil => rfl
  | cons c rest => exact same c

theorem dropEndWhile_map_of_same (same : ∀ c, p (f c) = p c) : dropEndWhile p (s.map f) = (dropEndWhile p s).map f := by
  rw [dropEndWhile, ← List.map_reverse, dropWhile_map_of_same same, ← List.map_reverse]
  rfl

theorem trim_map_of_same (same : ∀ c, isBlank (f c) = isBlank c) : trim (s.map f) = (trim s).map f := by
  rw [trim, trimStart, trimEnd, dropWhile_map_of_same same, dropEndWhile_map_of_same same]
  rfl

theorem isPrefix_dropEndWhile (p : Char → Bool) (s : Text) : dropEndWhile p s <+: s := by
  rw [dropEndWhile, ← List.reverse_suffix, List.reverse_reverse]
  exact List.dropWhile_suffix p

/-- What is left ends outside the class. -/
theorem getLast?_dropEndWhile {c : Char} (inside : p c = true) : (dropEndWhile p s).getLast? ≠ some c := by
  rw [dropEndWhile, List.getLast?_reverse]
  intro last
  have outside := List.head?_dropWhile_not p s.reverse
  rw [last] at outside
  simp [inside] at outside

theorem dropEndWhile_append_of_all {ending : Text} (inside : ∀ c ∈ ending, p c = true) :
    dropEndWhile p (s ++ ending) = dropEndWhile p s := by
  rw [dropEndWhile, List.reverse_append, List.dropWhile_append_of_pos]
  · rfl
  · simpa using inside

/-- A text whose end trimming leaves as it is has no white space there. -/
theorem exists_last_of_trimEnd (filled : s ≠ []) (ends : trimEnd s = s) :
    ∃ front c, s = front ++ [c] ∧ isBlank c = false := by
  rcases s.eq_nil_or_concat' with rfl | ⟨front, c, rfl⟩
  · exact absurd rfl filled
  · refine ⟨front, c, rfl, ?_⟩
    by_contra blank
    have shorter : trimEnd (front ++ [c]) = trimEnd front := dropEndWhile_append_of_all (by simpa using blank)
    have most : (trimEnd front).length ≤ front.length := (isPrefix_dropEndWhile isBlank front).length_le
    rw [← shorter, ends, List.length_append, List.length_singleton] at most
    omega

end

theorem splitOn_trimStart {sep : Char} (solid : isBlank sep = false) (s : Text) :
    splitOn sep (trimStart s) = (splitOn sep s).modify 0 trimStart := by
  have absent_trimmed {s : Text} (absent : sep ∉ s) : sep ∉ trimStart s := fun member =>
    absent ((List.dropWhile_suffix isBlank).subset member)
  by_cases member : sep ∈ s
  · obtain ⟨first, rest, rfl, absent⟩ := List.eq_append_cons_of_mem member
    rw [trimStart_append solid, splitOn_append (absent_trimmed absent), splitOn_append absent,
      List.modify_zero_cons]
  · rw [splitOn_of_not_mem member, splitOn_of_not_mem (absent_trimmed member)]
    rfl

theorem splitOn_trimEnd {sep : Char} (solid : isBlank sep = false) (s : Text) :
    splitOn sep (trimEnd s) = (splitOn sep s).modify ((splitOn sep s).length - 1) trimEnd := by
  by_cases member : sep ∈ s
  · obtain ⟨first, rest, cut, absent⟩ := List.eq_append_cons_of_mem member
    have shorter : rest.length < s.length := by
      rw [cut, List.length_append, List.length_cons]
      omega
    have ih := splitOn_trimEnd solid rest
    have pieces : 0 < (splitOn sep rest).length := List.length_pos_iff.mpr (splitOn_ne_nil sep rest)
    have last : (splitOn sep rest).length = (splitOn sep rest).length - 1 + 1 := by omega
    rw [cut, trimEnd_append solid, splitOn_append absent, splitOn_append absent, ih, List.length_cons,
      Nat.add_sub_cancel]
    conv => rhs; rw [last, List.modify_succ_cons]
  · have absent : sep ∉ trimEnd s := by
      intro inside
      exact member ((isPrefix_dropEndWhile isBlank s).subset inside)
    rw [splitOn_of_not_mem member, splitOn_of_not_mem absent]
    rfl
termination_by s.length

end EndpointConsole.Text
