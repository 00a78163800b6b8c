import EndpointConsole.Proofs.Text.Marks

/-!
Replacing the occurrences of a pattern, and characters that stay as they are. What does not have some
character stands before it or behind it (`infix_append_cons_iff`), so that a character that is no part of a
mark sets the marks before it and behind it apart: they are written anew by themselves
(`Marks.Foreign.rewrite_append_cons`), and the character is not lost (`Marks.Foreign.count_le_rewrite`).
-/
namespace EndpointConsole

namespace Text

variable {pattern value s t : Text} {c : Char}

theorem replaceFrom_append (skipped s : Text) :
    replaceFrom pattern value skipped.length (skipped ++ s) = replace pattern value s := by
  induction skipped with
  | nil => rfl
  | cons c rest ih => exact ih

/-- An occurrence is replaced. -/
theorem replace_append (filled : pattern ≠ []) (s : Text) :
    replace pattern value (pattern ++ s) = value ++ replace pattern value s := by
  obtain ⟨c, rest, rfl⟩ := List.exists_cons_of_ne_nil filled
  have occurs : (!(c :: rest).isEmpty && (c :: rest).isPrefixOf (c :: (rest ++ s))) = true := by
    rw [Bool.and_eq_true]
    exact ⟨rfl, List.isPrefixOf_iff_prefix.mpr (List.prefix_append (c :: rest) s)⟩
  rw [List.cons_append, replace, replaceFrom, if_pos occurs, List.length_cons, Nat.add_sub_cancel, replaceFrom_append]

/-- A character that no occurrence begins with stays. -/
theorem replace_cons (absent : ¬pattern <+: c :: s) :
    replace pattern value (c :: s) = c :: replace pattern value s := by
  have passed : ¬(!pattern.isEmpty && pattern.isPrefixOf (c :: s)) = true := by
    rw [Bool.and_eq_true]
    exact fun occurs => absent (List.isPrefixOf_iff_prefix.mp occurs.2)
  rw [replace, replaceFrom, if_neg passed]
  rfl

/-- What is found before a character that it does not have. -/
theorem prefix_of_prefix_append_cons {part a b : Text} (foreign : c ∉ part) (starts : part <+: a ++ c :: b) :
    part <+: a := by
  have whole : a ++ [c] <+: a ++ c :: b := ⟨b, by rw [List.append_assoc, List.singleton_append]⟩
  rcases List.prefix_or_prefix_of_prefix starts whole with within | around
  · rcases List.prefix_concat_iff.mp within with rfl | within
    · exact absurd (List.mem_append_right a List.mem_cons_self) foreign
    · exact within
  · exact absurd (around.subset (List.mem_append_right a List.mem_cons_self)) foreign

/-- What does not have some character stands before it or behind it. -/
theorem infix_append_cons_iff {part a b : Text} (foreign : c ∉ part) (filled : part ≠ []) :
    part <:+: a ++ c :: b ↔ part <:+: a ∨ part <:+: b := by
  constructor
  · intro inside
    induction a with
    | nil =>
      rcases List.infix_cons_iff.mp inside with starts | later
      · exact absurd (List.prefix_nil.mp (prefix_of_prefix_append_cons (a := []) foreign starts)) filled
      · exact .inr later
    | cons d a ih =>
      rcases List.infix_cons_iff.mp inside with starts | later
      · exact .inl (prefix_of_prefix_append_cons (a := d :: a) foreign starts).isInfix
      · exact (ih later).imp_left fun here => here.trans (List.suffix_cons d a).isInfix
  · rintro (before | behind)
    · exact before.trans (List.prefix_append a (c :: b)).isInfix
    · exact behind.trans ((List.suffix_cons c b).trans (List.suffix_append a (c :: b))).isInfix

/-- A text is cut in one way at a character that stands as often before the cut. -/
theorem append_cons_inj_of_count {a b a' b' : Text} (same : a.count c = a'.count c) :
    a ++ c :: b = a' ++ c :: b' ↔ a = a' ∧ b = b' := by
  constructor
  · intro whole
    induction a generalizing a' with
    | nil =>
      cases a' with
      | nil => exact ⟨rfl, (List.cons.inj whole).2⟩
      | cons d a' =>
        rw [← (List.cons.inj whole).1, List.count_cons_self] at same
        cases same
    | cons d a ih =>
      cases a' with
      | nil =>
        rw [(List.cons.inj whole).1, List.count_cons_self] at same
        cases same
      | cons d' a' =>
        obtain ⟨rfl, rest⟩ := List.cons.inj whole
        have fewer : a.count c = a'.count c := by
          rw [List.count_cons, List.count_cons] at same
          exact Nat.add_right_cancel same
        obtain ⟨rfl, rfl⟩ := ih fewer rest
        exact ⟨rfl, rfl⟩
  · rintro ⟨rfl, rfl⟩
    rfl

namespace Marks

variable {α : Type} {m : Marks α} {write : α → Text} {a b after : Text} {x : α}

/-- A character that is no part of a mark of a kind. -/
structure Foreign (m : Marks α) (c : Char) : Prop where
  opening : c ≠ m.opening
  closing : c ≠ m.closing
  body : ∀ body x, m.meaning? body = some x → c ∉ body

/-- A mark that is read is followed by what is added behind. -/
theorem read?_append (read : m.read? a = some (x, after)) (b : Text) : m.read? (a ++ b) = some (x, after ++ b) := by
  obtain ⟨body, rfl, unclosed, means⟩ := read?_eq_some_iff.mp read
  exact read?_eq_some_iff.mpr ⟨body, by simp, unclosed, means⟩

/-- A mark does not reach over a character that is no part of it. -/
theorem Foreign.read?_append_cons (foreign : m.Foreign c) (unread : m.read? a = none) (filled : a ≠ []) (b : Text) :
    m.read? (a ++ c :: b) = none := by
  rw [Option.eq_none_iff_forall_ne_some]
  rintro ⟨x, after⟩ read
  obtain ⟨body, whole, unclosed, means⟩ := read?_eq_some_iff.mp read
  have apart : c ∉ m.opening :: (body ++ [m.closing]) := by
    simp only [List.mem_cons, List.mem_append, List.not_mem_nil, or_false, not_or]
    exact ⟨foreign.opening, foreign.body body x means, foreign.closing⟩
  have starts : m.opening :: (body ++ [m.closing]) <+: a ++ c :: b := ⟨after, by simp [whole]⟩
  obtain ⟨rest, rfl⟩ := prefix_of_prefix_append_cons apart starts
  have mark : m.read? (m.opening :: (body ++ [m.closing]) ++ rest) = some (x, rest) :=
    read?_eq_some_iff.mpr ⟨body, by simp, unclosed, means⟩
  rw [mark] at unread
  cases unread

/-- What stands before and behind a character that is no part of a mark is written anew apart. -/
theorem Foreign.rewrite_append_cons (foreign : m.Foreign c) (write : α → Text) (a b : Text) :
    rewrite [m] write (a ++ c :: b) = rewrite [m] write a ++ c :: rewrite [m] write b := by
  induction a using marked_induction [m] with
  | nil =>
    have plain : readAny? [m] (c :: b) = none := by rw [readAny?_singleton, read?_of_ne foreign.opening]
    rw [List.nil_append, rewrite_char plain, rewrite_nil, List.nil_append]
  | char d rest plain ih =>
    have unread : readAny? [m] (d :: (rest ++ c :: b)) = none := by
      rw [readAny?_singleton] at plain ⊢
      exact foreign.read?_append_cons plain (List.cons_ne_nil d rest) b
    rw [List.cons_append, rewrite_char unread, rewrite_char plain, ih, List.cons_append]
  | mark a x after read ih =>
    have further : readAny? [m] (a ++ c :: b) = some (x, after ++ c :: b) := by
      rw [readAny?_singleton] at read ⊢
      exact read?_append read (c :: b)
    rw [rewrite_mark further, rewrite_mark read, ih, List.append_assoc]

/-- No character is lost that is no part of a mark. -/
theorem Foreign.count_le_rewrite (foreign : m.Foreign c) (write : α → Text) (s : Text) :
    s.count c ≤ (rewrite [m] write s).count c := by
  induction s using marked_induction [m] with
  | nil => exact Nat.zero_le _
  | char d rest plain ih =>
    rw [rewrite_char plain, List.count_cons, List.count_cons]
    exact Nat.add_le_add_right ih _
  | mark s x after read ih =>
    rw [rewrite_mark read]
    rw [readAny?_singleton] at read
    obtain ⟨body, rfl, -, means⟩ := read?_eq_some_iff.mp read
    have none : (m.opening :: (body ++ m.closing :: after)).count c = after.count c := by
      rw [List.count_cons_of_ne foreign.opening.symm, List.count_append, List.count_cons_of_ne foreign.closing.symm,
        List.count_eq_zero.mpr (foreign.body body x means), Nat.zero_add]
    rw [none, List.count_append]
    exact Nat.le_add_left_of_le ih

end Marks

end Text

end EndpointConsole
