import EndpointConsole.Proofs.Text.Trimming
import EndpointConsole.Text.Search

/-!
White space at the ends of a text. Trimming takes all of it away and nothing else
(`trim_margins`, `exists_margins`). No white space is part of a word
(`isWord_of_blank`), so a recogniser that neither begins with white space nor looks
at what follows it finds the same thing between margins, moved to the right
(`firstMatch?_margins`).
-/
namespace EndpointConsole.Text

/-- A text that is white space from beginning to end. -/
def IsBlank (s : Text) : Prop := ∀ c ∈ s, isBlank c = true

theorem isBlank_nil : IsBlank [] := nofun

theorem IsBlank.append {before after : Text} (first : IsBlank before) (second : IsBlank after) :
    IsBlank (before ++ after) := List.forall_mem_append.mpr ⟨first, second⟩

/-- The code points of white space. -/
def blankPoints : List Nat :=
  [9, 10, 11, 12, 13, 0x20, 0x85, 0xA0, 0x1680, 0x2000, 0x2001, 0x2002, 0x2003, 0x2004, 0x2005, 0x2006, 0x2007, 0x2008,
    0x2009, 0x200A, 0x2028, 0x2029, 0x202F, 0x205F, 0x3000]

theorem mem_blankPoints {c : Char} (blank : isBlank c = true) : c.toNat ∈ blankPoints := by
  simp only [isBlank, Bool.or_eq_true, Bool.and_eq_true, decide_eq_true_eq, beq_iff_eq] at blank
  simp only [blankPoints, List.mem_cons, List.not_mem_nil, or_false]
  omega

theorem isWord_of_blank {c : Char} (blank : isBlank c = true) : isWord c = false := by
  have none_word : ∀ n ∈ blankPoints, isWord (Char.ofNat n) = false := by decide +kernel
  have here := none_word c.toNat (mem_blankPoints blank)
  rwa [Char.ofNat_toNat] at here

theorem ne_of_blank {c d : Char} (blank : isBlank c = true) (solid : isBlank d = false) : c ≠ d := by
  rintro rfl
  rw [blank] at solid
  cases solid

theorem not_blank_of_subset {s part : Text} (nonempty : part ≠ []) (solid : ∀ c ∈ part, isBlank c = false)
    (inside : part ⊆ s) : ¬IsBlank s := fun blank => by
  have first := List.head_mem nonempty
  have here := blank _ (inside first)
  rw [solid _ first] at here
  cases here

section
variable {before after s : Text}

theorem trimStart_of_blank (blank : IsBlank s) : trimStart s = [] := List.dropWhile_eq_nil_iff.mpr blank

theorem trimStart_blank_append (blank : IsBlank before) (s : Text) : trimStart (before ++ s) = trimStart s := by
  rw [trimStart, List.dropWhile_append, List.dropWhile_eq_nil_iff.mpr blank]
  rfl

theorem trimEnd_append_blank (blank : IsBlank after) (s : Text) : trimEnd (s ++ after) = trimEnd s :=
  dropEndWhile_append_of_all blank

/-- White space behind a text stays behind it at trimming the beginning, unless there is nothing else. -/
theorem trimStart_append_blank (blank : IsBlank after) (s : Text) :
    trimStart (s ++ after) = trimStart s ++ after ∨ (trimStart (s ++ after) = [] ∧ trimStart s = []) := by
  rw [trimStart, trimStart, List.dropWhile_append]
  split
  · next emptied => exact .inr ⟨List.dropWhile_eq_nil_iff.mpr blank, List.isEmpty_iff.mp emptied⟩
  · exact .inl rfl

theorem trim_margins (blankBefore : IsBlank before) (blankAfter : IsBlank after) (s : Text) :
    trim (before ++ s ++ after) = trim s := by
  rw [trim, trim, List.append_assoc, trimStart_blank_append blankBefore]
  rcases trimStart_append_blank blankAfter s with kept | ⟨first, second⟩
  · rw [kept, trimEnd_append_blank blankAfter]
  · rw [first, second]

theorem trim_append_blank (solid : ∀ c ∈ s, isBlank c = false) (blank : IsBlank after) : trim (s ++ after) = s := by
  have margins := trim_margins isBlank_nil blank s
  rwa [List.nil_append, trim_of_no_blank solid] at margins

theorem exists_margin (s : Text) : ∃ before, IsBlank before ∧ s = before ++ trimStart s :=
  ⟨s.takeWhile isBlank, fun _ among => List.mem_takeWhile_imp among, List.takeWhile_append_dropWhile.symm⟩

theorem trimStart_trimStart (s : Text) : trimStart (trimStart s) = trimStart s := by
  obtain ⟨before, blank, whole⟩ := exists_margin s
  have margin := trimStart_blank_append blank (trimStart s)
  rw [← whole] at margin
  exact margin.symm

/-- A text that begins with no white space is not trimmed behind another one either. -/
theorem trimStart_append_of_trimmed {t : Text} (trimmed : trimStart t = t) (s : Text) :
    trimStart (s ++ t) = trimStart s ++ t := by
  rw [trimStart, List.dropWhile_append]
  split
  · next emptied =>
    have nothing : trimStart s = [] := List.isEmpty_iff.mp emptied
    rw [nothing]
    exact trimmed
  · rfl

/-- A text is the trimmed text between white space. -/
theorem exists_margins (s : Text) : ∃ before after, IsBlank before ∧ IsBlank after ∧ s = before ++ trim s ++ after := by
  refine ⟨s.takeWhile isBlank, ((trimStart s).reverse.takeWhile isBlank).reverse, ?_, ?_, ?_⟩
  · exact fun c among => List.mem_takeWhile_imp among
  · exact fun c among => List.mem_takeWhile_imp (List.mem_reverse.mp among)
  · rw [List.append_assoc, trim, trimEnd, dropEndWhile, ← List.reverse_append, List.takeWhile_append_dropWhile,
      List.reverse_reverse, trimStart, List.takeWhile_append_dropWhile]

theorem trim_trim (s : Text) : trim (trim s) = trim s := by
  obtain ⟨before, after, blankBefore, blankAfter, whole⟩ := exists_margins s
  have around := trim_margins blankBefore blankAfter (trim s)
  rw [← whole] at around
  exact around.symm

end

section
variable {α : Type} {read : Option Char → Text → Option α} {before after : Text}

/-- A recogniser that begins with no white space, takes white space before it for the beginning of a
    line, and does not look at white space that ends the line. -/
structure IgnoresMargins (read : Option Char → Text → Option α) : Prop where
  left {c : Char} (blank : isBlank c = true) (s : Text) : read (some c) s = read none s
  leading {c : Char} (blank : isBlank c = true) (left : Option Char) (s : Text) : read left (c :: s) = none
  empty (left : Option Char) : read left [] = none
  trailing {after : Text} (blank : IsBlank after) (left : Option Char) (s : Text) : read left (s ++ after) = read left s

theorem firstMatch?_blank (ignores : IgnoresMargins read) (blank : IsBlank after) (left : Option Char) :
    firstMatch? read left after = none := by
  induction after generalizing left with
  | nil => rw [firstMatch?, ignores.empty, Option.map_none]
  | cons c rest ih =>
    rw [firstMatch?, ignores.leading (blank c List.mem_cons_self),
      ih (fun d among => blank d (List.mem_cons_of_mem c among))]
    rfl

theorem firstMatch?_append_blank (ignores : IgnoresMargins read) (blank : IsBlank after) (left : Option Char)
    (s : Text) : firstMatch? read left (s ++ after) = firstMatch? read left s := by
  induction s generalizing left with
  | nil => rw [List.nil_append, firstMatch?_blank ignores blank, firstMatch?, ignores.empty, Option.map_none]
  | cons c rest ih =>
    have here := ignores.trailing blank left (c :: rest)
    rw [List.cons_append] at here
    rw [List.cons_append, firstMatch?, firstMatch?, here, ih]

theorem firstMatch?_left (ignores : IgnoresMargins read) {c : Char} (blank : isBlank c = true) (s : Text) :
    firstMatch? read (some c) s = firstMatch? read none s := by
  cases s with
  | nil => rw [firstMatch?, firstMatch?, ignores.left blank]
  | cons d rest => rw [firstMatch?, firstMatch?, ignores.left blank]

/-- Between margins the same thing is found, further to the right by the first margin. -/
theorem firstMatch?_margins (ignores : IgnoresMargins read) (blankBefore : IsBlank before)
    (blankAfter : IsBlank after) (s : Text) :
    firstMatch? read none (before ++ s ++ after) =
      (firstMatch? read none s).map fun (n, a) => (n + before.length, a) := by
  rw [firstMatch?_append_blank ignores blankAfter]
  induction before with
  | nil =>
    rw [List.nil_append]
    exact Option.map_id_apply.symm
  | cons c rest ih =>
    have blank := blankBefore c List.mem_cons_self
    rw [List.cons_append, firstMatch?, ignores.leading blank, firstMatch?_left ignores blank,
      ih fun d among => blankBefore d (List.mem_cons_of_mem c among)]
    cases firstMatch? read none s with
    | none => rfl
    | some found => rfl

theorem find?_margins (ignores : IgnoresMargins read) (blankBefore : IsBlank before) (blankAfter : IsBlank after)
    (s : Text) : find? read (before ++ s ++ after) = find? read s := by
  rw [find?, find?, firstMatch?_margins ignores blankBefore blankAfter]
  cases firstMatch? read none s with
  | none => rfl
  | some found => rfl

end

end EndpointConsole.Text
