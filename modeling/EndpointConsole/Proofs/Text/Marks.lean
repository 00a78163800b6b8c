import EndpointConsole.Proofs.Text.Cutting
import EndpointConsole.Text.Search

/-!
Marks in a text: what stands between an opening and a closing character, where that means something.
Marks of several kinds are written anew in one go (`rewrite`). Writing one kind after the others comes
to the same (`rewrite_concat`) if nothing that was written, and nothing around it, makes a mark of that
kind or breaks one up (`Untouched`): no mark is opened within the characters of another kind
(`isNested`), and what is written has none of these characters. Then no marks are left either
(`absent_rewrite`).
-/
namespace EndpointConsole.Text

section
variable {α β : Type} {read : Text → Option (α × Text)} {read' : Text → Option (β × Text)}

/-- A text is what is written for what begins it, or its first character, and then the rest. -/
theorem fill_pieces_cons (read : Text → Option (α × Text)) (write : α → Text) (c : Char) (rest : Text) :
    fill write (pieces read (c :: rest)) =
      ((read (c :: rest)).map fun x => (write x.1, x.2)).elim (c :: fill write (pieces read rest)) fun x =>
        if x.2.length < (c :: rest).length then x.1 ++ fill write (pieces read x.2)
        else c :: fill write (pieces read rest) := by
  rw [pieces]
  cases read (c :: rest) with
  | none => rfl
  | some x =>
    simp only [Option.map_some, Option.elim_some]
    split <;> rfl

/-- Readers that leave the same text and for which the same is written may stand for one another. -/
theorem fill_pieces_congr {write : α → Text} {write' : β → Text}
    (same : ∀ s, (read s).map (fun x => (write x.1, x.2)) = (read' s).map fun x => (write' x.1, x.2)) (s : Text) :
    fill write (pieces read s) = fill write' (pieces read' s) := by
  cases s with
  | nil =>
    rw [pieces, pieces]
    rfl
  | cons c rest =>
    rw [fill_pieces_cons, fill_pieces_cons, same, fill_pieces_congr same rest]
    cases (read' (c :: rest)).map fun x => (write' x.1, x.2) with
    | none => rfl
    | some x =>
      rw [Option.elim_some, Option.elim_some]
      split
      · next shorter =>
        have fewer : x.2.length ≤ rest.length := Nat.le_of_lt_succ shorter
        rw [fill_pieces_congr same x.2]
      · rfl
termination_by s.length

/-- Nothing is found just when nothing is read anywhere. -/
theorem found_pieces_eq_nil_iff (progress : ∀ s a after, read s = some (a, after) → after.length < s.length) (s : Text) :
    found (pieces read s) = [] ↔ ∀ t, t <:+ s → read t = none := by
  induction s with
  | nil =>
    have nothing : read [] = none := by
      rw [Option.eq_none_iff_forall_ne_some]
      rintro ⟨a, after⟩ some_read
      exact absurd (progress [] a after some_read) (Nat.not_lt_zero _)
    rw [pieces]
    exact iff_of_true rfl fun t suffix => List.suffix_nil.mp suffix ▸ nothing
  | cons c rest ih =>
    rw [pieces]
    cases here : read (c :: rest) with
    | none =>
      refine ih.trans ⟨fun later t suffix => ?_, fun all t suffix => all t (suffix.trans (List.suffix_cons c rest))⟩
      exact (List.suffix_cons_iff.mp suffix).elim (fun whole => whole ▸ here) (later t)
    | some x =>
      refine iff_of_false ?_ fun all => ?_
      · simp only [if_pos (progress _ _ _ here)]
        exact List.cons_ne_nil _ _
      · rw [all _ (List.suffix_refl _)] at here
        cases here

end

/-- A kind of marks: two characters, and what the text between them means, if it means something. -/
structure Marks (α : Type) where
  opening : Char
  closing : Char
  meaning? : Text → Option α

namespace Marks

variable {α : Type} {m n : Marks α} {kinds : List (Marks α)} {write : α → Text} {s t after : Text} {a : α} {c : Char}

/-! ### Reading -/

/-- Reads a mark that begins a text, and what follows it. -/
def read? (m : Marks α) : Text → Option (α × Text)
  | [] => none
  | c :: rest =>
    if c = m.opening then (cutAt? m.closing rest).bind fun cut => (m.meaning? cut.1).map fun a => (a, cut.2)
    else none

theorem read?_eq_some_iff : m.read? s = some (a, after) ↔
    ∃ body, s = m.opening :: (body ++ m.closing :: after) ∧ m.closing ∉ body ∧ m.meaning? body = some a := by
  constructor
  · intro read
    cases s with
    | nil => cases read
    | cons c rest =>
      rw [read?] at read
      split at read
      · next opens =>
        obtain ⟨⟨body, behind⟩, cut, given⟩ := Option.bind_eq_some_iff.mp read
        obtain ⟨whole, unclosed⟩ := cutAt?_eq_some_iff.mp cut
        obtain ⟨b, means, same⟩ := Option.map_eq_some_iff.mp given
        cases same
        exact ⟨body, by rw [opens, whole], unclosed, means⟩
      · cases read
  · rintro ⟨body, rfl, unclosed, means⟩
    rw [read?, if_pos rfl, cutAt?_append unclosed, Option.bind_some, means, Option.map_some]

theorem read?_of_ne (other : c ≠ m.opening) (s : Text) : m.read? (c :: s) = none := if_neg other

/-- Reads a mark of one of some kinds. -/
def readAny? (kinds : List (Marks α)) (s : Text) : Option (α × Text) := kinds.findSome? fun m => m.read? s

theorem readAny?_cons (m : Marks α) (kinds : List (Marks α)) (s : Text) :
    readAny? (m :: kinds) s = (m.read? s).or (readAny? kinds s) := by
  rw [readAny?, List.findSome?_cons]
  cases m.read? s <;> rfl

theorem readAny?_singleton (m : Marks α) (s : Text) : readAny? [m] s = m.read? s := by
  rw [readAny?_cons]
  exact Option.or_none

theorem readAny?_append (kinds more : List (Marks α)) (s : Text) :
    readAny? (kinds ++ more) s = (readAny? kinds s).or (readAny? more s) := List.findSome?_append

theorem readAny?_eq_some (read : readAny? kinds s = some (a, after)) :
    ∃ m ∈ kinds, ∃ body, s = m.opening :: (body ++ m.closing :: after) ∧ m.meaning? body = some a := by
  obtain ⟨m, among, read⟩ := List.exists_of_findSome?_eq_some read
  obtain ⟨body, whole, -, means⟩ := read?_eq_some_iff.mp read
  exact ⟨m, among, body, whole, means⟩

theorem readAny?_suffix (read : readAny? kinds s = some (a, after)) : after <:+ s := by
  obtain ⟨m, -, body, rfl, -⟩ := readAny?_eq_some read
  exact ⟨m.opening :: (body ++ [m.closing]), by simp⟩

theorem readAny?_length (read : readAny? kinds s = some (a, after)) : after.length < s.length := by
  obtain ⟨m, -, body, rfl, -⟩ := readAny?_eq_some read
  simp only [List.length_cons, List.length_append]
  omega

/-- A text is a mark and what follows it, or a character and what follows it, as far as it goes. -/
theorem marked_induction {motive : Text → Prop} (kinds : List (Marks α)) (nil : motive [])
    (char : ∀ c rest, readAny? kinds (c :: rest) = none → motive rest → motive (c :: rest))
    (mark : ∀ s a after, readAny? kinds s = some (a, after) → motive after → motive s) (s : Text) : motive s := by
  cases read : readAny? kinds s with
  | some x =>
    have shorter := readAny?_length read
    exact mark s x.1 x.2 read (marked_induction kinds nil char mark x.2)
  | none =>
    cases s with
    | nil => exact nil
    | cons c rest => exact char c rest read (marked_induction kinds nil char mark rest)
termination_by s.length

/-! ### Writing anew -/

/-- A text with its marks of some kinds written anew. -/
def rewrite (kinds : List (Marks α)) (write : α → Text) (s : Text) : Text := fill write (pieces (readAny? kinds) s)

@[simp]
theorem rewrite_nil : rewrite kinds write [] = [] := by
  rw [rewrite, pieces]
  rfl

theorem rewrite_char (plain : readAny? kinds (c :: s) = none) :
    rewrite kinds write (c :: s) = c :: rewrite kinds write s := by
  rw [rewrite, pieces, plain]
  rfl

theorem rewrite_mark (read : readAny? kinds s = some (a, after)) :
    rewrite kinds write s = write a ++ rewrite kinds write after := by
  have shorter := readAny?_length read
  cases s with
  | nil => cases shorter
  | cons c rest =>
    rw [rewrite, pieces, read]
    simp only [if_pos shorter]
    rfl

/-- Text in which no mark is opened stays. -/
theorem rewrite_append (unopened : ∀ m ∈ kinds, m.opening ∉ t) (write : α → Text) (s : Text) :
    rewrite kinds write (t ++ s) = t ++ rewrite kinds write s := by
  induction t with
  | nil => rfl
  | cons c rest ih =>
    have plain : readAny? kinds (c :: (rest ++ s)) = none := by
      rw [readAny?, List.findSome?_eq_none_iff]
      intro m among
      exact read?_of_ne (fun opens => unopened m among (opens ▸ List.mem_cons_self)) _
    rw [List.cons_append, rewrite_char plain, ih fun m among opens => unopened m among (List.mem_cons_of_mem c opens),
      List.cons_append]

/-- All that is written for marks of some kinds has a property. -/
def Writes (kinds : List (Marks α)) (write : α → Text) (P : Text → Prop) : Prop :=
  ∀ m ∈ kinds, ∀ body a, m.meaning? body = some a → P (write a)

theorem Writes.of_read {P : Text → Prop} (writes : Writes kinds write P) (read : readAny? kinds s = some (a, after)) :
    P (write a) := by
  obtain ⟨m, among, body, -, means⟩ := readAny?_eq_some read
  exact writes m among body a means

theorem not_mem_rewrite (writes : Writes kinds write (c ∉ ·)) (absent : c ∉ s) : c ∉ rewrite kinds write s := by
  induction s using marked_induction kinds with
  | nil => rwa [rewrite_nil]
  | char d rest plain ih =>
    rw [List.mem_cons, not_or] at absent
    rw [rewrite_char plain, List.mem_cons, not_or]
    exact ⟨absent.1, ih absent.2⟩
  | mark s a after read ih =>
    rw [rewrite_mark read, List.mem_append, not_or]
    exact ⟨writes.of_read read, ih fun later => absent ((readAny?_suffix read).subset later)⟩

/-- Marks that are written as they stand stay. -/
theorem rewrite_self (same : ∀ m ∈ kinds, ∀ body a, m.meaning? body = some a →
    write a = m.opening :: (body ++ [m.closing])) (s : Text) : rewrite kinds write s = s := by
  induction s using marked_induction kinds with
  | nil => exact rewrite_nil
  | char c rest plain ih => rw [rewrite_char plain, ih]
  | mark s a after read ih =>
    obtain ⟨m, among, body, rfl, means⟩ := readAny?_eq_some read
    rw [rewrite_mark read, ih, same m among body a means]
    simp

/-! ### Marks that writing others leaves alone -/

/-- Whether one character stands somewhere between another one and the next that closes that one. -/
def isNested (opening inner closing : Char) : Text → Bool
  | [] => false
  | c :: rest =>
    (c == opening && (cutAt? closing rest).any fun cut => decide (inner ∈ cut.1)) || isNested opening inner closing rest

section
variable {opening inner closing : Char}

theorem isNested_iff : isNested opening inner closing s = true ↔
    ∃ before body after, s = before ++ opening :: (body ++ closing :: after) ∧ closing ∉ body ∧ inner ∈ body := by
  induction s with
  | nil => simp [isNested]
  | cons c rest ih =>
    rw [isNested, Bool.or_eq_true, Bool.and_eq_true, beq_iff_eq, ih]
    constructor
    · rintro (⟨rfl, cut⟩ | ⟨before, body, after, rfl, unclosed, within⟩)
      · obtain ⟨⟨body, after⟩, found, within⟩ := (Option.any_eq_true _ _).mp cut
        obtain ⟨rfl, unclosed⟩ := cutAt?_eq_some_iff.mp found
        exact ⟨[], body, after, rfl, unclosed, of_decide_eq_true within⟩
      · exact ⟨c :: before, body, after, rfl, unclosed, within⟩
    · rintro ⟨before, body, after, whole, unclosed, within⟩
      cases before with
      | nil =>
        obtain ⟨rfl, rfl⟩ := List.cons.inj whole
        exact .inl ⟨rfl, by simp [cutAt?_append unclosed, within]⟩
      | cons d before =>
        obtain ⟨rfl, rfl⟩ := List.cons.inj whole
        exact .inr ⟨before, body, after, rfl, unclosed, within⟩

theorem isNested_suffix (flat : isNested opening inner closing s = false) (suffix : t <:+ s) :
    isNested opening inner closing t = false := by
  rw [Bool.eq_false_iff, ne_eq, isNested_iff] at flat ⊢
  rintro ⟨before, body, after, rfl, unclosed, within⟩
  obtain ⟨front, rfl⟩ := suffix
  exact flat ⟨front ++ before, body, after, (List.append_assoc front before _).symm, unclosed, within⟩

theorem not_mem_of_flat {body : Text} (flat : isNested opening inner closing (opening :: (body ++ closing :: after)) = false)
    (unclosed : closing ∉ body) : inner ∉ body := by
  rw [Bool.eq_false_iff, ne_eq, isNested_iff] at flat
  exact fun within => flat ⟨[], body, after, rfl, unclosed, within⟩

end

/-- Marks of some kinds are written without making or breaking marks of another kind. -/
structure Untouched (n : Marks α) (kinds : List (Marks α)) (write : α → Text) (s : Text) : Prop where
  written : Writes kinds write fun value => n.opening ∉ value ∧ n.closing ∉ value
  apart : ∀ m ∈ kinds, m.opening ≠ n.closing
  flat : ∀ m ∈ kinds, isNested n.opening m.opening n.closing s = false

theorem Untouched.suffix (untouched : n.Untouched kinds write s) (suffix : t <:+ s) : n.Untouched kinds write t :=
  { untouched with flat := fun m among => isNested_suffix (untouched.flat m among) suffix }

theorem Untouched.subset {more : List (Marks α)} (untouched : n.Untouched more write s) (fewer : kinds ⊆ more) :
    n.Untouched kinds write s where
  written m among := untouched.written m (fewer among)
  apart m among := untouched.apart m (fewer among)
  flat m among := untouched.flat m (fewer among)

/-- Behind a character that stays, a mark is read when it was read before, and the rest is written anew. -/
theorem read?_rewrite (untouched : n.Untouched kinds write (c :: s)) :
    n.read? (c :: rewrite kinds write s) = (n.read? (c :: s)).map fun x => (x.1, rewrite kinds write x.2) := by
  by_cases opens : c = n.opening
  · subst opens
    rw [read?, read?, if_pos rfl, if_pos rfl]
    by_cases closed : n.closing ∈ s
    · -- no mark is opened before the closing character, so that all is left up to it
      obtain ⟨body, after, rfl, unclosed⟩ := List.eq_append_cons_of_mem closed
      have unopened : ∀ m ∈ kinds, m.opening ∉ body ++ [n.closing] := fun m among => by
        rw [List.mem_append, List.mem_singleton, not_or]
        exact ⟨not_mem_of_flat (untouched.flat m among) unclosed, untouched.apart m among⟩
      have kept : rewrite kinds write (body ++ n.closing :: after) = body ++ n.closing :: rewrite kinds write after := by
        have whole := rewrite_append unopened write after
        rwa [List.append_assoc, List.append_assoc, List.singleton_append, List.singleton_append] at whole
      rw [kept, cutAt?_append unclosed, cutAt?_append unclosed, Option.bind_some, Option.bind_some, Option.map_map]
      rfl
    · have absent := not_mem_rewrite (fun m among body a means => (untouched.written m among body a means).2) closed
      rw [cutAt?_of_not_mem closed, cutAt?_of_not_mem absent]
      rfl
  · rw [read?_of_ne opens, read?_of_ne opens]
    rfl

/-- Marks of one more kind may be written together with the others or after them. -/
theorem rewrite_concat (untouched : n.Untouched kinds write s) :
    rewrite (kinds ++ [n]) write s = rewrite [n] write (rewrite kinds write s) := by
  have both (s : Text) : readAny? (kinds ++ [n]) s = (readAny? kinds s).or (n.read? s) := by
    rw [readAny?_append, readAny?_singleton]
  induction s using marked_induction (kinds ++ [n]) with
  | nil => rw [rewrite_nil, rewrite_nil, rewrite_nil]
  | char c rest plain ih =>
    obtain ⟨neither, nor⟩ := Option.or_eq_none_iff.mp ((both _).symm.trans plain)
    have later := read?_rewrite untouched
    rw [nor, Option.map_none, ← readAny?_singleton] at later
    rw [rewrite_char plain, rewrite_char neither, rewrite_char later, ih (untouched.suffix (List.suffix_cons c rest))]
  | mark s a after read ih =>
    have ih := ih (untouched.suffix (readAny?_suffix read))
    rw [rewrite_mark read, ih]
    cases first : readAny? kinds s with
    | some x =>
      rw [both, first, Option.some_or] at read
      cases read
      have unopened : ∀ m ∈ [n], m.opening ∉ write a := List.forall_mem_singleton.mpr (untouched.written.of_read first).1
      rw [rewrite_mark first, rewrite_append unopened]
    | none =>
      rw [both, first, Option.none_or] at read
      obtain ⟨body, rfl, -, -⟩ := read?_eq_some_iff.mp read
      have later := read?_rewrite untouched
      rw [read, Option.map_some, ← readAny?_singleton] at later
      rw [rewrite_char first, rewrite_mark later]

/-! ### No marks left -/

/-- No mark of a kind begins anywhere. -/
def Absent (m : Marks α) (s : Text) : Prop := ∀ t, t <:+ s → m.read? t = none

theorem absent_nil : m.Absent [] := fun t suffix => by
  rw [List.suffix_nil.mp suffix]
  rfl

theorem Absent.cons (here : m.read? (c :: s) = none) (later : m.Absent s) : m.Absent (c :: s) := fun t suffix =>
  (List.suffix_cons_iff.mp suffix).elim (fun whole => whole ▸ here) (later t)

theorem Absent.append (unopened : m.opening ∉ t) (later : m.Absent s) : m.Absent (t ++ s) := by
  induction t with
  | nil => exact later
  | cons c rest ih =>
    rw [List.mem_cons, not_or] at unopened
    exact .cons (read?_of_ne (Ne.symm unopened.1) _) (ih unopened.2)

theorem Absent.suffix (absent : m.Absent s) (suffix : t <:+ s) : m.Absent t := fun u ends =>
  absent u (ends.trans suffix)

theorem rewrite_of_absent (absent : m.Absent s) (write : α → Text) : rewrite [m] write s = s := by
  induction s with
  | nil => exact rewrite_nil
  | cons c rest ih =>
    have plain : readAny? [m] (c :: rest) = none := by
      rw [readAny?_singleton]
      exact absent _ (List.suffix_refl _)
    rw [rewrite_char plain, ih (absent.suffix (List.suffix_cons c rest))]

/-- Of the kinds that are written anew no marks are left. -/
theorem absent_rewrite (among : n ∈ kinds) (untouched : n.Untouched kinds write s) :
    n.Absent (rewrite kinds write s) := by
  induction s using marked_induction kinds with
  | nil =>
    rw [rewrite_nil]
    exact absent_nil
  | char c rest plain ih =>
    have here := read?_rewrite untouched
    have before : n.read? (c :: rest) = none := List.findSome?_eq_none_iff.mp plain n among
    rw [before, Option.map_none] at here
    rw [rewrite_char plain]
    exact .cons here (ih (untouched.suffix (List.suffix_cons c rest)))
  | mark s a after read ih =>
    rw [rewrite_mark read]
    exact .append (untouched.written.of_read read).1 (ih (untouched.suffix (readAny?_suffix read)))

/-- What begins with none of the characters that begin what is written stood there before. -/
theorem prefix_of_prefix_rewrite (writes : Writes kinds write fun value => ∃ c rest, value = c :: rest ∧ c ∉ t)
    (starts : t <+: rewrite kinds write s) : t <+: s := by
  induction t generalizing s with
  | nil => exact List.nil_prefix
  | cons d t ih =>
    cases read : readAny? kinds s with
    | some x =>
      obtain ⟨c, rest, value, other⟩ := writes.of_read read
      rw [rewrite_mark read, value, List.cons_append, List.cons_prefix_cons] at starts
      exact absurd (starts.1 ▸ List.mem_cons_self) other
    | none =>
      cases s with
      | nil => rwa [rewrite_nil] at starts
      | cons c s =>
        rw [rewrite_char read, List.cons_prefix_cons] at starts
        rw [List.cons_prefix_cons]
        refine ⟨starts.1, ih (fun m among body a means => ?_) starts.2⟩
        obtain ⟨c, rest, value, other⟩ := writes m among body a means
        exact ⟨c, rest, value, fun later => other (List.mem_cons_of_mem d later)⟩

/-- Where no marks are, none are made of what is written for others, if it begins with no character of theirs. -/
theorem absent_rewrite_of_absent (absent : n.Absent s) (unopened : Writes kinds write (n.opening ∉ ·))
    (other : ∀ body, n.meaning? body ≠ none →
      Writes kinds write fun value => ∃ c rest, value = c :: rest ∧ c ∉ body ++ [n.closing]) :
    n.Absent (rewrite kinds write s) := by
  induction s using marked_induction kinds with
  | nil =>
    rw [rewrite_nil]
    exact absent_nil
  | char c rest plain ih =>
    rw [rewrite_char plain]
    refine .cons ?_ (ih (absent.suffix (List.suffix_cons c rest)))
    rw [Option.eq_none_iff_forall_ne_some]
    rintro ⟨a, after⟩ read
    obtain ⟨body, whole, unclosed, means⟩ := read?_eq_some_iff.mp read
    obtain ⟨opens, whole⟩ := List.cons.inj whole
    have meant : n.meaning? body ≠ none := by
      rw [means]
      exact Option.some_ne_none a
    have starts : body ++ [n.closing] <+: rewrite kinds write rest := ⟨after, by simp [whole]⟩
    obtain ⟨more, before⟩ := prefix_of_prefix_rewrite (other body meant) starts
    have marked : n.read? (c :: rest) = some (a, more) :=
      read?_eq_some_iff.mpr ⟨body, by rw [opens, ← before]; simp, unclosed, means⟩
    rw [absent _ (List.suffix_refl _)] at marked
    cases marked
  | mark s a after read ih =>
    rw [rewrite_mark read]
    exact .append (unopened.of_read read) (ih (absent.suffix (readAny?_suffix read)))

end Marks

end EndpointConsole.Text
