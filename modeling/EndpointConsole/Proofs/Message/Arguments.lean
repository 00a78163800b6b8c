import EndpointConsole.Message
import EndpointConsole.Proofs.Text.Replacing

/-!
Arguments in messages. They are put in one after the other, so that the later ones are put in the text of
the earlier ones as well: what comes out is the template with all the settled arguments put in at once
(`fillFrom_eq`), where an argument is settled by putting the later ones in it (`settledFrom`). No place is
made up of an argument and what is around it, as the places of a template are set off by characters that no
place has (`Spaced`). So the arguments come out as they are just if each one that the template has a place
for stays as it is when the later ones are put in it (`text_verbatim_iff`).
-/
namespace EndpointConsole.Message
open Text (Marks)

variable {args : List Text} {arg s r : Text} {c : Char} {i k n : Nat}

/-- The argument whose number is written in a place, where the first one has the number `index`. -/
def argumentFrom? (index : Nat) : List Text → Text → Option Text
  | [], _ => none
  | arg :: rest, written => if written = Nat.toDigits 10 index then some arg else argumentFrom? (index + 1) rest written

/-- The places of some arguments. -/
def placeMarks (index : Nat) (args : List Text) : Marks Text where
  opening := '\x7b'
  closing := '\x7d'
  meaning? := argumentFrom? index args

/-- A text with arguments put in their places all at once, the first of them at `index`. -/
def insertedFrom (index : Nat) (args : List Text) (s : Text) : Text := Marks.rewrite [placeMarks index args] id s

/-- A text with arguments put in their places all at once. -/
def inserted (args : List Text) (s : Text) : Text := insertedFrom 0 args s

theorem toDigits_inj : Nat.toDigits 10 n = Nat.toDigits 10 k ↔ n = k := by
  refine ⟨fun same => ?_, congrArg (Nat.toDigits 10)⟩
  rw [← Nat.ofDigitChars_ten_toDigits (n := n), same, Nat.ofDigitChars_ten_toDigits]

theorem argumentFrom?_cons (k : Nat) (arg : Text) (rest : List Text) (s : Text) : argumentFrom? k (arg :: rest) s =
    if s = Nat.toDigits 10 k then some arg else argumentFrom? (k + 1) rest s := rfl

theorem argumentFrom?_eq_some (found : argumentFrom? k args s = some arg) : ∃ n, s = Nat.toDigits 10 n := by
  fun_induction argumentFrom? k args s with
  | case1 => cases found
  | case2 index => exact ⟨index, rfl⟩
  | case3 _ _ _ _ _ ih => exact ih found

/-- Whether a character is no brace and no digit. -/
def isForeign (c : Char) : Bool := c != '\x7b' && c != '\x7d' && !c.isDigit

theorem foreign_iff : isForeign c = true ↔ c ≠ '\x7b' ∧ c ≠ '\x7d' ∧ c.isDigit = false := by
  simp [isForeign, and_assoc]

theorem not_mem_toDigits (other : c.isDigit = false) (n : Nat) : c ∉ Nat.toDigits 10 n := fun among =>
  Bool.false_ne_true (other.symm.trans (Nat.isDigit_of_mem_toDigits (by decide) (by decide) among))

theorem not_mem_place (foreign : isForeign c = true) (i : Nat) : c ∉ place i := by
  obtain ⟨opening, closing, other⟩ := foreign_iff.mp foreign
  simp [place, opening, closing, not_mem_toDigits other i]

theorem placeMarks_foreign (foreign : isForeign c = true) (k : Nat) (args : List Text) :
    (placeMarks k args).Foreign c where
  opening := (foreign_iff.mp foreign).1
  closing := (foreign_iff.mp foreign).2.1
  body written arg found := by
    obtain ⟨n, rfl⟩ := argumentFrom?_eq_some found
    exact not_mem_toDigits (foreign_iff.mp foreign).2.2 n

theorem insertedFrom_append_cons (foreign : isForeign c = true) (a b : Text) :
    insertedFrom k args (a ++ c :: b) = insertedFrom k args a ++ c :: insertedFrom k args b :=
  (placeMarks_foreign foreign k args).rewrite_append_cons id a b

theorem count_le_insertedFrom (foreign : isForeign c = true) (s : Text) : s.count c ≤ (insertedFrom k args s).count c :=
  (placeMarks_foreign foreign k args).count_le_rewrite id s

theorem insertedFrom_of_not_mem (unopened : '\x7b' ∉ s) : insertedFrom k args s = s := by
  have none : ∀ m ∈ [placeMarks k args], m.opening ∉ s := List.forall_mem_singleton.mpr unopened
  have kept := Marks.rewrite_append none id []
  rwa [List.append_nil, Marks.rewrite_nil, List.append_nil] at kept

theorem place_eq (i : Nat) : place i = '\x7b' :: (Nat.toDigits 10 i ++ ['\x7d']) := rfl

theorem place_inj : place i = place n ↔ i = n := by
  refine ⟨fun same => ?_, congrArg place⟩
  rw [place_eq, place_eq] at same
  exact toDigits_inj.mp (List.append_cancel_right (List.cons.inj same).2)

/-- No place begins within a place. -/
theorem opening_not_mem_place (i : Nat) : '\x7b' ∉ Nat.toDigits 10 i ++ ['\x7d'] := by
  simp [not_mem_toDigits (c := '\x7b') rfl i]

/-- A place reads as what its number stands for, if it stands for anything. -/
theorem read?_place (k : Nat) (args : List Text) (i : Nat) (s : Text) : (placeMarks k args).read? (place i ++ s) =
    (argumentFrom? k args (Nat.toDigits 10 i)).map (·, s) := by
  have cut : Text.cutAt? '\x7d' (Nat.toDigits 10 i ++ '\x7d' :: s) = some (Nat.toDigits 10 i, s) :=
    Text.cutAt?_append (not_mem_toDigits rfl i) s
  have opens : '\x7b' = (placeMarks k args).opening := rfl
  rw [place_eq, List.cons_append, List.append_assoc, List.singleton_append, Marks.read?, if_pos opens]
  exact congrArg (Option.bind · _) cut

theorem insertedFrom_place (i : Nat) :
    insertedFrom k args (place i) = (argumentFrom? k args (Nat.toDigits 10 i)).getD (place i) := by
  have read := read?_place k args i []
  rw [List.append_nil, ← Marks.readAny?_singleton] at read
  cases found : argumentFrom? k args (Nat.toDigits 10 i) with
  | some arg =>
    rw [found] at read
    rw [insertedFrom, Marks.rewrite_mark read, Marks.rewrite_nil, List.append_nil]
    rfl
  | none =>
    rw [found, place_eq] at read
    rw [insertedFrom, place_eq, Marks.rewrite_char read]
    exact congrArg ('\x7b' :: ·) (insertedFrom_of_not_mem (opening_not_mem_place i))

/-- To replace a place is to put one argument in. -/
theorem replace_place (k : Nat) (arg s : Text) : Text.replace (place k) arg s = insertedFrom k [arg] s := by
  have found : argumentFrom? k [arg] (Nat.toDigits 10 k) = some arg := if_pos rfl
  rw [insertedFrom]
  induction s using Marks.marked_induction [placeMarks k [arg]] with
  | nil =>
    rw [Marks.rewrite_nil]
    rfl
  | char c rest plain ih =>
    have absent : ¬place k <+: c :: rest := by
      rintro ⟨after, whole⟩
      have read := read?_place k [arg] k after
      rw [whole, ← Marks.readAny?_singleton, plain, found] at read
      cases read
    rw [Text.replace_cons absent, Marks.rewrite_char plain, ih]
  | mark s x after read ih =>
    rw [Marks.rewrite_mark read]
    rw [Marks.readAny?_singleton] at read
    obtain ⟨written, rfl, -, means⟩ := Marks.read?_eq_some_iff.mp read
    have only : (if written = Nat.toDigits 10 k then some arg else none) = some x := means
    obtain ⟨rfl, same⟩ := Option.ite_none_right_eq_some.mp only
    cases same
    have occurs : Text.replace (place k) arg (place k ++ after) = arg ++ Text.replace (place k) arg after :=
      Text.replace_append (List.cons_ne_nil _ _) after
    rw [place_eq, List.cons_append, List.append_assoc, List.singleton_append] at occurs
    exact occurs.trans (congrArg (arg ++ ·) ih)

theorem fillFrom_cons (k : Nat) (arg : Text) (rest : List Text) (s : Text) :
    fillFrom k (arg :: rest) s = fillFrom (k + 1) rest (insertedFrom k [arg] s) := by
  rw [fillFrom, replace_place]

theorem fillFrom_append_cons (foreign : isForeign c = true) (a b : Text) :
    fillFrom k args (a ++ c :: b) = fillFrom k args a ++ c :: fillFrom k args b := by
  induction args generalizing k a b with
  | nil => rfl
  | cons arg rest ih => rw [fillFrom_cons, fillFrom_cons, fillFrom_cons, insertedFrom_append_cons foreign, ih]

theorem count_le_fillFrom (foreign : isForeign c = true) (s : Text) : s.count c ≤ (fillFrom k args s).count c := by
  induction args generalizing k s with
  | nil => exact Nat.le_refl _
  | cons arg rest ih =>
    rw [fillFrom_cons]
    exact (count_le_insertedFrom foreign s).trans (ih _)

theorem fillFrom_of_not_mem (unopened : '\x7b' ∉ s) : fillFrom k args s = s := by
  induction args generalizing k with
  | nil => rfl
  | cons arg rest ih => rw [fillFrom_cons, insertedFrom_of_not_mem unopened, ih]

/-- Arguments with the later ones put in them. -/
def settledFrom (index : Nat) : List Text → List Text
  | [] => []
  | arg :: rest => fillFrom (index + 1) rest arg :: settledFrom (index + 1) rest

/-- Each argument with the later ones put in it. -/
def settled (args : List Text) : List Text := settledFrom 0 args

theorem getElem?_settledFrom (k i : Nat) (args : List Text) :
    (settledFrom k args)[i]? = args[i]?.map (fillFrom (k + i + 1) (args.drop (i + 1))) := by
  induction args generalizing k i with
  | nil => rfl
  | cons arg rest ih =>
    cases i with
    | zero => rfl
    | succ i =>
      rw [settledFrom, List.getElem?_cons_succ, List.getElem?_cons_succ, ih, List.drop_succ_cons,
        Nat.add_right_comm k 1 i, Nat.add_assoc k i 1]

theorem fillFrom_place (k i : Nat) (args : List Text) :
    fillFrom k args (place i) = insertedFrom k (settledFrom k args) (place i) := by
  rw [insertedFrom_place]
  induction args generalizing k with
  | nil => rfl
  | cons arg rest ih =>
    rw [fillFrom_cons, insertedFrom_place, settledFrom, argumentFrom?_cons, argumentFrom?_cons]
    split
    · rfl
    · exact ih (k + 1)

/-- What stands in a template between two characters that no place has: a place, or something in which no
    place begins. -/
def IsRun (r : Text) : Prop := '\x7b' ∉ r ∨ ∃ i, r = place i

/-- Text whose places are set off by characters that no place has. -/
inductive Spaced : Text → Prop
  | last {r : Text} (run : IsRun r) : Spaced r
  | more {r s : Text} {c : Char} (run : IsRun r) (foreign : isForeign c = true) (rest : Spaced s) : Spaced (r ++ c :: s)

/-- Arguments that are put in one after the other are settled and put in at once. -/
theorem fillFrom_eq (spaced : Spaced s) (k : Nat) (args : List Text) :
    fillFrom k args s = insertedFrom k (settledFrom k args) s := by
  have one {r : Text} (run : IsRun r) : fillFrom k args r = insertedFrom k (settledFrom k args) r := by
    rcases run with unopened | ⟨i, rfl⟩
    · rw [fillFrom_of_not_mem unopened, insertedFrom_of_not_mem unopened]
    · exact fillFrom_place k i args
  induction spaced with
  | last run => exact one run
  | more run foreign _ ih => rw [fillFrom_append_cons foreign, insertedFrom_append_cons foreign, one run, ih]

theorem infix_place (i n : Nat) : place i <:+: place n ↔ i = n := by
  refine ⟨fun inside => ?_, fun same => same ▸ List.infix_rfl⟩
  rw [place_eq n] at inside
  rcases List.infix_cons_iff.mp inside with ⟨after, whole⟩ | later
  · -- both braces are the only ones, so that the numbers stand between the same braces
    rw [place_eq, List.cons_append, List.append_assoc, List.singleton_append] at whole
    have numbers : Nat.toDigits 10 i ++ '\x7d' :: after = Nat.toDigits 10 n ++ '\x7d' :: [] := (List.cons.inj whole).2
    exact toDigits_inj.mp ((Text.append_separator_inj (not_mem_toDigits rfl i) (not_mem_toDigits rfl n)).mp numbers).1
  · exact absurd (later.subset List.mem_cons_self) (opening_not_mem_place n)

theorem IsRun.infix_place (run : IsRun r) : place i <:+: r ↔ r = place i := by
  rcases run with unopened | ⟨n, rfl⟩
  · refine iff_of_false (fun inside => unopened (inside.subset List.mem_cons_self)) ?_
    rintro rfl
    exact unopened List.mem_cons_self
  · rw [Message.infix_place, place_inj, eq_comm]

section
variable {more : List Text}

/-- Texts come out with no less of each character that no place has. -/
def Grows (k : Nat) (args more : List Text) : Prop :=
  ∀ c, isForeign c = true → ∀ i, (insertedFrom k args (place i)).count c ≤ (insertedFrom k more (place i)).count c

theorem Grows.run (grows : Grows k args more) (foreign : isForeign c = true) (run : IsRun r) :
    (insertedFrom k args r).count c ≤ (insertedFrom k more r).count c := by
  rcases run with unopened | ⟨i, rfl⟩
  · rw [insertedFrom_of_not_mem unopened, insertedFrom_of_not_mem unopened]
  · exact grows c foreign i

theorem Grows.spaced (grows : Grows k args more) (foreign : isForeign c = true) (spaced : Spaced s) :
    (insertedFrom k args s).count c ≤ (insertedFrom k more s).count c := by
  induction spaced with
  | last run => exact grows.run foreign run
  | more run foreign' _ ih =>
    rw [insertedFrom_append_cons foreign', insertedFrom_append_cons foreign', List.count_append, List.count_append,
      List.count_cons, List.count_cons]
    exact Nat.add_le_add (grows.run foreign run) (Nat.add_le_add_right ih _)

/-- The same comes out just if the same comes out at each place of the template. -/
theorem insertedFrom_eq_iff (grows : Grows k args more) (spaced : Spaced s) :
    insertedFrom k more s = insertedFrom k args s ↔
      ∀ i, place i <:+: s → insertedFrom k more (place i) = insertedFrom k args (place i) := by
  have one {r : Text} (run : IsRun r) : insertedFrom k more r = insertedFrom k args r ↔
      ∀ i, place i <:+: r → insertedFrom k more (place i) = insertedFrom k args (place i) := by
    simp only [run.infix_place]
    constructor
    · rintro same i rfl
      exact same
    · intro each
      rcases run with unopened | ⟨i, rfl⟩
      · rw [insertedFrom_of_not_mem unopened, insertedFrom_of_not_mem unopened]
      · exact each i rfl
  induction spaced with
  | last run => exact one run
  | @more r s c run foreign spaced ih =>
    -- the character in between stands as often before the cut, since neither side has lost any
    have cut : insertedFrom k more (r ++ c :: s) = insertedFrom k args (r ++ c :: s) ↔
        insertedFrom k more r = insertedFrom k args r ∧ insertedFrom k more s = insertedFrom k args s := by
      rw [insertedFrom_append_cons foreign, insertedFrom_append_cons foreign]
      constructor
      · intro whole
        have first := grows.run foreign run
        have second := grows.spaced foreign spaced
        have sum := congrArg (List.count c) whole
        rw [List.count_append, List.count_append, List.count_cons_self, List.count_cons_self] at sum
        exact (Text.append_cons_inj_of_count (by omega)).mp whole
      · rintro ⟨first, second⟩
        rw [first, second]
    have places (i : Nat) : place i <:+: r ++ c :: s ↔ place i <:+: r ∨ place i <:+: s :=
      Text.infix_append_cons_iff (not_mem_place foreign i) (List.cons_ne_nil _ _)
    simp only [cut, one run, ih, places, or_imp, forall_and]

end

theorem argumentFrom?_toDigits (k i : Nat) (args : List Text) :
    argumentFrom? k args (Nat.toDigits 10 i) = if k ≤ i then args[i - k]? else none := by
  induction args generalizing k with
  | nil => simp [argumentFrom?]
  | cons arg rest ih =>
    simp only [argumentFrom?_cons, ih, toDigits_inj]
    by_cases here : i = k
    · rw [if_pos here, if_pos (Nat.le_of_eq here.symm), here, Nat.sub_self]
      rfl
    · rw [if_neg here]
      by_cases later : k + 1 ≤ i
      · have next : i - k = (i - (k + 1)) + 1 := by omega
        rw [if_pos later, if_pos (by omega), next, List.getElem?_cons_succ]
      · rw [if_neg later, if_neg (by omega)]

theorem inserted_place (args : List Text) (i : Nat) : inserted args (place i) = (args[i]?).getD (place i) := by
  rw [inserted, insertedFrom_place, argumentFrom?_toDigits, if_pos (Nat.zero_le i), Nat.sub_zero]

theorem inserted_settled_place (args : List Text) (i : Nat) :
    inserted (settled args) (place i) =
      (args[i]?.map (fillFrom (i + 1) (args.drop (i + 1)))).getD (place i) := by
  rw [inserted_place, settled, getElem?_settledFrom, Nat.zero_add]

theorem grows_settled (args : List Text) : Grows 0 args (settled args) := by
  intro c foreign i
  have first := inserted_place args i
  have second := inserted_settled_place args i
  rw [inserted] at first second
  rw [first, second]
  cases args[i]? with
  | none => exact Nat.le_refl _
  | some arg => exact count_le_fillFrom foreign arg

/-- Whether a text is a place, or no place begins in it; places have a number of one digit. -/
def isRun (r : Text) : Bool := decide ('\x7b' ∉ r) || (List.range 10).any fun i => r == place i

/-- Whether the places of a text are set off, where `current` holds what stands before it backwards, up to the
    last character that no place has. -/
def isSpaced (current : Text) : Text → Bool
  | [] => isRun current.reverse
  | c :: rest => if isForeign c then isRun current.reverse && isSpaced [] rest else isSpaced (c :: current) rest

theorem isRun_sound (run : isRun r = true) : IsRun r := by
  rw [isRun, Bool.or_eq_true] at run
  rcases run with unopened | found
  · exact .inl (of_decide_eq_true unopened)
  · obtain ⟨i, -, same⟩ := List.any_eq_true.mp found
    exact .inr ⟨i, beq_iff_eq.mp same⟩

theorem spaced_of_isSpaced (current s : Text) (spaced : isSpaced current s = true) : Spaced (current.reverse ++ s) := by
  fun_induction isSpaced current s with
  | case1 current =>
    rw [List.append_nil]
    exact .last (isRun_sound spaced)
  | case2 current c rest foreign ih =>
    obtain ⟨run, later⟩ := (Bool.and_eq_true _ _).mp spaced
    exact .more (isRun_sound run) foreign (ih later)
  | case3 current c rest _ ih =>
    have shifted := ih spaced
    rwa [List.reverse_cons, List.append_assoc, List.singleton_append] at shifted

theorem spaced_all : ∀ m ∈ all, ∀ language : Language, Spaced (m.inLanguage language) := by
  have checked : (all.all fun m => isSpaced [] m.english && isSpaced [] m.chinese) = true := by decide +kernel
  intro m among language
  obtain ⟨english, chinese⟩ := (Bool.and_eq_true _ _).mp (List.all_eq_true.mp checked m among)
  cases language with
  | english => exact spaced_of_isSpaced [] _ english
  | chinese => exact spaced_of_isSpaced [] _ chinese

theorem spaced_template {name : Text} (known : name ∈ all.map Message.name) (language : Language) :
    Spaced (template language name) := by
  obtain ⟨m, among, same⟩ := List.mem_map.mp known
  rw [template]
  split
  · next m found => exact spaced_all m (List.mem_of_find?_eq_some found) language
  · next missing => exact absurd (decide_eq_true same) (List.find?_eq_none.mp missing m among)

/-- A message is its template with the settled arguments put in at once, and so with the arguments just as
    they are only if each one that it has a place for stays as it is when the later ones are put in it. -/
theorem text_verbatim_iff {name : Text} (known : name ∈ all.map Message.name) (language : Language)
    (args : List Text) :
    text language name args = inserted (settled args) (template language name) ∧
    (text language name args = inserted args (template language name) ↔
      ∀ i arg, args[i]? = some arg → place i <:+: template language name →
        fillFrom (i + 1) (args.drop (i + 1)) arg = arg) := by
  have spaced := spaced_template known language
  have whole : text language name args = inserted (settled args) (template language name) := fillFrom_eq spaced 0 args
  refine ⟨whole, ?_⟩
  rw [whole, inserted, inserted, insertedFrom_eq_iff (grows_settled args) spaced]
  constructor
  · intro each i arg given inside
    have same := each i inside
    rw [← inserted, ← inserted, inserted_settled_place, inserted_place, given] at same
    exact same
  · intro each i inside
    rw [← inserted, ← inserted, inserted_settled_place, inserted_place]
    cases given : args[i]? with
    | none => rfl
    | some arg => exact each i arg given inside

/-- Arguments that hold places, but none of a later argument. -/
theorem text_verbatim_iff_own_places :
    let name := "error.notAnEndpoint".toList
    let args := ["\x7b0\x7d.cs".toList, "\x7b1\x7d".toList]
    name ∈ all.map Message.name ∧ text .english name args = inserted args (template .english name) ∧
      text .english name args = "No API endpoint at \x7b0\x7d.cs:\x7b1\x7d".toList := by
  intro name args
  have known : name ∈ all.map Message.name := by decide +kernel
  refine ⟨known, (text_verbatim_iff known .english args).2.mpr fun i arg given _ => ?_, by decide +kernel⟩
  match i, given with
  | 0, rfl => decide +kernel
  | 1, rfl => rfl

/-- The line is put in the name of the file, where that holds the place of the line. -/
theorem text_altered :
    let name := "error.notAnEndpoint".toList
    let args := ["\x7b1\x7d.cs".toList, "12".toList]
    name ∈ all.map Message.name ∧ text .english name args = "No API endpoint at 12.cs:12".toList ∧
      inserted args (template .english name) = "No API endpoint at \x7b1\x7d.cs:12".toList := by
  decide +kernel

end EndpointConsole.Message
