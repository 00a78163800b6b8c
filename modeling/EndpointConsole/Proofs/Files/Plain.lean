import EndpointConsole.Files.Path
import EndpointConsole.Proofs.Text.Trimming

/-!
Absolute paths without steps up, which are known by the names along them (`Plain`).
Of such paths, going to the parent and joining a name are inverse: one takes the last
name away (`Plain.parent?`), the other puts a name there (`Plain.join`), however the
paths are written.
-/
namespace EndpointConsole.Path
open Text (splitOn joinWith)

/-! ### Pieces that count -/

/-- A piece of a path that can be the name of a file or a folder. -/
structure IsName (piece : Text) : Prop where
  solid : isTrivial piece = false
  noStepUp : piece ≠ ['.', '.']
  whole : separator ∉ piece

instance (piece : Text) : Decidable (IsName piece) :=
  decidable_of_iff (isTrivial piece = false ∧ piece ≠ ['.', '.'] ∧ separator ∉ piece)
    ⟨fun ⟨solid, noStepUp, whole⟩ => ⟨solid, noStepUp, whole⟩, fun ⟨solid, noStepUp, whole⟩ => ⟨solid, noStepUp, whole⟩⟩

theorem forall_isName_concat {names : List Text} {last : Text} (above : ∀ name ∈ names, IsName name)
    (isName : IsName last) : ∀ name ∈ names ++ [last], IsName name := by
  intro name member
  rcases List.mem_append.mp member with before | here
  · exact above name before
  · exact List.mem_singleton.mp here ▸ isName

/-- The pieces that lead somewhere. -/
def solidPieces (pieces : List Text) : List Text := pieces.filter fun piece => !isTrivial piece

theorem solidPieces_append (a b : List Text) : solidPieces (a ++ b) = solidPieces a ++ solidPieces b :=
  List.filter_append ..

theorem solidPieces_reverse (pieces : List Text) : solidPieces pieces.reverse = (solidPieces pieces).reverse :=
  List.filter_reverse ..

theorem solidPieces_name {name : Text} (isName : IsName name) : solidPieces [name] = [name] := by
  simp [solidPieces, isName.solid]

theorem solidPieces_dropWhile (pieces : List Text) : solidPieces (pieces.dropWhile isTrivial) = solidPieces pieces := by
  induction pieces with
  | nil => rfl
  | cons piece rest ih =>
    by_cases trivial : isTrivial piece = true
    · rw [List.dropWhile_cons_of_pos trivial, ih, solidPieces, solidPieces, List.filter_cons_of_neg (by simp [trivial])]
    · rw [List.dropWhile_cons_of_neg trivial]

/-- What is cut out of joined pieces leads where they lead; without any there is one that leads nowhere. -/
theorem solidPieces_splitOn_joinWith {pieces : List Text} (whole : ∀ piece ∈ pieces, separator ∉ piece) :
    solidPieces (splitOn separator (joinWith [separator] pieces)) = solidPieces pieces := by
  cases pieces with
  | nil => rfl
  | cons piece rest => rw [Text.splitOn_joinWith (List.cons_ne_nil _ _) whole]

/-- The pieces of a path that lead somewhere. -/
def steps (path : Text) : List Text := solidPieces (splitOn separator path)

theorem solidPieces_pieces (path : Text) : solidPieces (pieces path) = steps path := by
  rw [pieces, steps]
  unfold splitAnchor
  split <;> rfl

/-- The first pieces of a path lead the same way when they are written as a path again. -/
theorem steps_anchor_joinWith {path : Text} {kept : List Text} (first : kept <+: pieces path) :
    steps ((splitAnchor path).1 ++ joinWith [separator] kept) = solidPieces kept := by
  have whole : ∀ piece ∈ kept, separator ∉ piece := fun piece among => Text.not_mem_of_mem_splitOn (first.subset among)
  have joined := solidPieces_splitOn_joinWith whole
  revert first
  rw [steps, pieces]
  unfold splitAnchor
  split
  · exact fun _ => joined
  · intro first
    cases kept with
    | nil => rfl
    | cons piece more =>
      obtain ⟨rfl, only⟩ := List.cons_prefix_cons.mp first
      rw [List.prefix_nil.mp only]
      rfl
  · -- a separator stands behind the dot, with an empty piece before it
    intro first
    cases kept with
    | nil => rfl
    | cons piece more =>
      obtain ⟨rfl, -⟩ := List.cons_prefix_cons.mp first
      cases more with
      | nil => rfl
      | cons => exact joined
  · exact fun _ => joined

theorem significant_cons {path last : Text} {before : List Text} (counted : significant path = last :: before) :
    isTrivial last = false ∧ steps path = solidPieces before.reverse ++ [last] := by
  have solid : isTrivial last = false := by
    have first := List.head_dropWhile_not isTrivial (l := (pieces path).reverse) (by simp [← significant.eq_1, counted])
    simpa [← significant.eq_1, counted] using first
  refine ⟨solid, ?_⟩
  have kept := solidPieces_dropWhile (pieces path).reverse
  rw [← significant, counted, solidPieces_reverse, solidPieces_pieces, ← List.reverse_eq_iff, ← solidPieces_reverse,
    List.reverse_cons, solidPieces_append] at kept
  rw [← kept]
  simp [solidPieces, solid]

theorem significant_nil {path : Text} (none : significant path = []) : steps path = [] := by
  rw [← solidPieces_pieces, ← List.reverse_eq_nil_iff, ← solidPieces_reverse, ← solidPieces_dropWhile, ← significant,
    none]
  rfl

/-- The parent leads where the path does but for the last piece that counts. -/
theorem exists_parent?_of_significant {path last : Text} {before : List Text}
    (counted : significant path = last :: before) :
    ∃ folder, parent? path = some folder ∧ steps path = steps folder ++ [last] := by
  refine ⟨_, by rw [parent?, counted], ?_⟩
  have first : (before.dropWhile isTrivial).reverse <+: pieces path := by
    rw [← List.reverse_suffix, List.reverse_reverse]
    have behind : last :: before <:+ (pieces path).reverse := counted ▸ List.dropWhile_suffix _
    exact (List.dropWhile_suffix _).trans ((List.suffix_cons last before).trans behind)
  rw [steps_anchor_joinWith first, (significant_cons counted).2, solidPieces_reverse, solidPieces_reverse,
    solidPieces_dropWhile]

/-- The last piece that counts is the file name, unless it is a step up. -/
theorem fileName?_eq_some_iff {path name : Text} :
    fileName? path = some name ↔ (steps path).getLast? = some name ∧ name ≠ ['.', '.'] := by
  rw [fileName?]
  cases counted : significant path with
  | nil => simp [significant_nil counted]
  | cons last before =>
    rw [(significant_cons counted).2, List.getLast?_concat, Option.some.injEq]
    dsimp only
    split
    · next up =>
      refine iff_of_false (Option.some_ne_none name).symm ?_
      rintro ⟨rfl, other⟩
      exact other up
    · next other =>
      rw [Option.some.injEq]
      constructor
      · rintro rfl
        exact ⟨rfl, other⟩
      · exact And.left

/-! ### Absolute paths -/

theorem steps_absolute (rest : Text) : steps ('/' :: rest) = solidPieces (splitOn separator rest) := rfl

theorem parts_absolute (rest : Text) : parts ('/' :: rest) = .root :: (steps ('/' :: rest)).map pieceOf := rfl

theorem isAbsolute_iff {path : Text} : isAbsolute path = true ↔ ∃ rest, path = '/' :: rest := by
  cases path with
  | nil => simp [isAbsolute]
  | cons c rest => simp [isAbsolute, separator]

theorem IsName.relative {name : Text} (isName : IsName name) : isAbsolute name = false := by
  rw [Bool.eq_false_iff, Ne, isAbsolute_iff]
  rintro ⟨below, rfl⟩
  exact isName.whole List.mem_cons_self

/-- A relative path begins with a dot or with its first piece. -/
theorem splitAnchor_relative {path : Text} (relative : ¬isAbsolute path = true) :
    (splitAnchor path).1 = ['.'] ∨ splitAnchor path = ([], path) := by
  unfold splitAnchor
  split
  · exact absurd rfl relative
  · exact .inl rfl
  · exact .inl rfl
  · exact .inr rfl

/-- Only an absolute path begins at the root. -/
theorem exists_of_root {path : Text} {more : List Part} (begins : parts path = .root :: more) :
    ∃ rest, path = '/' :: rest := by
  rw [← isAbsolute_iff]
  by_contra relative
  have noRoot : ∀ piece, pieceOf piece ≠ .root := by
    intro piece
    rw [pieceOf]
    split <;> exact Part.noConfusion
  rw [parts] at begins
  rcases splitAnchor_relative relative with dot | none
  · rw [dot] at begins
    cases begins
  · rw [none] at begins
    obtain ⟨piece, _, _, root, _⟩ := List.map_eq_cons_iff.mp begins
    exact noRoot piece root

/-- The parent of an absolute path is absolute and has its parts but for the last. -/
theorem parent?_absolute {rest parent : Text} (found : parent? ('/' :: rest) = some parent) :
    (∃ above, parent = '/' :: above) ∧ parts parent = (parts ('/' :: rest)).dropLast := by
  cases counted : significant ('/' :: rest) with
  | nil =>
    rw [parent?, counted] at found
    simp [splitAnchor] at found
  | cons last before =>
    obtain ⟨folder, same, leads⟩ := exists_parent?_of_significant counted
    obtain rfl : folder = parent := Option.some.inj (same.symm.trans found)
    obtain ⟨above, rfl⟩ : ∃ above, folder = '/' :: above := by
      rw [parent?, counted] at found
      exact ⟨_, (Option.some.inj found).symm⟩
    refine ⟨⟨above, rfl⟩, ?_⟩
    rw [parts_absolute, parts_absolute, leads, List.map_append, ← List.cons_append]
    exact List.dropLast_concat.symm

/-- Only the root has no parent. -/
theorem exists_parent? {rest : Text} {part : Part} {more : List Part}
    (below : parts ('/' :: rest) = .root :: part :: more) : ∃ parent, parent? ('/' :: rest) = some parent := by
  cases counted : significant ('/' :: rest) with
  | cons last before => exact ⟨_, by rw [parent?, counted]⟩
  | nil =>
    rw [parts_absolute, significant_nil counted] at below
    cases below

/-- Going up does not make a path absolute. -/
theorem isAbsolute_of_parent? {path parent : Text} (found : parent? path = some parent)
    (absolute : isAbsolute parent = true) : isAbsolute path = true := by
  by_contra relative
  obtain ⟨below, rfl⟩ := isAbsolute_iff.mp absolute
  rw [parent?] at found
  rcases splitAnchor_relative relative with dot | none
  · rw [dot] at found
    split at found <;> simp at found
  · rw [none] at found
    split at found
    · next last before counted =>
      rw [significant, Path.pieces, none] at counted
      -- the parent is joined from the first pieces of the path
      have first : (before.dropWhile isTrivial).reverse <+: splitOn separator path := by
        rw [← List.reverse_suffix, List.reverse_reverse]
        have behind : last :: before <:+ (splitOn separator path).reverse := counted ▸ List.dropWhile_suffix _
        exact (List.dropWhile_suffix _).trans ((List.suffix_cons last before).trans behind)
      cases path with
      | nil => simp [splitOn, isTrivial] at counted
      | cons c rest =>
        have other : c ≠ separator := fun slash => relative (by rw [slash]; rfl)
        obtain ⟨piece, pieces, cut⟩ := List.exists_cons_of_ne_nil (Text.splitOn_ne_nil separator rest)
        rw [Text.splitOn_cons other, cut, List.modify_zero_cons] at first
        cases kept : (before.dropWhile isTrivial).reverse with
        | nil =>
          rw [kept] at found
          simp [joinWith] at found
        | cons start more =>
          rw [kept] at first found
          obtain ⟨rfl, _⟩ := List.cons_prefix_cons.mp first
          have begins : ∃ behind, joinWith [separator] ((c :: piece) :: more) = c :: behind := by
            cases more <;> exact ⟨_, rfl⟩
          obtain ⟨behind, begins⟩ := begins
          rw [begins] at found
          exact other (List.cons.inj (Option.some.inj found)).1
    · simp at found

/-- A name that is joined to a path comes behind its pieces. -/
theorem splitOn_join (path : Text) {name : Text} (isName : IsName name) :
    ∃ before, splitOn separator (join path name) = before ++ [name] ∧ solidPieces before = steps path := by
  have alone : splitOn separator name = [name] := Text.splitOn_of_not_mem isName.whole
  rcases List.eq_nil_or_concat path with rfl | ⟨start, last, rfl⟩
  · exact ⟨[], by rw [join, List.isEmpty_nil, Bool.or_true, if_pos rfl, alone]; rfl, rfl⟩
  · have solid : (isAbsolute name || (start ++ [last]).isEmpty) = false := by simp [isName.relative]
    rw [List.concat_eq_append, join, solid, if_neg Bool.false_ne_true, List.getLast?_concat]
    by_cases slash : last = separator
    · refine ⟨splitOn separator start, ?_, ?_⟩
      · rw [if_pos (by rw [slash]), slash, List.append_assoc, List.singleton_append, Text.splitOn_append_cons, alone]
      · rw [steps, slash, Text.splitOn_append_cons, solidPieces_append]
        exact (List.append_nil _).symm
    · refine ⟨splitOn separator (start ++ [last]), ?_, rfl⟩
      rw [if_neg (by simpa using slash), Text.splitOn_append_cons, alone]

/-- A path with a name joined to it is absolute only if the path is. -/
theorem isAbsolute_join (path : Text) {name : Text} (isName : IsName name) :
    isAbsolute (join path name) = isAbsolute path := by
  cases path with
  | nil =>
    have alone : join [] name = name := by simp [join]
    rw [alone, isName.relative]
    rfl
  | cons c rest =>
    rw [join, isName.relative, if_neg (by simp)]
    split <;> rfl

theorem join_absolute (rest : Text) {name : Text} (isName : IsName name) :
    ∃ more before, join ('/' :: rest) name = '/' :: more ∧ splitOn separator more = before ++ [name] ∧
      solidPieces before = solidPieces (splitOn separator rest) := by
  obtain ⟨before, cut, same⟩ := splitOn_join ('/' :: rest) isName
  obtain ⟨more, written⟩ := isAbsolute_iff.mp (isAbsolute_join ('/' :: rest) isName)
  rw [written] at cut
  -- the empty piece before the first separator leads nowhere
  have first : splitOn separator ('/' :: more) = [] :: splitOn separator more := if_pos rfl
  cases before with
  | nil =>
    rw [first, List.nil_append] at cut
    exact absurd (List.cons.inj cut).2 (Text.splitOn_ne_nil separator more)
  | cons piece before =>
    rw [first, List.cons_append] at cut
    obtain ⟨rfl, tail⟩ := List.cons.inj cut
    exact ⟨more, before, written, tail, same⟩

theorem parts_join (rest : Text) {name : Text} (isName : IsName name) :
    parts (join ('/' :: rest) name) = parts ('/' :: rest) ++ [.name name] := by
  obtain ⟨more, before, written, cut, same⟩ := join_absolute rest isName
  have named : pieceOf name = .name name := if_neg isName.noStepUp
  rw [written, parts_absolute, parts_absolute, steps_absolute, steps_absolute, cut, solidPieces_append, same,
    solidPieces_name isName]
  simp [named]

/-! ### Plain paths -/

/-- The path is absolute and goes down along these names. -/
def Plain (path : Text) (names : List Text) : Prop := parts path = .root :: names.map .name

instance (path : Text) (names : List Text) : Decidable (Plain path names) := inferInstanceAs (Decidable (_ = _))

theorem same_iff {a b : Text} : same a b = true ↔ parts a = parts b := beq_iff_eq

theorem names_of_pieces {pieces names : List Text} (along : pieces.map pieceOf = names.map .name) :
    pieces = names ∧ ['.', '.'] ∉ pieces := by
  induction pieces generalizing names with
  | nil => simpa using along
  | cons piece rest ih =>
    cases names with
    | nil => cases along
    | cons name more =>
      obtain ⟨head, tail⟩ := List.cons.inj along
      obtain ⟨same, noUp⟩ := ih tail
      rw [pieceOf] at head
      split at head
      · cases head
      · next other =>
        cases head
        exact ⟨by rw [same], by simp [Ne.symm other, noUp]⟩

namespace Plain
variable {path : Text} {names : List Text} {name : Text}

theorem unique {other : List Text} (plain : Plain path names) (also : Plain path other) : names = other := by
  have along : names.map Part.name = other.map Part.name := (List.cons.inj (plain.symm.trans also)).2
  exact (List.map_inj_right fun _ _ => Part.name.inj).mp along

theorem iff_eq {other : List Text} (plain : Plain path names) : Plain path other ↔ other = names := by
  constructor
  · intro also
    exact also.unique plain
  · rintro rfl
    exact plain

/-- Paths that lead the same way are plain alike. -/
theorem same_iff {other : Text} (plain : Plain path names) : same path other = true ↔ Plain other names := by
  rw [Path.same_iff, plain, Plain]
  exact eq_comm

theorem pieces (plain : Plain path names) :
    ∃ rest, path = '/' :: rest ∧ solidPieces (splitOn separator rest) = names ∧
      ['.', '.'] ∉ splitOn separator rest := by
  obtain ⟨rest, rfl⟩ := exists_of_root plain
  rw [Plain, parts_absolute, steps_absolute] at plain
  obtain ⟨same, noUp⟩ := names_of_pieces (List.cons.inj plain).2
  refine ⟨rest, rfl, same, ?_⟩
  intro member
  exact noUp (List.mem_filter.mpr ⟨member, rfl⟩)

theorem isName (plain : Plain path names) : ∀ name ∈ names, IsName name := by
  obtain ⟨rest, rfl, leads, noUp⟩ := plain.pieces
  intro name member
  rw [← leads] at member
  obtain ⟨among, solid⟩ := List.mem_filter.mp member
  exact ⟨by simpa using solid, fun up => noUp (up ▸ among), Text.not_mem_of_mem_splitOn among⟩

theorem join (plain : Plain path names) (isName : IsName name) : Plain (join path name) (names ++ [name]) := by
  obtain ⟨rest, rfl, _, _⟩ := plain.pieces
  rw [Plain, parts_join rest isName, plain, List.map_append]
  rfl

/-- A joined name comes behind pieces that lead where the path does. -/
theorem join_pieces (plain : Plain path names) (isName : IsName name) :
    ∃ more before, Path.join path name = '/' :: more ∧ splitOn separator more = before ++ [name] ∧
      solidPieces before = names ∧ ['.', '.'] ∉ before := by
  obtain ⟨rest, rfl, leads, noUp⟩ := plain.pieces
  obtain ⟨more, before, written, cut, same⟩ := join_absolute rest isName
  refine ⟨more, before, written, cut, same.trans leads, ?_⟩
  intro member
  have solid : ['.', '.'] ∈ solidPieces before := List.mem_filter.mpr ⟨member, rfl⟩
  rw [same] at solid
  exact noUp (List.mem_filter.mp solid).1

theorem parent? (plain : Plain path (names ++ [name])) : ∃ parent, parent? path = some parent ∧ Plain parent names := by
  obtain ⟨rest, rfl⟩ := exists_of_root plain
  have below : ∃ part more, parts ('/' :: rest) = .root :: part :: more := by
    rw [plain]
    cases names <;> exact ⟨_, _, rfl⟩
  obtain ⟨part, more, below⟩ := below
  obtain ⟨parent, found⟩ := exists_parent? below
  refine ⟨parent, found, ?_⟩
  rw [Plain, (parent?_absolute found).2, plain, List.map_append, ← List.cons_append]
  exact List.dropLast_concat

theorem parent?_root (plain : Plain path []) : Path.parent? path = none := by
  obtain ⟨rest, rfl, leads, _⟩ := plain.pieces
  cases counted : significant ('/' :: rest) with
  | nil => rw [Path.parent?, counted]; rfl
  | cons last before =>
    have some_name := (significant_cons counted).2
    rw [steps_absolute, leads] at some_name
    simp at some_name

theorem fileName? (plain : Plain path (names ++ [name])) : fileName? path = some name := by
  obtain ⟨rest, rfl, leads, noUp⟩ := plain.pieces
  rw [fileName?_eq_some_iff, steps_absolute, leads]
  refine ⟨List.getLast?_concat, fun up => ?_⟩
  have member : ['.', '.'] ∈ solidPieces (splitOn separator rest) := by
    rw [leads, up]
    exact List.mem_concat_self
  exact noUp (List.mem_filter.mp member).1

end Plain

end EndpointConsole.Path
