import EndpointConsole.Files
import EndpointConsole.Proofs.Files.Plain

/-!
Where plain paths lead in a tree of files. What is found at such a path depends only
on the names along it: there must be folders all the way (`FoldersAlong`), and then a
folder shows what lies in it (`list_plain`) and a file shows its text
(`readText_join`).
-/
namespace EndpointConsole.Files
open Path (IsName Plain solidPieces)
open Text (splitOn)

/-- The tree has proper names, as on a disk. -/
def WellNamed (fs : Files) : Prop := ∀ p ∈ fs.entries, ∀ name ∈ p.1, IsName name

instance (fs : Files) : Decidable fs.WellNamed :=
  inferInstanceAs (Decidable (∀ p ∈ fs.entries, ∀ name ∈ p.1, IsName name))

/-- There are folders at a place and at every step down from it along some names. -/
def FoldersAlong (fs : Files) (place : List Text) : List Text → Prop
  | [] => fs.entryAt? place = some .folder
  | name :: rest => fs.entryAt? place = some .folder ∧ FoldersAlong fs (place ++ [name]) rest

variable {fs : Files} {place names : List Text}

theorem foldersAlong_iff :
    fs.FoldersAlong place names ↔ ∀ upper, upper <+: names → fs.entryAt? (place ++ upper) = some .folder := by
  induction names generalizing place with
  | nil => simp [FoldersAlong]
  | cons name rest ih =>
    rw [FoldersAlong, ih]
    constructor
    · rintro ⟨first, below⟩ upper before
      cases upper with
      | nil => simpa using first
      | cons step more =>
        obtain ⟨rfl, within⟩ := List.cons_prefix_cons.mp before
        simpa using below more within
    · intro along
      refine ⟨by simpa using along [] List.nil_prefix, fun upper before => ?_⟩
      simpa using along (name :: upper) (List.cons_prefix_cons.mpr ⟨rfl, before⟩)

theorem FoldersAlong.first (along : fs.FoldersAlong place names) : fs.entryAt? place = some .folder := by
  simpa using foldersAlong_iff.mp along [] List.nil_prefix

theorem FoldersAlong.last (along : fs.FoldersAlong place names) : fs.entryAt? (place ++ names) = some .folder :=
  foldersAlong_iff.mp along names List.prefix_rfl

theorem foldersAlong_concat {name : Text} :
    fs.FoldersAlong place (names ++ [name]) ↔
      fs.FoldersAlong place names ∧ fs.entryAt? (place ++ names ++ [name]) = some .folder := by
  simp only [foldersAlong_iff, List.prefix_concat_iff]
  constructor
  · intro along
    refine ⟨fun upper before => along upper (.inr before), ?_⟩
    rw [List.append_assoc]
    exact along _ (.inl rfl)
  · rintro ⟨along, last⟩ upper (rfl | before)
    · rwa [← List.append_assoc]
    · exact along upper before

/-- Entries that are left out do not count at a name that is not theirs. -/
theorem find?_filter (entries : List (List Text × Entry)) (keep : List Text → Bool) (kept : keep names = true) :
    find? names (entries.filter fun p => keep p.1) = find? names entries := by
  induction entries with
  | nil => rfl
  | cons p rest ih =>
    rw [find?]
    by_cases here : p.1 = names
    · rw [List.filter_cons_of_pos (by rw [here]; exact kept), find?, if_pos here, if_pos here]
    · rw [if_neg here, List.filter_cons]
      split
      · rw [find?, if_neg here]
        exact ih
      · exact ih

/-- A path without steps up is followed along the pieces that lead somewhere, if there are folders before each. -/
theorem follow_pieces {pieces : List Text} (noUp : ['.', '.'] ∉ pieces) {target : List Text} :
    fs.follow place pieces = .ok target ∧ fs.entryAt? target = some .folder ↔
      target = place ++ solidPieces pieces ∧ fs.FoldersAlong place (solidPieces pieces) := by
  induction pieces generalizing place with
  | nil =>
    rw [follow, Except.ok.injEq]
    constructor
    · rintro ⟨rfl, folder⟩
      exact ⟨(List.append_nil _).symm, folder⟩
    · rintro ⟨rfl, folder⟩
      exact ⟨(List.append_nil place).symm, folder.last⟩
  | cons piece rest ih =>
    have noUpRest : ['.', '.'] ∉ rest := fun member => noUp (List.mem_cons_of_mem _ member)
    have noUpHere : piece ≠ ['.', '.'] := fun up => noUp (up ▸ List.mem_cons_self)
    by_cases folder : fs.entryAt? place = some .folder
    · rw [follow, folder]
      by_cases trivial : Path.isTrivial piece = true
      · have skipped : solidPieces (piece :: rest) = solidPieces rest := List.filter_cons_of_neg (by simp [trivial])
        rw [skipped]
        simp only [trivial, if_true]
        exact ih noUpRest
      · have taken : solidPieces (piece :: rest) = piece :: solidPieces rest :=
          List.filter_cons_of_pos (by simp [trivial])
        dsimp only
        rw [taken, if_neg trivial, if_neg noUpHere, ih noUpRest, FoldersAlong, List.append_assoc, List.singleton_append]
        simp [folder]
    · constructor
      · rintro ⟨followed, _⟩
        rw [follow] at followed
        split at followed
        · cases followed
        · cases followed
        · next held => exact absurd held folder
      · rintro ⟨_, along⟩
        exact absurd along.first folder

/-- A name at the end of a path is looked for in the folder that the rest leads to. -/
theorem follow_concat {pieces : List Text} {name : Text} (isName : IsName name) {target : List Text} :
    fs.follow place (pieces ++ [name]) = .ok target ↔
      ∃ folder, (fs.follow place pieces = .ok folder ∧ fs.entryAt? folder = some .folder) ∧ target = folder ++ [name] := by
  induction pieces generalizing place with
  | nil =>
    rw [List.nil_append, follow, follow]
    cases held : fs.entryAt? place with
    | none => simp [held]
    | some entry =>
      cases entry with
      | file bytes => simp [held]
      | folder =>
        simp only [isName.solid, Bool.false_eq_true, if_false, isName.noStepUp, follow, Except.ok.injEq]
        constructor
        · rintro rfl
          exact ⟨place, ⟨rfl, held⟩, rfl⟩
        · rintro ⟨_, ⟨rfl, _⟩, rfl⟩
          rfl
  | cons piece rest ih =>
    rw [List.cons_append, follow, follow]
    cases held : fs.entryAt? place with
    | none => simp
    | some entry =>
      cases entry with
      | file bytes => simp
      | folder =>
        dsimp only
        split
        · exact ih
        · split
          · exact ih
          · exact ih

variable {path : Text}

theorem splitOn_absolute (rest : Text) :
    splitOn Path.separator ('/' :: rest) = [] :: splitOn Path.separator rest := if_pos rfl

theorem locate_absolute (rest : Text) : fs.locate ('/' :: rest) = fs.follow [] (splitOn Path.separator rest) := by
  have root : fs.entryAt? [] = some .folder := rfl
  have absolute : Path.isAbsolute ('/' :: rest) = true := rfl
  rw [locate, if_neg (by simp), if_pos absolute, splitOn_absolute, follow, root]
  rfl

theorem look_eq_ok {target : List Text} {entry : Entry} :
    fs.look path = .ok (target, entry) ↔ fs.locate path = .ok target ∧ fs.entryAt? target = some entry := by
  rw [look]
  cases located : fs.locate path with
  | error failure => simp [bind, Except.bind]
  | ok place =>
    simp only [bind, Except.bind, Except.ok.injEq]
    constructor
    · intro found
      split at found
      · cases found
      · next held =>
        cases found
        exact ⟨rfl, held⟩
    · rintro ⟨rfl, held⟩
      rw [held]

/-- A plain path leads to a folder if there are folders along its names. -/
theorem look_plain (plain : Plain path names) {target : List Text} :
    fs.look path = .ok (target, .folder) ↔ target = names ∧ fs.FoldersAlong [] names := by
  obtain ⟨rest, rfl, leads, noUp⟩ := plain.pieces
  rw [look_eq_ok, locate_absolute, follow_pieces noUp, leads, List.nil_append]

/-- A name below a plain path is looked for in the folder that its names lead to. -/
theorem locate_join (plain : Plain path names) {name : Text} (isName : IsName name) {target : List Text} :
    fs.locate (Path.join path name) = .ok target ↔ target = names ++ [name] ∧ fs.FoldersAlong [] names := by
  obtain ⟨more, before, written, cut, leads, noUp⟩ := plain.join_pieces isName
  rw [written, locate_absolute, cut, follow_concat isName]
  simp only [follow_pieces noUp, leads, List.nil_append]
  constructor
  · rintro ⟨_, ⟨rfl, along⟩, rfl⟩
    exact ⟨rfl, along⟩
  · rintro ⟨rfl, along⟩
    exact ⟨_, ⟨rfl, along⟩, rfl⟩

/-- A name below a plain path leads to what the folder has by this name. -/
theorem look_join (plain : Plain path names) {name : Text} (isName : IsName name) {target : List Text} {entry : Entry} :
    fs.look (Path.join path name) = .ok (target, entry) ↔
      target = names ++ [name] ∧ fs.FoldersAlong [] names ∧ fs.entryAt? (names ++ [name]) = some entry := by
  rw [look_eq_ok, locate_join plain isName]
  constructor
  · rintro ⟨⟨rfl, along⟩, held⟩
    exact ⟨rfl, along, held⟩
  · rintro ⟨rfl, along, held⟩
    exact ⟨⟨rfl, along⟩, held⟩

/-- What lies right in a folder. -/
def childrenOf (fs : Files) (folder : List Text) : List (Text × Entry) :=
  fs.entries.filterMap fun (names, entry) => (childName? folder names).map (·, entry)

theorem childName?_eq_some {folder key : List Text} {name : Text} :
    childName? folder key = some name ↔ key = folder ++ [name] := by
  rw [childName?]
  constructor
  · intro found
    split at found
    · next above =>
      obtain ⟨start, rfl⟩ := List.getLast?_eq_some_iff.mp found
      rw [← above, List.dropLast_concat]
    · cases found
  · rintro rfl
    rw [List.dropLast_concat, if_pos rfl, List.getLast?_concat]

theorem WellNamed.child (named : fs.WellNamed) {folder : List Text} {child : Text × Entry}
    (member : child ∈ fs.childrenOf folder) : IsName child.1 := by
  obtain ⟨⟨key, entry⟩, among, is⟩ := List.mem_filterMap.mp member
  obtain ⟨name, last, rfl⟩ := Option.map_eq_some_iff.mp is
  exact named _ among name (childName?_eq_some.mp last ▸ List.mem_concat_self)

theorem list_eq_ok {children : List (Text × Entry)} :
    fs.list path = .ok children ↔ ∃ folder, fs.look path = .ok (folder, .folder) ∧ children = fs.childrenOf folder := by
  rw [list]
  cases looked : fs.look path with
  | error failure => simp [bind, Except.bind]
  | ok found =>
    obtain ⟨place, entry⟩ := found
    cases entry with
    | file bytes => simp [bind, Except.bind]
    | folder =>
      simp only [bind, Except.bind, pure, Except.pure, Except.ok.injEq, Prod.mk.injEq, and_true]
      constructor
      · rintro rfl
        exact ⟨place, rfl, rfl⟩
      · rintro ⟨_, rfl, rfl⟩
        rfl

theorem readText_eq_ok {content : Text} :
    fs.readText path = .ok content ↔
      ∃ place bytes, fs.look path = .ok (place, .file bytes) ∧ Utf8.decode? bytes = some content := by
  rw [readText, readBytes]
  cases looked : fs.look path with
  | error failure => simp [bind, Except.bind]
  | ok found =>
    obtain ⟨place, entry⟩ := found
    cases entry with
    | folder => simp [bind, Except.bind]
    | file bytes =>
      simp only [bind, Except.bind, pure, Except.pure, Except.ok.injEq, Prod.mk.injEq, Entry.file.injEq]
      cases decoded : Utf8.decode? bytes with
      | none => simp [decoded]
      | some text =>
        rw [Except.ok.injEq]
        constructor
        · rintro rfl
          exact ⟨place, bytes, ⟨rfl, rfl⟩, decoded⟩
        · rintro ⟨_, _, ⟨rfl, rfl⟩, again⟩
          exact Option.some.inj (decoded.symm.trans again)

/-- Folders along its names are listed. -/
theorem list_plain (plain : Plain path names) {children : List (Text × Entry)} :
    fs.list path = .ok children ↔ fs.FoldersAlong [] names ∧ children = fs.childrenOf names := by
  rw [list_eq_ok]
  simp only [look_plain plain]
  constructor
  · rintro ⟨_, ⟨rfl, along⟩, rfl⟩
    exact ⟨along, rfl⟩
  · rintro ⟨along, rfl⟩
    exact ⟨names, ⟨rfl, along⟩, rfl⟩

theorem readText_join (plain : Plain path names) {name : Text} (isName : IsName name) {content : Text} :
    fs.readText (Path.join path name) = .ok content ↔
      fs.FoldersAlong [] names ∧
        ∃ bytes, fs.entryAt? (names ++ [name]) = some (.file bytes) ∧ Utf8.decode? bytes = some content := by
  rw [readText_eq_ok]
  simp only [look_join plain isName]
  constructor
  · rintro ⟨_, bytes, ⟨_, along, held⟩, decoded⟩
    exact ⟨along, bytes, held, decoded⟩
  · rintro ⟨along, bytes, held, decoded⟩
    exact ⟨_, bytes, ⟨rfl, along, held⟩, decoded⟩

/-- A file is read the same where its path leads to the same place, with the same entry. -/
theorem readText_congr {after : Files} (located : after.locate path = fs.locate path)
    (same : ∀ target, fs.locate path = .ok target → after.entryAt? target = fs.entryAt? target) :
    after.readText path = fs.readText path := by
  have looked : after.look path = fs.look path := by
    rw [look, look, located]
    cases found : fs.locate path with
    | error failure => rfl
    | ok target => simp only [bind, Except.bind, same target found]
  rw [readText, readText, readBytes, readBytes, looked]

end EndpointConsole.Files
