import EndpointConsole.Proofs.Encoding.Utf8
import EndpointConsole.Proofs.Files.Renaming

/-!
A file and the one beside it, at any path. A path with another extension leads to another name
in the same folder (`Path.splitOn_withExtension`). Where a path leads stays the same as long as
the folders along it stay (`follow_outside`), so a file that is renamed onto the one beside it
is found where that one was looked for (`readText_rename`).
-/
namespace EndpointConsole

namespace Path
open Text (splitOn)

variable {path name : Text}

theorem isAbsolute_parent? {folder : Text} (found : parent? path = some folder) :
    isAbsolute folder = isAbsolute path := by
  rw [Bool.eq_iff_iff]
  refine ⟨isAbsolute_of_parent? found, fun absolute => ?_⟩
  obtain ⟨rest, rfl⟩ := isAbsolute_iff.mp absolute
  obtain ⟨⟨above, rfl⟩, _⟩ := parent?_absolute found
  rfl

theorem isName_of_fileName? (named : fileName? path = some name) : IsName name := by
  obtain ⟨last, other⟩ := fileName?_eq_some_iff.mp named
  obtain ⟨among, solid⟩ := List.mem_filter.mp (List.mem_of_getLast? last)
  exact ⟨by simpa using solid, other, Text.not_mem_of_mem_splitOn among⟩

/-- A path with a file name has a parent, which leads where the path does but for the name. -/
theorem exists_parent?_of_fileName? (named : fileName? path = some name) :
    ∃ folder, parent? path = some folder ∧ isAbsolute folder = isAbsolute path ∧ steps path = steps folder ++ [name] := by
  have last := (fileName?_eq_some_iff.mp named).1
  cases counted : significant path with
  | nil => simp [significant_nil counted] at last
  | cons piece before =>
    obtain ⟨folder, found, leads⟩ := exists_parent?_of_significant counted
    rw [leads, List.getLast?_concat, Option.some.injEq] at last
    exact ⟨folder, found, isAbsolute_parent? found, last ▸ leads⟩

/-- A name is its stem, or the stem with a point and an extension that holds none. -/
theorem splitName_cases (name : Text) :
    (splitName name).1 = name ∨
      ∃ extension, name = (splitName name).1 ++ '.' :: extension ∧ (splitName name).1 ≠ [] ∧ '.' ∉ extension := by
  rw [splitName]
  cases cut : Text.cutAt? '.' name.reverse with
  | none => exact .inl rfl
  | some parts =>
    obtain ⟨reversed, noPoint⟩ := Text.cutAt?_eq_some_iff.mp cut
    dsimp only
    split
    · exact .inl rfl
    · next some_stem =>
      refine .inr ⟨parts.1.reverse, ?_, by simpa using some_stem, by simpa using noPoint⟩
      rw [← List.reverse_reverse name, reversed]
      simp

/-- An extension in two parts makes another name of every name. -/
theorem isName_renamed (isName : IsName name) {extension : Text} (whole : separator ∉ extension)
    (point : '.' ∈ extension) :
    IsName ((splitName name).1 ++ '.' :: extension) ∧ (splitName name).1 ++ '.' :: extension ≠ name := by
  have stem : (splitName name).1 ≠ [] ∧ (splitName name).1 <+: name := by
    rcases splitName_cases name with same | ⟨_, same, some_stem, _⟩
    · rw [same]
      refine ⟨?_, List.prefix_rfl⟩
      rintro rfl
      exact absurd isName.solid (by decide)
    · exact ⟨some_stem, _, same.symm⟩
  have long : 2 < ((splitName name).1 ++ '.' :: extension).length := by
    have first := List.length_pos_iff.mpr stem.1
    have last := List.length_pos_of_mem point
    rw [List.length_append, List.length_cons]
    omega
  refine ⟨⟨?_, ?_, ?_⟩, ?_⟩
  · rw [isTrivial, Bool.or_eq_false_iff, beq_eq_false_iff_ne, beq_eq_false_iff_ne]
    exact ⟨fun short => by simp [short] at long, fun short => by simp [short] at long⟩
  · exact fun short => by simp [short] at long
  · intro member
    rcases List.mem_append.mp member with inside | inside
    · exact isName.whole (stem.2.subset inside)
    · rcases List.mem_cons.mp inside with slash | inside
      · exact absurd slash (by decide)
      · exact whole inside
  · intro same
    rcases splitName_cases name with alone | ⟨old, written, _, noPoint⟩
    · rw [alone] at same
      simp at same
    · have tails := List.append_cancel_left (same.trans written)
      exact noPoint ((List.cons.inj tails).2 ▸ point)

/-- With another extension a path leads to another name in the same folder. -/
theorem splitOn_withExtension (named : fileName? path = some name) {extension : Text} (whole : separator ∉ extension)
    (point : '.' ∈ extension) :
    ∃ side other, splitOn separator (withExtension extension path) = side ++ [other] ∧ IsName other ∧ other ≠ name ∧
      steps path = solidPieces side ++ [name] ∧ isAbsolute (withExtension extension path) = isAbsolute path := by
  obtain ⟨folder, found, absolute, leads⟩ := exists_parent?_of_fileName? named
  obtain ⟨isName, different⟩ := isName_renamed (isName_of_fileName? named) whole point
  obtain ⟨side, cut, same⟩ := splitOn_join folder isName
  have renamed : withExtension extension path = join folder ((splitName name).1 ++ '.' :: extension) := by
    rw [withExtension, named]
    dsimp only
    rw [found]
  rw [renamed]
  exact ⟨side, _, cut, isName, different, same.symm ▸ leads, (isAbsolute_join folder isName).trans absolute⟩

end Path

namespace Files
open Path (IsName solidPieces)
open Text (splitOn)

variable {fs after : Files} {place source target : List Text} {path : Text}

/-- The place that a piece leads to from a folder. -/
def stepTo (place : List Text) (piece : Text) : List Text :=
  if Path.isTrivial piece then place else if piece = ['.', '.'] then place.dropLast else place ++ [piece]

theorem follow_cons (folder : fs.entryAt? place = some .folder) (piece : Text) (rest : List Text) :
    fs.follow place (piece :: rest) = fs.follow (stepTo place piece) rest := by
  rw [follow, folder, stepTo]
  dsimp only
  split
  · rfl
  · split <;> rfl

theorem folder_of_follow_cons {piece : Text} {rest : List Text} (followed : fs.follow place (piece :: rest) = .ok target) :
    fs.entryAt? place = some .folder := by
  rw [follow] at followed
  split at followed
  · cases followed
  · cases followed
  · assumption

theorem folder_of_follow {pieces : List Text} (followed : fs.follow place pieces = .ok target)
    (folder : fs.entryAt? target = some .folder) : fs.entryAt? place = some .folder := by
  cases pieces with
  | nil =>
    cases followed
    exact folder
  | cons piece rest => exact folder_of_follow_cons followed

theorem follow_append (pieces more : List Text) :
    fs.follow place (pieces ++ more) = (fs.follow place pieces).bind (fs.follow · more) := by
  induction pieces generalizing place with
  | nil => rfl
  | cons piece rest ih =>
    by_cases folder : fs.entryAt? place = some .folder
    · rw [List.cons_append, follow_cons folder, follow_cons folder]
      exact ih
    · rw [List.cons_append, follow, follow]
      split
      · rfl
      · rfl
      · next held => exact absurd held folder

theorem folder_of_follow_trivial {pieces : List Text} {piece : Text} (trivial : Path.isTrivial piece = true)
    (followed : fs.follow place (pieces ++ [piece]) = .ok target) : fs.entryAt? target = some .folder := by
  rw [follow_append] at followed
  cases reached : fs.follow place pieces with
  | error failure =>
    rw [reached] at followed
    cases followed
  | ok last =>
    rw [reached, Except.bind] at followed
    have folder := folder_of_follow_cons followed
    rw [follow_cons folder, stepTo, if_pos trivial] at followed
    cases followed
    exact folder

/-- The pieces that lead nowhere make no difference on the way to a folder. -/
theorem follow_solidPieces {pieces : List Text} :
    fs.follow place pieces = .ok target ∧ fs.entryAt? target = some .folder ↔
      fs.follow place (solidPieces pieces) = .ok target ∧ fs.entryAt? target = some .folder := by
  induction pieces generalizing place with
  | nil => exact Iff.rfl
  | cons piece rest ih =>
    by_cases here : fs.entryAt? place = some .folder
    · rw [follow_cons here]
      by_cases trivial : Path.isTrivial piece = true
      · have skipped : solidPieces (piece :: rest) = solidPieces rest := List.filter_cons_of_neg (by simp [trivial])
        rw [skipped, stepTo, if_pos trivial]
        exact ih
      · have taken : solidPieces (piece :: rest) = piece :: solidPieces rest :=
          List.filter_cons_of_pos (by simp [trivial])
        rw [taken, follow_cons here]
        exact ih
    · have unreached {pieces : List Text} : ¬(fs.follow place pieces = .ok target ∧ fs.entryAt? target = some .folder) :=
        fun reached => here (folder_of_follow reached.1 reached.2)
      exact iff_of_false unreached unreached

/-- The place that a path goes out from. -/
def base (fs : Files) (path : Text) : List Text := if Path.isAbsolute path then [] else fs.workingFolder

theorem locate_eq (some_path : path ≠ []) : fs.locate path = fs.follow (fs.base path) (splitOn Path.separator path) := by
  rw [locate, if_neg (by simpa using some_path), base]

theorem locate_eq_ok_iff :
    fs.locate path = .ok target ↔ path ≠ [] ∧ fs.follow (fs.base path) (splitOn Path.separator path) = .ok target := by
  by_cases some_path : path = []
  · subst some_path
    exact iff_of_false nofun fun located => located.1 rfl
  · rw [locate_eq some_path, and_iff_right some_path]

/-- A path that ends with a name leads to this name in the folder before it. -/
theorem locate_eq_ok {before : List Text} {name : Text} (cut : splitOn Path.separator path = before ++ [name])
    (isName : IsName name) :
    fs.locate path = .ok target ↔
      ∃ folder, (fs.follow (fs.base path) (solidPieces before) = .ok folder ∧ fs.entryAt? folder = some .folder) ∧
        target = folder ++ [name] := by
  have some_path : path ≠ [] := by
    rintro rfl
    cases before with
    | nil =>
      have solid := isName.solid
      rw [← List.singleton_inj.mp cut] at solid
      cases solid
    | cons => simp [splitOn] at cut
  rw [locate_eq some_path, cut, follow_concat isName]
  exact exists_congr fun folder => and_congr_left fun _ => follow_solidPieces

/-- Where a path leads stays the same in a tree with the same folders but for those inside of some
    places, if one gets in there only by way of something that is no folder. -/
theorem follow_outside (inside : List Text → Prop) (below : ∀ place name, inside place → inside (place ++ [name]))
    (entered : ∀ place name, inside (place ++ [name]) → fs.entryAt? (place ++ [name]) = some .folder → inside place)
    (same : ∀ place, ¬inside place → fs.entryAt? place = some .folder → after.entryAt? place = some .folder)
    (outside : ¬inside target) {pieces : List Text} (followed : fs.follow place pieces = .ok target) :
    ¬inside place ∧ after.follow place pieces = .ok target := by
  induction pieces generalizing place with
  | nil =>
    cases followed
    exact ⟨outside, rfl⟩
  | cons piece rest ih =>
    have folder := folder_of_follow_cons followed
    rw [follow_cons folder] at followed
    obtain ⟨next, goes⟩ := ih followed
    have here : ¬inside place := by
      intro within
      rw [stepTo] at next
      split at next
      · exact next within
      · split at next
        · rcases List.eq_nil_or_concat place with rfl | ⟨upper, name, rfl⟩
          · exact next within
          · rw [List.concat_eq_append] at within folder next
            rw [List.dropLast_concat] at next
            exact next (entered upper name within folder)
        · exact next (below place piece within)
    exact ⟨here, (follow_cons (same place here folder) piece rest).trans goes⟩

/-- An entry in the place of something that is no folder changes nothing on the way. -/
theorem follow_put {entry : Entry} {pieces : List Text} (free : fs.entryAt? source ≠ some .folder)
    (followed : fs.follow place pieces = .ok target) : (fs.put source entry).follow place pieces = .ok target := by
  have below : source ≠ [] := by
    rintro rfl
    exact free rfl
  refine (follow_outside (fun _ => False) (fun _ _ => id) (fun _ _ no _ => no) ?_ id followed).2
  intro here _ folder
  rw [entryAt?_put below, if_neg]
  · exact folder
  · rintro rfl
    exact free folder

theorem locate_put {entry : Entry} (free : fs.entryAt? source ≠ some .folder) (located : fs.locate path = .ok target) :
    (fs.put source entry).locate path = .ok target := by
  obtain ⟨some_path, followed⟩ := locate_eq_ok_iff.mp located
  exact locate_eq_ok_iff.mpr ⟨some_path, follow_put free followed⟩

/-- What does not lead to a folder ends with its file name, if it has one. -/
theorem splitOn_of_located {name : Text} (named : Path.fileName? path = some name) (located : fs.locate path = .ok target)
    (free : fs.entryAt? target ≠ some .folder) : ∃ before, splitOn Path.separator path = before ++ [name] := by
  rcases List.eq_nil_or_concat (splitOn Path.separator path) with none | ⟨before, last, cut⟩
  · exact absurd none (Text.splitOn_ne_nil Path.separator path)
  · rw [List.concat_eq_append] at cut
    by_cases trivial : Path.isTrivial last = true
    · have followed := (locate_eq_ok_iff.mp located).2
      rw [cut] at followed
      exact absurd (folder_of_follow_trivial trivial followed) free
    · have taken : solidPieces [last] = [last] := List.filter_cons_of_pos (by simp [trivial])
      have ends := (Path.fileName?_eq_some_iff.mp named).1
      rw [Path.steps, cut, Path.solidPieces_append, taken, List.getLast?_concat] at ends
      exact ⟨before, Option.some.inj ends ▸ cut⟩

theorem rename_self {bytes : List UInt8} (looked : fs.look path = .ok (source, .file bytes)) :
    fs.rename path path = .ok fs := by
  obtain ⟨located, held⟩ := look_eq_ok.mp looked
  rw [rename, looked, located]
  simp [bind, Except.bind, pure, Except.pure, held]

/-- A file that is written is found. -/
theorem look_of_write {bytes : List UInt8} (file : fs.write path bytes = .ok after) :
    ∃ source, after.look path = .ok (source, .file bytes) := by
  obtain ⟨source, located, free, rfl⟩ := write_eq_ok file
  have below : source ≠ [] := by
    rintro rfl
    exact free rfl
  exact ⟨source, look_eq_ok.mpr ⟨locate_put free located, (entryAt?_put below).trans (if_pos rfl)⟩⟩

/-- Where a file is renamed to there is a place, and no folder. -/
theorem exists_target_of_rename {bytes : List UInt8} {other : Text} (looked : fs.look path = .ok (source, .file bytes))
    (renamed : fs.rename path other = .ok after) :
    ∃ target, fs.locate other = .ok target ∧ fs.entryAt? target ≠ some .folder := by
  rw [rename, looked] at renamed
  cases located : fs.locate other with
  | error failure =>
    rw [located] at renamed
    cases renamed
  | ok target =>
    refine ⟨target, rfl, fun folder => ?_⟩
    rw [located] at renamed
    simp [bind, Except.bind, folder] at renamed

theorem isWithin_concat {names : List Text} {name : Text} :
    isWithin place (names ++ [name]) = true ↔ isWithin place names = true ∨ place = names ++ [name] := by
  rw [isWithin, isWithin, List.isPrefixOf_iff_prefix, List.isPrefixOf_iff_prefix, List.prefix_concat_iff]
  exact or_comm

/-- What happens at and below two names that are no folders does not matter on the way to the folder that they
    are in. -/
theorem follow_names {folder : List Text} {one other : Text} {pieces : List Text}
    (notOne : fs.entryAt? (folder ++ [one]) ≠ some .folder) (notOther : fs.entryAt? (folder ++ [other]) ≠ some .folder)
    (same : ∀ key, isWithin (folder ++ [one]) key = false → isWithin (folder ++ [other]) key = false →
      after.entryAt? key = fs.entryAt? key)
    (followed : fs.follow place pieces = .ok folder) : after.follow place pieces = .ok folder := by
  have outside (name : Text) : isWithin (folder ++ [name]) folder = false := not_isWithin_above List.prefix_rfl name
  have below {names : List Text} (place : List Text) (name : Text) (within : isWithin names place = true) :
      isWithin names (place ++ [name]) = true := isWithin_concat.mpr (.inl within)
  have entered {names : List Text} (free : fs.entryAt? names ≠ some .folder) (place : List Text) (name : Text)
      (within : isWithin names (place ++ [name]) = true) (isFolder : fs.entryAt? (place ++ [name]) = some .folder) :
      isWithin names place = true := by
    rcases isWithin_concat.mp within with above | here
    · exact above
    · exact absurd (here ▸ isFolder) free
  refine (follow_outside (fun place => isWithin (folder ++ [one]) place = true ∨ isWithin (folder ++ [other]) place = true)
    (fun place name => Or.imp (below place name) (below place name)) ?_ ?_ (by simp [outside]) followed).2
  · intro place name within isFolder
    exact within.imp (entered notOne place name · isFolder) (entered notOther place name · isFolder)
  · intro place apart isFolder
    rw [not_or, Bool.not_eq_true, Bool.not_eq_true] at apart
    exact (same place apart.1 apart.2).trans isFolder

/-- A file that gets another name in its folder lies at every path to this name. -/
theorem look_rename_beside {beside : Text} {before side : List Text} {name other : Text} {bytes : List UInt8}
    (cut : splitOn Path.separator path = before ++ [name]) (isName : IsName name)
    (cutBeside : splitOn Path.separator beside = side ++ [other]) (isOther : IsName other) (different : other ≠ name)
    (same : solidPieces side = solidPieces before) (absolute : Path.isAbsolute beside = Path.isAbsolute path)
    (looked : fs.look beside = .ok (source, .file bytes)) (renamed : fs.rename beside path = .ok after) :
    ∃ target, after.look path = .ok (target, .file bytes) := by
  obtain ⟨located, held⟩ := look_eq_ok.mp looked
  obtain ⟨folder, reached, rfl⟩ := (locate_eq_ok cutBeside isOther).mp located
  have sameBase : fs.base beside = fs.base path := by rw [base, base, absolute]
  rw [same, sameBase] at reached
  have aimed : fs.locate path = .ok (folder ++ [name]) := (locate_eq_ok cut isName).mpr ⟨folder, reached, rfl⟩
  have apart : Apart (folder ++ [other]) (folder ++ [name]) := apart_siblings different
  obtain ⟨_, _, _, _, kept⟩ := rename_eq_ok looked aimed apart renamed
  obtain ⟨moved, others⟩ := entryAt?_rename looked aimed apart renamed
  obtain ⟨_, again, free⟩ := exists_target_of_rename looked renamed
  obtain rfl := Except.ok.inj (aimed.symm.trans again)
  have way := follow_names (by simp [held]) free others reached.1
  have outside (name : Text) : isWithin (folder ++ [name]) folder = false := not_isWithin_above List.prefix_rfl name
  have still : after.entryAt? folder = some .folder := (others folder (outside other) (outside name)).trans reached.2
  have sameAfter : after.base path = fs.base path := by rw [kept]; rfl
  refine ⟨folder ++ [name], look_eq_ok.mpr ⟨(locate_eq_ok cut isName).mpr ⟨folder, ⟨?_, still⟩, rfl⟩, moved⟩⟩
  rw [sameAfter]
  exact way

/-- A text that is written under another extension and then renamed onto a path is read there. -/
theorem readText_rename {extension content : Text} {written : Files} (whole : Path.separator ∉ extension)
    (point : '.' ∈ extension) (file : fs.write (Path.withExtension extension path) (Utf8.encode content) = .ok written)
    (renamed : written.rename (Path.withExtension extension path) path = .ok after) :
    after.readText path = .ok content := by
  obtain ⟨source, looked⟩ := look_of_write file
  rw [readText_eq_ok]
  cases named : Path.fileName? path with
  | none =>
    have alone : Path.withExtension extension path = path := by rw [Path.withExtension, named]
    rw [alone] at looked renamed
    obtain rfl := Except.ok.inj ((rename_self looked).symm.trans renamed)
    exact ⟨source, _, looked, Utf8.decode?_encode content⟩
  | some name =>
    obtain ⟨target, aimed, notFolder⟩ := exists_target_of_rename looked renamed
    obtain ⟨before, cut⟩ := splitOn_of_located named aimed notFolder
    obtain ⟨side, other, cutBeside, isOther, different, leads, absolute⟩ :=
      Path.splitOn_withExtension named whole point
    have isName := Path.isName_of_fileName? named
    rw [Path.steps, cut, Path.solidPieces_append, Path.solidPieces_name isName] at leads
    have same := (List.append_inj' leads rfl).1
    obtain ⟨place, found⟩ :=
      look_rename_beside cut isName cutBeside isOther different same.symm absolute looked renamed
    exact ⟨place, _, found, Utf8.decode?_encode content⟩

/-- A path with a file name goes through the pieces before it, and behind it only through pieces that
    lead nowhere. -/
theorem splitOn_of_steps {up : List Text} {name : Text} (leads : Path.steps path = up ++ [name]) :
    ∃ before behind, splitOn Path.separator path = before ++ [name] ++ behind ∧ solidPieces before = up ∧
      ∀ piece ∈ behind, Path.isTrivial piece = true := by
  obtain ⟨first, last, cut, above, here⟩ := List.filter_eq_append_iff.mp leads
  obtain ⟨skipped, behind, rfl, noneSkipped, _, noneBehind⟩ := List.filter_eq_cons_iff.mp here
  refine ⟨first ++ skipped, behind, ?_, ?_, fun piece among => ?_⟩
  · rw [cut]
    simp
  · rw [Path.solidPieces_append, solidPieces, above, solidPieces, List.filter_eq_nil_iff.mpr noneSkipped, List.append_nil]
  · simpa using List.filter_eq_nil_iff.mp noneBehind piece among

/-- Pieces that lead nowhere depend on the entry alone. -/
theorem follow_trivial {pieces : List Text} (trivial : ∀ piece ∈ pieces, Path.isTrivial piece = true)
    (same : after.entryAt? place = fs.entryAt? place) :
    after.follow place pieces = fs.follow place pieces ∧ ∀ target, fs.follow place pieces = .ok target → target = place := by
  induction pieces with
  | nil => exact ⟨rfl, fun _ followed => (Except.ok.inj followed).symm⟩
  | cons piece rest ih =>
    obtain ⟨here, below⟩ := List.forall_mem_cons.mp trivial
    rw [follow, follow, same]
    simp only [here, if_true]
    cases fs.entryAt? place with
    | none => exact ⟨rfl, fun _ followed => by cases followed⟩
    | some entry =>
      cases entry with
      | file bytes => exact ⟨rfl, fun _ followed => by cases followed⟩
      | folder => exact ih below

/-- Writing a file changes nothing of the one beside it. -/
theorem readText_write {extension name : Text} {bytes : List UInt8} (named : Path.fileName? path = some name)
    (whole : Path.separator ∉ extension) (point : '.' ∈ extension)
    (file : fs.write (Path.withExtension extension path) bytes = .ok after) : after.readText path = fs.readText path := by
  obtain ⟨source, located, free, rfl⟩ := write_eq_ok file
  obtain ⟨side, other, cutBeside, isOther, different, leads, absolute⟩ := Path.splitOn_withExtension named whole point
  obtain ⟨place, reached, rfl⟩ := (locate_eq_ok cutBeside isOther).mp located
  obtain ⟨before, behind, cut, solid, trivial⟩ := splitOn_of_steps leads
  have sameBase : fs.base (Path.withExtension extension path) = fs.base path := by rw [base, base, absolute]
  rw [← solid, sameBase] at reached
  have reachedName : fs.follow (fs.base path) (before ++ [name]) = .ok (place ++ [name]) :=
    (follow_concat (Path.isName_of_fileName? named)).mpr ⟨place, follow_solidPieces.mpr reached, rfl⟩
  have entry : (fs.put (place ++ [other]) (.file bytes)).entryAt? (place ++ [name]) = fs.entryAt? (place ++ [name]) :=
    (entryAt?_put (List.append_ne_nil_of_right_ne_nil _ (List.cons_ne_nil _ _))).trans (if_neg (by simp [different.symm]))
  obtain ⟨unchanged, there⟩ := follow_trivial trivial entry
  have some_path : path ≠ [] := by
    rintro rfl
    cases named
  have both : fs.locate path = fs.follow (place ++ [name]) behind := by
    rw [locate_eq some_path, cut, follow_append, reachedName]
    rfl
  refine readText_congr ?_ fun target found => there target (both ▸ found) ▸ entry
  rw [both, locate_eq some_path, cut, follow_append, ← unchanged]
  exact congrArg (Except.bind · _) (follow_put free reachedName)

/-- A file that is written under another extension but not renamed leaves the one at the path as it was. -/
theorem readText_of_rename_eq_error {extension : Text} {bytes : List UInt8} {failure : Failure}
    (whole : Path.separator ∉ extension) (point : '.' ∈ extension)
    (file : fs.write (Path.withExtension extension path) bytes = .ok after)
    (kept : after.rename (Path.withExtension extension path) path = .error failure) :
    after.readText path = fs.readText path := by
  cases named : Path.fileName? path with
  | some name => exact readText_write named whole point file
  | none =>
    -- without a file name the file is renamed onto itself
    have alone : Path.withExtension extension path = path := by rw [Path.withExtension, named]
    rw [alone] at file kept
    obtain ⟨source, looked⟩ := look_of_write file
    rw [rename_self looked] at kept
    cases kept

end Files

end EndpointConsole
