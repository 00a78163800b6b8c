import EndpointConsole.Project.BaseUrlCache
import EndpointConsole.Proofs.Files.Leading
import Mathlib.Data.List.Basic

/-!
The project folder of a source folder (`folderOf?`) and the base URL of a project
folder (`urlIn`), without anything remembered. A tree gives the same of paths that
lead the same way: both are found along the names of a plain path.
-/
namespace EndpointConsole.Project
open Path (IsName Plain)
open LaunchProfile (settingsFolder settingsFile)

/-- The launch settings file of a project folder. -/
def settingsIn (folder : Text) : Text := Path.join (Path.join folder settingsFolder) settingsFile

/-- The names along the path of the launch settings, from those of the project folder. -/
def settingsNames (names : List Text) : List Text := names ++ [settingsFolder] ++ [settingsFile]

theorem settingsFolder_isName : IsName settingsFolder := by decide

theorem settingsFile_isName : IsName settingsFile := by decide

variable {folder : Text} {names : List Text}

theorem settingsIn_plain (plain : Plain folder names) : Plain (settingsIn folder) (settingsNames names) :=
  (plain.join settingsFolder_isName).join settingsFile_isName

/-- The project folder is two steps up from its launch settings. -/
theorem project_of_settings {path : Text} (plain : Plain path (settingsNames names)) :
    ∃ folder, (Path.parent? path).bind Path.parent? = some folder ∧ Plain folder names := by
  obtain ⟨inside, found, plainInside⟩ := plain.parent?
  obtain ⟨folder, above, plainFolder⟩ := plainInside.parent?
  exact ⟨folder, by rw [found, Option.bind_some, above], plainFolder⟩

/-- The base URL that the launch settings of a project folder give. -/
def urlIn (fs : Files) (folder : Text) : Option Text := do
  let content ← (fs.readText (settingsIn folder)).toOption
  let document ← Json.parseCommented? content
  let profile ← LaunchProfile.ofDocument? document
  LaunchProfile.baseUrlOf? profile

theorem baseUrl?_eq (fs : Files) (file : Text) : LaunchProfile.baseUrl? fs file = (Path.parent? file).bind (urlIn fs) := by
  rw [LaunchProfile.baseUrl?, LaunchProfile.ofProject?, LaunchProfile.settingsPath?]
  cases Path.parent? file with
  | none => rfl
  | some folder =>
    simp only [Option.map_some, Option.bind_eq_bind, Option.bind_some, Option.bind_assoc]
    rfl

/-- Settings that read the same give the same URL. -/
theorem urlIn_congr {before after : Files} {a b : Text}
    (alike : ∀ content, before.readText (settingsIn a) = .ok content ↔ after.readText (settingsIn b) = .ok content) :
    urlIn before a = urlIn after b := by
  have read : (before.readText (settingsIn a)).toOption = (after.readText (settingsIn b)).toOption := by
    apply Option.ext
    intro content
    have value : ∀ result : Except Files.Failure Text, result.toOption = some content ↔ result = .ok content := by
      intro result
      cases result <;> simp [Except.toOption]
    rw [value, value]
    exact alike content
  rw [urlIn, urlIn, read]

/-- The base URL of a plain project folder is found along its names. -/
theorem urlIn_plain {fs : Files} {other : Text} (plain : Plain folder names) (also : Plain other names) :
    urlIn fs folder = urlIn fs other := by
  apply urlIn_congr
  intro content
  rw [settingsIn, settingsIn, Files.readText_join (plain.join settingsFolder_isName) settingsFile_isName,
    Files.readText_join (also.join settingsFolder_isName) settingsFile_isName]

/-- Whether a file of this name is a project. -/
def isProjectName (name : Text) : Bool := (Path.splitName name).2.any (Text.sameLetters extension)

theorem isProjectPath_join (plain : Plain folder names) {name : Text} (isName : IsName name) :
    isProjectPath (Path.join folder name) = isProjectName name := by
  rw [isProjectPath, Path.extension?, (plain.join isName).fileName?, Option.bind_some, isProjectName]

/-- The projects right in a folder. -/
def projectNames (fs : Files) (names : List Text) : List Text :=
  (fs.childrenOf names).filterMap fun (name, entry) =>
    match entry with
    | .file _ => if isProjectName name then some name else none
    | .folder => none

/-- The paths of the projects among what lies in a folder. -/
def projectPaths (folder : Text) (children : List (Text × Entry)) : List Text :=
  children.filterMap fun (name, entry) =>
    match entry with
    | .file _ => if isProjectPath (Path.join folder name) then some (Path.join folder name) else none
    | .folder => none

variable {fs : Files}

theorem mem_projectPaths {children : List (Text × Entry)} {path : Text} (member : path ∈ projectPaths folder children) :
    ∃ child ∈ children, path = Path.join folder child.1 := by
  obtain ⟨⟨name, entry⟩, among, is⟩ := List.mem_filterMap.mp member
  refine ⟨_, among, ?_⟩
  cases entry with
  | folder => cases is
  | file bytes =>
    dsimp only at is
    split at is
    · exact (Option.some.inj is).symm
    · cases is

theorem projectPaths_plain (named : fs.WellNamed) (plain : Plain folder names) :
    projectPaths folder (fs.childrenOf names) = (projectNames fs names).map (Path.join folder) := by
  rw [projectPaths, projectNames, List.map_filterMap]
  apply List.filterMap_congr
  rintro ⟨name, entry⟩ member
  cases entry with
  | folder => rfl
  | file bytes =>
    dsimp only
    rw [isProjectPath_join plain (named.child member)]
    split <;> rfl

theorem fileIn?_eq_ok {file : Option Text} :
    fileIn? fs folder = .ok file ↔
      ∃ children, fs.list folder = .ok children ∧ file = (Path.sort (projectPaths folder children)).head? := by
  rw [fileIn?]
  cases fs.list folder with
  | error failure => simp [bind, Except.bind]
  | ok children =>
    constructor
    · intro found
      exact ⟨children, rfl, (Except.ok.inj found).symm⟩
    · rintro ⟨_, ⟨⟩, rfl⟩
      rfl

/-- A project file lies right in the folder. -/
theorem exists_join (named : fs.WellNamed) {file : Text} (found : fileIn? fs folder = .ok (some file)) :
    ∃ name, IsName name ∧ file = Path.join folder name := by
  obtain ⟨children, listed, first⟩ := fileIn?_eq_ok.mp found
  obtain ⟨place, _, rfl⟩ := Files.list_eq_ok.mp listed
  obtain ⟨⟨name, _⟩, member, is⟩ := mem_projectPaths (List.mem_mergeSort.mp (List.mem_of_head? first.symm))
  exact ⟨name, named.child member, is⟩

/-- The folder is there and has a project. -/
def HasProject (fs : Files) (names : List Text) : Prop := fs.FoldersAlong [] names ∧ projectNames fs names ≠ []

/-- A plain folder has the project files that its names show. -/
theorem fileIn?_plain (named : fs.WellNamed) (plain : Plain folder names) {file : Option Text} :
    fileIn? fs folder = .ok file ↔ fs.FoldersAlong [] names ∧
      file = (Path.sort ((projectNames fs names).map (Path.join folder))).head? := by
  rw [fileIn?_eq_ok]
  simp only [Files.list_plain plain]
  constructor
  · rintro ⟨_, ⟨along, rfl⟩, rfl⟩
    exact ⟨along, by rw [projectPaths_plain named plain]⟩
  · rintro ⟨along, rfl⟩
    exact ⟨_, ⟨along, rfl⟩, by rw [projectPaths_plain named plain]⟩

theorem sort_head?_eq_none {paths : List Text} : (Path.sort paths).head? = none ↔ paths = [] := by
  rw [List.head?_eq_none_iff, Path.sort, ← List.length_eq_zero_iff, List.length_mergeSort, List.length_eq_zero_iff]

theorem fileIn?_eq_none (named : fs.WellNamed) (plain : Plain folder names) :
    fileIn? fs folder = .ok none ↔ fs.FoldersAlong [] names ∧ projectNames fs names = [] := by
  rw [fileIn?_plain named plain, eq_comm, sort_head?_eq_none, List.map_eq_nil_iff]

theorem exists_fileIn? (named : fs.WellNamed) (plain : Plain folder names) :
    (∃ file, fileIn? fs folder = .ok (some file)) ↔ HasProject fs names := by
  constructor
  · rintro ⟨file, found⟩
    obtain ⟨along, first⟩ := (fileIn?_plain named plain).mp found
    refine ⟨along, ?_⟩
    intro none
    rw [none, List.map_nil, sort_head?_eq_none.mpr rfl] at first
    cases first
  · rintro ⟨along, some⟩
    cases first : (Path.sort ((projectNames fs names).map (Path.join folder))).head? with
    | none => exact absurd (List.map_eq_nil_iff.mp (sort_head?_eq_none.mp first)) some
    | some file => exact ⟨file, (fileIn?_plain named plain).mpr ⟨along, first.symm⟩⟩

/-- The project folder that is known by its names has the URL that is read there. -/
theorem readUrl?_eq (named : fs.WellNamed) (plain : Plain folder names) (has : HasProject fs names) :
    BaseUrlCache.readUrl? fs folder = urlIn fs folder := by
  obtain ⟨file, found⟩ := (exists_fileIn? named plain).mpr has
  obtain ⟨name, isName, rfl⟩ := exists_join named found
  obtain ⟨above, up, plainAbove⟩ := (plain.join isName).parent?
  rw [BaseUrlCache.readUrl?, found]
  dsimp only
  rw [baseUrl?_eq, up, Option.bind_some, urlIn_plain plainAbove plain]

/-- The first folder with a project among some folders from a place upward. -/
inductive Owns (fs : Files) : Nat → List Text → List Text → Prop
  | here {levels : Nat} {names : List Text} (has : HasProject fs names) : Owns fs (levels + 1) names names
  | above {levels : Nat} {names owner : List Text} {name : Text} (along : fs.FoldersAlong [] (names ++ [name]))
      (none : projectNames fs (names ++ [name]) = []) (owns : Owns fs levels names owner) :
      Owns fs (levels + 1) (names ++ [name]) owner

theorem Owns.hasProject {count : Nat} {owner : List Text} (owns : Owns fs count names owner) : HasProject fs owner := by
  induction owns with
  | here has => exact has
  | above _ _ _ ih => exact ih

/-- The folder of the first project from a source folder upward. -/
def folderOf? (fs : Files) (count : Nat) (folder : Text) : Option Text := (findFrom? fs count folder).bind Path.parent?

variable {count : Nat} {owner : List Text} {project : Text}

theorem folderOf?_join (count : Nat) (named : fs.WellNamed) (plain : Plain folder names) (has : HasProject fs names) :
    ∃ project, folderOf? fs (count + 1) folder = some project ∧ Plain project names := by
  obtain ⟨file, here⟩ := (exists_fileIn? named plain).mpr has
  obtain ⟨name, isName, rfl⟩ := exists_join named here
  obtain ⟨project, up, plainProject⟩ := (plain.join isName).parent?
  exact ⟨project, by rw [folderOf?, findFrom?, here]; exact up, plainProject⟩

theorem folderOf?_above {upper : Text} (nothing : fileIn? fs folder = .ok none) (up : Path.parent? folder = some upper) :
    folderOf? fs (count + 1) folder = folderOf? fs count upper := by
  rw [folderOf?, findFrom?, nothing, up]
  rfl

/-- The project folder of a plain source folder is found along its names. -/
theorem folderOf?_plain (named : fs.WellNamed) (plain : Plain folder names)
    (found : folderOf? fs count folder = some project) : ∃ owner, Owns fs count names owner ∧ Plain project owner := by
  induction count generalizing folder names with
  | zero => cases found
  | succ count ih =>
    cases here : fileIn? fs folder with
    | error failure =>
      rw [folderOf?, findFrom?, here] at found
      cases found
    | ok file =>
      cases file with
      | some file =>
        have has := (exists_fileIn? named plain).mp ⟨file, here⟩
        obtain ⟨same, again, plainProject⟩ := folderOf?_join count named plain has
        rw [found] at again
        cases again
        exact ⟨names, .here has, plainProject⟩
      | none =>
        obtain ⟨along, none⟩ := (fileIn?_eq_none named plain).mp here
        rcases List.eq_nil_or_concat' names with rfl | ⟨above, name, rfl⟩
        · rw [folderOf?, findFrom?, here, plain.parent?_root] at found
          cases found
        · obtain ⟨upper, up, plainUpper⟩ := plain.parent?
          rw [folderOf?_above here up] at found
          obtain ⟨owner, owns, plainProject⟩ := ih plainUpper found
          exact ⟨owner, .above along none owns, plainProject⟩

theorem Owns.folderOf? (named : fs.WellNamed) (owns : Owns fs count names owner) (plain : Plain folder names) :
    ∃ project, folderOf? fs count folder = some project ∧ Plain project owner := by
  induction owns generalizing folder with
  | here has => exact folderOf?_join _ named plain has
  | above along none owns ih =>
    obtain ⟨upper, up, plainUpper⟩ := plain.parent?
    rw [folderOf?_above ((fileIn?_eq_none named plain).mpr ⟨along, none⟩) up]
    exact ih plainUpper

/-- A plain project folder has a project, whatever the source folder is that it was found from. -/
theorem hasProject_of_folderOf? (named : fs.WellNamed) (found : folderOf? fs count folder = some project)
    (plain : Plain project owner) : HasProject fs owner := by
  obtain ⟨file, first, up⟩ := Option.bind_eq_some_iff.mp found
  clear found
  induction count generalizing folder with
  | zero => cases first
  | succ count ih =>
    rw [findFrom?] at first
    split at first
    · cases first
    · next here =>
      cases first
      -- the folder itself need not be plain as it is written, but it leads where its parent leads
      obtain ⟨name, isName, rfl⟩ := exists_join named here
      obtain ⟨below, rfl⟩ := Path.exists_of_root plain
      obtain ⟨rest, rfl⟩ := Path.isAbsolute_iff.mp
        (Path.isAbsolute_join folder isName ▸ Path.isAbsolute_of_parent? up rfl)
      obtain ⟨more, before, written, cut, same⟩ := Path.join_absolute rest isName
      have plainFolder : Plain ('/' :: rest) owner := by
        have above := (Path.parent?_absolute (written ▸ up)).2
        rw [← written, Path.parts_join rest isName, List.dropLast_concat] at above
        rw [Plain, ← above]
        exact plain
      exact (exists_fileIn? named plainFolder).mp ⟨_, here⟩
    · obtain ⟨upper, _, rest⟩ := Option.bind_eq_some_iff.mp first
      exact ih rest

/-- The base URL that a source file has by the files as they are. -/
def current? (fs : Files) (source : Text) : Option Text := (find? fs source).bind (LaunchProfile.baseUrl? fs)

theorem current?_eq (fs : Files) (source : Text) :
    current? fs source = ((find? fs source).bind Path.parent?).bind (urlIn fs) := by
  rw [current?, Option.bind_assoc]
  congr 1
  exact funext (baseUrl?_eq fs)

end EndpointConsole.Project
