import EndpointConsole.Proofs.Files.Writing
import EndpointConsole.Proofs.Project.Owner

/-!
A change of the launch settings of one project (`Changes`), and what it leaves as it
is: the owners of all folders, and the base URLs of all other projects. Writing the
settings, with their folder if it is missing, and removing them are such changes.
-/
namespace EndpointConsole.Project
open Path (IsName Plain)
open LaunchProfile (settingsFolder settingsFile)

/-- Neither the launch settings of a project nor the folder that they lie in. -/
def isElsewhere (names key : List Text) : Bool :=
  decide (key ≠ names ++ [settingsFolder]) && !Files.isWithin (settingsNames names) key

theorem isElsewhere_iff {names key : List Text} :
    isElsewhere names key = true ↔ key ≠ names ++ [settingsFolder] ∧ ¬settingsNames names <+: key := by
  rw [isElsewhere, Files.isWithin, Bool.and_eq_true, decide_eq_true_iff, Bool.not_eq_true', ← Bool.not_eq_true,
    List.isPrefixOf_iff_prefix]

theorem isElsewhere_concat {names folder : List Text} {name : Text} :
    isElsewhere names (folder ++ [name]) = true ↔ ¬(folder = names ∧ name = settingsFolder) ∧
      ¬(folder = names ++ [settingsFolder] ∧ name = settingsFile) ∧ ¬settingsNames names <+: folder := by
  have ends : ∀ {a b : List Text} {x y : Text}, a ++ [x] = b ++ [y] ↔ a = b ∧ x = y := by simp
  rw [isElsewhere_iff, List.prefix_concat_iff, eq_comm (a := settingsNames names), not_or, settingsNames, ne_eq,
    ends, ends]

/-- Between the files before and after, only the launch settings of a project differ: they may be
    another file, or made, their folder as well, or taken away. -/
structure Changes (names : List Text) (before after : Files) : Prop where
  elsewhere : (after.entries.filter fun p => isElsewhere names p.1) =
    before.entries.filter fun p => isElsewhere names p.1
  noFolder : before.entryAt? (settingsNames names) ≠ some .folder
  /-- Folders that can be read stay so. -/
  folderStays : before.entryAt? (names ++ [settingsFolder]) = some .folder →
    after.entryAt? (names ++ [settingsFolder]) = some .folder
  named : after.WellNamed

namespace Changes
variable {names other : List Text} {before after : Files}

theorem entryAt? (changes : Changes names before after) {key : List Text} (elsewhere : isElsewhere names key = true) :
    after.entryAt? key = before.entryAt? key := by
  rw [Files.entryAt?, Files.entryAt?, ← Files.find?_filter after.entries (isElsewhere names) elsewhere,
    ← Files.find?_filter before.entries (isElsewhere names) elsewhere, changes.elsewhere]

/-- What lies above a folder is not below the settings. -/
theorem not_within (changes : Changes names before after) (along : before.FoldersAlong [] other) :
    ¬settingsNames names <+: other := by
  intro within
  exact changes.noFolder (Files.foldersAlong_iff.mp along _ within)

theorem foldersAlong (changes : Changes names before after) (along : before.FoldersAlong [] other) :
    after.FoldersAlong [] other := by
  rw [Files.foldersAlong_iff] at *
  intro upper above
  have folder := along upper above
  by_cases settings : upper = names ++ [settingsFolder]
  · rw [settings] at folder ⊢
    exact changes.folderStays folder
  · have outside := changes.not_within (Files.foldersAlong_iff.mpr along)
    have elsewhere := isElsewhere_iff.mpr ⟨settings, fun within => outside (within.trans above)⟩
    rw [← folder]
    exact changes.entryAt? elsewhere

/-- No project is among what may differ in a folder. -/
theorem not_isProjectName (changes : Changes names before after) (along : before.FoldersAlong [] other) {name : Text}
    (differs : ¬isElsewhere names (other ++ [name]) = true) : isProjectName name = false := by
  rw [isElsewhere_concat] at differs
  by_contra project
  refine differs ⟨?_, ?_, changes.not_within along⟩
  · rintro ⟨_, rfl⟩
    exact project (by decide)
  · rintro ⟨_, rfl⟩
    exact project (by decide)

/-- The same projects lie in a folder. -/
theorem projectNames_eq (changes : Changes names before after) (along : before.FoldersAlong [] other) :
    projectNames after other = projectNames before other := by
  have counted : ∀ fs : Files, projectNames fs other =
      projectNames { fs with entries := fs.entries.filter fun p => isElsewhere names p.1 } other := by
    intro fs
    rw [projectNames, projectNames, Files.childrenOf, Files.childrenOf, List.filterMap_filterMap,
      List.filterMap_filterMap, List.filterMap_filter]
    apply List.filterMap_congr
    rintro ⟨key, entry⟩ _
    dsimp only
    split
    · rfl
    · next differs =>
      cases child : Files.childName? other key with
      | none => rfl
      | some name =>
        rw [Files.childName?_eq_some.mp child] at differs
        cases entry <;> simp [changes.not_isProjectName along differs]
  rw [counted after, counted before, changes.elsewhere]
  rfl

theorem hasProject (changes : Changes names before after) (has : HasProject before other) : HasProject after other := by
  refine ⟨changes.foldersAlong has.1, ?_⟩
  rw [changes.projectNames_eq has.1]
  exact has.2

/-- Folders keep their owners. -/
theorem owns (changes : Changes names before after) {count : Nat} {owner : List Text}
    (owns : Owns before count other owner) : Owns after count other owner := by
  induction owns with
  | here has => exact .here (changes.hasProject has)
  | above along none _ ih => exact .above (changes.foldersAlong along) (changes.projectNames_eq along ▸ none) ih

/-- Other projects keep their base URLs. -/
theorem urlIn_eq (changes : Changes names before after) {folder : Text} (plain : Plain folder other)
    (has : HasProject before other) (apart : other ≠ names) : urlIn after folder = urlIn before folder := by
  have outside := changes.not_within has.1
  have folderElsewhere : isElsewhere names (other ++ [settingsFolder]) = true := by
    rw [isElsewhere_concat]
    exact ⟨fun same => apart same.1, fun same => absurd same.2 (by decide), outside⟩
  have fileElsewhere : isElsewhere names (other ++ [settingsFolder] ++ [settingsFile]) = true := by
    rw [isElsewhere_concat]
    refine ⟨fun same => absurd same.2 (by decide), fun same => apart ?_, (isElsewhere_iff.mp folderElsewhere).2⟩
    exact List.append_cancel_right same.1
  have along : after.FoldersAlong [] (other ++ [settingsFolder]) ↔
      before.FoldersAlong [] (other ++ [settingsFolder]) := by
    rw [Files.foldersAlong_concat, Files.foldersAlong_concat, List.nil_append, changes.entryAt? folderElsewhere]
    exact and_congr_left fun _ => ⟨fun _ => has.1, changes.foldersAlong⟩
  apply urlIn_congr
  intro content
  rw [settingsIn, Files.readText_join (plain.join settingsFolder_isName) settingsFile_isName,
    Files.readText_join (plain.join settingsFolder_isName) settingsFile_isName, along,
    changes.entryAt? fileElsewhere]

variable {fs : Files} {folder : Text}

theorem settings_within (names : List Text) : isElsewhere names (settingsNames names) = false := by
  rw [← Bool.not_eq_true, isElsewhere_iff]
  exact fun elsewhere => elsewhere.2 List.prefix_rfl

theorem settings_below (names : List Text) : settingsNames names ≠ [] := by
  simp [settingsNames]

theorem filter_put {entry : Entry} {key : List Text} (within : isElsewhere names key = false) :
    ((fs.put key entry).entries.filter fun p => isElsewhere names p.1) =
      fs.entries.filter fun p => isElsewhere names p.1 := by
  have gone : [(key, entry)].filter (fun p => isElsewhere names p.1) = [] := by simp [within]
  rw [Files.put_entries, List.filter_append, gone, List.append_nil, List.filter_filter]
  apply List.filter_congr
  rintro ⟨other, entry⟩ _
  by_cases here : other = key
  · simp [here, within]
  · simp [here]

theorem filter_drop : ((fs.drop (settingsNames names)).entries.filter fun p => isElsewhere names p.1) =
    fs.entries.filter fun p => isElsewhere names p.1 := by
  rw [Files.drop_entries, List.filter_filter]
  apply List.filter_congr
  rintro ⟨key, entry⟩ _
  simp only [isElsewhere, Bool.and_assoc, Bool.and_self]

/-- Writing the launch settings of a project. -/
theorem ofWrite (plain : Plain folder names) (named : fs.WellNamed) {bytes : List UInt8}
    (written : fs.write (settingsIn folder) bytes = .ok after) : Changes names fs after := by
  obtain ⟨place, located, file, rfl⟩ := Files.write_eq_ok written
  obtain ⟨rfl, _⟩ := (Files.locate_join (plain.join settingsFolder_isName) settingsFile_isName).mp located
  change Changes names fs (fs.put (settingsNames names) (.file bytes))
  refine ⟨filter_put (settings_within names), file, fun folder => ?_, named.put ?_⟩
  · rw [Files.entryAt?_put (settings_below names), if_neg (by simp [settingsNames]), folder]
  · exact Path.forall_isName_concat (Path.forall_isName_concat plain.isName settingsFolder_isName) settingsFile_isName

/-- Removing the launch settings of a project. -/
theorem ofRemove (plain : Plain folder names) (named : fs.WellNamed) (isFile : fs.isFile (settingsIn folder) = true)
    (removed : fs.remove (settingsIn folder) = .ok after) : Changes names fs after := by
  obtain ⟨place, entry, looked, rfl⟩ := Files.remove_eq_ok removed
  obtain ⟨rfl, along, held⟩ := (Files.look_join (plain.join settingsFolder_isName) settingsFile_isName).mp looked
  change fs.entryAt? (settingsNames names) = some entry at held
  change Changes names fs (fs.drop (settingsNames names))
  rw [Files.isFile, looked] at isFile
  refine ⟨filter_drop, ?_, fun folder => ?_, named.drop⟩
  · rw [held]
    rintro ⟨⟩
    cases isFile
  · rw [Files.entryAt?_drop, folder]
    rw [← Bool.not_eq_true, Files.isWithin, List.isPrefixOf_iff_prefix]
    intro within
    simpa [settingsNames] using within.length_le

/-- Making the folder of the launch settings of a project. -/
theorem ofCreateFolders (plain : Plain folder names) (named : fs.WellNamed) (along : fs.FoldersAlong [] names)
    (file : fs.entryAt? (settingsNames names) ≠ some .folder)
    (made : fs.createFolders (Path.join folder settingsFolder) = .ok after) : Changes names fs after := by
  rcases Files.createFolders_join plain along settingsFolder_isName made with ⟨_, rfl⟩ | ⟨none, rfl⟩
  · exact ⟨rfl, file, id, named⟩
  · have between : isElsewhere names (names ++ [settingsFolder]) = false := by simp [isElsewhere]
    refine ⟨filter_put between, file, fun _ => ?_, named.put ?_⟩
    · rw [Files.entryAt?_put (by simp), if_pos rfl]
    · exact Path.forall_isName_concat plain.isName settingsFolder_isName

end Changes

def shop : Files where
  entries := [(["shop".toList], .folder), (["shop".toList, "Shop.csproj".toList], .file [])]

/-- Launch settings that serve the project at a URL. -/
def servingAt (url : String) : List UInt8 :=
  let profile : Json := .object
    [("commandName".toList, .string "Project".toList), ("applicationUrl".toList, .string url.toList)]
  Utf8.encode (Json.compact (.object [("profiles".toList, .object [("Shop".toList, profile)])]))

def shopWithFolder : Files := shop.put ["shop".toList, settingsFolder] .folder

def shopServed : Files := shopWithFolder.put (settingsNames ["shop".toList]) (.file (servingAt "http://*:5000"))

def shopClosed : Files := shopServed.drop (settingsNames ["shop".toList])

theorem shop_plain : Plain "/shop".toList ["shop".toList] := by decide +kernel

theorem shop_wellNamed : shop.WellNamed := by decide +kernel

theorem shop_made : Changes ["shop".toList] shop shopWithFolder :=
  .ofCreateFolders shop_plain shop_wellNamed ⟨rfl, rfl⟩ (by decide +kernel) (by rfl)

theorem shop_written : Changes ["shop".toList] shopWithFolder shopServed :=
  .ofWrite shop_plain shop_made.named (show shopWithFolder.write _ (servingAt "http://*:5000") = _ by rfl)

theorem shop_removed : Changes ["shop".toList] shopServed shopClosed :=
  .ofRemove shop_plain shop_written.named (by rfl) (by rfl)

end EndpointConsole.Project
