import EndpointConsole.Proofs.Project.Changes

/-!
What is remembered of plain paths: URLs (`urlOf?`), with what each operation makes of
them and when they are right (`Fits`), and project folders (`Located`), which stay
right as long as folders keep their owners.
-/
namespace EndpointConsole.Project.BaseUrlCache
open Path (Plain)

variable {c : BaseUrlCache} {fs : Files} {names : List Text} {folder : Text}

theorem remembered?_eq_find? {α : Type} (path : Text) (known : List (Text × α)) :
    remembered? path known = (known.find? fun p => Path.same p.1 path).map (·.2) := by
  induction known with
  | nil => rfl
  | cons p rest ih =>
    rw [remembered?, List.find?_cons]
    cases Path.same p.1 path with
    | true => rfl
    | false => simpa using ih

/-- What is remembered of the project folder with these names. -/
def urlOf? (c : BaseUrlCache) (names : List Text) : Option (Option Text) :=
  (c.urls.find? fun p => decide (Plain p.1 names)).map (·.2)

theorem same_plain (plain : Plain folder names) (key : Text) : Path.same key folder = decide (Plain key names) := by
  rw [Bool.eq_iff_iff, decide_eq_true_iff, ← plain.same_iff, Path.same_iff, Path.same_iff]
  exact eq_comm

theorem url?_eq (plain : Plain folder names) : c.url? folder = c.urlOf? names := by
  rw [url?, remembered?_eq_find?, urlOf?]
  simp only [same_plain plain]

/-- Forgetting a folder leaves what is remembered of others. -/
theorem find?_forget {other : List Text} (known : List (Text × Option Text)) :
    ((forget folder known).find? fun p => decide (Plain p.1 other)) =
      if Plain folder other then none else known.find? fun p => decide (Plain p.1 other) := by
  rw [forget, List.find?_filter]
  split
  · next plain =>
    rw [List.find?_eq_none]
    intro p _
    simp [same_plain plain]
  · next apart =>
    congr 1
    funext p
    by_cases plain : Plain p.1 other
    · have different : Path.same p.1 folder = false := by
        rw [← Bool.not_eq_true, plain.same_iff]
        exact apart
      simp [plain, different]
    · simp [plain]

theorem urlOf?_rememberUrl (url : Option Text) (other : List Text) :
    (c.rememberUrl folder url).urlOf? other = if Plain folder other then some url else c.urlOf? other := by
  rw [rememberUrl, urlOf?, List.find?_cons, find?_forget]
  by_cases plain : Plain folder other
  · simp [plain]
  · simp [plain, urlOf?]

/-- Only the project that the settings belong to is forgotten. -/
theorem urlOf?_invalidate {path : Text} (plain : Plain path (settingsNames names)) (other : List Text) :
    (c.invalidate path).2.urlOf? other = if other = names then none else c.urlOf? other := by
  obtain ⟨folder, found, plainFolder⟩ := project_of_settings plain
  rw [invalidate, found, urlOf?]
  simp only [find?_forget, plainFolder.iff_eq]
  split
  · rfl
  · rfl

/-- A URL is that of the files, or the settings of its project have changed without being made known. -/
def Fits (fs : Files) (pending : List (List Text)) (project : List Text) (url : Option Text) : Prop :=
  project ∈ pending ∨ ∀ folder, Plain folder project → url = urlIn fs folder

namespace Fits
variable {pending : List (List Text)} {project : List Text} {url : Option Text}

/-- A change puts the URL of its own project in doubt. -/
theorem changed (fits : Fits fs pending project url) (has : HasProject fs project) {after : Files}
    (changes : Changes names fs after) : Fits after (names :: pending) project url := by
  by_cases here : project = names
  · exact .inl (here ▸ List.mem_cons_self)
  · rcases fits with doubt | right
    · exact .inl (List.mem_cons_of_mem _ doubt)
    · refine .inr fun folder plain => ?_
      rw [changes.urlIn_eq plain has here]
      exact right folder plain

theorem invalidated (fits : Fits fs pending project url) (apart : project ≠ names) :
    Fits fs (pending.filter (· ≠ names)) project url := by
  refine fits.imp_left fun doubt => ?_
  simpa [apart] using doubt

end Fits

/-- A project folder is that of a source folder, as far as these are plain. -/
structure Locates (fs : Files) (folder project : Text) : Prop where
  owns : ∀ names, Plain folder names → ∃ owner, Owns fs levels names owner ∧ Plain project owner
  hasProject : ∀ owner, Plain project owner → HasProject fs owner

/-- The project folders that are remembered are right. -/
def Located (fs : Files) (c : BaseUrlCache) : Prop := ∀ p ∈ c.folders, Locates fs p.1 p.2

theorem Locates.changed {after : Files} {project : Text} (locates : Locates fs folder project)
    (changes : Changes names fs after) : Locates after folder project where
  owns upper plain := by
    obtain ⟨owner, owns, plainProject⟩ := locates.owns upper plain
    exact ⟨owner, changes.owns owns, plainProject⟩
  hasProject owner plain := changes.hasProject (locates.hasProject owner plain)

theorem Located.changed {after : Files} (located : Located fs c) (changes : Changes names fs after) : Located after c :=
  fun p member => (located p member).changed changes

theorem Located.empty : Located fs {} := nofun

theorem projectFolder_urls (c : BaseUrlCache) (fs : Files) (source : Text) : (c.projectFolder fs source).2.urls = c.urls := by
  rw [projectFolder]
  split
  · rfl
  · split
    · rfl
    · split <;> rfl

theorem Locates.of_same {key project : Text} (locates : Locates fs key project) (same : Path.same key folder = true) :
    Locates fs folder project where
  owns names plain := by
    rw [same_plain plain, decide_eq_true_iff] at same
    exact locates.owns names same
  hasProject := locates.hasProject

theorem Locates.of_folderOf? {project : Text} (named : fs.WellNamed)
    (found : folderOf? fs levels folder = some project) : Locates fs folder project where
  owns _ plain := folderOf?_plain named plain found
  hasProject _ plain := hasProject_of_folderOf? named found plain

theorem find?_bind {source : Text} (up : Path.parent? source = some folder) :
    (find? fs source).bind Path.parent? = folderOf? fs levels folder := by
  rw [find?, up]
  rfl

/-- What is found or remembered is the project folder of the source folder. -/
theorem Located.projectFolder (located : Located fs c) (named : fs.WellNamed) (source : Text) :
    Located fs (c.projectFolder fs source).2 ∧ ∀ project, (c.projectFolder fs source).1 = some project →
      ∃ folder, Path.parent? source = some folder ∧ Locates fs folder project := by
  rw [BaseUrlCache.projectFolder]
  split
  · exact ⟨located, nofun⟩
  · next folder up =>
    split
    · next known hit =>
      refine ⟨located, ?_⟩
      rintro _ ⟨⟩
      rw [remembered?_eq_find?] at hit
      obtain ⟨p, first, rfl⟩ := Option.map_eq_some_iff.mp hit
      have same : Path.same p.1 folder = true := by simpa using List.find?_some first
      exact ⟨folder, up, (located p (List.mem_of_find?_eq_some first)).of_same same⟩
    · rw [find?_bind up]
      split
      · exact ⟨located, nofun⟩
      · next found first =>
        have locates := Locates.of_folderOf? named first
        refine ⟨?_, ?_⟩
        · rintro p (_ | ⟨_, member⟩)
          · exact locates
          · exact located p member
        · rintro _ ⟨⟩
          exact ⟨folder, up, locates⟩

/-- Without a project folder there is none to be found. -/
theorem find?_bind_of_none {source : Text} (nothing : (c.projectFolder fs source).1 = none) :
    (find? fs source).bind Path.parent? = none := by
  rw [BaseUrlCache.projectFolder] at nothing
  split at nothing
  · next up => rw [find?, up]; rfl
  · split at nothing
    · cases nothing
    · split at nothing
      · next missing => exact missing
      · cases nothing

/-- Of a plain source file, the project folder that is known and the one to be found lead the same way. -/
theorem Located.exists_owner (located : Located fs c) (named : fs.WellNamed) {source project : Text}
    (plain : Plain source names) (known : (c.projectFolder fs source).1 = some project) :
    ∃ owner own, HasProject fs owner ∧ Plain project owner ∧ (find? fs source).bind Path.parent? = some own ∧
      Plain own owner := by
  obtain ⟨folder, up, locates⟩ := (located.projectFolder named source).2 project known
  rcases List.eq_nil_or_concat' names with rfl | ⟨above, name, rfl⟩
  · rw [plain.parent?_root] at up
    cases up
  · obtain ⟨again, found, plainFolder⟩ := plain.parent?
    rw [up] at found
    cases found
    obtain ⟨owner, owns, plainProject⟩ := locates.owns above plainFolder
    obtain ⟨own, found, plainOwn⟩ := owns.folderOf? named plainFolder
    exact ⟨owner, own, owns.hasProject, plainProject, (find?_bind up).trans found, plainOwn⟩

theorem Located.invalidate (located : Located fs c) (settingsPath : Text) : Located fs (c.invalidate settingsPath).2 := by
  rw [BaseUrlCache.invalidate]
  split <;> exact located

theorem Located.resolve (located : Located fs c) (named : fs.WellNamed) (source : Text) :
    Located fs (c.resolve fs source).2 := by
  have kept := (located.projectFolder named source).1
  rw [BaseUrlCache.resolve]
  split
  · next same => rwa [same] at kept
  · next same =>
    rw [same] at kept
    split
    · exact kept
    · exact kept

/-- A plain source file gets the URL that is remembered of its project folder, or else the one that
    is read there, which is remembered then. -/
theorem Located.resolved (located : Located fs c) (named : fs.WellNamed) {source : Text} (plain : Plain source names) :
    ((c.resolve fs source).1 = none ∧ (find? fs source).bind Path.parent? = none ∧
        ∀ other, (c.resolve fs source).2.urlOf? other = c.urlOf? other) ∨
      ∃ owner folder, (find? fs source).bind Path.parent? = some folder ∧ Plain folder owner ∧ HasProject fs owner ∧
        (c.resolve fs source).1 = (c.urlOf? owner).getD (urlIn fs folder) ∧
        ∀ other, (c.resolve fs source).2.urlOf? other =
          if other = owner then some (c.resolve fs source).1 else c.urlOf? other := by
  have kept : ∀ other, (c.projectFolder fs source).2.urlOf? other = c.urlOf? other := by
    intro other
    rw [urlOf?, projectFolder_urls, urlOf?]
  rw [BaseUrlCache.resolve]
  split
  · next same =>
    rw [same] at kept
    exact .inl ⟨rfl, find?_bind_of_none (congrArg (·.1) same), kept⟩
  · next project next same =>
    rw [same] at kept
    obtain ⟨owner, own, has, plainProject, found, plainOwn⟩ :=
      located.exists_owner named plain (congrArg (·.1) same)
    refine .inr ⟨owner, own, found, plainOwn, has, ?_⟩
    rw [url?_eq plainProject, kept]
    cases known : c.urlOf? owner with
    | some url =>
      refine ⟨rfl, fun other => ?_⟩
      dsimp only
      split
      · next here => rw [kept, here, known]
      · exact kept other
    | none =>
      dsimp only
      rw [readUrl?_eq named plainProject has, urlIn_plain plainProject plainOwn]
      refine ⟨rfl, fun other => ?_⟩
      rw [urlOf?_rememberUrl, kept]
      simp only [plainProject.iff_eq]

end EndpointConsole.Project.BaseUrlCache
