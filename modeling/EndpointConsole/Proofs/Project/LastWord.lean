import EndpointConsole.Proofs.Project.Remembered
import EndpointConsole.Proofs.Project.Sections

/-!
When a change of launch settings is lost. A URL that is read before a change is made
known and remembered after it (`Overtaken`) stays until somebody touches the project
again, whatever the files say. Every other change is seen: once all changes are made
known, the next question is answered by the files as they are unless a URL is
overtaken and wrong (`Run.next_right_iff`).
-/
namespace EndpointConsole.Project.Interleaved
open Path (Plain)
open BaseUrlCache (Fits)

variable {fs : Files} {es : List Event} {e : Event} {s next : System} {project : List Text} {url : Option Text}

/-- Whether it sets or drops the URL of a project. -/
def Event.Touches (project : List Text) : Event → Prop
  | act _ (.remember folder _) => Plain folder project
  | invalidate p => p = project
  | _ => False

/-- The URL was remembered for the project, and nothing has touched the project since. -/
def LastWord (es : List Event) (project : List Text) (url : Option Text) : Prop :=
  ∃ id folder before after, Plain folder project ∧ es = before ++ .act id (.remember folder url) :: after ∧
    ∀ e ∈ after, ¬e.Touches project

/-- The URL is the last word on the project, but it was read before the settings of the project were
    last made known. -/
def Overtaken (es : List Event) (project : List Text) (url : Option Text) : Prop :=
  ∃ id folder before between after, Plain folder project ∧
    es = before ++ .act id (.read folder url) :: between ++ .act id (.remember folder url) :: after ∧
    .invalidate project ∈ between ∧ ∀ e ∈ after, ¬e.Touches project

theorem Overtaken.lastWord (overtaken : Overtaken es project url) : LastWord es project url := by
  obtain ⟨id, folder, before, between, after, plain, rfl, _, untouched⟩ := overtaken
  exact ⟨id, folder, _, after, plain, rfl, untouched⟩

theorem Overtaken.concat (overtaken : Overtaken es project url) (quiet : ¬e.Touches project) :
    Overtaken (es ++ [e]) project url := by
  obtain ⟨id, folder, before, between, after, plain, rfl, made, untouched⟩ := overtaken
  refine ⟨id, folder, before, between, after ++ [e], plain, by simp, made, ?_⟩
  intro other member
  rcases List.mem_append.mp member with old | new
  · exact untouched other old
  · rwa [List.mem_singleton.mp new]

/-- The last event has the last word, or leaves it as it is. -/
theorem LastWord.of_concat (word : LastWord (es ++ [e]) project url) :
    (∃ id folder, Plain folder project ∧ e = .act id (.remember folder url)) ∨
      ¬e.Touches project ∧ LastWord es project url := by
  obtain ⟨id, folder, before, after, plain, happened, untouched⟩ := word
  rcases List.eq_nil_or_concat' after with rfl | ⟨after, last, rfl⟩
  · obtain ⟨rfl, is⟩ := List.append_inj' happened rfl
    exact .inl ⟨id, folder, plain, List.singleton_inj.mp is⟩
  · rw [← List.cons_append, ← List.append_assoc] at happened
    obtain ⟨rfl, is⟩ := List.append_inj' happened rfl
    rw [List.singleton_inj.mp is]
    refine .inr ⟨untouched last List.mem_concat_self, id, folder, before, after, plain, rfl, ?_⟩
    intro other member
    exact untouched other (List.mem_append_left _ member)

/-- What was made known last has nothing remembered behind it. -/
theorem not_overtaken (es : List Event) : ¬Overtaken (es ++ [.invalidate project]) project url := by
  intro overtaken
  rcases overtaken.lastWord.of_concat with ⟨_, _, _, is⟩ | ⟨quiet, _⟩
  · cases is
  · exact quiet rfl

theorem Step.hasProject (step : Step s e next) (has : HasProject s.files project) : HasProject next.files project := by
  cases step with
  | change changes => exact changes.hasProject has
  | _ => exact has

theorem Step.named (step : Step s e next) (named : s.files.WellNamed) : next.files.WellNamed := by
  cases step with
  | change changes => exact changes.named
  | _ => exact named

theorem Step.located (step : Step s e next) (named : s.files.WellNamed) (located : s.cache.Located s.files) :
    next.cache.Located next.files := by
  cases step with
  | change changes => exact located.changed changes
  | begin => exact located
  | invalidate => exact located.invalidate _
  | act _ move =>
    cases move with
    | locate => exact (located.projectFolder named _).1
    | _ => exact located

/-- A URL that fits goes on fitting until the settings are made known. -/
theorem Step.fits (step : Step s e next) (has : HasProject s.files project)
    (fits : Fits s.files s.pending project url) : e = .invalidate project ∨ Fits next.files next.pending project url := by
  cases step with
  | begin => exact .inr fits
  | act => exact .inr fits
  | change changes => exact .inr (fits.changed has changes)
  | @invalidate known =>
    by_cases here : project = known
    · exact .inl (by rw [here])
    · exact .inr (fits.invalidated here)

theorem Step.urlOf? (step : Step s e next) (quiet : ¬e.Touches project) :
    next.cache.urlOf? project = s.cache.urlOf? project := by
  cases step with
  | begin => rfl
  | change => rfl
  | invalidate plain =>
    rw [BaseUrlCache.urlOf?_invalidate plain, if_neg fun same => quiet same.symm]
  | act _ move =>
    cases move with
    | locate => rw [BaseUrlCache.urlOf?, BaseUrlCache.projectFolder_urls, BaseUrlCache.urlOf?]
    | remember =>
      rw [BaseUrlCache.urlOf?_rememberUrl]
      exact if_neg quiet
    | _ => rfl

theorem Step.remembered {id : Nat} {folder : Text} (step : Step s (.act id (.remember folder url)) next)
    (plain : Plain folder project) : next.cache.urlOf? project = some url := by
  cases step with
  | act _ move =>
    cases move with
    | remember => rw [BaseUrlCache.urlOf?_rememberUrl, if_pos plain]

/-- What a question works with is a project, and the URL that it has read fitted when it was read and
    does so until the settings are made known. -/
structure Backed (es : List Event) (s : System) (id : Nat) (stage : Stage) : Prop where
  hasProject : ∀ folder, stage.folder? = some folder → ∀ project, Plain folder project → HasProject s.files project
  read : ∀ folder url, stage = .read folder url → ∀ project, Plain folder project →
    ∃ before after, es = before ++ .act id (.read folder url) :: after ∧
      (.invalidate project ∈ after ∨ Fits s.files s.pending project url)

/-- What is remembered is of a project, and fits it unless it is overtaken. -/
structure Held (es : List Event) (s : System) (project : List Text) (url : Option Text) : Prop where
  hasProject : HasProject s.files project
  fits : Overtaken es project url ∨ Fits s.files s.pending project url

structure Invariant (es : List Event) (s : System) : Prop where
  named : s.files.WellNamed
  located : s.cache.Located s.files
  tasks : ∀ id stage, s.tasks[id]? = some stage → Backed es s id stage
  held : ∀ project url, s.cache.urlOf? project = some url → Held es s project url
  lastWord : ∀ project url, LastWord es project url → s.cache.urlOf? project = some url

theorem Backed.step {id : Nat} {stage : Stage} (backed : Backed es s id stage) (step : Step s e next) :
    Backed (es ++ [e]) next id stage where
  hasProject folder on project plain := step.hasProject (backed.hasProject folder on project plain)
  read folder url is project plain := by
    subst is
    obtain ⟨before, after, rfl, since⟩ := backed.read folder url rfl project plain
    refine ⟨before, after ++ [e], by simp, ?_⟩
    rcases since with made | fits
    · exact .inl (List.mem_append_left _ made)
    · refine (step.fits (backed.hasProject folder rfl project plain) fits).imp_left fun is => ?_
      rw [is]
      exact List.mem_concat_self

theorem Held.step (held : Held es s project url) (step : Step s e next) (quiet : ¬e.Touches project) :
    Held (es ++ [e]) next project url where
  hasProject := step.hasProject held.hasProject
  fits := by
    rcases held.fits with overtaken | fits
    · exact .inl (overtaken.concat quiet)
    · rcases step.fits held.hasProject fits with rfl | after
      · exact absurd rfl quiet
      · exact .inr after

theorem Invariant.start (named : fs.WellNamed) : Invariant [] { files := fs } where
  named := named
  located := .empty
  tasks _ _ found := by cases found
  held _ _ known := by cases known
  lastWord _ _ word := by
    obtain ⟨_, _, before, after, _, none, _⟩ := word
    simp at none

/-- A question is backed after its own section. -/
theorem Invariant.moved (inv : Invariant es s) {id : Nat} {stage after : Stage} {a : Act} {cache : BaseUrlCache}
    (held : s.tasks[id]? = some stage) (move : Move s.files s.cache stage a after cache) :
    Backed (es ++ [.act id a]) { s with cache, tasks := s.tasks.set id after } id after := by
  have backed := inv.tasks id stage held
  cases move with
  | hit => exact ⟨nofun, nofun⟩
  | remember => exact ⟨nofun, nofun⟩
  | miss => exact ⟨backed.hasProject, nofun⟩
  | @locate source =>
    have found := (inv.located.projectFolder inv.named source).2
    cases known : (s.cache.projectFolder s.files source).1 with
    | none => exact ⟨nofun, nofun⟩
    | some folder =>
      obtain ⟨_, _, locates⟩ := found folder known
      refine ⟨?_, nofun⟩
      rintro _ ⟨⟩
      exact locates.hasProject
  | @read folder =>
    refine ⟨backed.hasProject, ?_⟩
    rintro _ _ ⟨⟩ project plain
    refine ⟨es, [], rfl, .inr (.inr fun other plainOther => ?_)⟩
    rw [readUrl?_eq inv.named plain (backed.hasProject folder rfl project plain), urlIn_plain plain plainOther]

/-- Whoever touches a project drops its URL, or remembers one that is held. -/
theorem Invariant.touched (inv : Invariant es s) (step : Step s e next) (touches : e.Touches project) :
    next.cache.urlOf? project = none ∨
      ∃ url, next.cache.urlOf? project = some url ∧ Held (es ++ [e]) next project url := by
  cases step with
  | begin => cases touches
  | change => cases touches
  | invalidate plain => exact .inl (by rw [BaseUrlCache.urlOf?_invalidate plain, if_pos touches.symm])
  | @act id stage _ a cache held move =>
    cases move with
    | @remember folder url =>
      have plain : Plain folder project := touches
      have backed := inv.tasks id _ held
      obtain ⟨before, after, happened, since⟩ := backed.read folder url rfl project plain
      refine .inr ⟨url, ?_, backed.hasProject folder rfl project plain, ?_⟩
      · rw [BaseUrlCache.urlOf?_rememberUrl, if_pos plain]
      · -- the URL is overtaken if the settings were made known since it was read
        rcases since with made | fits
        · exact .inl ⟨id, folder, before, after, [], plain, by rw [happened], made, nofun⟩
        · exact .inr fits
    | _ => cases touches

theorem Invariant.step (inv : Invariant es s) (step : Step s e next) : Invariant (es ++ [e]) next where
  named := step.named inv.named
  located := step.located inv.named inv.located
  tasks id stage found := by
    cases step with
    | change changes => exact (inv.tasks id stage found).step (.change changes)
    | invalidate plain => exact (inv.tasks id stage found).step (.invalidate plain)
    | begin source =>
      rw [List.getElem?_append] at found
      split at found
      · exact (inv.tasks id stage found).step (.begin source)
      · rw [List.getElem?_singleton] at found
        split at found
        · cases found
          exact ⟨nofun, nofun⟩
        · cases found
    | @act other before after a cache held move =>
      dsimp only at found
      by_cases here : other = id
      · subst here
        rw [List.getElem?_set_self (List.getElem?_eq_some_iff.mp held).1] at found
        cases found
        exact inv.moved held move
      · rw [List.getElem?_set_ne here] at found
        exact (inv.tasks id stage found).step (.act held move)
  held project url known := by
    -- whoever touches the project brings the URL along; otherwise it was held before
    by_cases touches : e.Touches project
    · rcases inv.touched step touches with none | ⟨other, is, held⟩
      · rw [none] at known
        cases known
      · rw [is] at known
        cases known
        exact held
    · rw [step.urlOf? touches] at known
      exact (inv.held project url known).step step touches
  lastWord project url word := by
    rcases word.of_concat with ⟨id, folder, plain, rfl⟩ | ⟨quiet, before⟩
    · exact step.remembered plain
    · rw [step.urlOf? quiet]
      exact inv.lastWord project url before

theorem Run.invariant (run : Run fs es s) (named : fs.WellNamed) : Invariant es s := by
  induction run with
  | start => exact .start named
  | step _ step ih => exact ih.step step

/-- Once all changes are made known, the next question is answered by the files as they are, unless
    the last word on the project is another URL that is overtaken. -/
theorem Run.next_right_iff (named : fs.WellNamed) (run : Run fs es s) (settled : s.pending = []) {source : Text}
    {names : List Text} (plain : Plain source names) :
    (s.cache.resolve s.files source).1 = current? s.files source ↔
      ∀ folder project url, (find? s.files source).bind Path.parent? = some folder → Plain folder project →
        Overtaken es project url → url = current? s.files source := by
  have inv := run.invariant named
  rw [current?_eq]
  rcases inv.located.resolved inv.named plain with
    ⟨answer, nothing, _⟩ | ⟨owner, folder, found, plainFolder, _, answer, _⟩
  · rw [answer, nothing]
    exact ⟨fun _ => nofun, fun _ => rfl⟩
  · rw [answer, found, Option.bind_some]
    constructor
    · rintro right _ project url ⟨⟩ plainProject overtaken
      have same := plainProject.unique plainFolder
      subst same
      rw [inv.lastWord project url overtaken.lastWord] at right
      exact right
    · intro right
      cases known : s.cache.urlOf? owner with
      | none => rfl
      | some url =>
        rcases (inv.held owner url known).fits with overtaken | doubt | fits
        · exact right folder owner url rfl plainFolder overtaken
        · rw [settled] at doubt
          cases doubt
        · exact fits folder plainFolder

/-- A question comes before the settings are made, and another one after it. -/
theorem next_right_shop : ∃ es s, Run shop es s ∧ s.pending = [] ∧ s.tasks = [.answered none] ∧
    (s.cache.resolve s.files "/shop/A.cs".toList).1 = some "http://localhost:5000".toList := by
  have source : Plain "/shop/A.cs".toList ["shop".toList, "A.cs".toList] := by decide +kernel
  have settings := settingsIn_plain shop_plain
  have owner : (find? shopServed "/shop/A.cs".toList).bind Path.parent? = some "/shop".toList := by decide +kernel
  have current : current? shopServed "/shop/A.cs".toList = some "http://localhost:5000".toList := by decide +kernel
  obtain ⟨more, asked⟩ := (Run.start : Run shop [] _).resolve "/shop/A.cs".toList
  have run := ((asked.step (.change shop_made)).step (.change shop_written)).step (.invalidate settings)
  refine ⟨_, _, run, by decide +kernel, by decide +kernel, ?_⟩
  rw [← current]
  refine (run.next_right_iff shop_wellNamed (by decide +kernel) source).mpr ?_
  rintro folder project url found plain overtaken
  rw [owner] at found
  cases found
  rw [plain.unique shop_plain] at overtaken
  exact absurd overtaken (not_overtaken _)

/-- All questions have been answered and all changes made known, and still the next question is not
    answered by the files as they are. -/
def LosesChange (fs : Files) (source : Text) : Prop :=
  ∃ es s, Run fs es s ∧ (∀ stage ∈ s.tasks, ∃ url, stage = .answered url) ∧ s.pending = [] ∧
    (s.cache.resolve s.files source).1 ≠ current? s.files source

theorem Step.alone {stage after : Stage} {a : Act} {cache : BaseUrlCache} (alone : s.tasks = [stage])
    (move : Move s.files s.cache stage a after cache) : Step s (.act 0 a) { s with cache, tasks := [after] } := by
  have held : s.tasks[0]? = some stage := by simp [alone]
  have step := Step.act held move
  rwa [alone] at step

/-- A URL is overtaken, or remembered for a folder that is written with steps up. -/
theorem change_lost : LosesChange shop "/shop/A.cs".toList ∧ LosesChange shop "/shop/../shop/A.cs".toList := by
  have settings := settingsIn_plain shop_plain
  constructor
  · have found : ({} : BaseUrlCache).projectFolder shop "/shop/A.cs".toList =
        (some "/shop".toList, { folders := [("/shop".toList, "/shop".toList)] }) := by decide +kernel
    have unread : BaseUrlCache.readUrl? shop "/shop".toList = none := by decide +kernel
    have locate := @Move.locate shop {} "/shop/A.cs".toList
    rw [found] at locate
    have read := @Move.read shop { folders := [("/shop".toList, "/shop".toList)] } "/shop".toList
    rw [unread] at read
    have asked := (Run.start.step (.begin _)).step (.alone rfl locate)
    have begun := (asked.step (.alone rfl (.miss rfl))).step (.alone rfl read)
    have made := ((begun.step (.change shop_made)).step (.change shop_written)).step (.invalidate settings)
    have run := made.step (.alone rfl .remember)
    refine ⟨_, _, run, ?_, by decide +kernel, by decide +kernel⟩
    intro stage member
    exact ⟨none, List.mem_singleton.mp member⟩
  · obtain ⟨more, asked⟩ := (Run.start : Run shop [] _).resolve "/shop/../shop/A.cs".toList
    have run := ((asked.step (.change shop_made)).step (.change shop_written)).step (.invalidate settings)
    refine ⟨_, _, run, ?_, by decide +kernel, by decide +kernel⟩
    intro stage member
    exact ⟨_, List.mem_singleton.mp member⟩

end EndpointConsole.Project.Interleaved
