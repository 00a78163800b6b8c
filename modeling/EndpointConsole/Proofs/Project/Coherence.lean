import EndpointConsole.Proofs.Project.Remembered

/-!
The cache of base URLs gives what the files give at each question (`answers_current`),
as long as every change of launch settings is made known before the next question.
-/
namespace EndpointConsole.Project
open Path (Plain)
open BaseUrlCache (Fits)

/-- What happens to a cache and to the files around it. -/
inductive Step where
  | resolve (source : Text)
  /-- The files are these from now on. -/
  | change (after : Files)
  | invalidate (settingsPath : Text)
  | clear

/-- The answers of a cache. -/
def answers : BaseUrlCache → Files → List Step → List (Option Text)
  | _, _, [] => []
  | c, fs, .resolve source :: rest =>
    let (url, c) := c.resolve fs source
    url :: answers c fs rest
  | c, _, .change after :: rest => answers c after rest
  | c, fs, .invalidate settingsPath :: rest => answers (c.invalidate settingsPath).2 fs rest
  | _, fs, .clear :: rest => answers {} fs rest

/-- The base URLs by the files as they are at each question. -/
def currentAnswers : Files → List Step → List (Option Text)
  | _, [] => []
  | fs, .resolve source :: rest => current? fs source :: currentAnswers fs rest
  | _, .change after :: rest => currentAnswers after rest
  | fs, .invalidate _ :: rest => currentAnswers fs rest
  | fs, .clear :: rest => currentAnswers fs rest

/-- All paths are plain, only launch settings change, and no project with changed settings is left
    pending when a question comes. -/
inductive Orderly : Files → List (List Text) → List Step → Prop
  | done {fs : Files} {pending : List (List Text)} : Orderly fs pending []
  | resolve {fs : Files} {source : Text} {names : List Text} {rest : List Step} (plain : Plain source names)
      (orderly : Orderly fs [] rest) : Orderly fs [] (.resolve source :: rest)
  | change {before after : Files} {pending : List (List Text)} {project : List Text} {rest : List Step}
      (changes : Changes project before after) (orderly : Orderly after (project :: pending) rest) :
      Orderly before pending (.change after :: rest)
  | invalidate {fs : Files} {pending : List (List Text)} {settingsPath : Text} {project : List Text} {rest : List Step}
      (plain : Plain settingsPath (settingsNames project))
      (orderly : Orderly fs (pending.filter (· ≠ project)) rest) : Orderly fs pending (.invalidate settingsPath :: rest)
  | clear {fs : Files} {pending : List (List Text)} {rest : List Step} (orderly : Orderly fs [] rest) :
      Orderly fs pending (.clear :: rest)

/-- Project folders are right, and so are the URLs of the projects that are not pending. -/
structure Coherent (fs : Files) (pending : List (List Text)) (c : BaseUrlCache) : Prop where
  located : c.Located fs
  hasProject : ∀ project url, c.urlOf? project = some url → HasProject fs project
  fits : ∀ project url, c.urlOf? project = some url → Fits fs pending project url

namespace Coherent
variable {fs : Files} {pending : List (List Text)} {c : BaseUrlCache} {project : List Text}

theorem empty : Coherent fs pending {} where
  located := .empty
  hasProject := nofun
  fits := nofun

theorem change (coherent : Coherent fs pending c) {after : Files} (changes : Changes project fs after) :
    Coherent after (project :: pending) c where
  located := coherent.located.changed changes
  hasProject other url known := changes.hasProject (coherent.hasProject other url known)
  fits other url known := (coherent.fits other url known).changed (coherent.hasProject other url known) changes

theorem invalidate (coherent : Coherent fs pending c) {settingsPath : Text}
    (plain : Plain settingsPath (settingsNames project)) :
    Coherent fs (pending.filter (· ≠ project)) (c.invalidate settingsPath).2 := by
  have kept : ∀ other url, (c.invalidate settingsPath).2.urlOf? other = some url →
      other ≠ project ∧ c.urlOf? other = some url := by
    intro other url known
    rw [BaseUrlCache.urlOf?_invalidate plain] at known
    split at known
    · cases known
    · next apart => exact ⟨apart, known⟩
  refine ⟨coherent.located.invalidate settingsPath, ?_, ?_⟩
  · intro other url known
    exact coherent.hasProject other url (kept other url known).2
  · intro other url known
    obtain ⟨apart, before⟩ := kept other url known
    exact (coherent.fits other url before).invalidated apart

/-- With nothing pending a plain source file gets its current URL. -/
theorem resolve (coherent : Coherent fs [] c) (named : fs.WellNamed) {source : Text} {names : List Text}
    (plain : Plain source names) :
    (c.resolve fs source).1 = current? fs source ∧ Coherent fs [] (c.resolve fs source).2 := by
  have located := coherent.located.resolve named source
  rw [current?_eq]
  rcases coherent.located.resolved named plain with
    ⟨answer, nothing, urls⟩ | ⟨owner, folder, found, plainFolder, has, answer, urls⟩
  · refine ⟨by rw [answer, nothing, Option.bind_none], located, ?_, ?_⟩
    · intro other url known
      exact coherent.hasProject other url (urls other ▸ known)
    · intro other url known
      exact coherent.fits other url (urls other ▸ known)
  · have right : (c.resolve fs source).1 = urlIn fs folder := by
      rw [answer]
      cases known : c.urlOf? owner with
      | none => rfl
      | some url =>
        rcases coherent.fits owner url known with doubt | right
        · cases doubt
        · exact right folder plainFolder
    refine ⟨by rw [right, found, Option.bind_some], located, ?_, ?_⟩
    · intro other url known
      rw [urls] at known
      split at known
      · next here => exact here ▸ has
      · exact coherent.hasProject other url known
    · intro other url known
      rw [urls] at known
      split at known
      · next here =>
        refine .inr fun place plainPlace => ?_
        rw [← Option.some.inj known, right, urlIn_plain plainFolder (here ▸ plainPlace)]
      · exact coherent.fits other url known

theorem answers {steps : List Step} (orderly : Orderly fs pending steps) (named : fs.WellNamed)
    (coherent : Coherent fs pending c) : answers c fs steps = currentAnswers fs steps := by
  induction orderly generalizing c with
  | done => rfl
  | resolve plain _ ih =>
    obtain ⟨right, after⟩ := coherent.resolve named plain
    simp only [Project.answers, currentAnswers, right, ih named after]
  | change changes _ ih => exact ih changes.named (coherent.change changes)
  | invalidate plain _ ih => exact ih named (coherent.invalidate plain)
  | clear _ ih => exact ih named .empty

end Coherent

/-- A new cache gives the base URLs that the files give at each question. -/
theorem answers_current {fs : Files} {steps : List Step} (named : fs.WellNamed) (orderly : Orderly fs [] steps) :
    answers {} fs steps = currentAnswers fs steps :=
  Coherent.empty.answers orderly named

/-- The settings are made with their folder, and removed. -/
def shopSteps : List Step :=
  let source := "/shop/A.cs".toList
  let settings := settingsIn "/shop".toList
  [.resolve "/A.cs".toList, .resolve source,
    .change shopWithFolder, .change shopServed, .invalidate settings, .resolve source,
    .change shopClosed, .invalidate settings, .resolve source]

theorem answers_current_shop : shop.WellNamed ∧ Orderly shop [] shopSteps ∧
    answers {} shop shopSteps = [none, none, some "http://localhost:5000".toList, none] := by
  have settings := settingsIn_plain shop_plain
  have outside : Plain "/A.cs".toList ["A.cs".toList] := by decide +kernel
  have inside : Plain "/shop/A.cs".toList ["shop".toList, "A.cs".toList] := by decide +kernel
  have orderly : Orderly shop [] shopSteps := by
    refine .resolve outside (.resolve inside (.change shop_made (.change shop_written (.invalidate settings ?_))))
    refine .resolve inside (.change shop_removed (.invalidate settings ?_))
    exact .resolve inside .done
  refine ⟨shop_wellNamed, orderly, ?_⟩
  rw [answers_current shop_wellNamed orderly]
  decide +kernel

end EndpointConsole.Project
