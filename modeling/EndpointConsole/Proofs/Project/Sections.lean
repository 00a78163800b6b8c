import EndpointConsole.Proofs.Project.Changes

/-!
Questions that share a cache with a watcher of the files. A question holds a lock only
to look a URL up and to remember one, and reads the settings in between, while the
watcher sees changes and makes them known. `Move` is one section of a question, `Step`
lets some question or the watcher go on, and a `Run` is any sequence of steps from a
new cache, with what happened in it.
-/
namespace EndpointConsole.Project.Interleaved
open Path (Plain)

/-- How far a question has come. -/
inductive Stage where
  | called (source : Text)
  /-- The project folder is known. -/
  | located (folder : Text)
  /-- No URL was remembered. -/
  | missed (folder : Text)
  | read (folder : Text) (url : Option Text)
  | answered (url : Option Text)
  deriving Repr, DecidableEq

/-- The project folder that a question works on. -/
def Stage.folder? : Stage → Option Text
  | located folder | missed folder | read folder _ => some folder
  | _ => none

/-- A question goes on with its project folder, and has no URL without one. -/
def Stage.ofFolder : Option Text → Stage
  | some folder => located folder
  | none => answered none

/-- What one section does. -/
inductive Act where
  | locate
  | hit
  | miss
  | read (folder : Text) (url : Option Text)
  | remember (folder : Text) (url : Option Text)
  deriving Repr, DecidableEq

/-- One section of a question, and what it makes of the cache. -/
inductive Move (fs : Files) : BaseUrlCache → Stage → Act → Stage → BaseUrlCache → Prop where
  | locate {c : BaseUrlCache} {source : Text} :
      Move fs c (.called source) .locate (.ofFolder (c.projectFolder fs source).1) (c.projectFolder fs source).2
  | hit {c : BaseUrlCache} {folder : Text} {url : Option Text} (known : c.url? folder = some url) :
      Move fs c (.located folder) .hit (.answered url) c
  | miss {c : BaseUrlCache} {folder : Text} (unknown : c.url? folder = none) :
      Move fs c (.located folder) .miss (.missed folder) c
  | read {c : BaseUrlCache} {folder : Text} :
      Move fs c (.missed folder) (.read folder (BaseUrlCache.readUrl? fs folder))
        (.read folder (BaseUrlCache.readUrl? fs folder)) c
  | remember {c : BaseUrlCache} {folder : Text} {url : Option Text} :
      Move fs c (.read folder url) (.remember folder url) (.answered url) (c.rememberUrl folder url)

/-- The cache, the files, the questions so far, each known by its place, and the projects whose
    settings have changed without being made known. -/
structure System where
  cache : BaseUrlCache := {}
  files : Files
  tasks : List Stage := []
  pending : List (List Text) := []

inductive Event where
  | begin (source : Text)
  | act (id : Nat) (a : Act)
  /-- The settings of a project change. -/
  | change (project : List Text)
  /-- A change of the settings of a project is made known. -/
  | invalidate (project : List Text)
  deriving Repr, DecidableEq

inductive Step : System → Event → System → Prop where
  | begin {s : System} (source : Text) : Step s (.begin source) { s with tasks := s.tasks ++ [.called source] }
  | act {s : System} {id : Nat} {stage next : Stage} {a : Act} {cache : BaseUrlCache}
      (held : s.tasks[id]? = some stage) (move : Move s.files s.cache stage a next cache) :
      Step s (.act id a) { s with cache, tasks := s.tasks.set id next }
  | change {s : System} {project : List Text} {after : Files} (changes : Changes project s.files after) :
      Step s (.change project) { s with files := after, pending := project :: s.pending }
  | invalidate {s : System} {project : List Text} {settingsPath : Text}
      (plain : Plain settingsPath (settingsNames project)) :
      Step s (.invalidate project)
        { s with cache := (s.cache.invalidate settingsPath).2, pending := s.pending.filter (· ≠ project) }

/-- What may happen with some files, and the system after it. -/
inductive Run (fs : Files) : List Event → System → Prop where
  | start : Run fs [] { files := fs }
  | step {es : List Event} {e : Event} {s next : System} (run : Run fs es s) (step : Step s e next) :
      Run fs (es ++ [e]) next

/-- The sections of a question alone, one after the other, resolve it. -/
theorem Run.resolve {fs : Files} {es : List Event} {s : System} (run : Run fs es s) (source : Text) :
    ∃ more, Run fs (es ++ more) { s with
      cache := (s.cache.resolve s.files source).2
      tasks := s.tasks ++ [.answered (s.cache.resolve s.files source).1] } := by
  have last : ∀ before after : Stage, (s.tasks ++ [before]).set s.tasks.length after = s.tasks ++ [after] := by simp
  have held : ∀ stage : Stage, (s.tasks ++ [stage])[s.tasks.length]? = some stage := by simp
  have begun := run.step (.begin source)
  have located := begun.step (.act (held _) .locate)
  rw [last] at located
  rw [BaseUrlCache.resolve]
  split
  · next same =>
    rw [same] at located
    exact ⟨_, by simpa [Stage.ofFolder] using located⟩
  · next folder cache same =>
    rw [same] at located
    split
    · next url known =>
      have hit := located.step (.act (held _) (.hit known))
      rw [last] at hit
      exact ⟨_, by simpa using hit⟩
    · next unknown =>
      have missed := located.step (.act (held _) (.miss unknown))
      rw [last] at missed
      have read := missed.step (.act (held _) .read)
      rw [last] at read
      have remembered := read.step (.act (held _) .remember)
      rw [last] at remembered
      exact ⟨_, by simpa using remembered⟩

end EndpointConsole.Project.Interleaved
