import EndpointConsole.Project.Find
import EndpointConsole.Project.LaunchProfile

/-!
The base URLs of source files, remembered in two tiers: the project folder of a
source folder, which is never forgotten by itself, and the base URL of a project
folder, or that it has none, which is dropped when its launch settings change.
Looking up, reading and remembering a URL are steps of their own (`url?`, `readUrl?`,
`rememberUrl`), which `resolve` takes one after the other.
-/
namespace EndpointConsole.Project

structure BaseUrlCache where
  /-- The project folders of source folders. -/
  folders : List (Text × Text) := []
  /-- The base URLs of project folders. -/
  urls : List (Text × Option Text) := []
  deriving Repr, DecidableEq, Inhabited

/-- What is remembered under a path, however it is written. -/
def remembered? {α : Type} (path : Text) : List (Text × α) → Option α
  | [] => none
  | (key, value) :: rest => if Path.same key path then some value else remembered? path rest

/-- Forgets what is remembered under a path. -/
def forget {α : Type} (path : Text) (known : List (Text × α)) : List (Text × α) :=
  known.filter fun (key, _) => !Path.same key path

namespace BaseUrlCache

/-- The project folder of a source file, by its folder if that is known. -/
def projectFolder (c : BaseUrlCache) (fs : Files) (source : Text) : Option Text × BaseUrlCache :=
  match Path.parent? source with
  | none => (none, c)
  | some folder =>
    match remembered? folder c.folders with
    | some known => (some known, c)
    | none =>
      match (find? fs source).bind Path.parent? with
      | none => (none, c)
      | some found => (some found, { c with folders := (folder, found) :: c.folders })

/-- What is remembered of a project folder: its base URL or the lack of one. -/
def url? (c : BaseUrlCache) (folder : Text) : Option (Option Text) := remembered? folder c.urls

/-- The base URL that the launch settings in a project folder give. -/
def readUrl? (fs : Files) (folder : Text) : Option Text :=
  match fileIn? fs folder with
  | .ok (some file) => LaunchProfile.baseUrl? fs file
  | _ => none

def rememberUrl (c : BaseUrlCache) (folder : Text) (url : Option Text) : BaseUrlCache :=
  { c with urls := (folder, url) :: forget folder c.urls }

/-- The base URL of a source file. -/
def resolve (c : BaseUrlCache) (fs : Files) (source : Text) : Option Text × BaseUrlCache :=
  match c.projectFolder fs source with
  | (none, c) => (none, c)
  | (some folder, c) =>
    match c.url? folder with
    | some known => (known, c)
    | none =>
      let url := readUrl? fs folder
      (url, c.rememberUrl folder url)

/-- Drops the base URL of the project that a launch settings file belongs to, and says whether there
    was one. -/
def invalidate (c : BaseUrlCache) (settingsPath : Text) : Bool × BaseUrlCache :=
  match (Path.parent? settingsPath).bind Path.parent? with
  | none => (false, c)
  | some folder => ((c.url? folder).isSome, { c with urls := forget folder c.urls })

end BaseUrlCache

end EndpointConsole.Project
