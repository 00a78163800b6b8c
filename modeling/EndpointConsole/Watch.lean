import EndpointConsole.Project.LaunchProfile

/-!
Watching a folder for changes of launch settings. A watch that is asked for but
cannot start is a failure; one that may do without hears nothing.
-/
namespace EndpointConsole

inductive WatchMode where
  | off
  | auto
  | on
  deriving Repr, DecidableEq, Inhabited

namespace WatchMode

def name : WatchMode → Text
  | off => "off".toList
  | auto => "auto".toList
  | on => "on".toList

def names : List (Text × WatchMode) := [off, auto, on].map fun m => (m.name, m)

end WatchMode

structure Watch where
  /-- The place that is watched with everything below it; a watch without one hears nothing. -/
  place : Option (List Text)
  deriving Repr, DecidableEq

namespace Watch

structure Failure where
  path : Text
  deriving Repr, DecidableEq

def Failure.message (f : Failure) : Text := "watch ".toList ++ f.path ++ ": ".toList

/-- Starts a watch, unless it is off. -/
def start (fs : Files) (path : Text) (mode : WatchMode) : Except Failure (Option Watch) :=
  match mode, fs.look path with
  | .off, _ => .ok none
  | _, .ok (names, _) => .ok (some ⟨some names⟩)
  | .auto, .error _ => .ok (some ⟨none⟩)
  | .on, .error _ => .error ⟨path⟩

/-- Something that happens to files. -/
inductive Event where
  | written (path : Text)
  /-- A file goes, or a folder with all that is in it. -/
  | removed (path : Text)
  | renamed (source target : Text)
  deriving Repr, DecidableEq

/-- The place that a path leads to, if it leads anywhere. -/
def placesOf (fs : Files) (path : Text) : List (List Text) := (fs.locate path).toOption.toList

/-- The places that an event touches, in the files before it. Both sides of a move count. -/
def Event.places (fs : Files) : Event → List (List Text)
  | .written path => placesOf fs path
  | .removed path => (placesOf fs path).flatMap fun place =>
      (fs.entries.map (·.1)).filter (Files.isWithin place)
  | .renamed source target => placesOf fs source ++ placesOf fs target

/-- Whether a watch reports changes at a place. -/
def hears (w : Watch) (names : List Text) : Bool :=
  w.place.any (Files.isWithin · names) && LaunchProfile.isSettingsPath (Files.pathOf names)

/-- The launch settings that a watch reports when something happens, by their absolute paths. -/
def reports (w : Watch) (fs : Files) (e : Event) : List Text :=
  ((e.places fs).filter w.hears).map Files.pathOf

end Watch

end EndpointConsole
