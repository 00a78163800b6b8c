import EndpointConsole.Files

/-!
The project file of a source file: the first `*.csproj` by name in the nearest
folder that has one, from the source file's folder upward.
-/
namespace EndpointConsole.Project

def extension : Text := "csproj".toList

/-- The folders that are looked into. -/
def levels : Nat := 10

def isProjectPath (path : Text) : Bool := (Path.extension? path).any (Text.sameLetters extension)

/-- The first project file by name that lies right in a folder. -/
def fileIn? (fs : Files) (folder : Text) : Except Files.Failure (Option Text) := do
  let entries ← fs.list folder
  let paths := entries.filterMap fun (name, entry) =>
    match entry with
    | .file _ => if isProjectPath (Path.join folder name) then some (Path.join folder name) else none
    | .folder => none
  pure (Path.sort paths).head?

/-- Looks through a folder and those above it, up to a number of them, as long as they can be read. -/
def findFrom? (fs : Files) : Nat → Text → Option Text
  | 0, _ => none
  | levels + 1, folder =>
    match fileIn? fs folder with
    | .error _ => none
    | .ok (some file) => some file
    | .ok none => (Path.parent? folder).bind (findFrom? fs levels)

/-- The project file that a source file belongs to. -/
def find? (fs : Files) (source : Text) : Option Text := (Path.parent? source).bind (findFrom? fs levels)

end EndpointConsole.Project
