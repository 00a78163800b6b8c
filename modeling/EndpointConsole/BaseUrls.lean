import EndpointConsole.Files
import EndpointConsole.Json.Commented
import EndpointConsole.Json.Printer
import EndpointConsole.Json.Typed
import EndpointConsole.Sorted

/-!
The base URLs that a user keeps for each project, in a file of the workspace. A
change is written later, at the latest when the lists are closed; a file that
cannot be read counts as empty, and a failed write is not tried again by itself.
-/
namespace EndpointConsole

structure BaseUrls where
  path : Text
  /-- The URLs by project. -/
  lists : List (Text × List Text)
  /-- Whether a change waits to be written. -/
  unsaved : Bool := false
  deriving Repr, DecidableEq, Inhabited

namespace BaseUrls

def fileName : Text := "csharp-api-console-config.json".toList

/-- The file of a workspace. -/
def pathIn (workspace : Text) : Text := Path.join (Path.join workspace ".vscode".toList) fileName

def toJson (lists : List (Text × List Text)) : Json :=
  .object [("baseUrls".toList, .object (lists.map fun (project, urls) => (project, .array (urls.map .string))))]

/-- Reads the lists from what is written; later ones of one project count. -/
def ofWritten? (w : Json.Written) : Option (List (Text × List Text)) := do
  match ← w.fields? ["baseUrls".toList] with
  | [none] => pure []
  | [some lists] => (lists.pairsOf? (Json.Written.listOf? Json.Written.text?)).map Sorted.ofList
  | _ => none

/-- The lists in the text of a file. -/
def parse? (content : Text) : Option (List (Text × List Text)) :=
  (Json.Written.parse? (Json.withoutComments content)).bind ofWritten?

/-- The lists in a file. -/
def load (fs : Files) (path : Text) : List (Text × List Text) :=
  match fs.readText path with
  | .ok content => (parse? content).getD []
  | .error _ => []

/-- Writes a text in the place of a file, by way of another file beside it: what is left then, and
    whether it all went well. -/
def writeFile (fs : Files) (path content : Text) : Files × Bool :=
  match fs.createFolders ((Path.parent? path).getD []) with
  | .error _ => (fs, false)
  | .ok fs =>
    let beside := Path.withExtension "json.tmp".toList path
    match fs.write beside (Utf8.encode content) with
    | .error _ => (fs, false)
    | .ok fs =>
      match fs.rename beside path with
      | .error _ => (fs, false)
      | .ok fs => (fs, true)

def ofFile (fs : Files) (path : Text) : BaseUrls := { path, lists := load fs path }

def urls (b : BaseUrls) (project : Text) : List Text := (Json.lookup? project b.lists).getD []

/-- The URLs without blank ones and repetitions, in order; `seen` holds those that went before. -/
def cleaned (seen : List Text) : List Text → List Text
  | [] => []
  | url :: rest =>
    let url := Text.trim url
    if url.isEmpty || seen.contains url then cleaned seen rest else url :: cleaned (url :: seen) rest

/-- Sets the URLs of a project; without any the project goes. -/
def save (b : BaseUrls) (project : Text) (urls : List Text) : BaseUrls :=
  let urls := cleaned [] urls
  { b with
    lists := if urls.isEmpty then Sorted.erase project b.lists else Sorted.insert project urls b.lists
    unsaved := true }

/-- Writes the change that waits, if there is one. -/
def flush (b : BaseUrls) (fs : Files) : BaseUrls × Files :=
  if b.unsaved then ({ b with unsaved := false }, (writeFile fs b.path (toJson b.lists).pretty).1) else (b, fs)

end BaseUrls

end EndpointConsole
