import EndpointConsole.Endpoint.Detect
import EndpointConsole.Ignore
import EndpointConsole.Project.Find
import EndpointConsole.Source.Stored

/-!
The controllers of a workspace with their endpoints. A controller is a file whose
name says so; the files of tools and build output are passed over, and so is what
ignore files leave out unless everything is asked for. A file that cannot be read
is left out of the reports.
-/
namespace EndpointConsole.Workspace

def controllerEnding : Text := "Controller.cs".toList

/-- Names that are passed over, files and folders alike. -/
def toolNames : List Text := [".git".toList, ".vs".toList, ".api-console".toList]

/-- Folders of build output. -/
def outputFolders : List Text := ["bin".toList, "obj".toList]

/-- Whether a name is always passed over. -/
def isPassedOver (name : Text) (isFolder : Bool) : Bool :=
  toolNames.contains name || (isFolder && outputFolders.contains name)

/-- Whether the way down stops at a place. -/
def isClosed (fs : Files) (everything : Bool) (names : List Text) (isFolder : Bool) : Bool :=
  (!everything && Ignore.isIgnored fs names isFolder) || isPassedOver (names.getLastD []) isFolder

/-- Whether the way from a folder down to a file is open. -/
def isReached (fs : Files) (everything : Bool) (folder steps : List Text) : Bool :=
  (List.range steps.length).all fun n =>
    !isClosed fs everything (folder ++ steps.take (n + 1)) (n + 1 < steps.length)

/-- The steps from a folder down to a controller that is reached. -/
def stepsTo? (fs : Files) (everything : Bool) (folder : List Text) : List Text × Entry → Option (List Text)
  | (_, .folder) => none
  | (names, .file _) =>
    let steps := names.drop folder.length
    if folder.isPrefixOf names && Text.endsWith controllerEnding (steps.getLastD []) &&
        isReached fs everything folder steps then some steps
    else none

/-- The controllers below a path, by their parts. A path to a file is about that file alone. -/
def controllerFiles (fs : Files) (root : Text) (everything : Bool) : List Text :=
  match fs.look root with
  | .error _ => []
  | .ok (_, .file _) => if (Path.fileName? root).any (Text.endsWith controllerEnding) then [root] else []
  | .ok (folder, .folder) =>
    Path.sort ((fs.entries.filterMap (stepsTo? fs everything folder)).map fun steps => steps.foldl Path.join root)

/-- The endpoints of one controller. -/
structure Report where
  /-- The path from the workspace. -/
  path : Text
  endpoints : List Detect.Found
  deriving Repr, DecidableEq

/-- The report on a file and the composer after it. -/
def report? (composer : Route.Composer) (fs : Files) (root path : Text) : Option Report × Route.Composer :=
  match Source.Document.read fs path with
  | .error _ => (none, composer)
  | .ok d =>
    let (found, composer) := Detect.scan composer d
    let project := Project.find? fs path
    (some {
      path := Path.plain (Path.partsBelow root path)
      endpoints := found.map fun f => { f with endpoint := { f.endpoint with project } } }, composer)

/-- The reports on some files, with one composer for all. -/
def reportsOn (composer : Route.Composer) (fs : Files) (root : Text) : List Text → List Report
  | [] => []
  | path :: rest =>
    match report? composer fs root path with
    | (none, composer) => reportsOn composer fs root rest
    | (some report, composer) => report :: reportsOn composer fs root rest

/-- The reports on a workspace. -/
def scan (fs : Files) (root : Text) (everything : Bool) (defaultVersion : Text) : List Report :=
  reportsOn { defaultVersion } fs root (controllerFiles fs root everything)

/-- The JSON form of an endpoint with its place, in lines counted from one. -/
def foundJson (f : Detect.Found) : Json :=
  .object ([("line".toList, .ofNat (f.line + 1)), ("column".toList, .ofNat f.column)] ++
    (f.endpoint.toJson.members?).getD [])

def Report.toJson (r : Report) : Json :=
  .object [("relPath".toList, .string r.path), ("endpoints".toList, .array (r.endpoints.map foundJson))]

end EndpointConsole.Workspace
