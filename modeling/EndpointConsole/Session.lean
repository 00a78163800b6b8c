import EndpointConsole.BaseUrls
import EndpointConsole.Endpoint.InProject
import EndpointConsole.History
import EndpointConsole.Lens.Provider
import EndpointConsole.Project.BaseUrlCache
import EndpointConsole.Session.Surroundings
import EndpointConsole.Source.Stored

/-!
A session on one workspace: its settings, lenses, base URLs and request history,
with what lies around it. A session is opened on a folder that is there, with
the history in memory or in a database of the workspace.
-/
namespace EndpointConsole

structure Session where
  workspace : Text
  settings : Settings
  language : Language
  lenses : Lens.Provider
  projectUrls : Project.BaseUrlCache := {}
  /-- Absent if no history is kept. -/
  history : Option History
  baseUrls : BaseUrls
  surroundings : Surroundings

namespace Session

/-- A session over a storage. `locale` stands in for a language that is not set. -/
def make (workspace : Text) (settings : Settings) (locale : Option Text) (storage : Storage)
    (surroundings : Surroundings) : Session where
  workspace
  settings
  language := settings.uiLanguage locale
  lenses := .ofSettings settings
  history := if settings.historyEnabled then some (.ofStorage storage settings.historySeconds?) else none
  baseUrls := .ofFile surroundings.files (BaseUrls.pathIn workspace)
  surroundings

inductive OpenFailure where
  | noWorkspace (path : Text)
  | noFolder (path : Text)
  | noDatabase (path : Text)
  /-- The file of the database is something else. -/
  | foreignFile
  deriving Repr, DecidableEq

def OpenFailure.message : OpenFailure → Text
  | .noWorkspace path => "open workspace ".toList ++ path
  | .noFolder path => "create dir ".toList ++ path
  | .noDatabase path => "open sqlite db at ".toList ++ path
  | .foreignFile => "file is not a database".toList

/-- The folder of a workspace that holds the state of the console. -/
def stateFolder : Text := ".api-console".toList

/-- The database of a workspace, which may be there with some rows, and the files with its folder. -/
def openDatabase (files : Files) (workspace : Text) (rows : List (Text × Text)) :
    Except OpenFailure (Storage × Files) :=
  let folder := Path.join workspace stateFolder
  let path := Path.join folder "state.sqlite".toList
  match files.createFolders folder with
  | .error _ => .error (.noFolder folder)
  | .ok files =>
    match files.look path with
    | .ok (_, .folder) => .error (.noDatabase path)
    | .ok (_, .file (_ :: _)) => .error .foreignFile
    | _ => .ok (.database rows, files)

/-- Opens a session on a workspace. `rows` holds what its database has, and `none` keeps the history
    in memory. -/
def openAt (workspace : Text) (environment : Text → Option Text) (rows : Option (List (Text × Text)))
    (surroundings : Surroundings) : Except OpenFailure Session :=
  match surroundings.files.canonical workspace with
  | .error _ => .error (.noWorkspace workspace)
  | .ok path =>
    let settings := Settings.load surroundings.files environment path
    let locale := environment "LANG".toList
    match rows with
    | none => .ok (make path settings locale (.memory []) surroundings)
    | some rows =>
      (openDatabase surroundings.files path rows).map fun (storage, files) =>
        make path settings locale storage { surroundings with files }

/-- Why no endpoint is found on a line of a file. -/
inductive DetectFailure where
  | unreadable (cause : Source.ReadFailure)
  | notAnEndpoint (fileName : Text) (lineNumber : Nat)
  deriving Repr, DecidableEq

def DetectFailure.message (language : Language) : DetectFailure → Text
  | .unreadable cause =>
    Message.text language "error.cannotOpenFile".toList [] ++ ": ".toList ++ cause.message
  | .notAnEndpoint fileName lineNumber =>
    Message.text language "error.notAnEndpoint".toList [fileName, Nat.toDigits 10 lineNumber]

/-- The endpoint on a line of a file, counted from zero, with its project file. -/
def detect (s : Session) (file : Text) (line : Nat) : Checked (Except DetectFailure Endpoint × Session) :=
  match Source.Document.read s.surroundings.files file with
  | .error cause => .ok (.error (.unreadable cause), s)
  | .ok d =>
    let (outcome, composer) := Detect.detectInProject s.lenses.composer s.surroundings.files d line
    let s := { s with lenses := { s.lenses with composer } }
    match outcome with
    | .ok e => .ok (.ok e, s)
    | .error _ =>
      (checkedWord (line + 1)).map fun lineNumber => (.error (.notAnEndpoint d.fileName lineNumber), s)

/-- The lenses of a document. -/
def provideLenses (s : Session) (d : Source.Document) : Lens.Answer × Session :=
  let (now, surroundings) := s.surroundings.now
  let (answer, lenses) := s.lenses.provide now d
  (answer, { s with lenses, surroundings })

/-- Lets the timer of a scan fire. -/
def fireLenses (s : Session) (pending : Lens.Pending) : Option Lens.Lenses × Session :=
  let (now, surroundings) := s.surroundings.now
  let (delivered, lenses) := s.lenses.fire now pending
  (delivered, { s with lenses, surroundings })

/-- Closes the lenses of a document. -/
def closeLenses (s : Session) (uri : Text) : Session := { s with lenses := s.lenses.close uri }

/-- A launch settings file has changed. -/
def launchSettingsChanged (s : Session) (path : Text) : Session :=
  { s with projectUrls := (s.projectUrls.invalidate path).2 }

/-- Any launch settings file may have changed. -/
def forgetProjects (s : Session) : Session := { s with projectUrls := {} }

/-- Writes the base URLs, if they have changed. -/
def flushBaseUrls (s : Session) : Session :=
  let (baseUrls, files) := s.baseUrls.flush s.surroundings.files
  { s with baseUrls, surroundings := { s.surroundings with files } }

end Session

end EndpointConsole
