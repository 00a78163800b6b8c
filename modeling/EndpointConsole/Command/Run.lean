import EndpointConsole.Command
import EndpointConsole.Server
import EndpointConsole.Workspace

/-!
Running commands on a machine: its files, its environment and the databases that
sessions leave behind. A run ends with an exit code, an output, and a complaint if
it went wrong.
-/
namespace EndpointConsole

structure Machine where
  surroundings : Surroundings
  environment : Text → Option Text := fun _ => none
  /-- The rows of the databases by their workspaces. -/
  databases : List (Text × List (Text × Text)) := []

/-- How a run ends. -/
structure Outcome where
  code : Nat
  output : Text := []
  complaint : Text := []
  deriving Repr, DecidableEq

namespace Outcome

def success (output : Text) : Outcome := { code := 0, output }

def failure (complaint : Text) : Outcome := { code := 1, complaint }

def misuse : Outcome := { code := 2, complaint := "unexpected or missing arguments".toList }

/-- A result did not fit its machine word. -/
def overflow : Outcome := { code := 101, complaint := "arithmetic overflow".toList }

/-- An indented document on lines of its own. -/
def document (v : Json) : Outcome := success (v.pretty ++ ['\n'])

end Outcome

namespace Command

def programVersion : Text := "api-console 0.4.0".toList

def Stop.outcome : Stop → Outcome
  | .misused => .misuse
  | .help => .success []
  | .version => .success (programVersion ++ ['\n'])

/-- The settings of a workspace on a machine. -/
def settingsOf (m : Machine) (workspace : Text) : Settings :=
  Settings.load m.surroundings.files m.environment workspace

def runScan (m : Machine) (workspace : Text) (everything : Bool) : Outcome :=
  let reports :=
    Workspace.scan m.surroundings.files workspace everything (settingsOf m workspace).defaultApiVersion
  .document (.array (reports.map (·.toJson)))

/-- What is written when a line is no endpoint. -/
def missJson (miss : Detect.Miss) : Json :=
  .object [("endpoint".toList, .null), ("reason".toList, .string miss.message)]

def runDetect (m : Machine) (file : Text) (line : Nat) (workspace : Text) : Outcome :=
  if line = 0 then .failure "--line is 1-based".toList
  else
    match Source.Document.read m.surroundings.files file with
    | .error f => .failure f.message
    | .ok d =>
      let composer : Route.Composer := { defaultVersion := (settingsOf m workspace).defaultApiVersion }
      match (Detect.detectInProject composer m.surroundings.files d (line - 1)).1 with
      | .ok e => .document e.toJson
      | .error miss => .document (missJson miss)

def textOrNull : Option Text → Json
  | none => .null
  | some s => .string s

def runBaseUrl (m : Machine) (file : Text) : Outcome :=
  let (url, cache) := ({} : Project.BaseUrlCache).resolve m.surroundings.files file
  let (folder, _) := cache.projectFolder m.surroundings.files file
  .document (.object [("projectDir".toList, textOrNull folder), ("baseUrl".toList, textOrNull url)])

/-- The database of a workspace. -/
def databaseOf (m : Machine) (workspace : Text) : List (Text × Text) :=
  match m.surroundings.files.canonical workspace with
  | .ok path => (Json.lookup? path m.databases).getD []
  | .error _ => []

/-- The machine after a session on it. -/
def leave (m : Machine) (s : Session) : Machine :=
  let s := s.flushBaseUrls
  let databases :=
    match s.history.map (·.storage) with
    | some (.database rows) => Json.setMember s.workspace rows m.databases
    | _ => m.databases
  { m with surroundings := s.surroundings, databases }

/-- The session that a server runs on, with its watch started. -/
def openSession (m : Machine) (workspace : Text) (watch : WatchMode) (keepsState : Bool) :
    Except Outcome Session :=
  let rows := if keepsState then some (databaseOf m workspace) else none
  match Session.openAt workspace m.environment rows m.surroundings with
  | .error f => .error (.failure f.message)
  | .ok s =>
    match Watch.start s.surroundings.files s.workspace watch with
    | .error f => .error (.failure f.message)
    | .ok _ => .ok s

/-- Serves the lines of the input. -/
def runServe (m : Machine) (workspace : Text) (watch : WatchMode) (keepsState : Bool) (input : Text) :
    Outcome × Machine :=
  match openSession m workspace watch keepsState with
  | .error outcome => (outcome, m)
  | .ok s =>
    match Server.serve s (Text.lines input) with
    | .error _ => (.overflow, leave m s)
    | .ok (messages, s) => (.success (Server.written messages), leave m s)

/-- Runs a command; the input is read by a server alone. -/
def run (c : Command) (m : Machine) (input : Text) : Outcome × Machine :=
  match c with
  | .scan workspace everything => (runScan m workspace everything, m)
  | .detect file line workspace => (runDetect m file line workspace, m)
  | .baseUrl file => (runBaseUrl m file, m)
  | .serve workspace watch keepsState => runServe m workspace watch keepsState input

/-- Runs the program with its arguments. -/
def runArguments (args : List Text) (m : Machine) (input : Text) : Outcome × Machine :=
  match parse args with
  | .error stop => (stop.outcome, m)
  | .ok c => c.run m input

end Command

end EndpointConsole
