import EndpointConsole.Command.Run

/-!
The program. It looks at the files that a list names, one path on a line, whose
own path stands in the variable `API_CONSOLE_FILES`; without a list there are no
files. A server answers each line before it reads the next one. Files that a
command has changed are written back.
-/
namespace EndpointConsole

/-- The environment as far as commands look at it. -/
def readEnvironment : IO (Text → Option Text) := do
  let names := "LANG".toList :: Overrides.variableNames.map (Overrides.variableStart ++ ·)
  let pairs ← names.mapM fun name => do
    let value ← IO.getEnv (String.ofList name)
    pure (name, value.map String.toList)
  pure fun name => (Json.lookup? name pairs).join

/-- The folder that the program was started in, on otherwise empty files. -/
def startFiles : IO Files := do
  let folder := ((← IO.getEnv "PWD").getD "/").toList
  match ({} : Files).createFolders folder with
  | .error _ => pure {}
  | .ok fs => pure { fs with workingFolder := (Text.splitOn '/' folder).filter fun name => !Path.isTrivial name }

/-- Adds a file from the disk; one that cannot be read is left out. -/
def addFile (fs : Files) (path : Text) : IO Files := do
  try
    let bytes ← IO.FS.readBinFile (String.ofList path)
    match (fs.createFolders ((Path.parent? path).getD [])).bind (·.write path bytes.toList) with
    | .ok fs => pure fs
    | .error _ => pure fs
  catch _ => pure fs

/-- The files that the list names. -/
def readFiles : IO Files := do
  let fs ← startFiles
  match ← IO.getEnv "API_CONSOLE_FILES" with
  | none => pure fs
  | some list =>
    let content ← IO.FS.readBinFile list
    (Text.lines (Utf8.decodeLossy content.toList)).foldlM addFile fs

/-- Writes the files that are new or have changed. -/
def writeChanges (before after : Files) : IO Unit :=
  after.entries.forM fun (names, entry) => do
    let path := String.ofList (Files.pathOf names)
    match entry with
    | .folder => if (before.entryAt? names).isNone then IO.FS.createDirAll path
    | .file bytes => if before.entryAt? names ≠ some entry then IO.FS.writeBinFile path ⟨bytes.toArray⟩

def printMessages (output : IO.FS.Stream) (messages : List Json) : IO Unit := do
  output.putStr (String.ofList (Server.written messages))
  output.flush

/-- Answers lines until the input ends or a line shuts the server down. -/
partial def converse (s : Server) (input output : IO.FS.Stream) : IO (Option Server) := do
  let line ← input.getLine
  if line.isEmpty then return some s
  match s.handleLine ((Text.lines line.toList).headD []) with
  | .error _ => return none
  | .ok step =>
    printMessages output step.messages
    if step.goesOn then converse step.server input output else return some step.server

/-- Serves on an open session, and then writes what has changed since `before`. -/
def serveLines (before : Files) (s : Session) : IO UInt32 := do
  let output ← IO.getStdout
  match ← converse { session := s } (← IO.getStdin) output with
  | none => return (101 : UInt32)
  | some server =>
    let (messages, server) := server.fireEach server.waiting
    printMessages output messages
    writeChanges before server.session.flushBaseUrls.surroundings.files
    return (0 : UInt32)

def finish (outcome : Outcome) : IO UInt32 := do
  (← IO.getStdout).putStr (String.ofList outcome.output)
  if !outcome.complaint.isEmpty then (← IO.getStderr).putStrLn (String.ofList outcome.complaint)
  return UInt32.ofNat outcome.code

def program (args : List Text) : IO UInt32 := do
  let files ← readFiles
  let environment ← readEnvironment
  let clock ← IO.monoMsNow
  let machine : Machine := {
    surroundings := { files, clock, launchFailure? := fun project => some (Surroundings.noLauncher project) }
    environment }
  match Command.parse args with
  | .ok (.serve workspace watch keepsState) =>
    match Command.openSession machine workspace watch keepsState with
    | .error outcome => finish outcome
    | .ok session => serveLines files session
  | _ => finish (Command.runArguments args machine []).1

end EndpointConsole

def main (args : List String) : IO UInt32 := EndpointConsole.program (args.map String.toList)
