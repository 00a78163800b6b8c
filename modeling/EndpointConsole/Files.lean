import EndpointConsole.Encoding.Utf8
import EndpointConsole.Files.Path

/-!
A tree of files and folders as a value, with the operations of a file system
that the console needs: reading, listing, writing, renaming and removing, each
failing as it does on disk (`Files.Failure`). A path is followed part by part,
so what lies in between must be folders.
-/
namespace EndpointConsole

/-- What lies at a place. -/
inductive Entry where
  | file (bytes : List UInt8)
  | folder
  deriving Repr, DecidableEq

/-- The entries by their absolute names, and the folder that relative paths start from. The root is
    a folder that is always there. -/
structure Files where
  entries : List (List Text × Entry) := []
  workingFolder : List Text := []
  deriving Repr, Inhabited

namespace Files

inductive Failure where
  | notFound
  | taken
  | notAFolder
  | isAFolder
  | notEmpty
  /-- The bytes are not well-formed UTF-8. -/
  | notText
  deriving Repr, DecidableEq

def Failure.message : Failure → Text
  | .notFound => "No such file or directory (os error 2)".toList
  | .taken => "File exists (os error 17)".toList
  | .notAFolder => "Not a directory (os error 20)".toList
  | .isAFolder => "Is a directory (os error 21)".toList
  | .notEmpty => "Directory not empty (os error 39)".toList
  | .notText => "stream did not contain valid UTF-8".toList

def find? (names : List Text) : List (List Text × Entry) → Option Entry
  | [] => none
  | (key, entry) :: rest => if key = names then some entry else find? names rest

/-- What lies at an absolute name. -/
def entryAt? (fs : Files) (names : List Text) : Option Entry :=
  if names = [] then some .folder else find? names fs.entries

/-- Follows the pieces of a path from a folder; the last one need not exist. -/
def follow (fs : Files) (place : List Text) : List Text → Except Failure (List Text)
  | [] => .ok place
  | piece :: rest =>
    match fs.entryAt? place with
    | none => .error .notFound
    | some (.file _) => .error .notAFolder
    | some .folder =>
      if Path.isTrivial piece then follow fs place rest
      else if piece = ['.', '.'] then follow fs place.dropLast rest
      else follow fs (place ++ [piece]) rest

/-- The absolute name that a path leads to, whether or not anything lies there. -/
def locate (fs : Files) (path : Text) : Except Failure (List Text) :=
  if path.isEmpty then .error .notFound
  else follow fs (if Path.isAbsolute path then [] else fs.workingFolder) (Text.splitOn Path.separator path)

/-- The absolute name of what lies at a path, and what it is. -/
def look (fs : Files) (path : Text) : Except Failure (List Text × Entry) := do
  let names ← fs.locate path
  match fs.entryAt? names with
  | none => .error .notFound
  | some entry => .ok (names, entry)

def isFile (fs : Files) (path : Text) : Bool :=
  match fs.look path with
  | .ok (_, .file _) => true
  | _ => false

def isFolder (fs : Files) (path : Text) : Bool :=
  match fs.look path with
  | .ok (_, .folder) => true
  | _ => false

/-- An absolute name as a path. -/
def pathOf (names : List Text) : Text := Path.separator :: Text.joinWith [Path.separator] names

/-- The absolute path of what lies at a path, without dots. -/
def canonical (fs : Files) (path : Text) : Except Failure Text := do
  let (names, _) ← fs.look path
  pure (pathOf names)

def readBytes (fs : Files) (path : Text) : Except Failure (List UInt8) := do
  match ← fs.look path with
  | (_, .file bytes) => pure bytes
  | (_, .folder) => .error .isAFolder

def readText (fs : Files) (path : Text) : Except Failure Text := do
  match Utf8.decode? (← fs.readBytes path) with
  | some s => pure s
  | none => .error .notText

/-- The name of an entry that lies right in a folder. -/
def childName? (folder names : List Text) : Option Text :=
  if names.dropLast = folder then names.getLast? else none

/-- The names in a folder with what they are. -/
def list (fs : Files) (path : Text) : Except Failure (List (Text × Entry)) := do
  match ← fs.look path with
  | (_, .file _) => .error .notAFolder
  | (folder, .folder) =>
    pure (fs.entries.filterMap fun (names, entry) => (childName? folder names).map (·, entry))

/-- Puts an entry at an absolute name. -/
def put (fs : Files) (names : List Text) (entry : Entry) : Files :=
  { fs with entries := fs.entries.filter (fun (key, _) => key ≠ names) ++ [(names, entry)] }

/-- Makes the folders along some pieces as far as they are missing. -/
def makeFolders (fs : Files) (place : List Text) : List Text → Except Failure Files
  | [] => .ok fs
  | piece :: rest =>
    if Path.isTrivial piece then makeFolders fs place rest
    else if piece = ['.', '.'] then makeFolders fs place.dropLast rest
    else
      match fs.entryAt? (place ++ [piece]) with
      | some .folder => makeFolders fs (place ++ [piece]) rest
      | some (.file _) => .error (if rest.isEmpty then .taken else .notAFolder)
      | none => makeFolders (fs.put (place ++ [piece]) .folder) (place ++ [piece]) rest

/-- Makes a folder and those it lies in. -/
def createFolders (fs : Files) (path : Text) : Except Failure Files :=
  makeFolders fs (if Path.isAbsolute path then [] else fs.workingFolder) (Text.splitOn Path.separator path)

/-- Writes a file into a folder that is there. -/
def write (fs : Files) (path : Text) (bytes : List UInt8) : Except Failure Files := do
  let names ← fs.locate path
  match fs.entryAt? names with
  | some .folder => .error .isAFolder
  | some (.file _) => pure (fs.put names (.file bytes))
  | none =>
    match fs.entryAt? names.dropLast with
    | some .folder => pure (fs.put names (.file bytes))
    | some (.file _) => .error .notAFolder
    | none => .error .notFound

/-- Whether a name lies at or below a place. -/
def isWithin (place names : List Text) : Bool := place.isPrefixOf names

/-- Takes away what lies at an absolute name and below. -/
def drop (fs : Files) (names : List Text) : Files :=
  { fs with entries := fs.entries.filter fun (key, _) => !isWithin names key }

def hasChildren (fs : Files) (names : List Text) : Bool :=
  fs.entries.any fun (key, _) => key ≠ names && isWithin names key

/-- Moves a file or a folder with all that is in it. A file goes in the place of a file, and a
    folder in that of an empty folder. -/
def rename (fs : Files) (source target : Text) : Except Failure Files := do
  let (sourceNames, entry) ← fs.look source
  let targetNames ← fs.locate target
  let moved := fs.entries.map fun (key, e) =>
    if isWithin sourceNames key then (targetNames ++ key.drop sourceNames.length, e) else (key, e)
  let cleared := (fs.drop targetNames).entries.map fun (key, e) =>
    if isWithin sourceNames key then (targetNames ++ key.drop sourceNames.length, e) else (key, e)
  match entry, fs.entryAt? targetNames with
  | _, none =>
    match fs.entryAt? targetNames.dropLast with
    | some .folder => pure { fs with entries := moved }
    | some (.file _) => .error .notAFolder
    | none => .error .notFound
  | .file _, some (.file _) => if sourceNames = targetNames then pure fs else pure { fs with entries := cleared }
  | .file _, some .folder => .error .isAFolder
  | .folder, some (.file _) => .error .notAFolder
  | .folder, some .folder =>
    if sourceNames = targetNames then pure fs
    else if fs.hasChildren targetNames then .error .notEmpty
    else pure { fs with entries := cleared }

/-- Takes away a file, or a folder with all that is in it. -/
def remove (fs : Files) (path : Text) : Except Failure Files := do
  let (names, _) ← fs.look path
  pure (fs.drop names)

end Files

end EndpointConsole
