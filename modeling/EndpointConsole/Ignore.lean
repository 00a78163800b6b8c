import EndpointConsole.Files
import EndpointConsole.Ignore.Rule

/-!
Ignore files in a tree of files. The files of one kind speak for everything below
their folder, the nearest first; what the files of one kind say goes before what
those of the next kind say.
-/
namespace EndpointConsole.Ignore

/-- The kinds of ignore files by their places in a folder, the strongest first. -/
def kinds : List (List Text) :=
  [[".ignore".toList], [".gitignore".toList], [".git".toList, "info".toList, "exclude".toList]]

/-- The rules in a file, if it is there. -/
def rulesAt (fs : Files) (names : List Text) : List Rule :=
  match fs.entryAt? names with
  | some (.file bytes) => rulesOf bytes
  | _ => []

/-- The folders that a place lies in, the nearest first. -/
def foldersAbove (names : List Text) : List (List Text) :=
  (List.range names.length).reverse.map fun n => names.take n

/-- A path of names as the rules see it. -/
def pathBytes (names : List Text) : List UInt8 := Utf8.encode (Text.joinWith [Path.separator] names)

/-- What the ignore files of one kind say of a place. -/
def verdictOf? (fs : Files) (names : List Text) (isFolder : Bool) (kind : List Text) : Option Verdict :=
  (foldersAbove names).findSome? fun folder =>
    verdict? (rulesAt fs (folder ++ kind)) (pathBytes (names.drop folder.length)) isFolder

/-- Whether the ignore files leave a place out. -/
def isIgnored (fs : Files) (names : List Text) (isFolder : Bool) : Bool :=
  kinds.findSome? (verdictOf? fs names isFolder) == some .ignored

end EndpointConsole.Ignore
