import EndpointConsole.Text.LowerCase

/-!
Paths with forward slashes, kept as they are written. The parts of a path leave
out repeated slashes and dots (`parts`); `parent?`, `fileName?` and `join` work
on the written form and agree with the parts. Paths are the same if their parts
are, and are ordered by them.
-/
namespace EndpointConsole.Path

/-- One step of a path. -/
inductive Part where
  | root
  | here
  | up
  | name (s : Text)
  deriving Repr, DecidableEq

def separator : Char := '/'

/-- A beginning that counts as a part of its own, a slash or a dot, and the rest of the path. -/
def splitAnchor : Text → Text × Text
  | '/' :: rest => (['/'], rest)
  | ['.'] => (['.'], [])
  | '.' :: '/' :: rest => (['.'], '/' :: rest)
  | path => ([], path)

/-- A piece between slashes that leads nowhere. -/
def isTrivial (piece : Text) : Bool := piece == [] || piece == ['.']

/-- The pieces between slashes after the anchor. -/
def pieces (path : Text) : List Text := Text.splitOn separator (splitAnchor path).2

def pieceOf (piece : Text) : Part := if piece = ['.', '.'] then .up else .name piece

def parts (path : Text) : List Part :=
  let anchor : List Part :=
    match (splitAnchor path).1 with
    | [] => []
    | c :: _ => if c = separator then [.root] else [.here]
  anchor ++ ((pieces path).filter fun piece => !isTrivial piece).map pieceOf

def isAbsolute (path : Text) : Bool := path.head? == some separator

/-- Whether two paths lead the same way. -/
def same (a b : Text) : Bool := parts a == parts b

/-- The pieces backwards from the last that counts. -/
def significant (path : Text) : List Text := (pieces path).reverse.dropWhile isTrivial

/-- The path without its last part, as it is written. -/
def parent? (path : Text) : Option Text :=
  let anchor := (splitAnchor path).1
  match significant path with
  | _ :: before => some (anchor ++ Text.joinWith [separator] (before.dropWhile isTrivial).reverse)
  | [] => if anchor = ['.'] then some [] else none

/-- The last part, if it is a name. -/
def fileName? (path : Text) : Option Text :=
  match significant path with
  | last :: _ => if last = ['.', '.'] then none else some last
  | [] => none

/-- The name before its last point and the part after it; a name whose only point comes first has
    no such part. -/
def splitName (name : Text) : Text × Option Text :=
  match Text.cutAt? '.' name.reverse with
  | none => (name, none)
  | some (after, before) => if before.isEmpty then (name, none) else (before.reverse, some after.reverse)

def extension? (path : Text) : Option Text := (fileName? path).bind fun name => (splitName name).2

/-- The name without its extension. -/
def stem? (path : Text) : Option Text := (fileName? path).map fun name => (splitName name).1

/-- A path below another; an absolute one stands alone. -/
def join (base path : Text) : Text :=
  if isAbsolute path || base.isEmpty then path
  else if base.getLast? = some separator then base ++ path
  else base ++ separator :: path

/-- Puts another extension in place of the one there is. -/
def withExtension (extension path : Text) : Text :=
  match fileName? path with
  | none => path
  | some name =>
    let renamed := (splitName name).1 ++ '.' :: extension
    match parent? path with
    | none => renamed
    | some folder => join folder renamed

/-- The parts below a base, or all parts if the path does not lie below it. -/
def partsBelow (base path : Text) : List Part :=
  if (parts base).isPrefixOf (parts path) then (parts path).drop (parts base).length else parts path

/-- Names and steps up, joined by slashes; a dot when there are none. -/
def plain (steps : List Part) : Text :=
  let written := steps.filterMap fun
    | .name s => some s
    | .up => some ['.', '.']
    | _ => none
  if written.isEmpty then ['.'] else Text.joinWith [separator] written

def rank : Part → Nat
  | .root => 0
  | .here => 1
  | .up => 2
  | .name _ => 3

def nameOf : Part → Text
  | .name s => s
  | _ => []

/-- Order by parts; names go by code points. -/
def comesBefore : List Part → List Part → Bool
  | [], _ => true
  | _ :: _, [] => false
  | a :: as, b :: bs =>
    if a = b then comesBefore as bs
    else if rank a = rank b then nameOf a < nameOf b
    else rank a < rank b

/-- Sorts paths by their parts. -/
def sort (paths : List Text) : List Text := paths.mergeSort fun a b => comesBefore (parts a) (parts b)

/-- One spelling for a path however its case, its separators and slashes at its end are written. -/
def key (path : Text) : Text :=
  let slashed := (Text.trim path).map fun c => if c = '\\' then '/' else c
  let kept := Text.dropEndWhile (· == '/') slashed
  Text.toLower (if kept.isEmpty then slashed.take 1 else kept)

end EndpointConsole.Path
