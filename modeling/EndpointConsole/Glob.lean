import EndpointConsole.Glob.Symbol

/-!
Patterns for paths. A star stands for bytes other than the slash, and two stars
between slashes for any folders; a question mark is one byte, and braces hold
alternatives. `Token.rests` gives every way to match the beginning of a path, and
a pattern matches a path if one of them leaves nothing over (`matchesPath`).
-/
namespace EndpointConsole.Glob

/-- A part of a pattern. -/
inductive Token where
  | literal (c : Char)
  /-- One byte other than the slash. -/
  | one
  /-- Bytes other than the slash. -/
  | many
  /-- Nothing, or everything up to some slash. -/
  | leading
  /-- A slash, or everything from one slash to another. -/
  | between
  /-- A slash and everything after it. -/
  | trailing
  | byteClass (negated : Bool) (ranges : List (Nat × Nat))
  /-- One of several patterns; without any it stands for nothing. -/
  | oneOf (branches : List (List Token))
  deriving Repr, Inhabited

def slash : UInt8 := 47

/-- What is left after each slash. -/
def afterSlashes : List UInt8 → List (List UInt8)
  | [] => []
  | b :: rest => if b = slash then rest :: afterSlashes rest else afterSlashes rest

/-- What is left after each number of bytes other than the slash. -/
def afterSegment : List UInt8 → List (List UInt8)
  | [] => [[]]
  | b :: rest => (b :: rest) :: if b = slash then [] else afterSegment rest

/-- What is left after each number of bytes. -/
def ends : List UInt8 → List (List UInt8)
  | [] => [[]]
  | b :: rest => (b :: rest) :: ends rest

/-- What is left after one byte that meets a condition. -/
def afterOne (p : UInt8 → Bool) : List UInt8 → List (List UInt8)
  | [] => []
  | b :: rest => if p b then [rest] else []

/-- What is left after given bytes. -/
def afterBytes (bytes s : List UInt8) : List (List UInt8) :=
  if bytes.isPrefixOf s then [s.drop bytes.length] else []

def inRanges (ranges : List (Nat × Nat)) (b : UInt8) : Bool :=
  ranges.any fun (low, high) => low ≤ b.toNat && b.toNat ≤ high

mutual

/-- What can be left of a path after a part of a pattern. -/
def Token.rests : Token → List UInt8 → List (List UInt8)
  | .literal c, s => afterBytes (Utf8.encode [c]) s
  | .one, s => afterOne (· ≠ slash) s
  | .many, s => afterSegment s
  | .leading, s => s :: afterSlashes s
  | .between, s => (afterOne (· = slash) s).flatMap fun rest => rest :: afterSlashes rest
  | .trailing, s => (afterOne (· = slash) s).flatMap ends
  | .byteClass negated ranges, s => afterOne (fun b => inRanges ranges b != negated) s
  | .oneOf [], s => [s]
  | .oneOf (branch :: branches), s => branchRests (branch :: branches) s

/-- What can be left after one pattern after the other, from each of several beginnings. -/
def restsFrom : List Token → List (List UInt8) → List (List UInt8)
  | [], starts => starts
  | t :: ts, starts => restsFrom ts (starts.flatMap t.rests).eraseDups

/-- What can be left after one of several patterns. -/
def branchRests : List (List Token) → List UInt8 → List (List UInt8)
  | [], _ => []
  | branch :: branches, s => restsFrom branch [s] ++ branchRests branches s

end

/-- Whether a pattern matches a path. Two stars alone match every path. -/
def matchesPath (pattern : List Token) (path : List UInt8) : Bool :=
  match pattern with
  | [.leading] => true
  | _ => (restsFrom pattern [path]).any List.isEmpty

/-- A group of alternatives that is open. -/
structure Group where
  /-- The alternatives that have ended, the last first. -/
  branches : List (List Token) := []
  /-- The parts before the group, the last first. -/
  before : List Token

/-- Whether a pattern has nothing to match. -/
def isVoid (pattern : List Token) : Bool :=
  pattern.all fun
    | .oneOf [] => true
    | _ => false

/-- The group as a part; alternatives with nothing to match do not count. -/
def Group.close (g : Group) (last : List Token) : Token :=
  .oneOf ((last.reverse :: g.branches).reverse.filter fun branch => !isVoid branch)

/-- Whether two stars after a symbol may stand for folders. Within a group, a comma or a brace that
    stands for itself serves as a slash does. -/
def opensFolders (grouped : Bool) : Symbol → Bool
  | .slash => true
  | .char c => c = '/' || (grouped && (c = ',' || c = '\x7b'))
  | _ => false

/-- Puts the part for two stars that follow a slash in the place of the slash. -/
def mergeFolders (part : Token) : List Token → List Token
  | [] => [part]
  | .leading :: done => .leading :: done
  | .trailing :: done => .trailing :: done
  | _ :: done => part :: done

/-- Whether the symbols after two stars end the pattern or the alternative. -/
def endsBranch (grouped : Bool) : List Symbol → Bool
  | [] => true
  | .comma :: _ => grouped
  | .closing :: _ => grouped
  | _ => false

/-- Puts the symbols together, where `last` is the symbol before, and `done` holds the parts of the
    open alternative, the last first. -/
def partsFrom (groups : List Group) (last : Symbol) (done : List Token) : List Symbol → Option (List Token)
  | [] => if groups.isEmpty then some done.reverse else none
  | .twoStars :: .slash :: rest =>
    if done.isEmpty then partsFrom groups .slash [.leading] rest
    else if opensFolders (!groups.isEmpty) last then partsFrom groups .slash (mergeFolders .between done) rest
    else partsFrom groups .slash (.literal '/' :: .many :: done) rest
  | .twoStars :: rest =>
    if done.isEmpty ∧ rest.isEmpty then partsFrom groups .twoStars [.leading] rest
    else if !done.isEmpty && opensFolders (!groups.isEmpty) last && endsBranch (!groups.isEmpty) rest then
      partsFrom groups .twoStars (mergeFolders .trailing done) rest
    else partsFrom groups .twoStars (.many :: done) rest
  | .opening :: rest => partsFrom ({ before := done } :: groups) .opening [] rest
  | .comma :: rest =>
    match groups with
    | [] => partsFrom [] .comma (.literal ',' :: done) rest
    | g :: outer => partsFrom ({ g with branches := done.reverse :: g.branches } :: outer) .comma [] rest
  | .closing :: rest =>
    match groups with
    | [] => none
    | g :: outer => partsFrom outer .closing (g.close done :: g.before) rest
  | .slash :: rest => partsFrom groups .slash (.literal '/' :: done) rest
  | .char c :: rest => partsFrom groups (.char c) (.literal c :: done) rest
  | .question :: rest => partsFrom groups .question (.one :: done) rest
  | .star :: rest => partsFrom groups .star (.many :: done) rest
  | .byteClass negated ranges :: rest =>
    partsFrom groups (.byteClass negated ranges) (.byteClass negated ranges :: done) rest

/-- The pattern that a text writes, if it writes one. -/
def parse? (s : Text) : Option (List Token) := (symbols? s).bind (partsFrom [] .star [])

end EndpointConsole.Glob
