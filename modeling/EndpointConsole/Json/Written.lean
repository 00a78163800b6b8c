import EndpointConsole.Json.Token

/-!
JSON text as a tree of what is written (`Written`): members in their order with
every repetition, at any depth, with contents that may be missing. `ofTokens?`
builds it by one pass over the tokens with a stack of open containers, and
`value?` reads it as a value: within a limit on nesting, every content present,
and repeated members merged.
-/
namespace EndpointConsole.Json

inductive Written where
  | null
  | bool (b : Bool)
  | number (n : Option Number)
  | string (s : Option Text)
  | array (items : List Written)
  | object (members : List (Option Text × Written))
  deriving Repr, Inhabited

namespace Written

/-- A container whose value is being read, its finished parts backwards. -/
inductive Frame where
  | array (items : List Written)
  | object (members : List (Option Text × Written)) (key : Option Text)
  deriving Repr

/-- What may come next. -/
inductive State where
  | value (outer : List Frame)
  | firstItem (outer : List Frame)
  | firstKey (outer : List Frame)
  | nextKey (members : List (Option Text × Written)) (outer : List Frame)
  | colon (members : List (Option Text × Written)) (key : Option Text) (outer : List Frame)
  | afterItem (items : List Written) (outer : List Frame)
  | afterMember (members : List (Option Text × Written)) (outer : List Frame)
  | done (v : Written)
  deriving Repr

/-- Hands a finished value to the innermost open container. -/
def deliver (v : Written) : List Frame → State
  | [] => .done v
  | .array items :: outer => .afterItem (v :: items) outer
  | .object members key :: outer => .afterMember ((key, v) :: members) outer

/-- Begins a value at a token. -/
def beginValue (frames : List Frame) : Token → Option State
  | .null => some (deliver .null frames)
  | .bool b => some (deliver (.bool b) frames)
  | .number n => some (deliver (.number n) frames)
  | .string s => some (deliver (.string s) frames)
  | .openArray => some (.firstItem frames)
  | .openObject => some (.firstKey frames)
  | _ => none

def step : State → Token → Option State
  | .value frames, t => beginValue frames t
  | .firstItem frames, .closeArray => some (deliver (.array []) frames)
  | .firstItem frames, t => beginValue (.array [] :: frames) t
  | .firstKey frames, .closeObject => some (deliver (.object []) frames)
  | .firstKey frames, .string key => some (.colon [] key frames)
  | .nextKey members frames, .string key => some (.colon members key frames)
  | .colon members key frames, .colon => some (.value (.object members key :: frames))
  | .afterItem items frames, .comma => some (.value (.array items :: frames))
  | .afterItem items frames, .closeArray => some (deliver (.array items.reverse) frames)
  | .afterMember members frames, .comma => some (.nextKey members frames)
  | .afterMember members frames, .closeObject => some (deliver (.object members.reverse) frames)
  | _, _ => none

/-- Goes through the tokens. -/
def run : State → List Token → Option State
  | state, [] => some state
  | state, t :: rest =>
    match step state t with
    | none => none
    | some next => run next rest

/-- The tree that the tokens write. -/
def ofTokens? (tokens : List Token) : Option Written :=
  match run (.value []) tokens with
  | some (.done v) => some v
  | _ => none

/-- The tree that a text writes. -/
def parse? (s : Text) : Option Written := (tokens? s).bind ofTokens?

mutual

/-- The value of a tree that nests at most so many containers. -/
def value? : Nat → Written → Option Json
  | _, .null => some .null
  | _, .bool b => some (.bool b)
  | _, .number n => n.map .number
  | _, .string s => s.map .string
  | 0, .array _ => none
  | depth + 1, .array items => (values? depth items).map .array
  | 0, .object _ => none
  | depth + 1, .object members => (memberValues? depth members).map fun found => .object (ofMembers found)

def values? : Nat → List Written → Option (List Json)
  | _, [] => some []
  | depth, w :: rest => do
    let v ← value? depth w
    let vs ← values? depth rest
    pure (v :: vs)

def memberValues? : Nat → List (Option Text × Written) → Option (List (Text × Json))
  | _, [] => some []
  | depth, (key, w) :: rest => do
    let key ← key
    let v ← value? depth w
    let vs ← memberValues? depth rest
    pure ((key, v) :: vs)

end

end Written

/-- The greatest number of containers nested in one another. -/
def maxDepth : Nat := 127

/-- The value of a JSON text. -/
def parse? (s : Text) : Option Json := (Written.parse? s).bind (Written.value? maxDepth)

end EndpointConsole.Json
