import EndpointConsole.Json

/-!
Reading records out of JSON values. A record is an object, whose other members
are passed over, or an array of the fields in their order; `Presence` says which
fields may be missing where.
-/
namespace EndpointConsole.Json

/-- Where a field may be missing. -/
inductive Presence where
  | required
  /-- It may be missing from an object. -/
  | named
  /-- It may be missing from an object, and from the end of an array. -/
  | optional
  deriving Repr, DecidableEq

/-- The fields of a record by name, in the order of its array form. -/
abbrev Fields := List (Text × Presence)

/-- The values of the fields among an object's members. -/
def namedFields? (fields : Fields) (members : List (Text × Json)) : Option (List (Option Json)) :=
  fields.mapM fun (name, presence) =>
    match lookup? name members with
    | some v => some (some v)
    | none => if presence = .required then none else some none

/-- The values of the fields in an array, which holds no more than them. -/
def positionalFields? : Fields → List Json → Option (List (Option Json))
  | [], [] => some []
  | [], _ :: _ => none
  | (_, presence) :: fields, [] =>
    if presence = .optional then (positionalFields? fields []).map (none :: ·) else none
  | _ :: fields, v :: rest => (positionalFields? fields rest).map (some v :: ·)

/-- The values of a record's fields, `none` for each that is missing. -/
def record? (fields : Fields) : Json → Option (List (Option Json))
  | .object members => namedFields? fields members
  | .array items => positionalFields? fields items
  | _ => none

/-- A field that is there. -/
def needed {α : Type} (read : Json → Option α) : Option Json → Option α
  | none => none
  | some v => read v

/-- A field that may be missing or null. -/
def nullable {α : Type} (read : Json → Option α) : Option Json → Option (Option α)
  | none => some none
  | some .null => some none
  | some v => (read v).map some

/-- A field with a value to stand in when it is missing. -/
def orElse {α : Type} (standIn : α) (read : Json → Option α) : Option Json → Option α
  | none => some standIn
  | some v => read v

/-- All items of an array. -/
def listOf? {α : Type} (read : Json → Option α) : Json → Option (List α)
  | .array items => items.mapM read
  | _ => none

/-- One of some names, or an object from such a name to null; where `orEmpty` holds, an empty
    object does as well as null. -/
def variant? {α : Type} (orEmpty : Bool) (names : List (Text × α)) : Json → Option α
  | .string s => lookup? s names
  | .object [(s, .null)] => lookup? s names
  | .object [(s, .object [])] => if orEmpty then lookup? s names else none
  | _ => none

end EndpointConsole.Json
