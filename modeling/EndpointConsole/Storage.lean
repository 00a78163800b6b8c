import EndpointConsole.Json.Printer
import EndpointConsole.Json.Written

/-!
Storage of JSON values under keys: in memory, or in a database that holds the
text of each value. A storage that is closed and opened again keeps what was in
the database.
-/
namespace EndpointConsole

inductive Storage where
  | memory (values : List (Text × Json))
  /-- The rows of a table, with the text of each value. -/
  | database (rows : List (Text × Text))
  /-- A storage that can be neither read nor written. -/
  | broken
  deriving Repr, Inhabited

namespace Storage

inductive Failure where
  | unavailable
  /-- The text in the database is no JSON. -/
  | unreadable
  deriving Repr, DecidableEq

/-- The value under a key, if there is one. -/
def get (s : Storage) (key : Text) : Except Failure (Option Json) :=
  match s with
  | memory values => .ok (Json.lookup? key values)
  | database rows =>
    match Json.lookup? key rows with
    | none => .ok none
    | some text =>
      match Json.parse? text with
      | some v => .ok (some v)
      | none => .error .unreadable
  | broken => .error .unavailable

/-- Puts a value under a key. -/
def set (s : Storage) (key : Text) (v : Json) : Except Failure Storage :=
  match s with
  | memory values => .ok (memory (Json.setMember key v values))
  | database rows => .ok (database (Json.setMember key v.compact rows))
  | broken => .error .unavailable

/-- The storage after it was closed and opened again. -/
def reopened : Storage → Storage
  | memory _ => memory []
  | s => s

/-- The storage after an attempt to put a value under a key. -/
def trySet (s : Storage) (key : Text) (v : Json) : Storage :=
  match s.set key v with
  | .ok s => s
  | .error _ => s

end Storage

end EndpointConsole
