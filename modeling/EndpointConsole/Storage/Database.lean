import EndpointConsole.Number.Word
import EndpointConsole.Storage

/-!
The file of a stored database. It has a table for values and one for facts about
itself, the version of its tables among them. Opening it (`opened`) creates what
is missing; values are selected and written by key. A storage that is a database
is no more than the rows of the first table (`rows`).
-/
namespace EndpointConsole

/-- What stands in the table of values next to a key. -/
structure Database.Row where
  value : Text
  /-- The time of the last write, in milliseconds. -/
  updated : Int
  deriving Repr, DecidableEq

/-- The tables that there are. In either the keys are primary. -/
structure Database where
  facts : Option (List (Text × Text)) := none
  values : Option (List (Text × Database.Row)) := none
  deriving Repr, DecidableEq

namespace Database
open Storage (Failure)

def schemaVersion : Int := 1

def versionKey : Text := "schema_version".toList

/-- Creates the tables that are missing. -/
def withTables (db : Database) : Database where
  facts := some (db.facts.getD [])
  values := some (db.values.getD [])

/-- The version of the tables, zero if it is not written down as a number. -/
def version (db : Database) : Int := ((db.facts.bind (Json.lookup? versionKey)).bind signedOf?).getD 0

/-- The database once it is open: with its tables, and not behind with its version. -/
def opened (db : Database) : Database :=
  let db := db.withTables
  if db.version < schemaVersion then
    { db with facts := db.facts.map (Json.setMember versionKey (Json.intText schemaVersion)) }
  else db

/-- The value under a key, if there is one. -/
def get (db : Database) (key : Text) : Except Failure (Option Json) :=
  match db.values with
  | none => .error .unavailable
  | some rows =>
    match Json.lookup? key rows with
    | none => .ok none
    | some row =>
      match Json.parse? row.value with
      | some v => .ok (some v)
      | none => .error .unreadable

/-- Inserts the text of a value, or updates the row that its key has. -/
def set (db : Database) (key : Text) (v : Json) (now : Int) : Except Failure Database :=
  match db.values with
  | none => .error .unavailable
  | some rows => .ok { db with values := some (Json.setMember key ⟨v.compact, now⟩ rows) }

/-- The texts of the values. -/
def rows (db : Database) : List (Text × Text) := (db.values.getD []).map fun (key, row) => (key, row.value)

end Database

end EndpointConsole
