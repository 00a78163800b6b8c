import EndpointConsole.Number.Binary64
import EndpointConsole.Text

/-!
JSON values. An object keeps its members in the order of their first
appearance; writing a member that is there replaces its value in place
(`setMember`). Integers are exact, every other number is a `Binary64`.
-/
namespace EndpointConsole

/-- The largest unsigned and signed machine words. -/
def maxWord : Nat := 18446744073709551615
def maxSigned : Int := 9223372036854775807
def minSigned : Int := -9223372036854775808

/-- A number as JSON text gives it: an integer that fits a machine word, signed if negative, or a
    floating-point number. -/
inductive Number where
  | int (n : Int)
  | real (x : Binary64)
  deriving Repr, DecidableEq, Inhabited

inductive Json where
  | null
  | bool (b : Bool)
  | number (n : Number)
  | string (s : Text)
  | array (items : List Json)
  | object (members : List (Text × Json))
  deriving Repr, Inhabited

namespace Json

/-- The value of a member by its name. -/
def lookup? {α : Type} (name : Text) : List (Text × α) → Option α
  | [] => none
  | (key, value) :: rest => if key = name then some value else lookup? name rest

/-- Writes a member: in place if the name is there, else at the end. -/
def setMember {α : Type} (name : Text) (value : α) : List (Text × α) → List (Text × α)
  | [] => [(name, value)]
  | (key, old) :: rest => if key = name then (key, value) :: rest else (key, old) :: setMember name value rest

/-- The members of an object as written one after the other. -/
def ofMembers {α : Type} (members : List (Text × α)) : List (Text × α) :=
  members.foldl (fun done (key, value) => setMember key value done) []

def member? (name : Text) : Json → Option Json
  | object members => lookup? name members
  | _ => none

def isNull : Json → Bool
  | null => true
  | _ => false

def text? : Json → Option Text
  | string s => some s
  | _ => none

def bool? : Json → Option Bool
  | bool b => some b
  | _ => none

def array? : Json → Option (List Json)
  | array items => some items
  | _ => none

def members? : Json → Option (List (Text × Json))
  | object members => some members
  | _ => none

/-- An integer between two bounds; a number with a fraction is none, even if the fraction is zero. -/
def intBetween? (low high : Int) : Json → Option Int
  | number (.int n) => if low ≤ n ∧ n ≤ high then some n else none
  | _ => none

/-- An integer that fits a signed machine word. -/
def signed? : Json → Option Int := intBetween? minSigned maxSigned

/-- A natural number that fits a machine word. -/
def word? (v : Json) : Option Nat := (intBetween? 0 maxWord v).map Int.toNat

/-- A natural number below 2 ^ 16. -/
def short? (v : Json) : Option Nat := (intBetween? 0 65535 v).map Int.toNat

def ofNat (n : Nat) : Json := number (.int n)

def ofInt (n : Int) : Json := number (.int n)

end Json

end EndpointConsole
