import EndpointConsole.Json

/-!
A cache of results by document, with the version that each was computed for.
Records stand in the order of their last use; a record that was idle for longer
than a limit is dropped when it is asked for, and beyond the capacity the record
used least recently goes. Beside the records stands one pending timer at most
for each document: scheduling one takes the place of the one before, and only
the timer that is still current may deliver.
-/
namespace EndpointConsole.Lens

structure Record (α : Type) where
  version : Int
  value : α
  /-- The time of the last use, in milliseconds. -/
  used : Nat
  deriving Repr, DecidableEq

structure Cache (α : Type) where
  /-- The number of records kept; zero is no limit. -/
  capacity : Nat
  /-- The idle time after which a record expires, in milliseconds. -/
  idleLimit : Option Nat
  /-- The records by document, the one used last first. -/
  records : List (Text × Record α) := []
  /-- The pending timers by document, each with its number. -/
  timers : List (Text × Nat) := []
  /-- The number of the timer scheduled last. -/
  lastTimer : Nat := 0
  deriving Repr, DecidableEq

/-- Takes the pair of a key out of a list. -/
def without {β : Type} (key : Text) (pairs : List (Text × β)) : List (Text × β) :=
  pairs.filter fun (k, _) => k ≠ key

namespace Cache

variable {α : Type}

/-- An empty cache; an idle limit of zero is none. -/
def empty (capacity : Nat) (idleLimit : Option Nat) : Cache α :=
  { capacity, idleLimit := idleLimit.filter (0 < ·) }

/-- What is held for a document, without using it. -/
def peek? (c : Cache α) (key : Text) : Option (Record α) := Json.lookup? key c.records

/-- Whether a record has been idle for longer than the limit. -/
def isExpired (c : Cache α) (now : Nat) (r : Record α) : Bool := c.idleLimit.any (· < now - r.used)

def remove (c : Cache α) (key : Text) : Cache α := { c with records := without key c.records }

/-- Puts a record first, and drops what is beyond the capacity. -/
def putFirst (c : Cache α) (key : Text) (r : Record α) : Cache α :=
  let records := (key, r) :: without key c.records
  { c with records := if c.capacity = 0 then records else records.take c.capacity }

/-- Uses the record of a document; an expired one is dropped instead. -/
def get (c : Cache α) (now : Nat) (key : Text) : Option (Record α) × Cache α :=
  match c.peek? key with
  | none => (none, c)
  | some r =>
    if c.isExpired now r then (none, c.remove key)
    else
      let r := { r with used := now }
      (some r, c.putFirst key r)

/-- Uses the record of a document, and gives its value if it is of a version. -/
def lookup (c : Cache α) (now : Nat) (key : Text) (version : Int) : Option α × Cache α :=
  let (r, c) := c.get now key
  ((r.filter fun r => r.version = version).map Record.value, c)

/-- Whether a newer version than one given is held. -/
def holdsNewer (c : Cache α) (key : Text) (version : Int) : Bool :=
  (c.peek? key).any fun r => version < r.version

/-- Stores a value for a version, unless a newer version is held. -/
def set (c : Cache α) (now : Nat) (key : Text) (version : Int) (value : α) : Bool × Cache α :=
  if c.holdsNewer key version then (false, c)
  else (true, c.putFirst key { version, value, used := now })

def cancel (c : Cache α) (key : Text) : Cache α := { c with timers := without key c.timers }

/-- Takes the next number for a timer. -/
def number (c : Cache α) : Nat × Cache α := (c.lastTimer + 1, { c with lastTimer := c.lastTimer + 1 })

/-- Makes a timer the one of a document, in place of the one before. -/
def insertTimer (c : Cache α) (key : Text) (timer : Nat) : Cache α :=
  { c with timers := (key, timer) :: without key c.timers }

/-- Schedules a timer with the next number, and gives the number. -/
def schedule (c : Cache α) (key : Text) : Nat × Cache α :=
  let (timer, c) := c.number
  (timer, c.insertTimer key timer)

/-- Whether a timer is still the one of its document. -/
def isCurrent (c : Cache α) (key : Text) (timer : Nat) : Bool := Json.lookup? key c.timers == some timer

/-- Drops the timer and then the record of a document. -/
def close (c : Cache α) (key : Text) : Cache α := (c.cancel key).remove key

def clearTimers (c : Cache α) : Cache α := { c with timers := [] }

def clearRecords (c : Cache α) : Cache α := { c with records := [] }

/-- Drops all timers and then all records. -/
def clear (c : Cache α) : Cache α := c.clearTimers.clearRecords

/-- Stores a computed value, if it is to be stored for a version. -/
def commit (c : Cache α) (now : Nat) (key : Text) (version : Option Int) (value : α) : Cache α :=
  match version with
  | none => c
  | some version => (c.set now key version value).2

/-- Ends a timer with its value: if it is current, the value is committed and delivered. -/
def deliver (c : Cache α) (now : Nat) (key : Text) (timer : Nat) (version : Option Int) (value : α) :
    Option α × Cache α :=
  if c.isCurrent key timer then (some value, (c.cancel key).commit now key version value) else (none, c)

/-- What may happen while a value is computed. -/
inductive Action (α : Type) where
  | close (key : Text)
  | remove (key : Text)
  | clear
  | set (key : Text) (version : Int) (value : α)
  | schedule (key : Text)
  deriving Repr, DecidableEq

def perform (now : Nat) (c : Cache α) : Action α → Cache α
  | .close key => c.close key
  | .remove key => c.remove key
  | .clear => c.clear
  | .set key version value => (c.set now key version value).2
  | .schedule key => (c.schedule key).2

/-- A value computed without delay, while some actions happen. -/
def computeNow (c : Cache α) (now : Nat) (key : Text) (version : Option Int) (value : α)
    (during : List (Action α)) : Option α × Cache α :=
  (some value, (during.foldl (perform now) (c.cancel key)).commit now key version value)

/-- A value computed by a timer that fires at once, while some actions happen. -/
def computeByTimer (c : Cache α) (now : Nat) (key : Text) (version : Option Int) (value : α)
    (during : List (Action α)) : Option α × Cache α :=
  let (timer, c) := (c.cancel key).schedule key
  (during.foldl (perform now) c).deliver now key timer version value

end Cache

end EndpointConsole.Lens
