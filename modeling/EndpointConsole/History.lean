import EndpointConsole.History.Item
import EndpointConsole.Number.Checked
import EndpointConsole.Sorted
import EndpointConsole.Storage

/-!
The request history: items in buckets, newest first, with a limit on their
number and an optional time after which they are dropped. The history in memory
is what counts; each change is put into the storage, which may fail.
-/
namespace EndpointConsole

namespace History

/-- The items by bucket. -/
abbrev Buckets := List (Text × List Item)

/-- The order of a list: newest first. -/
def isNewer (a b : Item) : Bool := b.time ≤ a.time

/-- Sorts by time, newest first; items of one time keep their order. -/
def newestFirst (items : List Item) : List Item := items.mergeSort isNewer

/-- A list with an item put in, in place of those with its identity, and cut to a number of items,
    one at least. -/
def addItem (item : Item) (limit : Nat) (items : List Item) : List Item :=
  (newestFirst (item :: items.filter fun i => i.id ≠ item.id)).take (max limit 1)

def itemsOf (bucket : Text) (buckets : Buckets) : List Item := (Json.lookup? bucket buckets).getD []

/-- The items from a time on; buckets without items go. -/
def since (cutoff : Int) (buckets : Buckets) : Buckets :=
  (buckets.map fun (bucket, items) => (bucket, items.filter fun i => cutoff ≤ i.time)).filter
    fun (_, items) => !items.isEmpty

def count : Buckets → Nat
  | [] => 0
  | (_, items) :: rest => items.length + count rest

def toJson (buckets : Buckets) : Json :=
  .object (buckets.map fun (bucket, items) => (bucket, .array (items.map Item.toJson)))

def ofJson? (v : Json) : Option Buckets := do
  let members ← v.members?
  let pairs ← members.mapM fun (bucket, items) => (Json.listOf? Item.ofJson? items).map (bucket, ·)
  pure (Sorted.ofList pairs)

/-- The key in the storage. -/
def storageKey : Text := "requestHistory.byEndpoint".toList

/-- The buckets in a storage; what cannot be read counts as absent. -/
def load (storage : Storage) : Buckets :=
  match storage.get storageKey with
  | .ok (some v) => (ofJson? v).getD []
  | _ => []

end History

/-- The history of requests over a storage. -/
structure History where
  storage : Storage
  buckets : History.Buckets
  /-- How long items are kept, in milliseconds. -/
  kept : Option Nat
  deriving Repr, Inhabited

namespace History

/-- The history that a storage holds. -/
def restored (storage : Storage) (kept : Option Nat) : History := { storage, buckets := load storage, kept }

/-- The history that a storage holds, with items kept for so many seconds. -/
def ofStorage (storage : Storage) (keptSeconds : Option Nat) : History :=
  restored storage (keptSeconds.map (· * 1000))

/-- How long items are kept, in whole seconds. -/
def keptSeconds (h : History) : Option Nat := h.kept.map (· / 1000)

/-- A new history over the same storage. -/
def reloaded (h : History) : History := restored h.storage h.kept

/-- The history with its buckets in the storage. -/
def persisted (h : History) : History :=
  { h with storage := h.storage.trySet storageKey (toJson h.buckets) }

/-- The history with the items from a time on. The storage changes only if others were dropped. -/
def keptSince (cutoff : Int) (h : History) : History :=
  let after := { h with buckets := since cutoff h.buckets }
  if count after.buckets ≠ count h.buckets then after.persisted else after

/-- Drops the items that have been kept long enough, which is counted in milliseconds as a signed
    word. -/
def pruned (h : History) (now : Int) : Checked History :=
  match h.kept with
  | none => .ok h
  | some time => (checkedSigned (now - wrappedSigned time)).map fun cutoff => h.keptSince cutoff

/-- The items of a bucket at a time, newest first. -/
def get (h : History) (bucket : Text) (now : Int) : Checked (List Item × History) :=
  (h.pruned now).map fun h => (newestFirst (itemsOf bucket h.buckets), h)

/-- Puts an item into a bucket that holds at most so many. -/
def add (h : History) (bucket : Text) (item : Item) (limit : Nat) : List Item × History :=
  let items := addItem item limit (itemsOf bucket h.buckets)
  (items, persisted { h with buckets := Sorted.insert bucket items h.buckets })

/-- Empties a bucket. -/
def clear (h : History) (bucket : Text) : History :=
  match Json.lookup? bucket h.buckets with
  | none => h
  | some _ => persisted { h with buckets := Sorted.erase bucket h.buckets }

end History

end EndpointConsole
