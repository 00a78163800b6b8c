import EndpointConsole.Json

/-!
Maps from texts as lists of pairs in the order of their keys, by code points.
`insert` puts a pair in its place or replaces the value that is there, and
`Json.lookup?` finds it again.
-/
namespace EndpointConsole.Sorted

variable {α : Type}

def insert (key : Text) (value : α) : List (Text × α) → List (Text × α)
  | [] => [(key, value)]
  | (k, v) :: rest =>
    if k = key then (key, value) :: rest
    else if key < k then (key, value) :: (k, v) :: rest
    else (k, v) :: insert key value rest

def erase (key : Text) (map : List (Text × α)) : List (Text × α) := map.filter fun (k, _) => k ≠ key

/-- The map of some pairs, of which later ones replace earlier ones. -/
def ofList (pairs : List (Text × α)) : List (Text × α) :=
  pairs.foldl (fun map (key, value) => insert key value map) []

end EndpointConsole.Sorted
