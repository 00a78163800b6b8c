import EndpointConsole.Json.Written

/-!
Records read straight from what is written. Only the fields of a record are
looked into: what other members hold need not be a value, as long as it is
well-formed. A field that is written twice is refused, and so is a key that is
no text.
-/
namespace EndpointConsole.Json.Written

/-- What is written for a field: nothing, one thing, or none if it is written twice. -/
def single? (name : Text) (members : List (Option Text × Written)) : Option (Option Written) :=
  match members.filter fun (key, _) => key = some name with
  | [] => some none
  | [(_, w)] => some (some w)
  | _ => none

/-- The fields of a record, by name or in their order. -/
def fields? (names : List Text) : Written → Option (List (Option Written))
  | .object members =>
    if members.all fun (key, _) => key.isSome then names.mapM fun name => single? name members else none
  | .array items =>
    if items.length ≤ names.length then
      some (items.map some ++ List.replicate (names.length - items.length) none)
    else none
  | _ => none

def text? : Written → Option Text
  | .string s => s
  | _ => none

def listOf? {α : Type} (read : Written → Option α) : Written → Option (List α)
  | .array items => items.mapM read
  | _ => none

/-- The pairs of an object in which every key is a text. -/
def pairsOf? {α : Type} (read : Written → Option α) : Written → Option (List (Text × α))
  | .object members => members.mapM fun (key, w) => do
    let key ← key
    let a ← read w
    pure (key, a)
  | _ => none

/-- A text or null. -/
def optionalText? : Written → Option (Option Text)
  | .null => some none
  | w => w.text?.map some

end EndpointConsole.Json.Written
