import EndpointConsole.Digest
import EndpointConsole.Encoding.Utf8
import EndpointConsole.Endpoint
import EndpointConsole.Files.Path

/-!
Items of the request history: what was sent, when, and how it was answered. The
identity of an item is a digest of what was sent and of the time. Items are kept
in buckets, one for each endpoint of a project.
-/
namespace EndpointConsole.History

structure Item where
  id : Text
  query : Text
  body : Text
  /-- Milliseconds since 1970. -/
  time : Int
  status : Option Nat
  deriving Repr, DecidableEq, Inhabited

/-- The bytes of a signed machine word, the lowest first. -/
def wordBytes (n : Int) : List UInt8 :=
  let word := (n % (maxWord + 1)).toNat
  (List.range 8).map fun i => UInt8.ofNat (word / Nat.pow 256 i % 256)

namespace Item

/-- The number of digits of an identity. -/
def idLength : Nat := 16

/-- The identity of what was sent at a time. -/
def idOf (query body : Text) (time : Int) : Text :=
  (Digest.hexHash (Utf8.encode query ++ 0 :: Utf8.encode body ++ wordBytes time)).take idLength

def make (query body : Text) (status : Option Nat) (time : Int) : Item :=
  { id := idOf query body time, query, body, time, status }

def toJson (i : Item) : Json :=
  .object [("id".toList, .string i.id), ("query".toList, .string i.query), ("body".toList, .string i.body),
    ("timestamp".toList, .ofInt i.time), ("statusCode".toList, (i.status.map Json.ofNat).getD .null)]

def fields : Json.Fields :=
  [("id".toList, .required), ("query".toList, .required), ("body".toList, .required),
    ("timestamp".toList, .required), ("statusCode".toList, .named)]

def ofJson? (v : Json) : Option Item := do
  match ← Json.record? fields v with
  | [id, query, body, time, status] =>
    let id ← Json.needed Json.text? id
    let query ← Json.needed Json.text? query
    let body ← Json.needed Json.text? body
    let time ← Json.needed Json.signed? time
    let status ← Json.nullable Json.short? status
    pure { id, query, body, time, status }
  | _ => none

end Item

/-- The bucket of an endpoint: its project in one spelling, its method and its route. -/
def bucketOf (e : Endpoint) : Text :=
  (e.project.map Path.key).getD [] ++ '|' :: e.method.name ++ '|' :: e.route

/-- The bucket of requests that belong to no endpoint. -/
def bucketOfMethod (method : Text) : Text := "method:".toList ++ Text.asciiUpper (Text.trim method)

end EndpointConsole.History
