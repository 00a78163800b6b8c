import EndpointConsole.Endpoint
import EndpointConsole.Sorted

/-!
HTTP requests as a request view describes them, and responses as it shows them,
with their JSON forms. A form field is text unless it says that it is a file.
-/
namespace EndpointConsole

inductive FormFieldKind where
  | text
  | file
  deriving Repr, DecidableEq, Inhabited

namespace FormFieldKind

def name : FormFieldKind → Text
  | text => "text".toList
  | file => "file".toList

def names : List (Text × FormFieldKind) := [text, file].map fun k => (k.name, k)

end FormFieldKind

structure FormField where
  key : Text
  kind : FormFieldKind := .text
  value : Option Text := none
  /-- The content of a file in Base64. -/
  content : Option Text := none
  fileName : Option Text := none
  contentType : Option Text := none
  deriving Repr, DecidableEq, Inhabited

structure HttpRequest where
  method : Text
  url : Text
  /-- By name. -/
  headers : List (Text × Text) := []
  body : Option Text := none
  bodyMode : BodyMode := .json
  /-- A binary body in Base64. -/
  binary : Option Text := none
  binaryType : Option Text := none
  binaryName : Option Text := none
  fields : List FormField := []
  deriving Repr, DecidableEq, Inhabited

structure HttpResponse where
  success : Bool := false
  status : Option Nat := none
  headers : Option (List (Text × Text)) := none
  body : Option Text := none
  error : Option Text := none
  milliseconds : Nat := 0
  deriving Repr, DecidableEq, Inhabited

namespace FormField

def fields : Json.Fields :=
  [("key".toList, .required), ("type".toList, .optional), ("value".toList, .optional),
    ("valueBase64".toList, .optional), ("fileName".toList, .optional), ("contentType".toList, .optional)]

/-- Reads a form field; `orEmpty` is about the way its kind may be written. -/
def ofJson? (orEmpty : Bool) (v : Json) : Option FormField := do
  match ← Json.record? fields v with
  | [key, kind, value, content, fileName, contentType] =>
    let key ← Json.needed Json.text? key
    let kind ← Json.orElse .text (Json.variant? orEmpty FormFieldKind.names) kind
    let value ← Json.nullable Json.text? value
    let content ← Json.nullable Json.text? content
    let fileName ← Json.nullable Json.text? fileName
    let contentType ← Json.nullable Json.text? contentType
    pure { key, kind, value, content, fileName, contentType }
  | _ => none

end FormField

namespace HttpRequest

/-- The headers of a JSON object, in the order of their names. -/
def headersOf? (v : Json) : Option (List (Text × Text)) := do
  let members ← v.members?
  let pairs ← members.mapM fun (name, value) => value.text?.map (name, ·)
  pure (Sorted.ofList pairs)

def jsonFields : Json.Fields :=
  [("method".toList, .required), ("url".toList, .required), ("headers".toList, .optional), ("body".toList, .optional),
    ("bodyMode".toList, .optional), ("binaryBodyBase64".toList, .optional), ("binaryContentType".toList, .optional),
    ("binaryFileName".toList, .optional), ("formDataFields".toList, .optional)]

/-- Reads a request; `orEmpty` is about the way its modes and kinds may be written. -/
def ofJson? (orEmpty : Bool) (v : Json) : Option HttpRequest := do
  match ← Json.record? jsonFields v with
  | [method, url, headers, body, bodyMode, binary, binaryType, binaryName, fields] =>
    let method ← Json.needed Json.text? method
    let url ← Json.needed Json.text? url
    let headers ← Json.orElse [] headersOf? headers
    let body ← Json.nullable Json.text? body
    let bodyMode ← Json.orElse .json (Json.variant? orEmpty BodyMode.names) bodyMode
    let binary ← Json.nullable Json.text? binary
    let binaryType ← Json.nullable Json.text? binaryType
    let binaryName ← Json.nullable Json.text? binaryName
    let fields ← Json.orElse [] (Json.listOf? (FormField.ofJson? orEmpty)) fields
    pure { method, url, headers, body, bodyMode, binary, binaryType, binaryName, fields }
  | _ => none

/-- Whether a header is there, in any case. -/
def hasHeader (r : HttpRequest) (name : Text) : Bool := r.headers.any fun (n, _) => Text.sameLetters n name

end HttpRequest

/-- The JSON form of a response. -/
def HttpResponse.toJson (r : HttpResponse) : Json :=
  .object <|
    [("success".toList, .bool r.success)] ++
    Endpoint.optionalMember "statusCode".toList .ofNat r.status ++
    Endpoint.optionalMember "headers".toList
      (fun headers => .object (headers.map fun (name, value) => (name, .string value))) r.headers ++
    Endpoint.optionalMember "body".toList .string r.body ++
    Endpoint.optionalMember "error".toList .string r.error ++
    [("duration".toList, .ofNat r.milliseconds)]

end EndpointConsole
