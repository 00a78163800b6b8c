import EndpointConsole.Encoding.Base64
import EndpointConsole.Request.Http

/-!
The payload of a request after decoding: text, bytes, or the parts of a form. In
the binary and form modes a missing content falls back on what is there; content
that is no Base64 is a failure, which names the first form field it is found in.
-/
namespace EndpointConsole

inductive FormPart where
  | text (key value : Text)
  | file (key : Text) (data : List UInt8) (fileName contentType : Text)
  deriving Repr, DecidableEq

inductive Payload where
  | none
  | text (s : Text)
  | bytes (data : List UInt8) (contentType : Text)
  | multipart (parts : List FormPart)
  /-- Sent as a form file first, and as plain bytes if the server does not take that. -/
  | fileThenRaw (data : List UInt8) (fileName contentType : Text)
  deriving Repr, DecidableEq

namespace Payload

/-- Content that is no Base64. -/
inductive Failure where
  | binaryBody
  | formFile (key : Text)
  deriving Repr, DecidableEq

def Failure.message : Failure → Text
  | .binaryBody => "decode binary body".toList
  | .formFile key => "decode form file ".toList ++ key

/-- A text that is there and not empty. -/
def filled? : Option Text → Option Text
  | some s => if s.isEmpty then .none else some s
  | .none => .none

def nameOr (name : Option Text) : Text := (filled? name).getD "upload.bin".toList

def typeOr (type : Option Text) : Text := (filled? type).getD "application/octet-stream".toList

/-- The text body, if there is one. -/
def ofText (r : HttpRequest) : Payload :=
  match filled? r.body with
  | some body => .text body
  | .none => .none

/-- The part of a form field; a file without content has none. -/
def partOf? (f : FormField) : Except Failure (Option FormPart) :=
  match f.kind with
  | .text => .ok (some (.text f.key (f.value.getD [])))
  | .file =>
    match filled? f.content with
    | .none => .ok .none
    | some content =>
      match Base64.decode? content with
      | .none => .error (.formFile f.key)
      | some data => .ok (some (.file f.key data (nameOr f.fileName) (typeOr f.contentType)))

/-- The parts of form fields, in order. -/
def partsOf : List FormField → Except Failure (List FormPart)
  | [] => .ok []
  | f :: rest =>
    match partOf? f with
    | .error e => .error e
    | .ok part =>
      match partsOf rest with
      | .error e => .error e
      | .ok parts => .ok (part.toList ++ parts)

/-- The payload of a binary body; the request's own content type decides how it is sent. -/
def ofBinary (r : HttpRequest) (content : Text) : Except Failure Payload :=
  match Base64.decode? content with
  | .none => .error .binaryBody
  | some data =>
    if r.hasHeader "content-type".toList then .ok (.bytes data (typeOr r.binaryType))
    else .ok (.fileThenRaw data (nameOr r.binaryName) (typeOr r.binaryType))

/-- The payload of a request. -/
def ofRequest (r : HttpRequest) : Except Failure Payload :=
  match r.bodyMode with
  | .binary =>
    match filled? r.binary with
    | .none => .ok (ofText r)
    | some content => ofBinary r content
  | .formData => if r.fields.isEmpty then .ok (ofText r) else (partsOf r.fields).map .multipart
  | .json => .ok (ofText r)

end Payload

end EndpointConsole
