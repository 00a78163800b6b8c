import EndpointConsole.Request.Authorization
import EndpointConsole.Request.Http
import EndpointConsole.Request.Target

/-!
Messages from a request view. A message names its type and may carry data; one
without data has null there or nothing. A request to be sent either has its URL,
or a route that the URL is assembled from.
-/
namespace EndpointConsole.Panel

/-- A request as the view hands it over. -/
structure Submission where
  request : HttpRequest
  /-- The route that the URL is assembled from; without it the request's own URL is used. -/
  route : Option Text := none
  base : Option Text := none
  entries : List Request.Entry := []
  /-- Read for entries when there are none. -/
  query : Option Text := none
  bearer : Option Text := none
  deriving Repr, DecidableEq

inductive Inbound where
  | ready
  | sendRequest (submission : Submission)
  | requestBaseUrls
  | saveBaseUrls (urls : List Text)
  | startDebug
  | clearHistory
  deriving Repr, DecidableEq

namespace Submission

/-- Adds the authorization, unless the request has its own. -/
def authorized (s : Submission) : HttpRequest :=
  match s.bearer.bind Request.bearer? with
  | none => s.request
  | some value =>
    if s.request.hasHeader "authorization".toList then s.request
    else { s.request with headers := Sorted.insert "Authorization".toList value s.request.headers }

/-- The query of a URL: what follows its first question mark. -/
def queryOf (url : Text) : Text := ((Text.cutAt? '?' url).map (·.2)).getD []

/-- The entries that the URL is assembled with. -/
def allEntries (s : Submission) : List Request.Entry :=
  if s.entries.isEmpty then (s.query.map Request.parseQuery).getD [] else s.entries

/-- The request that is sent, and the query that is kept in the history. -/
def resolve (s : Submission) : HttpRequest × Text :=
  match s.route with
  | none => (s.authorized, s.query.getD (queryOf s.request.url))
  | some route =>
    let target := Request.Target.build (Text.dropEndWhile (· == '/') (s.base.getD [])) route s.allEntries
    ({ s.authorized with url := target.url }, target.query)

def entryFields : Json.Fields := [("key".toList, .required), ("value".toList, .required)]

def entryOf? (v : Json) : Option Request.Entry := do
  match ← Json.record? entryFields v with
  | [key, value] =>
    let key ← Json.needed Json.text? key
    let value ← Json.needed Json.text? value
    pure ⟨key, value⟩
  | _ => none

/-- Reads a submission from an object that holds the request's members too. -/
def ofJson? (v : Json) : Option Submission := do
  let _ ← v.members?
  let request ← HttpRequest.ofJson? true v
  let route ← Json.nullable Json.text? (v.member? "route".toList)
  let base ← Json.nullable Json.text? (v.member? "baseUrl".toList)
  let entries ← Json.orElse [] (Json.listOf? entryOf?) (v.member? "params".toList)
  let query ← Json.nullable Json.text? (v.member? "query".toList)
  let bearer ← Json.nullable Json.text? (v.member? "bearerToken".toList)
  pure { request, route, base, entries, query, bearer }

end Submission

namespace Inbound

inductive Kind where
  | ready
  | sendRequest
  | requestBaseUrls
  | saveBaseUrls
  | startDebug
  | clearHistory
  deriving Repr, DecidableEq

def kinds : List (Text × Kind) :=
  [("webviewReady".toList, .ready), ("sendRequest".toList, .sendRequest), ("requestBaseUrls".toList, .requestBaseUrls),
    ("saveBaseUrls".toList, .saveBaseUrls), ("startDebug".toList, .startDebug),
    ("clearRequestHistory".toList, .clearHistory)]

/-- A message that carries nothing. -/
def bare? (message : Inbound) : Option Json → Option Inbound
  | none => some message
  | some .null => some message
  | some _ => none

/-- The message of a kind with its data. -/
def ofKind? (kind : Kind) (data : Option Json) : Option Inbound :=
  match kind with
  | .ready => bare? .ready data
  | .sendRequest => (data.bind Submission.ofJson?).map .sendRequest
  | .requestBaseUrls => bare? .requestBaseUrls data
  | .saveBaseUrls => (data.bind (Json.listOf? Json.text?)).map .saveBaseUrls
  | .startDebug => bare? .startDebug data
  | .clearHistory => bare? .clearHistory data

/-- Reads a message: an object with a type and data, or an array of the two. -/
def ofJson? : Json → Option Inbound
  | .object members => do
    let kind ← (Json.lookup? "type".toList members).bind (Json.variant? false kinds)
    ofKind? kind (Json.lookup? "data".toList members)
  | .array [type, data] => do
    let kind ← Json.variant? false kinds type
    ofKind? kind (some data)
  | _ => none

end Inbound

end EndpointConsole.Panel
