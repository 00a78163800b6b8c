import EndpointConsole.Json.Record

/-!
Endpoints: the HTTP method, route, parameters and place of one request handler,
and their JSON form, in which unknown methods, missing fields and numbers out of
range are refused and absent parts are left out.
-/
namespace EndpointConsole

inductive HttpMethod where
  | get
  | post
  | put
  | delete
  /-- A handler that is not bound to one method. -/
  | any
  deriving Repr, DecidableEq, Inhabited

namespace HttpMethod

def name : HttpMethod → Text
  | get => "GET".toList
  | post => "POST".toList
  | put => "PUT".toList
  | delete => "DELETE".toList
  | any => "ANY".toList

def names : List (Text × HttpMethod) := [get, post, put, delete, any].map fun m => (m.name, m)

/-- Whether parameters without an attribute come from the query string. -/
def bindsFromQuery : HttpMethod → Bool
  | get => true
  | delete => true
  | _ => false

end HttpMethod

/-- Where a handler's parameter takes its value from. -/
inductive ParameterSource where
  | query
  | body
  | route
  | header
  | form
  | services
  deriving Repr, DecidableEq, Inhabited

namespace ParameterSource

def name : ParameterSource → Text
  | query => "query".toList
  | body => "body".toList
  | route => "route".toList
  | header => "header".toList
  | form => "form".toList
  | services => "services".toList

def names : List (Text × ParameterSource) :=
  [query, body, route, header, form, services].map fun s => (s.name, s)

end ParameterSource

structure Parameter where
  name : Text
  type : Text
  source : ParameterSource
  required : Bool
  deriving Repr, DecidableEq, Inhabited

/-- How a request carries its body. -/
inductive BodyMode where
  | json
  | formData
  | binary
  deriving Repr, DecidableEq, Inhabited

namespace BodyMode

def name : BodyMode → Text
  | json => "json".toList
  | formData => "formdata".toList
  | binary => "binary".toList

def names : List (Text × BodyMode) := [json, formData, binary].map fun m => (m.name, m)

end BodyMode

/-- One request handler. The project and the full URL are attached after detection. -/
structure Endpoint where
  method : HttpMethod
  /-- The route from its leading slash on, placeholders included. -/
  route : Text
  controller : Text
  action : Text
  file : Text
  /-- The line of the method, counted from one. -/
  line : Nat
  project : Option Text := none
  fullUrl : Option Text := none
  /-- Parameters that the query editor lists by itself. -/
  autoQuery : Option (List Text) := none
  parameters : List Parameter := []
  preferredBody : Option BodyMode := none
  deriving Repr, DecidableEq, Inhabited

namespace Parameter

def toJson (p : Parameter) : Json :=
  .object [("name".toList, .string p.name), ("type".toList, .string p.type),
    ("source".toList, .string p.source.name), ("required".toList, .bool p.required)]

def fields : Json.Fields :=
  [("name".toList, .required), ("type".toList, .required), ("source".toList, .required),
    ("required".toList, .required)]

def ofJson? (v : Json) : Option Parameter := do
  match ← Json.record? fields v with
  | [name, type, source, required] =>
    let name ← Json.needed Json.text? name
    let type ← Json.needed Json.text? type
    let source ← Json.needed (Json.variant? false ParameterSource.names) source
    let required ← Json.needed Json.bool? required
    pure ⟨name, type, source, required⟩
  | _ => none

end Parameter

namespace Endpoint

/-- A member that is left out when there is nothing to say. -/
def optionalMember {α : Type} (name : Text) (write : α → Json) : Option α → List (Text × Json)
  | none => []
  | some a => [(name, write a)]

def toJson (e : Endpoint) : Json :=
  .object <|
    [("httpMethod".toList, .string e.method.name), ("routeTemplate".toList, .string e.route),
      ("controller".toList, .string e.controller), ("action".toList, .string e.action),
      ("filePath".toList, .string e.file), ("lineNumber".toList, .ofNat e.line)] ++
    optionalMember "projectPath".toList .string e.project ++
    optionalMember "fullUrl".toList .string e.fullUrl ++
    optionalMember "autoQueryParamNames".toList (fun names => .array (names.map .string)) e.autoQuery ++
    (if e.parameters.isEmpty then [] else [("parameters".toList, .array (e.parameters.map Parameter.toJson))]) ++
    optionalMember "preferredBodyMode".toList (fun m => .string m.name) e.preferredBody

def fields : Json.Fields :=
  [("httpMethod".toList, .required), ("routeTemplate".toList, .required), ("controller".toList, .required),
    ("action".toList, .required), ("filePath".toList, .required), ("lineNumber".toList, .required),
    ("projectPath".toList, .optional), ("fullUrl".toList, .optional), ("autoQueryParamNames".toList, .optional),
    ("parameters".toList, .optional), ("preferredBodyMode".toList, .optional)]

def ofJson? (v : Json) : Option Endpoint := do
  match ← Json.record? fields v with
  | [method, route, controller, action, file, line, project, fullUrl, autoQuery, parameters, preferredBody] =>
    let method ← Json.needed (Json.variant? false HttpMethod.names) method
    let route ← Json.needed Json.text? route
    let controller ← Json.needed Json.text? controller
    let action ← Json.needed Json.text? action
    let file ← Json.needed Json.text? file
    let line ← Json.needed Json.word? line
    let project ← Json.nullable Json.text? project
    let fullUrl ← Json.nullable Json.text? fullUrl
    let autoQuery ← Json.nullable (Json.listOf? Json.text?) autoQuery
    let parameters ← Json.orElse [] (Json.listOf? Parameter.ofJson?) parameters
    let preferredBody ← Json.nullable (Json.variant? false BodyMode.names) preferredBody
    pure { method, route, controller, action, file, line, project, fullUrl, autoQuery, parameters, preferredBody }
  | _ => none

/-- Sets the full URL: the base URL without slashes at its end, then the route; without a base URL
    the route alone. -/
def attachBaseUrl (base : Option Text) (e : Endpoint) : Endpoint :=
  match base with
  | some base => { e with fullUrl := some (Text.dropEndWhile (· == '/') base ++ e.route) }
  | none => { e with fullUrl := some e.route }

/-- The title of a lens: the method and the route. -/
def lensTitle (e : Endpoint) : Text := "⚡ ".toList ++ e.method.name ++ ' ' :: e.route

/-- The title of a panel: the action, or the route when the action has no name. -/
def panelTitle (e : Endpoint) : Text := "⚡ ".toList ++ if e.action.isEmpty then e.route else e.action

end Endpoint

end EndpointConsole
