import EndpointConsole.History.Item
import EndpointConsole.Message
import EndpointConsole.Request.Http

/-!
Messages to a request view, with their JSON form: a type, its data and the panel
that they are for.
-/
namespace EndpointConsole.Panel

/-- How a project that was started is doing. -/
inductive RunState where
  | starting
  | running
  | failed
  deriving Repr, DecidableEq

def RunState.name : RunState → Text
  | .starting => "starting".toList
  | .running => "running".toList
  | .failed => "error".toList

inductive Outbound where
  | texts (texts : List (Text × Text))
  | renderSettings (largeBytes lineNumbers : Nat)
  | start (endpoint : Endpoint)
  | baseUrls (urls : List Text)
  | response (response : HttpResponse)
  | history (items : List History.Item)
  | runStatus (state : RunState) (message : Text)
  deriving Repr

namespace Outbound

def type : Outbound → Text
  | .texts _ => "i18n".toList
  | .renderSettings _ _ => "renderSettings".toList
  | .start _ => "initialize".toList
  | .baseUrls _ => "loadBaseUrls".toList
  | .response _ => "requestComplete".toList
  | .history _ => "requestHistoryLoaded".toList
  | .runStatus _ _ => "debugStatus".toList

def data : Outbound → Json
  | .texts pairs => .object (pairs.map fun (name, s) => (name, .string s))
  | .renderSettings largeBytes lineNumbers =>
    .object [("largeResponseThresholdBytes".toList, .ofNat largeBytes),
      ("maxResponseLineNumbers".toList, .ofNat lineNumbers)]
  | .start endpoint => endpoint.toJson
  | .baseUrls urls => .array (urls.map Json.string)
  | .response r => r.toJson
  | .history items => .array (items.map History.Item.toJson)
  | .runStatus state message =>
    .object [("status".toList, .string state.name), ("message".toList, .string message)]

/-- The JSON form for a panel. -/
def toJson (m : Outbound) (panel : Text) : Json :=
  .object [("type".toList, .string m.type), ("data".toList, m.data), ("panel".toList, .string panel)]

end Outbound

end EndpointConsole.Panel
