import EndpointConsole.Json.Typed
import EndpointConsole.Source.Document

/-!
Lines from the host. A line is a message with a type, data that may be missing,
and the panel that it is for, if it is for one. The commands of the host itself
are read from their data.
-/
namespace EndpointConsole.Server

structure Envelope where
  type : Text
  data : Json := .null
  panel : Option Text := none
  deriving Repr

namespace Envelope

def fieldNames : List Text := ["type".toList, "data".toList, "panel".toList]

/-- Reads what is written on a line. Within the data so many containers may nest as the message
    itself leaves. -/
def ofWritten? (w : Json.Written) : Option Envelope := do
  match ← w.fields? fieldNames with
  | [type, data, panel] =>
    let type ← type.bind Json.Written.text?
    let data ← match data with
      | none => some .null
      | some data => data.value? (Json.maxDepth - 1)
    let panel ← match panel with
      | none => some none
      | some panel => panel.optionalText?
    pure { type, data, panel }
  | _ => none

def parse? (line : Text) : Option Envelope := (Json.Written.parse? line).bind ofWritten?

end Envelope

inductive Command where
  /-- The line is counted from zero. -/
  | openPanel (file : Text) (line : Nat)
  | closePanel (panel : Text)
  | provideLenses (document : Source.Document)
  | documentClosed (uri : Text)
  | shutdown
  deriving Repr, DecidableEq

/-- Why a line is refused. -/
inductive Refusal where
  | unparseable
  | unknownType (type : Text)
  | badData
  | unknownPanel (panel : Text)
  | badPanelMessage
  deriving Repr, DecidableEq

def Refusal.message : Refusal → Text
  | .unparseable => "parse error".toList
  | .unknownType type => "unknown message type ".toList ++ type
  | .badData => "invalid message data".toList
  | .unknownPanel panel => "unknown panel ".toList ++ panel
  | .badPanelMessage => "invalid panel message".toList

namespace Command

/-- A record of one text. -/
def textField? (name : String) (v : Json) : Option Text := do
  match ← Json.record? [(name.toList, .required)] v with
  | [value] => Json.needed Json.text? value
  | _ => none

def openPanelOf? (v : Json) : Option Command := do
  match ← Json.record? [("filePath".toList, .required), ("line".toList, .required)] v with
  | [file, line] =>
    let file ← Json.needed Json.text? file
    let line ← Json.needed Json.word? line
    pure (.openPanel file line)
  | _ => none

/-- The command of a type, or why there is none. -/
def ofTyped (type : Text) (data : Json) : Except Refusal Command :=
  let orBad (command : Option Command) : Except Refusal Command :=
    match command with
    | some command => .ok command
    | none => .error .badData
  if type = "openPanel".toList then orBad (openPanelOf? data)
  else if type = "closePanel".toList then orBad ((textField? "panel" data).map .closePanel)
  else if type = "provideCodeLenses".toList then orBad ((Source.Document.ofJson? data).map .provideLenses)
  else if type = "documentClosed".toList then orBad ((textField? "uri" data).map .documentClosed)
  else if type = "shutdown".toList then .ok .shutdown
  else .error (.unknownType type)

end Command

end EndpointConsole.Server
