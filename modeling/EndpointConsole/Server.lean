import EndpointConsole.Panel
import EndpointConsole.Server.Envelope

/-!
The server that a host talks to, line by line. A line for a panel goes to that
panel, which answers with messages of its own; any other line is a command. What
cannot be understood is answered by one error and changes nothing. Scans of
lenses that wait for their timers are delivered when those fire, at the latest
when the lines have ended.
-/
namespace EndpointConsole

structure Server where
  session : Session
  /-- The open panels by their names. -/
  panels : List (Text × Panel) := []
  /-- The number that names the next panel. -/
  nextPanel : Nat := 1
  /-- The scans that wait for their timers, the first scheduled first. -/
  waiting : List Lens.Pending := []

namespace Server

/-- What handling a line leads to. -/
structure Step where
  messages : List Json
  server : Server
  /-- Whether the server goes on. -/
  goesOn : Bool := true

def message (type : String) (data : List (Text × Json)) : Json :=
  .object [("type".toList, .string type.toList), ("data".toList, .object data)]

def errorMessage (text : Text) : Json := message "error" [("message".toList, .string text)]

/-- A line that is refused is answered and changes nothing. -/
def refuse (s : Server) (r : Refusal) : Step := ⟨[errorMessage r.message], s, true⟩

def lensesJson (lenses : Lens.Lenses) : Json := .array (lenses.map Lens.toJson)

def lensesMessage (d : Source.Document) (lenses : Lens.Lenses) (stale : Bool) : Json :=
  message "codeLenses" [("uri".toList, .string d.uri), ("version".toList, .ofInt d.version),
    ("lenses".toList, lensesJson lenses), ("stale".toList, .bool stale)]

def refreshedMessage (d : Source.Document) (lenses : Lens.Lenses) : Json :=
  message "codeLensesRefreshed" [("uri".toList, .string d.uri), ("version".toList, .ofInt d.version),
    ("lenses".toList, lensesJson lenses)]

def openedMessage (panel : Text) (e : Endpoint) : Json :=
  message "panelOpened" [("panel".toList, .string panel), ("title".toList, .string e.panelTitle),
    ("endpoint".toList, e.toJson)]

/-- Messages as they are written, one on a line. -/
def written (messages : List Json) : Text := messages.flatMap fun m => m.compact ++ ['\n']

/-- The name of a panel by its number. -/
def panelName (number : Nat) : Text := "panel-".toList ++ Nat.toDigits 10 number

/-- Opens a panel for the endpoint on a line of a file. -/
def openPanel (s : Server) (file : Text) (line : Nat) : Checked Step := do
  let (outcome, session) ← s.session.detect file line
  let s := { s with session }
  match outcome with
  | .error failure => pure ⟨[errorMessage (failure.message session.language)], s, true⟩
  | .ok endpoint =>
    let name := panelName s.nextPanel
    let nextPanel ← checkedWord (s.nextPanel + 1)
    pure ⟨[openedMessage name endpoint], { s with panels := s.panels ++ [(name, { endpoint })], nextPanel }, true⟩

def closePanel (s : Server) (name : Text) : Server :=
  { s with panels := s.panels.filter fun (n, _) => n ≠ name }

/-- Answers with the lenses of a document, and waits for those to come. -/
def provideLenses (s : Server) (d : Source.Document) : Step :=
  match s.session.provideLenses d with
  | (.ready lenses, session) => ⟨[lensesMessage d lenses false], { s with session }, true⟩
  | (.delayed stale pending, session) =>
    ⟨[lensesMessage d (stale.getD []) true], { s with session, waiting := s.waiting ++ [pending] }, true⟩

def perform (s : Server) : Command → Checked Step
  | .openPanel file line => s.openPanel file line
  | .closePanel name => .ok ⟨[], s.closePanel name, true⟩
  | .provideLenses d => .ok (s.provideLenses d)
  | .documentClosed uri => .ok ⟨[], { s with session := s.session.closeLenses uri }, true⟩
  | .shutdown => .ok ⟨[], s, false⟩

/-- Puts a panel back in its place. -/
def setPanel (name : Text) (p : Panel) (panels : List (Text × Panel)) : List (Text × Panel) :=
  panels.map fun (n, old) => (n, if n = name then p else old)

/-- Passes a message on to an open panel. -/
def tellPanel (s : Server) (name : Text) (p : Panel) (m : Panel.Inbound) : Checked Step :=
  (p.handle s.session m).map fun step =>
    ⟨step.replies.map (·.toJson name),
      { s with session := step.session, panels := setPanel name step.panel s.panels }, true⟩

/-- The message for a panel; null counts as no data. -/
def inboundOf? (e : Envelope) : Option Panel.Inbound := do
  let kind ← Json.lookup? e.type Panel.Inbound.kinds
  Panel.Inbound.ofKind? kind (if e.data.isNull then none else some e.data)

def handlePanelMessage (s : Server) (name : Text) (e : Envelope) : Checked Step :=
  match Json.lookup? name s.panels with
  | none => .ok (s.refuse (.unknownPanel name))
  | some p =>
    match inboundOf? e with
    | none => .ok (s.refuse .badPanelMessage)
    | some m => s.tellPanel name p m

def handleEnvelope (s : Server) (e : Envelope) : Checked Step :=
  match e.panel with
  | some name => s.handlePanelMessage name e
  | none =>
    match Command.ofTyped e.type e.data with
    | .error r => .ok (s.refuse r)
    | .ok command => s.perform command

/-- Handles a line. A blank line is passed over. -/
def handleLine (s : Server) (line : Text) : Checked Step :=
  if (Text.trim line).isEmpty then .ok ⟨[], s, true⟩
  else
    match Envelope.parse? line with
    | none => .ok (s.refuse .unparseable)
    | some e => s.handleEnvelope e

/-- Handles lines until one shuts the server down. -/
def handleLines (s : Server) : List Text → Checked (List Json × Server)
  | [] => .ok ([], s)
  | line :: rest => do
    let step ← s.handleLine line
    if step.goesOn then
      let (more, s) ← step.server.handleLines rest
      pure (step.messages ++ more, s)
    else pure (step.messages, step.server)

/-- Lets the timer of a scan fire. -/
def fire (s : Server) (pending : Lens.Pending) : List Json × Server :=
  let (delivered, session) := s.session.fireLenses pending
  let s := { s with session, waiting := s.waiting.erase pending }
  match delivered with
  | none => ([], s)
  | some lenses => ([refreshedMessage pending.document lenses], s)

/-- Lets timers fire one after the other. -/
def fireEach (s : Server) : List Lens.Pending → List Json × Server
  | [] => ([], s)
  | pending :: rest =>
    let (messages, s) := s.fire pending
    let (more, s) := s.fireEach rest
    (messages ++ more, s)

/-- Serves lines on a session, and then waits for all timers. -/
def serve (session : Session) (lines : List Text) : Checked (List Json × Session) := do
  let (messages, s) ← handleLines { session } lines
  let (refreshed, s) := s.fireEach s.waiting
  pure (messages ++ refreshed, s.session)

end Server

end EndpointConsole
