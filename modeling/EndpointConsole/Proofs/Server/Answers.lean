import EndpointConsole.Proofs.Encoding.Utf8
import EndpointConsole.Proofs.Server.Lines

/-!
What the host gets back for a line. An error is the whole answer to a line and leaves the server as
it was, and it comes for the reasons of `Rejected` only (`answered_by_error_iff`). A line that opens
a panel on a line of a readable file is answered by one message, with the lines after it processed,
unless a number does not fit its word (`openPanel_answered_iff`).
-/
namespace EndpointConsole.Server

open Source (Document)

variable {s : Server} {line : Text} {step : Step}

/-- The type of a message. -/
def typeOf? (m : Json) : Option Text := (m.member? "type".toList).bind Json.text?

/-- The panel that a message is from. -/
def panelOf? (m : Json) : Option Text := (m.member? "panel".toList).bind Json.text?

@[simp]
theorem typeOf?_message (type : String) (data : List (Text × Json)) :
    typeOf? (message type data) = some type.toList := by
  simp [typeOf?, message, Json.member?, Json.lookup?, Json.text?]

@[simp]
theorem typeOf?_errorMessage (text : Text) : typeOf? (errorMessage text) = some "error".toList := typeOf?_message ..

@[simp]
theorem typeOf?_openedMessage (panel : Text) (e : Endpoint) :
    typeOf? (openedMessage panel e) = some "panelOpened".toList := typeOf?_message ..

@[simp]
theorem typeOf?_lensesMessage (d : Document) (lenses : Lens.Lenses) (stale : Bool) :
    typeOf? (lensesMessage d lenses stale) = some "codeLenses".toList := typeOf?_message ..

@[simp]
theorem typeOf?_toJson (reply : Panel.Outbound) (name : Text) : typeOf? (reply.toJson name) = some reply.type := by
  simp [typeOf?, Panel.Outbound.toJson, Json.member?, Json.lookup?, Json.text?]

@[simp]
theorem panelOf?_toJson (reply : Panel.Outbound) (name : Text) : panelOf? (reply.toJson name) = some name := by
  simp [panelOf?, Panel.Outbound.toJson, Json.member?, Json.lookup?, Json.text?]

/-- A panel never answers as the server does. -/
theorem not_type_of_server (reply : Panel.Outbound) :
    reply.type ≠ "error".toList ∧ reply.type ≠ "panelOpened".toList := by
  cases reply <;> exact of_decide_eq_true rfl

/-- A document is answered by one message with lenses. -/
theorem provideLenses_eq (s : Server) (d : Document) :
    ∃ lenses stale waiting, s.provideLenses d =
      ⟨[lensesMessage d lenses stale], { s with session := (s.session.provideLenses d).2, waiting }, true⟩ := by
  rw [provideLenses]
  rcases s.session.provideLenses d with ⟨_ | _, session⟩
  · exact ⟨_, _, _, rfl⟩
  · exact ⟨_, _, _, rfl⟩

/-- A timer delivers lenses at most. -/
theorem fire_eq (s : Server) (pending : Lens.Pending) :
    ∃ messages, s.fire pending = (messages,
        { s with session := (s.session.fireLenses pending).2, waiting := s.waiting.erase pending }) ∧
      ∀ m ∈ messages, typeOf? m = some "codeLensesRefreshed".toList := by
  rw [fire]
  rcases s.session.fireLenses pending with ⟨_ | lenses, session⟩
  · exact ⟨[], rfl, by simp⟩
  · exact ⟨_, rfl, by simp [refreshedMessage]⟩

/-- A line is answered by an error just if there is a reason, and the error is then all that it leads to. -/
theorem answered_by_error_iff :
    (s.handleLine line = .ok step ∧ ∃ m ∈ step.messages, typeOf? m = some "error".toList) ↔
      ∃ reason, Rejected s line reason ∧ step = ⟨[errorMessage reason], s, true⟩ := by
  constructor
  · rintro ⟨handled, m, among, type⟩
    cases handleLine_eq_ok_iff.mp handled with
    | blank | closed | documentClosed | shutdown => cases among
    | rejected rejected => exact ⟨_, rejected, rfl⟩
    | opened =>
      rw [List.mem_singleton.mp among, typeOf?_openedMessage] at type
      exact absurd type (by decide)
    | lenses =>
      obtain ⟨_, _, _, same⟩ := provideLenses_eq s _
      rw [same] at among
      rw [List.mem_singleton.mp among, typeOf?_lensesMessage] at type
      exact absurd type (by decide)
    | told =>
      obtain ⟨reply, _, rfl⟩ := List.mem_map.mp among
      rw [typeOf?_toJson, Option.some.injEq] at type
      exact absurd type (not_type_of_server reply).1
  · rintro ⟨reason, rejected, rfl⟩
    exact ⟨handleLine_of_rejected rejected, _, List.mem_singleton_self _, typeOf?_errorMessage reason⟩

def controllerText : Text := "public class AController\n[HttpGet]\npublic string Get()".toList

def controller : Document := .ofFile "/A.cs".toList 0 controllerText

def shopFiles : Files := { entries := [(["A.cs".toList], .file (Utf8.encode controllerText))] }

/-- A session on a workspace with one controller. -/
def shopSession (settings : Settings) : Session := .make "/".toList settings none (.memory []) { files := shopFiles }

def shop : Server := { session := shopSession {} }

/-- The line that asks for a panel on a line of the controller. -/
def openLine (n : Nat) : Text :=
  "\x7b\"type\":\"openPanel\",\"data\":\x7b\"filePath\":\"/A.cs\",\"line\":".toList ++ Nat.toDigits 10 n ++
    "\x7d\x7d".toList

theorem read_controller : Document.read shopFiles "/A.cs".toList = .ok controller := by
  decide +kernel

theorem command?_openLine : command? (openLine 2) = some (.openPanel "/A.cs".toList 2) := by
  decide +kernel

theorem handler?_controller : (Detect.handler? controller.lines 2 controller.file).isOk = true := by
  decide +kernel

/-- After a line that the server goes on from come the others. -/
theorem handleLines_cons {rest : List Text} (handled : s.handleLine line = .ok step) (goesOn : step.goesOn = true) :
    s.handleLines (line :: rest) =
      (step.server.handleLines rest).map fun (more, after) => (step.messages ++ more, after) := by
  simp only [handleLines, handled, bind, Except.bind, goesOn, if_true]
  cases step.server.handleLines rest <;> rfl

/-- After a line that the server stops at comes nothing. -/
theorem handleLines_of_last {rest : List Text} (handled : s.handleLine line = .ok step) (stops : step.goesOn = false) :
    s.handleLines (line :: rest) = .ok (step.messages, step.server) := by
  simp only [handleLines, handled, bind, Except.bind, stops]
  rfl

/-- Whether a line is answered by one message of some types and followed by the lines after it. -/
def AnsweredOnce (s : Server) (line : Text) (types : List Text) : Prop :=
  ∃ m after, s.handleLine line = .ok ⟨[m], after, true⟩ ∧ (∃ type ∈ types, typeOf? m = some type) ∧
    ∀ rest, s.handleLines (line :: rest) = (after.handleLines rest).map fun (more, last) => (m :: more, last)

theorem AnsweredOnce.of_handleLine {m : Json} {after : Server} {types : List Text} {type : Text}
    (handled : s.handleLine line = .ok ⟨[m], after, true⟩) (among : type ∈ types) (typed : typeOf? m = some type) :
    s.AnsweredOnce line types :=
  ⟨m, after, handled, ⟨type, among, typed⟩, fun _ => handleLines_cons handled rfl⟩

theorem AnsweredOnce.not_stops {types : List Text} (answered : s.AnsweredOnce line types) : ¬Stops s line :=
  have ⟨_, _, handled, _⟩ := answered
  handled_iff_not_stops.mp ⟨_, handled⟩

/-- A line of a readable file is answered by a panel or by an error, unless it is no endpoint and is
    the last line that can be asked for, or no number is left for a panel. -/
theorem openPanel_answered_iff {file : Text} {n : Nat} {d : Document}
    (asked : command? line = some (.openPanel file n))
    (read : Document.read s.session.surroundings.files file = .ok d) :
    s.AnsweredOnce line ["panelOpened".toList, "error".toList] ↔
      if (Detect.handler? d.lines n d.file).isOk then s.nextPanel < maxWord else n < maxWord := by
  cases found : Detect.handler? d.lines n d.file with
  | ok h =>
    refine ⟨fun answered => Nat.lt_of_not_le fun last => ?_, fun fits => ?_⟩
    · exact answered.not_stops (.lastPanel asked read found last)
    · obtain ⟨endpoint, session, detected, _⟩ := openPanel_found read found
      exact .of_handleLine (handleLine_eq_ok_iff.mpr (.opened asked detected fits)) (by simp) (typeOf?_openedMessage ..)
  | error miss =>
    refine ⟨fun answered => Nat.lt_of_not_le fun last => ?_, fun fits => ?_⟩
    · obtain rfl : n = maxWord := Nat.le_antisymm (word_of_openPanel asked) last
      exact answered.not_stops (.lastLine asked read found)
    · have rejected : Rejected s line _ := .noEndpoint asked read found fits
      exact .of_handleLine (handleLine_of_rejected rejected) (by simp) (typeOf?_errorMessage _)

theorem openPanel_answered_shop :
    command? (openLine 2) = some (.openPanel "/A.cs".toList 2) ∧
      Document.read shop.session.surroundings.files "/A.cs".toList = .ok controller ∧
      shop.AnsweredOnce (openLine 2) ["panelOpened".toList, "error".toList] := by
  refine ⟨command?_openLine, read_controller, (openPanel_answered_iff command?_openLine read_controller).mpr ?_⟩
  rw [if_pos handler?_controller]
  decide

/-- The last line that can be asked for ends the server. -/
theorem last_line_not_answered :
    command? (openLine maxWord) = some (.openPanel "/A.cs".toList maxWord) ∧
      Document.read shop.session.surroundings.files "/A.cs".toList = .ok controller ∧
      shop.handleLine (openLine maxWord) = .error .overflow := by
  have asked : command? (openLine maxWord) = some (.openPanel "/A.cs".toList maxWord) := by decide +kernel
  have beyond : controller.lines.length ≤ maxWord := by decide +kernel
  exact ⟨asked, read_controller,
    handleLine_eq_error_iff.mpr (.lastLine asked read_controller (Detect.handler?_of_length_le beyond))⟩

end EndpointConsole.Server
