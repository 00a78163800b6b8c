import EndpointConsole.Proofs.Endpoint.Transparency
import EndpointConsole.Proofs.Json.Indented
import EndpointConsole.Proofs.Panel.Handling
import EndpointConsole.Server

/-!
What a line leads to. `Way` lists the ways in which a server handles a line, with what the line asks
for (`command?`, `told?`), the messages that answer it and the server after it; they are all there
are (`handleLine_eq_ok_iff`). A line is not handled at all just if a number that it needs does not
fit its word (`handleLine_eq_error_iff`).
-/
namespace EndpointConsole

open Source (Document)

/-- There is no endpoint behind the last line. -/
theorem Detect.handler?_of_length_le {lines : List Text} {n : Nat} {file : Text} (beyond : lines.length ≤ n) :
    Detect.handler? lines n file = .error .notAMethod := by
  rw [handler?, List.getElem?_eq_none beyond]
  rfl

namespace Session
variable {s : Session} {file : Text} {line : Nat}

theorem detect_unreadable {cause : Source.ReadFailure}
    (unread : Document.read s.surroundings.files file = .error cause) :
    s.detect file line = .ok (.error (.unreadable cause), s) := by
  rw [detect, unread]

/-- A line that is no endpoint leaves the session as it is, the versions that are known included. -/
theorem detect_missed {d : Document} {miss : Detect.Miss} (read : Document.read s.surroundings.files file = .ok d)
    (missed : Detect.handler? d.lines line d.file = .error miss) :
    s.detect file line =
      (checkedWord (line + 1)).map fun number => (.error (.notAnEndpoint d.fileName number), s) := by
  simp only [detect, read, Detect.detectInProject, Detect.detect_missed missed, Except.map]

theorem detect_found {d : Document} {h : Detect.Handler} (read : Document.read s.surroundings.files file = .ok d)
    (found : Detect.handler? d.lines line d.file = .ok h) :
    ∃ endpoint composer,
      s.detect file line = .ok (.ok endpoint, { s with lenses := { s.lenses with composer } }) := by
  simp only [detect, read, Detect.detectInProject, Detect.detect, found, Except.map]
  exact ⟨_, _, rfl⟩

end Session

namespace Server

/-- The panel that a line is for. -/
def addressee? (line : Text) : Option Text := (Envelope.parse? line).bind Envelope.panel

/-- The message that a line has for a panel, with the name of the panel. -/
def told? (line : Text) : Option (Text × Panel.Inbound) :=
  (Envelope.parse? line).bind fun e => e.panel.bind fun name => (inboundOf? e).map (name, ·)

/-- The command of a line that is for no panel. -/
def command? (line : Text) : Option Command :=
  (Envelope.parse? line).bind fun e => if e.panel.isNone then (Command.ofTyped e.type e.data).toOption else none

variable {s : Server} {line name : Text} {e : Envelope} {step : Step} {command : Command} {m : Panel.Inbound}
  {o : Overflow}

theorem told?_eq_some_iff :
    told? line = some (name, m) ↔ ∃ e, Envelope.parse? line = some e ∧ e.panel = some name ∧ inboundOf? e = some m := by
  simp only [told?, Option.bind_eq_some_iff, Option.map_eq_some_iff, Prod.mk.injEq]
  constructor
  · rintro ⟨e, read, panel, held, m', decoded, rfl, rfl⟩
    exact ⟨e, read, held, decoded⟩
  · rintro ⟨e, read, held, decoded⟩
    exact ⟨e, read, name, held, m, decoded, rfl, rfl⟩

theorem command?_eq_some_iff :
    command? line = some command ↔
      ∃ e, Envelope.parse? line = some e ∧ e.panel = none ∧ Command.ofTyped e.type e.data = .ok command := by
  simp only [command?, Option.bind_eq_some_iff]
  constructor
  · rintro ⟨e, read, asked⟩
    split at asked
    · next host =>
      cases typed : Command.ofTyped e.type e.data with
      | error r =>
        rw [typed] at asked
        cases asked
      | ok c =>
        rw [typed] at asked
        cases asked
        exact ⟨e, read, Option.isNone_iff_eq_none.mp host, typed⟩
    · cases asked
  · rintro ⟨e, read, host, typed⟩
    refine ⟨e, read, ?_⟩
    rw [host, typed]
    rfl

theorem command?_of_told (told : told? line = some (name, m)) : command? line = none := by
  obtain ⟨e, read, addressed, _⟩ := told?_eq_some_iff.mp told
  rw [command?, read, Option.bind_some, addressed]
  rfl

theorem told?_of_command (asked : command? line = some command) : told? line = none :=
  Option.eq_none_iff_forall_ne_some.mpr fun ⟨_, _⟩ told => nomatch (command?_of_told told).symm.trans asked

/-- A blank line is no message. -/
theorem parse?_of_blank (blank : Text.trim line = []) : Envelope.parse? line = none := by
  rw [Envelope.parse?, Json.Written.parse?]
  rcases Json.tokens?_of_blank (Text.blank_of_trim blank) with failed | nothing
  · rw [failed]
    rfl
  · rw [nothing]
    rfl

theorem word_of_word? {v : Json} {n : Nat} (read : v.word? = some n) : n ≤ maxWord := by
  obtain ⟨i, between, rfl⟩ := Option.map_eq_some_iff.mp read
  unfold Json.intBetween? at between
  split at between
  · split at between
    · next within =>
      cases between
      omega
    · cases between
  · cases between

theorem read_eq_ok_iff {read : Option Command} :
    (match read with
      | some command => .ok command
      | none => .error Refusal.badData) = (.ok command : Except Refusal Command) ↔ read = some command := by
  cases read <;> simp

theorem openPanelOf?_of_ofTyped {type file : Text} {data : Json} {n : Nat}
    (typed : Command.ofTyped type data = .ok (.openPanel file n)) :
    Command.openPanelOf? data = some (.openPanel file n) := by
  have other {α : Type} {f : α → Command} {read : Option α} (different : ∀ a, f a ≠ .openPanel file n) :
      ¬read.map f = some (.openPanel file n) := fun same =>
    have ⟨a, _, held⟩ := Option.map_eq_some_iff.mp same
    different a held
  simp only [Command.ofTyped] at typed
  split_ifs at typed
  · exact read_eq_ok_iff.mp typed
  · exact absurd (read_eq_ok_iff.mp typed) (other nofun)
  · exact absurd (read_eq_ok_iff.mp typed) (other nofun)
  · exact absurd (read_eq_ok_iff.mp typed) (other nofun)
  · cases typed

/-- Lines of a file are counted in words. -/
theorem word_of_openPanel {file : Text} {n : Nat} (asked : command? line = some (.openPanel file n)) : n ≤ maxWord := by
  obtain ⟨e, _, _, typed⟩ := command?_eq_some_iff.mp asked
  have read := openPanelOf?_of_ofTyped typed
  simp only [Command.openPanelOf?, Option.bind_eq_bind, Option.bind_eq_some_iff] at read
  obtain ⟨values, _, read⟩ := read
  split at read
  · next count _ =>
    simp only [Option.bind_eq_some_iff, Option.pure_def, Option.some.injEq, Command.openPanel.injEq] at read
    obtain ⟨_, _, _, counted, _, rfl⟩ := read
    cases count with
    | none => cases counted
    | some v => exact word_of_word? counted
  · cases read

/-- The lines that are refused, with the reasons. -/
inductive Refused (s : Server) (line : Text) : Refusal → Prop where
  | unparseable (written : Text.trim line ≠ []) (unread : Envelope.parse? line = none) : Refused s line .unparseable
  | command {e : Envelope} {r : Refusal} (read : Envelope.parse? line = some e) (host : e.panel = none)
      (typed : Command.ofTyped e.type e.data = .error r) : Refused s line r
  | unknownPanel {e : Envelope} {name : Text} (read : Envelope.parse? line = some e) (addressed : e.panel = some name)
      (unknown : Json.lookup? name s.panels = none) : Refused s line (.unknownPanel name)
  | badPanelMessage {e : Envelope} {name : Text} (read : Envelope.parse? line = some e)
      (addressed : e.panel = some name) (isOpen : (Json.lookup? name s.panels).isSome = true)
      (undecoded : inboundOf? e = none) : Refused s line .badPanelMessage

/-- A line is blank or refused, or it has a command or a message for an open panel. -/
theorem line_cases (s : Server) (line : Text) :
    Text.trim line = [] ∨ (∃ r, Refused s line r) ∨ (∃ command, command? line = some command) ∨
      ∃ name m p, told? line = some (name, m) ∧ Json.lookup? name s.panels = some p := by
  by_cases written : Text.trim line = []
  · exact .inl written
  refine .inr ?_
  cases read : Envelope.parse? line with
  | none => exact .inl ⟨_, .unparseable written read⟩
  | some e =>
    cases addressed : e.panel with
    | none =>
      cases typed : Command.ofTyped e.type e.data with
      | error r => exact .inl ⟨r, .command read addressed typed⟩
      | ok command => exact .inr (.inl ⟨command, command?_eq_some_iff.mpr ⟨e, read, addressed, typed⟩⟩)
    | some name =>
      cases held : Json.lookup? name s.panels with
      | none => exact .inl ⟨_, .unknownPanel read addressed held⟩
      | some p =>
        cases decoded : inboundOf? e with
        | none => exact .inl ⟨_, .badPanelMessage read addressed (by rw [held]; rfl) decoded⟩
        | some m => exact .inr (.inr ⟨name, m, p, told?_eq_some_iff.mpr ⟨e, read, addressed, decoded⟩, held⟩)

theorem handleLine_of_blank (blank : Text.trim line = []) : s.handleLine line = .ok ⟨[], s, true⟩ := by
  rw [handleLine, blank, List.isEmpty_nil, if_pos rfl]

/-- A line that is a message is handled as one, as it is not blank. -/
theorem handleLine_of_parse (read : Envelope.parse? line = some e) : s.handleLine line = s.handleEnvelope e := by
  have written : Text.trim line ≠ [] := fun blank => nomatch (parse?_of_blank blank).symm.trans read
  rw [handleLine, if_neg (by rwa [List.isEmpty_iff]), read]

theorem handleLine_of_refused {r : Refusal} (refused : Refused s line r) : s.handleLine line = .ok (s.refuse r) := by
  cases refused with
  | unparseable written unread => rw [handleLine, if_neg (by rwa [List.isEmpty_iff]), unread]
  | command read host typed => simp only [handleLine_of_parse read, handleEnvelope, host, typed]
  | unknownPanel read addressed unknown =>
    simp only [handleLine_of_parse read, handleEnvelope, addressed, handlePanelMessage, unknown]
  | badPanelMessage read addressed isOpen undecoded =>
    obtain ⟨p, held⟩ := Option.isSome_iff_exists.mp isOpen
    simp only [handleLine_of_parse read, handleEnvelope, addressed, handlePanelMessage, held, undecoded]

theorem handleLine_of_command (asked : command? line = some command) : s.handleLine line = s.perform command := by
  obtain ⟨e, read, host, typed⟩ := command?_eq_some_iff.mp asked
  simp only [handleLine_of_parse read, handleEnvelope, host, typed]

theorem handleLine_of_told {p : Panel} (told : told? line = some (name, m))
    (held : Json.lookup? name s.panels = some p) :
    s.handleLine line = s.tellPanel name p m := by
  obtain ⟨e, read, addressed, decoded⟩ := told?_eq_some_iff.mp told
  simp only [handleLine_of_parse read, handleEnvelope, addressed, handlePanelMessage, held, decoded]

section Opening
variable {file : Text} {n : Nat} {d : Document}

theorem openPanel_unreadable {cause : Source.ReadFailure}
    (unread : Document.read s.session.surroundings.files file = .error cause) :
    s.openPanel file n =
      .ok ⟨[errorMessage ((Session.DetectFailure.unreadable cause).message s.session.language)], s, true⟩ := by
  rw [openPanel, Session.detect_unreadable unread]
  rfl

theorem openPanel_missed {miss : Detect.Miss} (read : Document.read s.session.surroundings.files file = .ok d)
    (missed : Detect.handler? d.lines n d.file = .error miss) :
    s.openPanel file n = (checkedWord (n + 1)).map fun number =>
      ⟨[errorMessage ((Session.DetectFailure.notAnEndpoint d.fileName number).message s.session.language)],
        s, true⟩ := by
  rw [openPanel, Session.detect_missed read missed]
  cases checkedWord (n + 1) <;> rfl

theorem openPanel_found {h : Detect.Handler} (read : Document.read s.session.surroundings.files file = .ok d)
    (found : Detect.handler? d.lines n d.file = .ok h) :
    ∃ endpoint session, s.session.detect file n = .ok (.ok endpoint, session) ∧
      s.openPanel file n = (checkedWord (s.nextPanel + 1)).map fun nextPanel =>
        ⟨[openedMessage (panelName s.nextPanel) endpoint],
          { s with session, panels := s.panels ++ [(panelName s.nextPanel, { endpoint })], nextPanel }, true⟩ := by
  obtain ⟨endpoint, composer, detected⟩ := Session.detect_found read found
  refine ⟨endpoint, _, detected, ?_⟩
  rw [openPanel, detected]
  change (checkedWord (s.nextPanel + 1)).bind _ = _
  cases checkedWord (s.nextPanel + 1) <;> rfl

end Opening

/-- The lines that are answered by an error, with its text. -/
inductive Rejected (s : Server) (line : Text) : Text → Prop where
  | refused {r : Refusal} (refused : Refused s line r) : Rejected s line r.message
  | unreadable {file : Text} {n : Nat} {cause : Source.ReadFailure}
      (asked : command? line = some (.openPanel file n))
      (unread : Document.read s.session.surroundings.files file = .error cause) :
      Rejected s line ((Session.DetectFailure.unreadable cause).message s.session.language)
  | noEndpoint {file : Text} {n : Nat} {d : Document} {miss : Detect.Miss}
      (asked : command? line = some (.openPanel file n))
      (read : Document.read s.session.surroundings.files file = .ok d)
      (missed : Detect.handler? d.lines n d.file = .error miss) (fits : n + 1 ≤ maxWord) :
      Rejected s line ((Session.DetectFailure.notAnEndpoint d.fileName (n + 1)).message s.session.language)

theorem handleLine_of_rejected {reason : Text} (rejected : Rejected s line reason) :
    s.handleLine line = .ok ⟨[errorMessage reason], s, true⟩ := by
  cases rejected with
  | refused refused => exact handleLine_of_refused refused
  | unreadable asked unread => rw [handleLine_of_command asked, perform, openPanel_unreadable unread]
  | noEndpoint asked read missed fits =>
    rw [handleLine_of_command asked, perform, openPanel_missed read missed, checkedWord_eq_ok_iff.mpr ⟨rfl, fits⟩]
    rfl

/-- A command is rejected only if it opens a panel. -/
theorem Rejected.asks_openPanel {reason : Text} (rejected : Rejected s line reason)
    (asked : command? line = some command) :
    ∃ file n, command = .openPanel file n := by
  obtain ⟨e, read, host, typed⟩ := command?_eq_some_iff.mp asked
  cases rejected with
  | unreadable asked' | noEndpoint asked' =>
    cases asked.symm.trans asked'
    exact ⟨_, _, rfl⟩
  | refused refused =>
    cases refused with
    | unparseable _ unread => cases unread.symm.trans read
    | command read' _ refused =>
      cases read.symm.trans read'
      cases typed.symm.trans refused
    | unknownPanel read' addressed | badPanelMessage read' addressed =>
      cases read.symm.trans read'
      cases host.symm.trans addressed

/-- A message for a panel is rejected only if the panel is not open. -/
theorem Rejected.not_isOpen {reason : Text} (rejected : Rejected s line reason) (told : told? line = some (name, m)) :
    Json.lookup? name s.panels = none := by
  obtain ⟨e, read, addressed, decoded⟩ := told?_eq_some_iff.mp told
  cases rejected with
  | unreadable asked | noEndpoint asked => cases (told?_of_command asked).symm.trans told
  | refused refused =>
    cases refused with
    | unparseable _ unread => cases unread.symm.trans read
    | command read' host =>
      cases read.symm.trans read'
      cases host.symm.trans addressed
    | unknownPanel read' addressed' unknown =>
      cases read.symm.trans read'
      cases addressed.symm.trans addressed'
      exact unknown
    | badPanelMessage read' _ _ undecoded =>
      cases read.symm.trans read'
      cases undecoded.symm.trans decoded

/-- The ways in which a server handles a line. -/
inductive Way (s : Server) (line : Text) : Step → Prop where
  | blank (blank : Text.trim line = []) : Way s line ⟨[], s, true⟩
  | rejected {reason : Text} (rejected : Rejected s line reason) : Way s line ⟨[errorMessage reason], s, true⟩
  | opened {file : Text} {n : Nat} {endpoint : Endpoint} {session : Session}
      (asked : command? line = some (.openPanel file n))
      (found : s.session.detect file n = .ok (.ok endpoint, session)) (fits : s.nextPanel + 1 ≤ maxWord) :
      Way s line ⟨[openedMessage (panelName s.nextPanel) endpoint],
        { s with session, panels := s.panels ++ [(panelName s.nextPanel, { endpoint })],
                 nextPanel := s.nextPanel + 1 }, true⟩
  | closed {name : Text} (asked : command? line = some (.closePanel name)) : Way s line ⟨[], s.closePanel name, true⟩
  | lenses {d : Document} (asked : command? line = some (.provideLenses d)) : Way s line (s.provideLenses d)
  | documentClosed {uri : Text} (asked : command? line = some (.documentClosed uri)) :
      Way s line ⟨[], { s with session := s.session.closeLenses uri }, true⟩
  | shutdown (asked : command? line = some .shutdown) : Way s line ⟨[], s, false⟩
  | told {name : Text} {m : Panel.Inbound} {p : Panel} {step : Panel.Step} (told : told? line = some (name, m))
      (isOpen : Json.lookup? name s.panels = some p) (handled : p.handle s.session m = .ok step) :
      Way s line ⟨step.replies.map (·.toJson name),
        { s with session := step.session, panels := setPanel name step.panel s.panels }, true⟩

theorem Way.of_openPanel {file : Text} {n : Nat} (asked : command? line = some (.openPanel file n))
    (handled : s.openPanel file n = .ok step) : Way s line step := by
  cases read : Document.read s.session.surroundings.files file with
  | error cause =>
    rw [openPanel_unreadable read] at handled
    cases handled
    exact .rejected (.unreadable asked read)
  | ok d =>
    cases found : Detect.handler? d.lines n d.file with
    | error miss =>
      rw [openPanel_missed read found, map_eq_ok_iff] at handled
      obtain ⟨number, counted, rfl⟩ := handled
      obtain ⟨rfl, fits⟩ := checkedWord_eq_ok_iff.mp counted
      exact .rejected (.noEndpoint asked read found fits)
    | ok h =>
      obtain ⟨endpoint, session, detected, opened⟩ := openPanel_found read found
      rw [opened, map_eq_ok_iff] at handled
      obtain ⟨nextPanel, counted, rfl⟩ := handled
      obtain ⟨rfl, fits⟩ := checkedWord_eq_ok_iff.mp counted
      exact .opened asked detected fits

/-- The lines that are handled are handled in one of the ways. -/
theorem handleLine_eq_ok_iff : s.handleLine line = .ok step ↔ Way s line step := by
  constructor
  · intro handled
    obtain blank | ⟨r, refused⟩ | ⟨command, asked⟩ | ⟨name, m, p, told, isOpen⟩ := line_cases s line
    · cases (handleLine_of_blank blank).symm.trans handled
      exact .blank blank
    · cases (handleLine_of_refused refused).symm.trans handled
      exact .rejected (.refused refused)
    · rw [handleLine_of_command asked] at handled
      cases command with
      | openPanel file n => exact .of_openPanel asked handled
      | closePanel name => cases handled; exact .closed asked
      | provideLenses d => cases handled; exact .lenses asked
      | documentClosed uri => cases handled; exact .documentClosed asked
      | shutdown => cases handled; exact .shutdown asked
    · rw [handleLine_of_told told isOpen, tellPanel, map_eq_ok_iff] at handled
      obtain ⟨step, handled, rfl⟩ := handled
      exact .told told isOpen handled
  · intro way
    cases way with
    | blank blank => exact handleLine_of_blank blank
    | rejected rejected => exact handleLine_of_rejected rejected
    | opened asked found fits =>
      rw [handleLine_of_command asked, perform, openPanel, found]
      change (checkedWord (s.nextPanel + 1)).bind _ = _
      rw [checkedWord_eq_ok_iff.mpr ⟨rfl, fits⟩]
      rfl
    | closed asked | lenses asked | documentClosed asked | shutdown asked => exact handleLine_of_command asked
    | told told isOpen handled => rw [handleLine_of_told told isOpen, tellPanel, handled]; rfl

/-- The lines that are not handled, as a number does not fit its word. -/
inductive Stops (s : Server) (line : Text) : Prop where
  /-- The last line that can be asked for is no endpoint, and cannot be counted from one. -/
  | lastLine {file : Text} {d : Document} {miss : Detect.Miss}
      (asked : command? line = some (.openPanel file maxWord))
      (read : Document.read s.session.surroundings.files file = .ok d)
      (missed : Detect.handler? d.lines maxWord d.file = .error miss)
  | lastPanel {file : Text} {n : Nat} {d : Document} {h : Detect.Handler}
      (asked : command? line = some (.openPanel file n))
      (read : Document.read s.session.surroundings.files file = .ok d)
      (found : Detect.handler? d.lines n d.file = .ok h) (last : maxWord ≤ s.nextPanel)
  | panel {name : Text} {m : Panel.Inbound} {p : Panel} (told : told? line = some (name, m))
      (isOpen : Json.lookup? name s.panels = some p) (overflows : p.Overflows s.session m)

theorem Stops.of_openPanel {file : Text} {n : Nat} (asked : command? line = some (.openPanel file n))
    (stopped : s.openPanel file n = .error o) : Stops s line := by
  cases read : Document.read s.session.surroundings.files file with
  | error cause =>
    rw [openPanel_unreadable read] at stopped
    cases stopped
  | ok d =>
    cases found : Detect.handler? d.lines n d.file with
    | error miss =>
      rw [openPanel_missed read found, map_eq_error_iff, checkedWord_eq_error_iff] at stopped
      obtain rfl : n = maxWord := Nat.le_antisymm (word_of_openPanel asked) (Nat.le_of_lt_succ stopped)
      exact .lastLine asked read found
    | ok h =>
      obtain ⟨endpoint, session, _, opened⟩ := openPanel_found read found
      rw [opened, map_eq_error_iff, checkedWord_eq_error_iff] at stopped
      exact .lastPanel asked read found (Nat.le_of_lt_succ stopped)

/-- A line is handled unless a number that it needs does not fit its word. -/
theorem handleLine_eq_error_iff : s.handleLine line = .error o ↔ Stops s line := by
  constructor
  · intro stopped
    obtain blank | ⟨r, refused⟩ | ⟨command, asked⟩ | ⟨name, m, p, told, isOpen⟩ := line_cases s line
    · cases (handleLine_of_blank blank).symm.trans stopped
    · cases (handleLine_of_refused refused).symm.trans stopped
    · rw [handleLine_of_command asked] at stopped
      cases command with
      | openPanel file n => exact .of_openPanel asked stopped
      | closePanel | provideLenses | documentClosed | shutdown => cases stopped
    · rw [handleLine_of_told told isOpen, tellPanel, map_eq_error_iff] at stopped
      exact .panel told isOpen (Panel.handle_eq_error_iff.mp stopped)
  · intro stops
    cases stops with
    | lastLine asked read missed =>
      rw [handleLine_of_command asked, perform, openPanel_missed read missed, map_eq_error_iff,
        checkedWord_eq_error_iff]
      exact Nat.lt_succ_self maxWord
    | lastPanel asked read found last =>
      obtain ⟨endpoint, session, _, opened⟩ := openPanel_found read found
      rw [handleLine_of_command asked, perform, opened, map_eq_error_iff, checkedWord_eq_error_iff]
      exact Nat.lt_succ_of_le last
    | panel told isOpen overflows =>
      rw [handleLine_of_told told isOpen, tellPanel, map_eq_error_iff, Panel.handle_eq_error_iff]
      exact overflows

theorem handled_iff_not_stops : (∃ step, s.handleLine line = .ok step) ↔ ¬Stops s line := by
  cases handled : s.handleLine line with
  | ok step =>
    refine ⟨fun _ stops => ?_, fun _ => ⟨step, rfl⟩⟩
    cases (handleLine_eq_error_iff.mpr stops : _ = .error .overflow).symm.trans handled
  | error o => simpa using handleLine_eq_error_iff.mp handled

end Server

end EndpointConsole
