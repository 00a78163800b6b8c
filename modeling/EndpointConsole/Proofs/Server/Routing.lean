import EndpointConsole.Proofs.Server.Panels

/-!
Panels over a whole run. No name is given to two panels, and no view is started twice. A line for an
open panel is answered by it alone and any other line for a panel by one error, a request is sent
once and answered by its response and the history, and nothing is handled after the line that shuts
the server down (`Run.routes`). Numbers that do not fit their words are all that keeps a line from
being handled: for a request the longest body that the history keeps, for a new view the time before
which its items go.
-/
namespace EndpointConsole.Server

variable {session : Session} {es past : List Event} {s : Server} {goesOn : Bool} {e : Event} {line name : Text}
  {m : Panel.Inbound} {p : Panel} {step : Step}

/-- A line for an open panel is answered by the panel. -/
theorem answered_by_panel (handled : s.handleLine line = .ok step) (told : told? line = some (name, m))
    (isOpen : Json.lookup? name s.panels = some p) :
    ∃ answer, p.Handles s.session m answer ∧ step.messages = answer.replies.map (·.toJson name) ∧
      step.server.session = answer.session := by
  rw [handleLine_of_told told isOpen, tellPanel, map_eq_ok_iff] at handled
  obtain ⟨answer, handled, rfl⟩ := handled
  exact ⟨answer, Panel.handles_of_ok handled, rfl, rfl⟩

theorem stops_iff_of_told (told : told? line = some (name, m)) (isOpen : Json.lookup? name s.panels = some p) :
    Stops s line ↔ p.Overflows s.session m := by
  constructor
  · rintro (⟨asked, _, _⟩ | ⟨asked, _, _, _⟩ | ⟨told', isOpen', overflows⟩)
    · cases (command?_of_told told).symm.trans asked
    · cases (command?_of_told told).symm.trans asked
    · cases told.symm.trans told'
      cases isOpen.symm.trans isOpen'
      exact overflows
  · exact .panel told isOpen

/-- A line sends nothing unless it has a request for an open panel. -/
theorem Way.sends_nothing (way : Way s line step)
    (other : ∀ name submission, told? line = some (name, .sendRequest submission) → Json.lookup? name s.panels = none) :
    step.server.session.surroundings.sent = s.session.surroundings.sent := by
  cases way with
  | blank | rejected | closed | documentClosed | shutdown => rfl
  | opened _ found => exact (Session.agrees_detect found).sent
  | @lenses d _ =>
    obtain ⟨_, _, _, same⟩ := provideLenses_eq s d
    rw [same]
    exact (Session.agrees_provideLenses s.session d).sent
  | @told name m p answer told isOpen handled =>
    have sent := (Panel.handles_of_ok handled).sent
    cases m with
    | sendRequest submission => cases (other name submission told).symm.trans isOpen
    | ready | requestBaseUrls | saveBaseUrls | startDebug | clearHistory => rw [sent]; exact List.append_nil _

/-- How a line is answered, by what happened before. -/
structure Routed (session : Session) (past : List Event) (line : Text) (before : Server) (step : Step) : Prop where
  /-- An open panel answers for itself. -/
  own : ∀ name m, told? line = some (name, m) → IsOpen past name → ∀ reply ∈ step.messages, panelOf? reply = some name
  refused : ∀ name, addressee? line = some name → (∀ m, told? line = some (name, m) → ¬IsOpen past name) →
    ∃ text, step = ⟨[errorMessage text], before, true⟩
  /-- A view is started when it is ready for the first time. -/
  starts : ∀ name, (∃ m ∈ step.messages, isStartOf name m = true) ↔
    (IsOpen past name ∧ told? line = some (name, .ready)) ∧ ¬WasReady past name
  /-- A request is sent once and answered by its response, and by the history if one is kept. -/
  sends : ∀ name submission, told? line = some (name, .sendRequest submission) → IsOpen past name →
    step.server.session.surroundings.sent =
        before.session.surroundings.sent ++ [⟨submission.resolve.1, session.settings.requestSeconds⟩] ∧
      step.messages.map typeOf? = some "requestComplete".toList ::
        if session.history.isSome then [some "requestHistoryLoaded".toList] else []
  sendsNothing : (∀ name submission, told? line = some (name, .sendRequest submission) → ¬IsOpen past name) →
    step.server.session.surroundings.sent = before.session.surroundings.sent

/-- What holds of every run. -/
structure Routes (session : Session) (es : List Event) (s : Server) (goesOn : Bool) : Prop where
  opened_once : (openedBy es).Nodup
  started_once : ∀ name, startsOf name es ≤ 1
  routed : ∀ past e later, es = past ++ e :: later → ∀ line before step, e = .line line before step →
    Routed session past line before step
  /-- No line is handled after one that shuts the server down. -/
  shutdown : ∀ past e later, es = past ++ e :: later → e.ShutsDown → ∀ e ∈ later, e.line? = none
  /-- The server goes on from every other line. -/
  goesOn_iff : goesOn = true ↔ ∀ e ∈ es, ¬e.ShutsDown
  last : ∀ line rest, command? line = some .shutdown → s.handleLines (line :: rest) = .ok ([], s)
  handled_iff : ∀ line, (∃ step, s.handleLine line = .ok step) ↔ ¬Stops s line
  sends_iff : ∀ line name submission, told? line = some (name, .sendRequest submission) → IsOpen es name →
    ((∃ step, s.handleLine line = .ok step) ↔ ¬(session.history.isSome = true ∧ session.settings.BodyOverflows))
  ready_iff : ∀ line name, told? line = some (name, .ready) → IsOpen es name →
    ((∃ step, s.handleLine line = .ok step) ↔
      (WasReady es name ∨ ∀ h, s.session.history = some h → ¬h.Overflows s.session.surroundings.clock))

namespace Kept

theorem held (kept : Kept session es s) (isOpen : IsOpen es name) : ∃ p, Json.lookup? name s.panels = some p :=
  Option.isSome_iff_exists.mp ((kept.isOpen name).mpr isOpen)

/-- A line for a panel that is not open, or that has no message for it, is refused. -/
theorem refused (kept : Kept session es s) (handled : s.handleLine line = .ok step)
    (addressed : addressee? line = some name) (other : ∀ m, told? line = some (name, m) → ¬IsOpen es name) :
    ∃ text, step = ⟨[errorMessage text], s, true⟩ := by
  obtain ⟨e, read, panel⟩ := Option.bind_eq_some_iff.mp addressed
  have refused : ∃ r, Refused s line r := by
    cases held : Json.lookup? name s.panels with
    | none => exact ⟨_, .unknownPanel read panel held⟩
    | some p =>
      cases decoded : inboundOf? e with
      | none => exact ⟨_, .badPanelMessage read panel (by rw [held]; rfl) decoded⟩
      | some m =>
        have told := told?_eq_some_iff.mpr ⟨e, read, panel, decoded⟩
        exact absurd ((kept.isOpen name).mp (by rw [held]; rfl)) (other m told)
  obtain ⟨r, refused⟩ := refused
  cases (handleLine_of_refused refused).symm.trans handled
  exact ⟨r.message, rfl⟩

theorem routed (kept : Kept session es s) (handled : s.handleLine line = .ok step) : Routed session es line s step where
  own := fun name m told isOpen reply among => by
    obtain ⟨p, held⟩ := kept.held isOpen
    obtain ⟨answer, _, messages, _⟩ := answered_by_panel handled told held
    rw [messages] at among
    obtain ⟨out, _, rfl⟩ := List.mem_map.mp among
    exact panelOf?_toJson out name
  refused := fun name => kept.refused handled
  starts := fun name => by
    have effect := (handleLine_eq_ok_iff.mp handled).effect.starts name
    rw [startsOf_singleton, kept.firstReady_iff] at effect
    rw [← List.countP_pos_iff]
    rcases effect with ⟨one, first⟩ | ⟨zero, later⟩
    · exact iff_of_true (by rw [Event.messages] at one; omega) first
    · exact iff_of_false (by rw [Event.messages] at zero; omega) later
  sends := fun name submission told isOpen => by
    obtain ⟨p, held⟩ := kept.held isOpen
    obtain ⟨answer, handles, messages, after⟩ := answered_by_panel handled told held
    refine ⟨by rw [after, handles.sent, kept.settings]; rfl, ?_⟩
    have answers := handles.request submission rfl
    rw [messages, ← kept.history]
    generalize answer.replies = replies at answers
    cases answers with
    | alone forgets =>
      rw [if_neg (by simp [forgets])]
      simp only [List.map_cons, List.map_nil, typeOf?_toJson]
      rfl
    | recorded keeps =>
      rw [if_pos keeps]
      simp only [List.map_cons, List.map_nil, typeOf?_toJson]
      rfl
  sendsNothing := fun other => (handleLine_eq_ok_iff.mp handled).sends_nothing fun name submission told => by
    rw [← Option.not_isSome_iff_eq_none, kept.isOpen]
    exact other name submission told

theorem sends_iff {submission : Panel.Submission} (kept : Kept session es s)
    (told : told? line = some (name, .sendRequest submission)) (isOpen : IsOpen es name) :
    (∃ step, s.handleLine line = .ok step) ↔ ¬(session.history.isSome = true ∧ session.settings.BodyOverflows) := by
  obtain ⟨p, held⟩ := kept.held isOpen
  rw [handled_iff_not_stops, stops_iff_of_told told held, ← kept.history, ← kept.settings]
  exact not_congr ⟨fun | .body _ keeps beyond => ⟨keeps, beyond⟩, fun ⟨keeps, beyond⟩ => .body submission keeps beyond⟩

theorem ready_iff (kept : Kept session es s) (told : told? line = some (name, .ready)) (isOpen : IsOpen es name) :
    (∃ step, s.handleLine line = .ok step) ↔
      (WasReady es name ∨ ∀ h, s.session.history = some h → ¬h.Overflows s.session.surroundings.clock) := by
  obtain ⟨p, held⟩ := kept.held isOpen
  rw [handled_iff_not_stops, stops_iff_of_told told held, ← not_iff_not, not_not, not_or, ← kept.isNew name p held]
  constructor
  · rintro ⟨isNew, keeps, beyond⟩
    exact ⟨isNew, fun fits => fits _ keeps beyond⟩
  · rintro ⟨isNew, beyond⟩
    simp only [not_forall, not_not] at beyond
    obtain ⟨h, keeps, beyond⟩ := beyond
    exact .retention isNew keeps beyond

end Kept

/-- After a line that shuts the server down comes no other one. -/
theorem Run.no_line_after (run : Run session es s goesOn) :
    ∀ before e later, es = before ++ e :: later → e.ShutsDown → ∀ e ∈ later, e.line? = none := by
  induction run with
  | start => intro before e later same; exact absurd same (by simp)
  | @line es _ _ _ run _ _ =>
    refine forall_split_concat.mpr ⟨fun _ _ among => absurd among List.not_mem_nil, fun before e later same down => ?_⟩
    have among : e ∈ es := same ▸ List.mem_append_right before List.mem_cons_self
    cases run.goesOn_eq_false_iff.mpr ⟨e, among, down⟩
  | fired _ _ ih | outside _ _ ih =>
    refine forall_split_concat.mpr
      ⟨fun _ _ among => absurd among List.not_mem_nil, fun before e later same down e' among => ?_⟩
    rcases List.mem_append.mp among with earlier | last
    · exact ih before e later same down e' earlier
    · rw [List.mem_singleton.mp last, Event.line?]

/-- Panels are opened, answered for and started as promised, in every run. -/
theorem Run.routes (run : Run session es s goesOn) : Routes session es s goesOn where
  opened_once := run.kept.nodup
  started_once := fun name => by
    rcases run.kept.starts name with ⟨one, _⟩ | ⟨zero, _⟩ <;> omega
  routed := fun past e later same line before step event =>
    have ⟨past, handled⟩ := run.line_handled past e later same line before step event
    past.kept.routed handled
  shutdown := run.no_line_after
  goesOn_iff := by
    have stopped := run.goesOn_eq_false_iff
    cases goesOn <;> simpa using stopped
  last := fun _ _ asked => handleLines_of_last (handleLine_of_command asked) rfl
  handled_iff := fun _ => handled_iff_not_stops
  sends_iff := fun _ _ _ told isOpen => run.kept.sends_iff told isOpen
  ready_iff := fun _ _ told isOpen => run.kept.ready_iff told isOpen

def readyLine : Text := "\x7b\"type\":\"webviewReady\",\"panel\":\"panel-1\"\x7d".toList

def sendLine : Text :=
  "\x7b\"type\":\"sendRequest\",\"panel\":\"panel-1\",".toList ++
    "\"data\":\x7b\"method\":\"GET\",\"url\":\"http://a/\"\x7d\x7d".toList

/-- A view that is ready twice and sends a request, between two panels that are opened. -/
theorem routes_shop :
    ∃ es s goesOn, Run (shopSession {}) es s goesOn ∧
      (messages es).map typeOf? = ["panelOpened".toList, "i18n".toList, "renderSettings".toList, "initialize".toList,
        "loadBaseUrls".toList, "requestHistoryLoaded".toList, "requestComplete".toList, "requestHistoryLoaded".toList,
        "panelOpened".toList].map some ∧
      Routes (shopSession {}) es s goesOn := by
  have handled : ((shop.handleLines [openLine 2, readyLine, readyLine, sendLine, openLine 2]).toOption.map fun result =>
      result.1.map typeOf?) = some (["panelOpened".toList, "i18n".toList, "renderSettings".toList, "initialize".toList,
        "loadBaseUrls".toList, "requestHistoryLoaded".toList, "requestComplete".toList, "requestHistoryLoaded".toList,
        "panelOpened".toList].map some) := by decide +kernel
  obtain ⟨⟨out, last⟩, answered, types⟩ := Option.map_eq_some_iff.mp handled
  cases result : shop.handleLines [openLine 2, readyLine, readyLine, sendLine, openLine 2] with
  | error o => rw [result] at answered; cases answered
  | ok _ =>
    rw [result] at answered
    cases answered
    obtain ⟨es, goesOn, run, rfl, _⟩ := Run.start.handleLines result
    exact ⟨es, last, goesOn, run, types, run.routes⟩

/-- The first panel can be opened. -/
theorem run_shop (settings : Settings) : ∃ es s, Run (shopSession settings) es s true ∧ IsOpen es (panelName 1) := by
  cases found : Detect.handler? controller.lines 2 controller.file with
  | error miss => cases (congrArg Except.isOk found).symm.trans handler?_controller
  | ok h =>
    obtain ⟨endpoint, session, detected, _⟩ :=
      openPanel_found (s := { session := shopSession settings }) read_controller found
    have fits : 1 + 1 ≤ maxWord := by decide
    have opened := Run.start.line (handleLine_eq_ok_iff.mpr (.opened command?_openLine detected fits))
    exact ⟨_, _, opened, (opened.kept.isOpen (panelName 1)).mp (by simp [Json.lookup?])⟩

def submission : Panel.Submission := { request := { method := "GET".toList, url := "http://a/".toList } }

/-- A request goes unanswered when the longest body that is kept does not fit a word in bytes. -/
theorem request_unanswered :
    ∃ es s, Run (shopSession { historyBodyKb := 18014398509481984 }) es s true ∧ IsOpen es (panelName 1) ∧
      told? sendLine = some (panelName 1, .sendRequest submission) ∧ s.handleLine sendLine = .error .overflow := by
  obtain ⟨es, s, run, isOpen⟩ := run_shop { historyBodyKb := 18014398509481984 }
  have told : told? sendLine = some (panelName 1, .sendRequest submission) := by decide +kernel
  obtain ⟨p, held⟩ := run.kept.held isOpen
  have overflows : p.Overflows s.session (.sendRequest submission) :=
    .body submission (by rw [run.kept.history]; rfl) (by rw [run.kept.settings, Settings.BodyOverflows]; decide)
  exact ⟨es, s, run, isOpen, told, handleLine_eq_error_iff.mpr (.panel told held overflows)⟩

end EndpointConsole.Server
