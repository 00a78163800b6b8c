import EndpointConsole.Proofs.Server.Answers

/-!
Everything that happens to a server, one event after the other: lines that it handles, timers that
fire, and changes around its session (`Run`). What a server makes of the lines that it serves is
such a run (`Run.of_serve`). The events so far tell which panels are open (`IsOpen`) and which of
them have been ready (`WasReady`).
-/
namespace EndpointConsole

open Source (Document)

/-- Sessions with the same settings that both keep a history or not, and have sent the same. -/
structure Session.Agrees (old new : Session) : Prop where
  settings : new.settings = old.settings
  history : new.history.isSome = old.history.isSome
  sent : new.surroundings.sent = old.surroundings.sent

namespace Session

theorem Agrees.refl (s : Session) : s.Agrees s := ⟨rfl, rfl, rfl⟩

/-- Detection touches nothing but the versions that are known. -/
theorem agrees_detect {s next : Session} {file : Text} {n : Nat} {outcome : Except DetectFailure Endpoint}
    (detected : s.detect file n = .ok (outcome, next)) : s.Agrees next := by
  cases read : Document.read s.surroundings.files file with
  | error cause =>
    rw [detect_unreadable read] at detected
    cases detected
    exact .refl s
  | ok d =>
    cases handled : Detect.handler? d.lines n d.file with
    | error miss =>
      rw [detect_missed read handled, map_eq_ok_iff] at detected
      obtain ⟨_, _, same⟩ := detected
      cases same
      exact .refl s
    | ok h =>
      obtain ⟨endpoint, composer, found⟩ := detect_found read handled
      rw [found] at detected
      cases detected
      exact ⟨rfl, rfl, rfl⟩

theorem agrees_provideLenses (s : Session) (d : Document) : s.Agrees (s.provideLenses d).2 := ⟨rfl, rfl, rfl⟩

theorem agrees_closeLenses (s : Session) (uri : Text) : s.Agrees (s.closeLenses uri) := ⟨rfl, rfl, rfl⟩

/-- What a watch reports makes nothing but URLs of projects forgotten. -/
theorem agrees_launchSettingsChanged (s : Session) (path : Text) : s.Agrees (s.launchSettingsChanged path) :=
  ⟨rfl, rfl, rfl⟩

theorem agrees_forgetProjects (s : Session) : s.Agrees s.forgetProjects := ⟨rfl, rfl, rfl⟩

theorem agrees_fireLenses (s : Session) (pending : Lens.Pending) : s.Agrees (s.fireLenses pending).2 := ⟨rfl, rfl, rfl⟩

end Session

namespace Server

/-! ### Events -/

inductive Event where
  /-- A line is handled. -/
  | line (text : Text) (before : Server) (step : Step)
  /-- A timer fires. -/
  | fired (messages : List Json)
  /-- Something changes around the session. -/
  | outside

namespace Event

def messages : Event → List Json
  | .line _ _ step => step.messages
  | .fired messages => messages
  | .outside => []

def line? : Event → Option Text
  | .line text _ _ => some text
  | .fired _ | .outside => none

/-- Whether an event is a line that closes a panel. -/
def Closes (name : Text) (e : Event) : Prop := e.line?.bind command? = some (.closePanel name)

/-- Whether an event is a line with a message for a panel. -/
def Tells (name : Text) (m : Panel.Inbound) (e : Event) : Prop := e.line?.bind told? = some (name, m)

/-- Whether an event is a line that shuts the server down. -/
def ShutsDown (e : Event) : Prop := e.line?.bind command? = some .shutdown

end Event

/-- The messages of some events in order. -/
def messages (es : List Event) : List Json := es.flatMap Event.messages

/-- The panel that a message reports as opened. -/
def opened? (m : Json) : Option Text :=
  if typeOf? m = some "panelOpened".toList then (m.member? "data".toList).bind panelOf? else none

/-- The panels that are reported as opened, in order. -/
def openedBy (es : List Event) : List Text := (messages es).filterMap opened?

/-- Whether a message starts the view of a panel. -/
def isStartOf (name : Text) (m : Json) : Bool := typeOf? m = some "initialize".toList && panelOf? m = some name

/-- The times that the view of a panel is started. -/
def startsOf (name : Text) (es : List Event) : Nat := (messages es).countP (isStartOf name)

/-- Whether a panel was opened and has not been closed since. -/
def IsOpen (past : List Event) (name : Text) : Prop :=
  ∃ before e later, past = before ++ e :: later ∧ name ∈ openedBy [e] ∧ ∀ e ∈ later, ¬e.Closes name

/-- Whether a panel has been ready while it was open. -/
def WasReady (past : List Event) (name : Text) : Prop :=
  ∃ before e later, past = before ++ e :: later ∧ IsOpen before name ∧ e.Tells name .ready

/-- What may happen to a server that serves a session, with whether it goes on. -/
inductive Run (session : Session) : List Event → Server → Bool → Prop where
  | start : Run session [] { session } true
  | line {es : List Event} {s : Server} {line : Text} {step : Step} (run : Run session es s true)
      (handled : s.handleLine line = .ok step) : Run session (es ++ [.line line s step]) step.server step.goesOn
  | fired {es : List Event} {s : Server} {goesOn : Bool} {pending : Lens.Pending} (run : Run session es s goesOn)
      (waiting : pending ∈ s.waiting) : Run session (es ++ [.fired (s.fire pending).1]) (s.fire pending).2 goesOn
  | outside {es : List Event} {s : Server} {goesOn : Bool} {next : Session} (run : Run session es s goesOn)
      (agrees : s.session.Agrees next) : Run session (es ++ [.outside]) { s with session := next } goesOn

variable {session : Session} {es past : List Event} {s : Server} {goesOn : Bool} {e : Event} {name : Text} {m : Json}

/-! ### One event more -/

@[simp]
theorem openedBy_concat : openedBy (es ++ [e]) = openedBy es ++ openedBy [e] := by
  simp [openedBy, messages]

@[simp]
theorem startsOf_concat : startsOf name (es ++ [e]) = startsOf name es + startsOf name [e] := by
  simp [startsOf, messages]

/-- A place among some events and one more is the last one, or lies among the others. -/
theorem exists_split_concat {P : List Event → Event → List Event → Prop} :
    (∃ before e' later, past ++ [e] = before ++ e' :: later ∧ P before e' later) ↔
      P past e [] ∨ ∃ before e' later, past = before ++ e' :: later ∧ P before e' (later ++ [e]) := by
  constructor
  · rintro ⟨before, e', later, same, held⟩
    rcases List.eq_nil_or_concat later with rfl | ⟨later, last, rfl⟩
    · obtain ⟨rfl, one⟩ := List.append_inj' same rfl
      cases one
      exact .inl held
    · rw [List.concat_eq_append, ← List.cons_append, ← List.append_assoc] at same
      obtain ⟨rfl, one⟩ := List.append_inj' same rfl
      cases one
      exact .inr ⟨before, e', later, rfl, List.concat_eq_append ▸ held⟩
  · rintro (held | ⟨before, e', later, rfl, held⟩)
    · exact ⟨past, e, [], rfl, held⟩
    · exact ⟨before, e', later ++ [e], by simp, held⟩

theorem isOpen_concat : IsOpen (past ++ [e]) name ↔ name ∈ openedBy [e] ∨ IsOpen past name ∧ ¬e.Closes name := by
  rw [IsOpen, exists_split_concat]
  refine or_congr (and_iff_left (by simp)) ⟨?_, ?_⟩
  · rintro ⟨before, e', later, rfl, opens, unclosed⟩
    exact ⟨⟨before, e', later, rfl, opens, fun e among => unclosed e (List.mem_append_left _ among)⟩,
      unclosed e (List.mem_append_right _ (List.mem_singleton_self e))⟩
  · rintro ⟨⟨before, e', later, rfl, opens, unclosed⟩, last⟩
    refine ⟨before, e', later, rfl, opens, fun e'' among => ?_⟩
    rcases List.mem_append.mp among with earlier | final
    · exact unclosed e'' earlier
    · rwa [List.mem_singleton.mp final]

theorem wasReady_concat :
    WasReady (past ++ [e]) name ↔ WasReady past name ∨ IsOpen past name ∧ e.Tells name .ready := by
  rw [WasReady, exists_split_concat, or_comm]
  rfl

theorem not_isOpen_nil : ¬IsOpen [] name := by
  rintro ⟨before, e, later, same, _⟩
  exact absurd same (by simp)

theorem not_wasReady_nil : ¬WasReady [] name := by
  rintro ⟨before, e, later, same, _⟩
  exact absurd same (by simp)

/-- An open panel has been opened. -/
theorem IsOpen.mem (isOpen : IsOpen past name) : name ∈ openedBy past := by
  obtain ⟨before, e, later, rfl, opens, _⟩ := isOpen
  rw [openedBy, messages, List.flatMap_append, List.flatMap_cons]
  simp only [openedBy, messages, List.flatMap_cons, List.flatMap_nil, List.append_nil] at opens
  simp [opens]

/-- Only panels that were opened have been ready. -/
theorem WasReady.mem (ready : WasReady past name) : name ∈ openedBy past := by
  obtain ⟨before, e, later, rfl, isOpen, _⟩ := ready
  rw [openedBy, messages, List.flatMap_append, List.filterMap_append]
  exact List.mem_append_left _ isOpen.mem

theorem forall_split_concat {P : List Event → Event → List Event → Prop} :
    (∀ before e' later, past ++ [e] = before ++ e' :: later → P before e' later) ↔
      P past e [] ∧ ∀ before e' later, past = before ++ e' :: later → P before e' (later ++ [e]) := by
  have dual : (∃ before e' later, past ++ [e] = before ++ e' :: later ∧ ¬P before e' later) ↔
      ¬P past e [] ∨ ∃ before e' later, past = before ++ e' :: later ∧ ¬P before e' (later ++ [e]) :=
    exists_split_concat (P := fun before e' later => ¬P before e' later)
  simpa using not_congr dual

namespace Run

/-- Each line of a run was handled after the events before it. -/
theorem line_handled (run : Run session es s goesOn) : ∀ before e later, es = before ++ e :: later →
    ∀ line s step, e = .line line s step → Run session before s true ∧ s.handleLine line = .ok step := by
  induction run with
  | start => intro before e later same; exact absurd same (by simp)
  | line run handled ih =>
    refine forall_split_concat.mpr ⟨fun _ _ _ same => ?_, ih⟩
    cases same
    exact ⟨run, handled⟩
  | fired _ _ ih | outside _ _ ih => exact forall_split_concat.mpr ⟨fun _ _ _ same => (nomatch same), ih⟩

end Run

/-- A server goes on from every line that it handles but one that shuts it down. -/
theorem Way.goesOn_eq_false_iff (way : Way s line step) : step.goesOn = false ↔ command? line = some .shutdown := by
  cases way with
  | shutdown asked => exact iff_of_true rfl asked
  | blank blank =>
    refine iff_of_false nofun fun asked => ?_
    obtain ⟨e, read, _⟩ := command?_eq_some_iff.mp asked
    cases (parse?_of_blank blank).symm.trans read
  | rejected rejected =>
    refine iff_of_false nofun fun asked => ?_
    obtain ⟨_, _, same⟩ := rejected.asks_openPanel asked
    cases same
  | opened asked | closed asked | documentClosed asked => exact iff_of_false nofun (by simp [asked])
  | @lenses d asked =>
    obtain ⟨_, _, _, same⟩ := provideLenses_eq s d
    exact iff_of_false (by simp [same]) (by simp [asked])
  | told told => exact iff_of_false nofun (by simp [command?_of_told told])

namespace Run

/-- A server stops after a line that shuts it down, and only then. -/
theorem goesOn_eq_false_iff (run : Run session es s goesOn) : goesOn = false ↔ ∃ e ∈ es, e.ShutsDown := by
  induction run with
  | start => simp
  | @line es s line step _ handled ih =>
    have before : ¬∃ e ∈ es, e.ShutsDown := fun down => nomatch ih.mpr down
    rw [(handleLine_eq_ok_iff.mp handled).goesOn_eq_false_iff]
    simp only [List.mem_append, List.mem_singleton, or_and_right, exists_or, exists_eq_left, before, false_or]
    rfl
  | fired _ _ ih | outside _ _ ih =>
    rw [ih]
    simp [Event.ShutsDown, Event.line?]

/-- The lines that a server handles one after the other go on with its run. -/
theorem handleLines {lines : List Text} {out : List Json} {last : Server} (run : Run session es s true)
    (handled : s.handleLines lines = .ok (out, last)) :
    ∃ more goesOn, Run session (es ++ more) last goesOn ∧ messages more = out ∧
      more.filterMap Event.line? <+: lines := by
  induction lines generalizing es s out with
  | nil =>
    cases handled
    exact ⟨[], true, by rwa [List.append_nil], rfl, List.nil_prefix⟩
  | cons line rest ih =>
    cases first : s.handleLine line with
    | error o => simp only [Server.handleLines, first, bind, Except.bind] at handled; cases handled
    | ok step =>
      cases goesOn : step.goesOn with
      | false =>
        cases (handleLines_of_last first goesOn).symm.trans handled
        exact ⟨[.line line s step], false, goesOn ▸ run.line first, by simp [messages, Event.messages],
          by simp [Event.line?]⟩
      | true =>
        rw [handleLines_cons first goesOn, map_eq_ok_iff] at handled
        obtain ⟨⟨later, _⟩, handled, same⟩ := handled
        cases same
        obtain ⟨more, still, run, rfl, lines⟩ := ih (goesOn ▸ run.line first) handled
        refine ⟨.line line s step :: more, still, by simpa using run, by simp [messages, Event.messages], ?_⟩
        simpa [Event.line?] using lines

/-- The timers that are waited for in the end go on with a run. -/
theorem fireEach {waiting : List Lens.Pending} (run : Run session es s goesOn) (held : s.waiting = waiting) :
    ∃ more, Run session (es ++ more) (s.fireEach waiting).2 goesOn ∧ messages more = (s.fireEach waiting).1 ∧
      more.filterMap Event.line? = [] := by
  induction waiting generalizing es s with
  | nil => exact ⟨[], by rwa [List.append_nil], rfl, rfl⟩
  | cons pending rest ih =>
    have left : (s.fire pending).2.waiting = rest := by
      obtain ⟨_, same, _⟩ := fire_eq s pending
      rw [same, held, List.erase_cons_head]
    obtain ⟨more, run, sent, lines⟩ := ih (run.fired (held ▸ List.mem_cons_self)) left
    refine ⟨.fired (s.fire pending).1 :: more, by simpa [Server.fireEach] using run, ?_,
      by simpa [Event.line?] using lines⟩
    simp [Server.fireEach, messages, Event.messages, ← sent]

/-- Serving lines is a run. -/
theorem of_serve {lines : List Text} {out : List Json} {after : Session}
    (served : serve session lines = .ok (out, after)) :
    ∃ es s goesOn, Run session es s goesOn ∧ messages es = out ∧ s.session = after ∧
      es.filterMap Event.line? <+: lines := by
  rw [serve] at served
  cases handled : Server.handleLines { session } lines with
  | error o => simp only [handled, bind, Except.bind] at served; cases served
  | ok result =>
    obtain ⟨first, s⟩ := result
    obtain ⟨es, goesOn, run, rfl, processed⟩ := start.handleLines handled
    obtain ⟨more, fired, delivered, silent⟩ := run.fireEach rfl
    simp only [handled, bind, Except.bind] at served
    cases served
    refine ⟨_, _, goesOn, fired, ?_, rfl, ?_⟩
    · rw [← delivered]
      simp [messages]
    · rw [List.filterMap_append, silent, List.append_nil]
      exact processed

end Run

end Server

end EndpointConsole
