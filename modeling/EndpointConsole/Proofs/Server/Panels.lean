import EndpointConsole.Proofs.Json.Members
import EndpointConsole.Proofs.Server.Conversation
import EndpointConsole.Proofs.Sorted

/-!
The panels of a server in the course of a run. `Effect` is all that an event does to them, with one
lemma for each way to handle a line (`Way.effect`). Step by step the server's own table agrees with
what the events tell (`Run.kept`): a panel is in it while it is open, and is new until it was ready.
So a name is never given twice, and a view is started once.
-/
namespace EndpointConsole.Server

open Source (Document)

variable {session : Session} {es past : List Event} {s : Server} {goesOn : Bool} {e : Event} {name : Text} {m : Json}

/-! ### Messages and panels -/

theorem openedBy_singleton : openedBy [e] = e.messages.filterMap opened? := by
  simp [openedBy, messages]

theorem startsOf_singleton : startsOf name [e] = e.messages.countP (isStartOf name) := by
  simp [startsOf, messages]

theorem opened?_openedMessage (panel : Text) (e : Endpoint) : opened? (openedMessage panel e) = some panel := by
  rw [opened?, if_pos (typeOf?_openedMessage panel e)]
  simp [openedMessage, message, panelOf?, Json.member?, Json.lookup?, Json.text?]

theorem opened?_of_type {type : Text} (typed : typeOf? m = some type) (other : type ≠ "panelOpened".toList) :
    opened? m = none := by
  rw [opened?, typed, if_neg (by rwa [Option.some.injEq])]

theorem isStartOf_of_type {type : Text} (typed : typeOf? m = some type) (other : type ≠ "initialize".toList) :
    isStartOf name m = false := by
  rw [isStartOf, typed, decide_eq_false (by rwa [Option.some.injEq]), Bool.false_and]

/-- A message that neither opens a panel nor starts a view. -/
def IsAside (m : Json) : Prop := opened? m = none ∧ ∀ name, isStartOf name m = false

theorem isAside_of_type {type : Text} (typed : typeOf? m = some type)
    (other : type ≠ "panelOpened".toList ∧ type ≠ "initialize".toList) : IsAside m :=
  ⟨opened?_of_type typed other.1, fun _ => isStartOf_of_type typed other.2⟩

theorem opened?_toJson (reply : Panel.Outbound) (panel : Text) : opened? (reply.toJson panel) = none :=
  opened?_of_type (typeOf?_toJson reply panel) (not_type_of_server reply).2

theorem isStartOf_toJson (reply : Panel.Outbound) (panel : Text) :
    isStartOf name (reply.toJson panel) = (reply.isStart && panel = name) := by
  have start : reply.type = "initialize".toList ↔ reply.isStart = true := by
    cases reply <;> exact of_decide_eq_true rfl
  simp only [isStartOf, typeOf?_toJson, panelOf?_toJson, Option.some.injEq, start, Bool.decide_eq_true]

theorem panelName_injective : Function.Injective panelName := fun n k same => by
  have digits : Nat.toDigits 10 n = Nat.toDigits 10 k := List.append_cancel_left same
  rw [← Nat.ofDigitChars_ten_toDigits (n := n), digits, Nat.ofDigitChars_ten_toDigits]

theorem lookup?_setPanel (name key : Text) (p : Panel) (panels : List (Text × Panel)) :
    Json.lookup? name (setPanel key p panels) =
      if key = name then (Json.lookup? name panels).map fun _ => p else Json.lookup? name panels := by
  induction panels with
  | nil => simp [setPanel, Json.lookup?]
  | cons entry rest ih =>
    rw [setPanel] at ih ⊢
    rw [List.map_cons, Json.lookup?, Json.lookup?, ih]
    by_cases same : entry.1 = name
    · by_cases asked : key = name <;> simp [same, asked, Ne.symm]
    · simp [same]

/-! ### What an event does to the panels -/

/-- Whether an event is the first at which an open panel is ready. -/
def FirstReady (s : Server) (e : Event) (name : Text) : Prop :=
  e.Tells name .ready ∧ ∃ p, Json.lookup? name s.panels = some p ∧ p.isNew = true

/-- What an event does to the panels of a server. -/
structure Effect (s : Server) (e : Event) (next : Server) : Prop where
  agrees : next.session.settings = s.session.settings ∧ next.session.history.isSome = s.session.history.isSome
  opens : openedBy [e] = [] ∧ next.nextPanel = s.nextPanel ∨
    openedBy [e] = [panelName s.nextPanel] ∧ next.nextPanel = s.nextPanel + 1
  isOpen : ∀ name, (Json.lookup? name next.panels).isSome = true ↔
    name ∈ openedBy [e] ∨ (Json.lookup? name s.panels).isSome = true ∧ ¬e.Closes name
  isNew : ∀ name p, Json.lookup? name next.panels = some p →
    name ∈ openedBy [e] ∧ p.isNew = true ∨
      ∃ old, Json.lookup? name s.panels = some old ∧ (p.isNew = true ↔ old.isNew = true ∧ ¬e.Tells name .ready)
  starts : ∀ name, startsOf name [e] = 1 ∧ FirstReady s e name ∨ startsOf name [e] = 0 ∧ ¬FirstReady s e name

/-- An event that no open panel takes part in. -/
structure Quiet (s : Server) (e : Event) (next : Server) : Prop where
  panels : next.panels = s.panels
  nextPanel : next.nextPanel = s.nextPanel
  agrees : s.session.Agrees next.session
  messages : ∀ m ∈ e.messages, IsAside m
  closes : ∀ name, ¬e.Closes name
  tells : ∀ name m, e.Tells name m → Json.lookup? name s.panels = none

variable {next : Server}

theorem Quiet.effect (quiet : Quiet s e next) : Effect s e next := by
  have opens : openedBy [e] = [] := by
    rw [openedBy_singleton, List.filterMap_eq_nil_iff]
    exact fun m among => (quiet.messages m among).1
  constructor
  · exact ⟨quiet.agrees.settings, quiet.agrees.history⟩
  · exact .inl ⟨opens, quiet.nextPanel⟩
  · intro name
    rw [quiet.panels, opens]
    simp [quiet.closes name]
  · intro name p held
    rw [quiet.panels] at held
    have untold : ¬e.Tells name .ready := fun told => by cases (quiet.tells name _ told).symm.trans held
    exact .inr ⟨p, held, (and_iff_left untold).symm⟩
  · intro name
    refine .inr ⟨?_, fun ⟨told, p, held, _⟩ => by cases (quiet.tells name _ told).symm.trans held⟩
    rw [startsOf_singleton, List.countP_eq_zero]
    exact fun m among => by rw [(quiet.messages m among).2 name]; decide

section Lines
variable {line : Text} {step : Step}

/-- A line with a command has no message for a panel. -/
theorem not_tells_of_command {command : Command} {m : Panel.Inbound} (asked : command? line = some command) :
    ¬(Event.line line s step).Tells name m := fun told => by
  cases (told?_of_command asked).symm.trans told

theorem effect_of_opened {file : Text} {n : Nat} {endpoint : Endpoint} {next : Session}
    (asked : command? line = some (.openPanel file n)) (agrees : s.session.Agrees next)
    (messages : step.messages = [openedMessage (panelName s.nextPanel) endpoint]) :
    Effect s (.line line s step)
      { s with session := next, panels := s.panels ++ [(panelName s.nextPanel, { endpoint })],
               nextPanel := s.nextPanel + 1 } := by
  have opens : openedBy [.line line s step] = [panelName s.nextPanel] := by
    rw [openedBy_singleton, Event.messages, messages]
    exact List.filterMap_cons_some (opened?_openedMessage ..)
  have unclosed (name : Text) : ¬(Event.line line s step).Closes name := fun closes => by
    cases asked.symm.trans closes
  constructor
  · exact ⟨agrees.settings, agrees.history⟩
  · exact .inr ⟨opens, rfl⟩
  · intro name
    rw [opens, Json.lookup?_concat, Option.isSome_or, List.mem_singleton]
    by_cases same : panelName s.nextPanel = name
    · simp [same]
    · simp [same, unclosed name, Ne.symm same]
  · intro name p held
    rw [Json.lookup?_concat] at held
    cases before : Json.lookup? name s.panels with
    | some old =>
      rw [before] at held
      cases held
      exact .inr ⟨p, rfl, (and_iff_left (not_tells_of_command asked)).symm⟩
    | none =>
      rw [before, Option.none_or] at held
      split at held
      · next same =>
        cases held
        exact .inl ⟨by simp [opens, same], rfl⟩
      · cases held
  · intro name
    refine .inr ⟨?_, fun first => not_tells_of_command asked first.1⟩
    rw [startsOf_singleton, Event.messages, messages, List.countP_singleton,
      isStartOf_of_type (typeOf?_openedMessage ..) (by decide)]
    rfl

theorem effect_of_closed {key : Text} (asked : command? line = some (.closePanel key)) (messages : step.messages = []) :
    Effect s (.line line s step) (s.closePanel key) := by
  have opens : openedBy [.line line s step] = [] := by
    rw [openedBy_singleton, Event.messages, messages]
    rfl
  have closes (name : Text) : (Event.line line s step).Closes name ↔ key = name := by
    rw [Event.Closes, Event.line?, Option.bind_some, asked, Option.some.injEq, Command.closePanel.injEq]
  have held (name : Text) : Json.lookup? name (s.closePanel key).panels =
      if key = name then none else Json.lookup? name s.panels := Sorted.lookup?_erase name key s.panels
  constructor
  · exact ⟨rfl, rfl⟩
  · exact .inl ⟨opens, rfl⟩
  · intro name
    rw [opens, held, closes]
    by_cases same : key = name <;> simp [same]
  · intro name p among
    rw [held] at among
    split at among
    · cases among
    · exact .inr ⟨p, among, (and_iff_left (not_tells_of_command asked)).symm⟩
  · intro name
    refine .inr ⟨?_, fun first => not_tells_of_command asked first.1⟩
    rw [startsOf_singleton, Event.messages, messages]
    rfl

theorem effect_of_told {key : Text} {m : Panel.Inbound} {p : Panel} {answer : Panel.Step}
    (told : told? line = some (key, m)) (isOpen : Json.lookup? key s.panels = some p)
    (handles : p.Handles s.session m answer) (messages : step.messages = answer.replies.map (·.toJson key)) :
    Effect s (.line line s step)
      { s with session := answer.session, panels := setPanel key answer.panel s.panels } := by
  have opens : openedBy [.line line s step] = [] := by
    rw [openedBy_singleton, Event.messages, messages, List.filterMap_eq_nil_iff, List.forall_mem_map]
    exact fun reply _ => opened?_toJson reply key
  have unclosed (name : Text) : ¬(Event.line line s step).Closes name := fun closes => by
    cases (command?_of_told told).symm.trans closes
  have tells (name : Text) : (Event.line line s step).Tells name .ready ↔ key = name ∧ m = .ready := by
    rw [Event.Tells, Event.line?, Option.bind_some, told, Option.some.injEq, Prod.mk.injEq]
  constructor
  · exact ⟨handles.settings, handles.history⟩
  · exact .inl ⟨opens, rfl⟩
  · intro name
    rw [opens, lookup?_setPanel]
    by_cases same : key = name <;> simp [same, unclosed name]
  · intro name panel held
    rw [lookup?_setPanel] at held
    split at held
    · next same =>
      subst same
      rw [isOpen] at held
      cases held
      exact .inr ⟨p, isOpen, by rw [tells, handles.isNew, and_iff_right rfl]⟩
    · next other => exact .inr ⟨panel, held, by simp [tells, other]⟩
  · intro name
    have first : FirstReady s (.line line s step) name ↔ key = name ∧ p.isNew = true ∧ m = .ready := by
      rw [FirstReady, tells]
      constructor
      · rintro ⟨⟨rfl, ready⟩, held⟩
        rw [isOpen] at held
        obtain ⟨_, same, isNew⟩ := held
        cases same
        exact ⟨rfl, isNew, ready⟩
      · rintro ⟨rfl, isNew, ready⟩
        exact ⟨⟨rfl, ready⟩, p, isOpen, isNew⟩
    have starts : startsOf name [.line line s step] =
        if key = name then answer.replies.countP Panel.Outbound.isStart else 0 := by
      rw [startsOf_singleton, Event.messages, messages, List.countP_map]
      split <;> simp [Function.comp_def, isStartOf_toJson, *]
    rw [starts, first, handles.starts]
    by_cases same : key = name
    · by_cases both : p.isNew = true ∧ m = .ready <;> simp [same, both]
    · simp [same]

/-- A line that is neither for an open panel nor opens or closes one. -/
theorem quiet_line {command : Command} {session : Session} {waiting : List Lens.Pending}
    (asked : command? line = some command) (stays : ∀ name, command ≠ .closePanel name)
    (agrees : s.session.Agrees session) (messages : ∀ m ∈ step.messages, IsAside m) :
    Quiet s (.line line s step) { s with session, waiting } where
  panels := rfl
  nextPanel := rfl
  agrees := agrees
  messages := messages
  closes := fun name closes => stays name (Option.some.inj (asked.symm.trans closes))
  tells := fun _ _ told => absurd told (not_tells_of_command asked)

theorem quiet_of_blank (blank : Text.trim line = []) (messages : step.messages = []) :
    Quiet s (.line line s step) s where
  panels := rfl
  nextPanel := rfl
  agrees := .refl _
  messages := by simp [Event.messages, messages]
  closes := fun name closes => by
    obtain ⟨e, read, _⟩ := command?_eq_some_iff.mp closes
    cases (parse?_of_blank blank).symm.trans read
  tells := fun name m told => by
    obtain ⟨e, read, _⟩ := told?_eq_some_iff.mp told
    cases (parse?_of_blank blank).symm.trans read

theorem quiet_of_rejected {reason : Text} (rejected : Rejected s line reason)
    (messages : step.messages = [errorMessage reason]) : Quiet s (.line line s step) s where
  panels := rfl
  nextPanel := rfl
  agrees := .refl _
  messages := by
    rw [Event.messages, messages, List.forall_mem_singleton]
    exact isAside_of_type (typeOf?_errorMessage _) (by decide)
  closes := fun _ closes => by obtain ⟨_, _, same⟩ := rejected.asks_openPanel closes; cases same
  tells := fun _ _ => rejected.not_isOpen

/-- What handling a line does to the panels. -/
theorem Way.effect (way : Way s line step) : Effect s (.line line s step) step.server := by
  cases way with
  | blank blank => exact (quiet_of_blank blank rfl).effect
  | rejected rejected => exact (quiet_of_rejected rejected rfl).effect
  | opened asked found => exact effect_of_opened asked (Session.agrees_detect found) rfl
  | closed asked => exact effect_of_closed asked rfl
  | @lenses d asked =>
    obtain ⟨lenses, stale, waiting, same⟩ := provideLenses_eq s d
    rw [same]
    refine (quiet_line asked nofun (Session.agrees_provideLenses _ d) ?_).effect
    rw [List.forall_mem_singleton]
    exact isAside_of_type (typeOf?_lensesMessage ..) (by decide)
  | documentClosed asked => exact (quiet_line asked nofun (Session.agrees_closeLenses ..) (by simp)).effect
  | shutdown asked => exact (quiet_line asked nofun (.refl _) (by simp)).effect
  | told told isOpen handled => exact effect_of_told told isOpen (Panel.handles_of_ok handled) rfl

end Lines

/-- What happens between the lines closes no panel and has no message for one. -/
theorem quiet_of_no_line {session : Session} {waiting : List Lens.Pending} (silent : e.line? = none)
    (agrees : s.session.Agrees session)
    (messages : ∀ m ∈ e.messages, IsAside m) :
    Quiet s e { s with session, waiting } where
  panels := rfl
  nextPanel := rfl
  agrees := agrees
  messages := messages
  closes := fun name => by simp [Event.Closes, silent]
  tells := fun name m => by simp [Event.Tells, silent]

theorem fire_effect (s : Server) (pending : Lens.Pending) :
    Effect s (.fired (s.fire pending).1) (s.fire pending).2 := by
  obtain ⟨messages, same, typed⟩ := fire_eq s pending
  rw [same]
  refine (quiet_of_no_line rfl (Session.agrees_fireLenses ..) fun m among => ?_).effect
  exact isAside_of_type (typed m among) (by decide)

theorem outside_effect {session : Session} (agrees : s.session.Agrees session) :
    Effect s .outside { s with session } :=
  (quiet_of_no_line rfl agrees (by simp [Event.messages])).effect

/-! ### The panels of a run -/

/-- A server that agrees with the events so far. -/
structure Kept (session : Session) (es : List Event) (s : Server) : Prop where
  settings : s.session.settings = session.settings
  history : s.session.history.isSome = session.history.isSome
  nodup : (openedBy es).Nodup
  numbered : ∀ name ∈ openedBy es, ∃ n < s.nextPanel, panelName n = name
  isOpen : ∀ name, (Json.lookup? name s.panels).isSome = true ↔ IsOpen es name
  isNew : ∀ name p, Json.lookup? name s.panels = some p → (p.isNew = true ↔ ¬WasReady es name)
  starts : ∀ name, startsOf name es = 1 ∧ WasReady es name ∨ startsOf name es = 0 ∧ ¬WasReady es name

namespace Kept

theorem start (session : Session) : Kept session [] { session } where
  settings := rfl
  history := rfl
  nodup := List.nodup_nil
  numbered := nofun
  isOpen := fun _ => ⟨nofun, fun isOpen => absurd isOpen not_isOpen_nil⟩
  isNew := nofun
  starts := fun _ => .inr ⟨rfl, not_wasReady_nil⟩

/-- The name of the next panel is new. -/
theorem fresh (kept : Kept session es s) : panelName s.nextPanel ∉ openedBy es := fun among => by
  obtain ⟨n, before, same⟩ := kept.numbered _ among
  exact absurd (panelName_injective same) (Nat.ne_of_lt before)

theorem firstReady_iff (kept : Kept session es s) :
    FirstReady s e name ↔ (IsOpen es name ∧ e.Tells name .ready) ∧ ¬WasReady es name := by
  constructor
  · rintro ⟨told, p, held, isNew⟩
    exact ⟨⟨(kept.isOpen name).mp (by rw [held]; rfl), told⟩, (kept.isNew name p held).mp isNew⟩
  · rintro ⟨⟨isOpen, told⟩, unready⟩
    obtain ⟨p, held⟩ := Option.isSome_iff_exists.mp ((kept.isOpen name).mpr isOpen)
    exact ⟨told, p, held, (kept.isNew name p held).mpr unready⟩

/-- A server that agrees with the events so far agrees with them and the next one. -/
theorem step (kept : Kept session es s) (effect : Effect s e next) : Kept session (es ++ [e]) next := by
  constructor
  · rw [effect.agrees.1, kept.settings]
  · rw [effect.agrees.2, kept.history]
  · rw [openedBy_concat]
    rcases effect.opens with ⟨none, _⟩ | ⟨one, _⟩
    · rw [none, List.append_nil]
      exact kept.nodup
    · rw [one]
      exact List.concat_eq_append ▸ kept.nodup.concat kept.fresh
  · rw [openedBy_concat]
    intro name among
    rcases effect.opens with ⟨none, same⟩ | ⟨one, more⟩
    · rw [none, List.append_nil] at among
      rw [same]
      exact kept.numbered name among
    · rw [one, List.mem_append, List.mem_singleton] at among
      rw [more]
      rcases among with earlier | rfl
      · obtain ⟨n, before, named⟩ := kept.numbered name earlier
        exact ⟨n, Nat.lt_succ_of_lt before, named⟩
      · exact ⟨s.nextPanel, Nat.lt_succ_self _, rfl⟩
  · intro name
    rw [effect.isOpen, isOpen_concat, kept.isOpen]
  · intro name p held
    rw [wasReady_concat, not_or]
    rcases effect.isNew name p held with ⟨opened, isNew⟩ | ⟨old, before, same⟩
    · have unopened : name ∉ openedBy es := by
        rcases effect.opens with ⟨none, _⟩ | ⟨one, _⟩
        · rw [none] at opened
          cases opened
        · rw [one, List.mem_singleton] at opened
          exact opened ▸ kept.fresh
      exact iff_of_true isNew ⟨fun ready => unopened ready.mem, fun both => unopened both.1.mem⟩
    · have isOpen : IsOpen es name := (kept.isOpen name).mp (by rw [before]; rfl)
      rw [same, kept.isNew name old before, and_iff_right isOpen]
  · intro name
    rw [startsOf_concat, wasReady_concat]
    rcases kept.starts name with ⟨one, ready⟩ | ⟨zero, unready⟩
    · rcases effect.starts name with ⟨_, first⟩ | ⟨zero, _⟩
      · exact absurd ready (kept.firstReady_iff.mp first).2
      · exact .inl ⟨by rw [one, zero], .inl ready⟩
    · rcases effect.starts name with ⟨one, first⟩ | ⟨zero', later⟩
      · exact .inl ⟨by rw [zero, one], .inr (kept.firstReady_iff.mp first).1⟩
      · rw [kept.firstReady_iff, not_and_not_right] at later
        exact .inr ⟨by rw [zero, zero'], fun ready => unready (ready.elim id later)⟩

end Kept

/-- After every run the server agrees with what has happened. -/
theorem Run.kept (run : Run session es s goesOn) : Kept session es s := by
  induction run with
  | start => exact .start session
  | line _ handled kept => exact kept.step (handleLine_eq_ok_iff.mp handled).effect
  | @fired _ s _ pending _ _ kept => exact kept.step (fire_effect s pending)
  | outside _ agrees kept => exact kept.step (outside_effect agrees)

end EndpointConsole.Server
