import EndpointConsole.Proofs.Endpoint.Progress
import EndpointConsole.Proofs.Lens.Debounce
import EndpointConsole.Proofs.Server.Lines

/-!
The threads of a server that is asked for lenses. The loop handles one line after the other. A
delayed scan has a thread of its own, which waits for its timer, and another one that forwards the
lenses once they are there. What these threads share is locked for one section of their work at a
time, so that their sections follow each other in any order (`Step`); a `Run` is any such order, with
what happened in it. Its sections on the cache are a run of callers and timers (`Run.onCache`).
-/
namespace EndpointConsole.Server.Interleaved

open Source (Document)
open Lens (Lenses Cache)
open Detect (Progress Section)
open Route (Composer)

/-- Where the loop stands; lines are known by their numbers. -/
inductive Loop where
  | idle
  /-- The lenses of a controller are asked for. -/
  | asked (id : Nat)
  /-- The document is scanned without delay. -/
  | scanning (id : Nat)
  /-- A timer is made for the scan. -/
  | scheduling (id : Nat) (stale : Option Lenses)
  | answering (id : Nat) (lenses : Lenses) (stale : Bool)
  | closing (id : Nat)

/-- The line that the loop is on. -/
def Loop.line? : Loop → Option Nat
  | idle => none
  | asked id | scanning id | scheduling id _ | answering id _ _ | closing id => some id

/-- The thread that forwards the lenses of a delayed scan. -/
inductive Forwarder where
  | unborn
  | waiting
  | gone
  deriving DecidableEq

/-- Everything that the threads share or have of their own, by the lines that they work for. The call
    that a line makes of the cache has the same number; it stays uncalled if it is not needed. -/
structure System where
  cache : Cache.System Lenses
  composer : Composer
  /-- The commands of the lines handled so far. -/
  commands : List Command := []
  loop : Loop := .idle
  /-- The scans that have begun. -/
  scans : Nat → Option Progress := fun _ => none
  /-- The lenses on their way from a timer to the forwarding thread. -/
  fresh : Nat → Option Lenses := fun _ => none
  forwarders : Nat → Forwarder := fun _ => .unborn

inductive Event where
  /-- A line is read. -/
  | read (id : Nat) (line : Text) (command : Command)
  /-- A line cannot be decoded and is answered by an error. -/
  | refuse (line : Text) (m : Json)
  | look (id : Nat)
  /-- A section of a scan. -/
  | scan (id : Nat)
  | store (id : Nat)
  /-- A section of a call of the cache, or of its timer's thread. -/
  | act (id : Nat) (a : Cache.Act Lenses)
  | answer (id : Nat) (m : Json)
  | forward (id : Nat) (m : Json)
  /-- A forwarding thread ends, as nothing will come. -/
  | leave (id : Nat)

/-- A line with a command of the host whose data cannot be decoded. -/
inductive Undecoded (line : Text) : Refusal → Prop where
  | mk {e : Envelope} {r : Refusal} (read : Envelope.parse? line = some e) (host : e.panel = none)
      (typed : Command.ofTyped e.type e.data = .error r) : Undecoded line r

namespace System

/-- A system that has read one more line. -/
def reading (s : System) (command : Command) (call : Cache.Call) (loop : Loop) : System :=
  { s with
    cache := { s.cache with tasks := s.cache.tasks ++ [{ call, stage := .called }] }
    commands := s.commands ++ [command]
    loop }

/-- Whether a document is being scanned, by the loop or by a timer's thread. -/
def Scans (s : System) (id : Nat) : Prop :=
  s.loop = .scanning id ∨ ∃ call timer, s.cache.tasks[id]? = some { call, stage := .computing timer }

/-- What a section of a call changes beside the cache. The loop goes through the first sections, and the
    thread of a timer through those after it was inserted. -/
inductive Beside (s : System) (id : Nat) : Cache.Act Lenses → System → Prop where
  | cancel {stale : Option Lenses} (key : Text) (there : s.loop = .scheduling id stale) : Beside s id (.cancel key) s
  | number {stale : Option Lenses} (there : s.loop = .scheduling id stale) : Beside s id .number s
  | insert {stale : Option Lenses} (key : Text) (there : s.loop = .scheduling id stale) :
      Beside s id (.insert key) { s with loop := .answering id (stale.getD []) true }
  | stop : Beside s id .stop s
  | fire {d : Document} (asked : s.commands[id]? = some (.provideLenses d)) :
      Beside s id .fire { s with scans := Function.update s.scans id (some (.ofDocument d)) }
  | compute {lenses : Lenses} (scanned : s.scans id = some ⟨[], lenses, false⟩) : Beside s id (.compute lenses) s
  | commit (key : Text) (lenses : Lenses) : Beside s id (.commit key lenses) s
  | deliver (lenses : Lenses) :
      Beside s id (.deliver lenses) { s with fresh := Function.update s.fresh id (some lenses) }
  | closeTimer (key : Text) (there : s.loop = .closing id) : Beside s id (.cancel key) s
  | closeRecord (there : s.loop = .closing id) : Beside s id .finish { s with loop := .idle }

end System

/-- What a section does; scans are delayed by some time, or not at all. -/
inductive Step (delay : Nat) (s : System) : Event → System → Prop where
  | ask {line : Text} {d : Document} (idle : s.loop = .idle) (asked : command? line = some (.provideLenses d)) :
      Step delay s (.read s.commands.length line (.provideLenses d))
        (s.reading (.provideLenses d) (.debounce d.uri (some d.version))
          (if d.isController then .asked s.commands.length else .answering s.commands.length [] false))
  | close {line uri : Text} (idle : s.loop = .idle) (asked : command? line = some (.documentClosed uri)) :
      Step delay s (.read s.commands.length line (.documentClosed uri))
        (s.reading (.documentClosed uri) (.close uri) (.closing s.commands.length))
  | refuse {line : Text} {r : Refusal} (idle : s.loop = .idle) (undecoded : Undecoded line r) :
      Step delay s (.refuse line (errorMessage r.message)) s
  | hit {id : Nat} {d : Document} {r : Lens.Record Lenses} (now : Nat) (there : s.loop = .asked id)
      (asked : s.commands[id]? = some (.provideLenses d)) (held : (s.cache.cache.get now d.uri).1 = some r)
      (same : r.version = d.version) :
      Step delay s (.look id)
        { s with cache.cache := (s.cache.cache.get now d.uri).2, loop := .answering id r.value false }
  | missAtOnce {id : Nat} {d : Document} (now : Nat) (there : s.loop = .asked id)
      (asked : s.commands[id]? = some (.provideLenses d))
      (missed : ∀ r, (s.cache.cache.get now d.uri).1 = some r → r.version ≠ d.version) (undelayed : delay = 0) :
      Step delay s (.look id) { s with
        cache.cache := (s.cache.cache.get now d.uri).2
        loop := .scanning id
        scans := Function.update s.scans id (some (.ofDocument d)) }
  | missDelayed {id : Nat} {d : Document} (now : Nat) (there : s.loop = .asked id)
      (asked : s.commands[id]? = some (.provideLenses d))
      (missed : ∀ r, (s.cache.cache.get now d.uri).1 = some r → r.version ≠ d.version) (delayed : delay ≠ 0) :
      Step delay s (.look id) { s with
        cache.cache := (s.cache.cache.get now d.uri).2
        loop := .scheduling id ((s.cache.cache.get now d.uri).1.map Lens.Record.value) }
  | scan {id : Nat} {p p' : Progress} {composer : Composer} (scans : s.Scans id) (progress : s.scans id = some p)
      (sec : Section s.composer p composer p') :
      Step delay s (.scan id) { s with composer, scans := Function.update s.scans id (some p') }
  | store {id : Nat} {d : Document} {lenses : Lenses} (now : Nat) (there : s.loop = .scanning id)
      (asked : s.commands[id]? = some (.provideLenses d)) (scanned : s.scans id = some ⟨[], lenses, false⟩) :
      Step delay s (.store id) { s with
        cache.cache := (s.cache.cache.set now d.uri d.version lenses).2
        loop := .answering id lenses false }
  | act {id : Nat} {call : Cache.Call} {stage next : Cache.Stage Lenses} {a : Cache.Act Lenses} {cache : Cache Lenses}
      {s' : System} (held : s.cache.tasks[id]? = some { call, stage })
      (move : Cache.Move s.cache.cache call stage a next cache) (beside : s.Beside id a s') :
      Step delay s (.act id a)
        { s' with cache := { cache, tasks := s.cache.tasks.set id { call, stage := next } } }
  /-- The loop answers, and begins the forwarding thread if there is more to come. -/
  | answer {id : Nat} {d : Document} {lenses : Lenses} {stale : Bool} (there : s.loop = .answering id lenses stale)
      (asked : s.commands[id]? = some (.provideLenses d)) :
      Step delay s (.answer id (lensesMessage d lenses stale)) { s with
        loop := .idle
        forwarders := if stale then Function.update s.forwarders id .waiting else s.forwarders }
  | forward {id : Nat} {d : Document} {lenses : Lenses} (waits : s.forwarders id = .waiting)
      (asked : s.commands[id]? = some (.provideLenses d)) (fresh : s.fresh id = some lenses) :
      Step delay s (.forward id (refreshedMessage d lenses))
        { s with forwarders := Function.update s.forwarders id .gone }
  | leave {id : Nat} {call : Cache.Call} (waits : s.forwarders id = .waiting) (nothing : s.fresh id = none)
      (ended : s.cache.tasks[id]? = some { call, stage := .ended }) :
      Step delay s (.leave id) { s with forwarders := Function.update s.forwarders id .gone }

/-- What may happen once a server is started, and the system after it. -/
inductive Run (defaultVersion : Text) (capacity : Nat) (idleLimit : Option Nat) (delay : Nat) :
    List Event → System → Prop where
  | start : Run defaultVersion capacity idleLimit delay []
      { cache := { cache := .empty capacity idleLimit, tasks := [] }, composer := .fresh defaultVersion }
  | step {es : List Event} {e : Event} {s next : System} (run : Run defaultVersion capacity idleLimit delay es s)
      (step : Step delay s e next) : Run defaultVersion capacity idleLimit delay (es ++ [e]) next

/-- The call of the cache that a command may make. -/
def callOf? : Command → Option Cache.Call
  | .provideLenses d => some (.debounce d.uri (some d.version))
  | .documentClosed uri => some (.close uri)
  | _ => none

/-- What an event is to the cache. -/
def Event.onCache? : Event → Option (Cache.Event Lenses)
  | read id _ command => (callOf? command).map (.begin id)
  | look _ | store _ => some .use
  | act id a => some (.act id a)
  | refuse _ _ | scan _ | answer _ _ | forward _ _ | leave _ => none

variable {v : Text} {capacity : Nat} {idleLimit : Option Nat} {delay id : Nat} {es before later : List Event}
  {e : Event} {s s' : System} {a : Cache.Act Lenses}

namespace System.Beside

theorem commands (beside : s.Beside id a s') : s'.commands = s.commands := by cases beside <;> rfl

theorem forwarders (beside : s.Beside id a s') : s'.forwarders = s.forwarders := by cases beside <;> rfl

end System.Beside

/-- The command of a line that is read is the last one. -/
theorem last_command (s : System) (command : Command) :
    (s.commands ++ [command])[s.commands.length]? = some command :=
  List.getElem?_concat_length

/-- The call of a line that is read has not been made yet. -/
theorem last_call (counted : s.commands.length = s.cache.tasks.length) (call : Cache.Call) :
    (s.cache.tasks ++ [{ call, stage := .called }])[s.commands.length]? = some { call, stage := .called } :=
  counted ▸ List.getElem?_concat_length

theorem Step.counted (step : Step delay s e s') (counted : s.commands.length = s.cache.tasks.length) :
    s'.commands.length = s'.cache.tasks.length := by
  cases step with
  | ask idle asked => simp [System.reading, counted]
  | close idle asked => simp [System.reading, counted]
  | act held move beside => simp [beside.commands, counted]
  | _ => exact counted

theorem Run.counted (run : Run v capacity idleLimit delay es s) : s.commands.length = s.cache.tasks.length := by
  induction run with
  | start => rfl
  | step run step ih => exact step.counted ih

theorem Step.onCache (step : Step delay s e s') (counted : s.commands.length = s.cache.tasks.length) :
    (∀ ce, e.onCache? = some ce → Cache.Step s.cache ce s'.cache) ∧ (e.onCache? = none → s'.cache = s.cache) := by
  cases step with
  | ask idle asked =>
    refine ⟨fun ce on => ?_, nofun⟩
    cases on
    exact counted ▸ .begin _
  | close idle asked =>
    refine ⟨fun ce on => ?_, nofun⟩
    cases on
    exact counted ▸ .begin _
  | hit now | missAtOnce now | missDelayed now =>
    refine ⟨fun ce on => ?_, nofun⟩
    cases on
    exact .use (.get now _)
  | store now =>
    refine ⟨fun ce on => ?_, nofun⟩
    cases on
    exact .use (.set now _ _ _)
  | act held move beside =>
    refine ⟨fun ce on => ?_, nofun⟩
    cases on
    exact .act held move
  | refuse | scan | answer | forward | leave => exact ⟨nofun, fun _ => rfl⟩

/-- The sections on the cache are a run of callers and timers. -/
theorem Run.onCache (run : Run v capacity idleLimit delay es s) :
    Cache.Run capacity idleLimit (es.filterMap Event.onCache?) s.cache := by
  induction run with
  | start => exact .start
  | @step es e s next run step ih =>
    obtain ⟨goesOn, stays⟩ := step.onCache run.counted
    rw [List.filterMap_append]
    cases on : e.onCache? with
    | none =>
      rw [List.filterMap_cons_none on, List.filterMap_nil, List.append_nil, stays on]
      exact ih
    | some ce =>
      rw [List.filterMap_cons_some on, List.filterMap_nil]
      exact ih.step (goesOn ce on)

/-- What has happened is a step from the system that the events before it led to. -/
theorem Run.at (run : Run v capacity idleLimit delay es s) (split : es = before ++ e :: later) :
    ∃ old new, Run v capacity idleLimit delay before old ∧ Step delay old e new := by
  induction run generalizing later with
  | start => exact absurd split (by simp)
  | @step es last s next run step ih =>
    rcases List.eq_nil_or_concat later with rfl | ⟨later, other, rfl⟩
    · obtain ⟨rfl, same⟩ := List.append_inj' split rfl
      cases same
      exact ⟨s, next, run, step⟩
    · rw [List.concat_eq_append, ← List.cons_append, ← List.append_assoc] at split
      exact ih (List.append_inj' split rfl).1

/-- The line that is read. -/
def Event.text? : Event → Option Text
  | read _ line _ | refuse line _ => some line
  | look _ | scan _ | store _ | act _ _ | answer _ _ | forward _ _ | leave _ => none

/-- The lines that were read, in order. -/
def linesOf (es : List Event) : List Text := es.filterMap Event.text?

theorem Undecoded.command?_eq_none {line : Text} {r : Refusal} (undecoded : Undecoded line r) :
    command? line = none := by
  obtain ⟨read, host, typed⟩ := undecoded
  rw [command?, read, Option.bind_some, host, typed]
  rfl

theorem linesOf_append (es more : List Event) : linesOf (es ++ more) = linesOf es ++ linesOf more :=
  List.filterMap_append

theorem Step.decoded (step : Step delay s e s') : s'.commands = s.commands ++ (linesOf [e]).filterMap command? := by
  cases step with
  | ask idle asked => simp [System.reading, linesOf, Event.text?, asked]
  | close idle asked => simp [System.reading, linesOf, Event.text?, asked]
  | refuse idle undecoded => simp [linesOf, Event.text?, undecoded.command?_eq_none]
  | act held move beside => simp [linesOf, Event.text?, beside.commands]
  | _ => simp [linesOf, Event.text?]

/-- The commands are those of the lines that can be decoded. -/
theorem Run.decoded (run : Run v capacity idleLimit delay es s) : s.commands = (linesOf es).filterMap command? := by
  induction run with
  | start => rfl
  | step run step ih => rw [step.decoded, ih, linesOf_append, List.filterMap_append]

/-- What was asked for stays so. -/
theorem Run.asked_of {command : Command} (run : Run v capacity idleLimit delay (before ++ later) s)
    (earlier : Run v capacity idleLimit delay before s') (asked : s'.commands[id]? = some command) :
    s.commands[id]? = some command := by
  rw [earlier.decoded] at asked
  rw [run.decoded, linesOf_append, List.filterMap_append,
    List.getElem?_append_left (List.getElem?_eq_some_iff.mp asked).1]
  exact asked

/-- Whether the call that a line makes of the cache is the one that its command asks for. -/
def System.Calls (s : System) : Prop :=
  ∀ {id : Nat} {command : Command} {t : Cache.Task Lenses}, s.commands[id]? = some command →
    s.cache.tasks[id]? = some t → callOf? command = some t.call

theorem System.Calls.reading {command : Command} {call : Cache.Call} {loop : Loop} (calls : s.Calls)
    (counted : s.commands.length = s.cache.tasks.length) (asks : callOf? command = some call) :
    (s.reading command call loop).Calls := by
  intro id command' t asked held
  rcases Cache.getElem?_append_cases held with ⟨last, rfl⟩ | ⟨inside, before⟩
  · rw [last, ← counted, System.reading, List.getElem?_concat_length, Option.some.injEq] at asked
    exact asked ▸ asks
  · rw [System.reading, List.getElem?_append_left (counted ▸ inside)] at asked
    exact calls asked before

theorem Run.calls (run : Run v capacity idleLimit delay es s) : s.Calls := by
  induction run with
  | start => exact nofun
  | step run step ih =>
    cases step with
    | ask => exact ih.reading run.counted rfl
    | close => exact ih.reading run.counted rfl
    | act found move beside =>
      intro id command t asked held
      rw [beside.commands] at asked
      rcases Cache.getElem?_set_cases held with ⟨rfl, rfl⟩ | ⟨_, before⟩
      · exact (ih asked found :)
      · exact ih asked before
    | _ => exact ih

/-- A call that is held at some point is the one that the command of its line asks for. -/
theorem Run.call_of {command : Command} {t : Cache.Task Lenses}
    (run : Run v capacity idleLimit delay (before ++ later) s) (earlier : Run v capacity idleLimit delay before s')
    (held : s'.cache.tasks[id]? = some t) (asked : s.commands[id]? = some command) : callOf? command = some t.call := by
  have inside : id < s'.commands.length := earlier.counted ▸ (List.getElem?_eq_some_iff.mp held).1
  have known := List.getElem?_eq_getElem inside
  cases (run.asked_of earlier known).symm.trans asked
  exact earlier.calls known held

end EndpointConsole.Server.Interleaved
