import EndpointConsole.Proofs.Lens.Service
import EndpointConsole.Proofs.Server.Answers
import EndpointConsole.Proofs.Server.Interleaved.Answers

/-!
The server that does one thing after the other among the orders in which the sections of its threads
may follow each other. Each line is handled by sections of the loop alone (`Follows.handleLine`) and
each timer that fires by sections of its own thread (`Follows.fire`), with the same messages. So
serving lines is a run (`Run.of_serve`).
-/
namespace EndpointConsole

open Source (Document)

namespace Lens.Provider
variable {p : Provider} {pending : Pending}

theorem fire_of_waiting (waits : p.isWaiting pending = true) (now : Nat) :
    p.fire now pending = (some (p.scan pending.document).1,
      { (p.scan pending.document).2 with
        cache := (p.cache.cancel pending.document.uri).commit now pending.document.uri (some pending.document.version)
          (p.scan pending.document).1 }) := by
  have delivered : (p.scan pending.document).2.cache.deliver now pending.document.uri pending.timer
      (some pending.document.version) (p.scan pending.document).1 = (some (p.scan pending.document).1,
        (p.cache.cancel pending.document.uri).commit now pending.document.uri (some pending.document.version)
          (p.scan pending.document).1) := if_pos waits
  rw [fire, if_pos waits]
  dsimp only
  rw [finish, delivered]

theorem fire_of_not_waiting (stopped : ¬p.isWaiting pending = true) (now : Nat) : p.fire now pending = (none, p) :=
  if_neg stopped

end Lens.Provider

namespace Server.Interleaved

open Lens (Lenses Cache Provider Provided Pending)
open Detect (Progress)
open Route (Composer)

variable {v : Text} {capacity : Nat} {idleLimit : Option Nat} {delay id other : Nat} {es : List Event} {e : Event}
  {s s' s'' : System} {d : Document} {line : Text} {lines : List Text} {messages : List Json} {pending : Pending}

/-! ### Work for one line -/

/-- The line that an event is about. -/
def Event.line? : Event → Option Nat
  | read id _ _ | look id | scan id | store id | act id _ | answer id _ | forward id _ | leave id => some id
  | refuse _ _ => none

/-- The message that an event sends. -/
def Event.sent? : Event → Option Json
  | refuse _ m | answer _ m | forward _ m => some m
  | read _ _ _ | look _ | scan _ | store _ | act _ _ | leave _ => none

/-- The messages of some events, in order. -/
def sent (es : List Event) : List Json := es.filterMap Event.sent?

theorem sent_append (es more : List Event) : sent (es ++ more) = sent es ++ sent more := List.filterMap_append

/-- Sections for one line that follow each other, with the lines that are read and the messages that are sent. -/
inductive Works (delay id : Nat) : System → List Text → List Json → System → Prop where
  | done {s : System} : Works delay id s [] [] s
  | next {s s' s'' : System} {e : Event} {lines : List Text} {messages : List Json} (first : Step delay s e s')
      (own : e.line? = some id) (rest : Works delay id s' lines messages s'') :
      Works delay id s (linesOf [e] ++ lines) (sent [e] ++ messages) s''

theorem Run.works (run : Run v capacity idleLimit delay es s) (works : Works delay id s lines messages s') :
    ∃ more, Run v capacity idleLimit delay (es ++ more) s' ∧ linesOf more = lines ∧ sent more = messages := by
  induction works generalizing es with
  | done => exact ⟨[], by rwa [List.append_nil], rfl, rfl⟩
  | @next _ _ _ e _ _ first own _ ih =>
    obtain ⟨more, last, read, told⟩ := ih (run.step first)
    refine ⟨e :: more, by simpa using last, ?_, ?_⟩
    · rw [← List.singleton_append, linesOf_append, read]
    · rw [← List.singleton_append, sent_append, told]

/-- What the work for a line leaves to the others. -/
structure Keeps (id : Nat) (s s' : System) : Prop where
  commands : ∀ {other : Nat} {command : Command}, s.commands[other]? = some command →
    s'.commands[other]? = some command
  tasks : ∀ {other : Nat} {t : Cache.Task Lenses}, other ≠ id → s.cache.tasks[other]? = some t →
    s'.cache.tasks[other]? = some t
  forwarders : ∀ {other : Nat}, other ≠ id → s'.forwarders other = s.forwarders other
  fresh : ∀ {other : Nat}, other ≠ id → s'.fresh other = s.fresh other

theorem Keeps.refl (id : Nat) (s : System) : Keeps id s s :=
  ⟨fun asked => asked, fun _ held => held, fun _ => rfl, fun _ => rfl⟩

theorem Keeps.trans (keeps : Keeps id s s') (more : Keeps id s' s'') : Keeps id s s'' where
  commands asked := more.commands (keeps.commands asked)
  tasks differs held := more.tasks differs (keeps.tasks differs held)
  forwarders differs := (more.forwarders differs).trans (keeps.forwarders differs)
  fresh differs := (more.fresh differs).trans (keeps.fresh differs)

theorem Step.keeps (step : Step delay s e s') (own : e.line? = some id) : Keeps id s s' := by
  cases step with
  | ask | close =>
    exact ⟨Cache.getElem?_append_of _, fun _ => Cache.getElem?_append_of _, fun _ => rfl, fun _ => rfl⟩
  | refuse => cases own
  | @act id call stage next a cache s' held move beside =>
    cases own
    refine ⟨fun asked => by rwa [beside.commands], fun differs held => ?_, fun differs => ?_, fun differs => ?_⟩
    · rwa [List.getElem?_set_ne (Ne.symm differs)]
    · exact congrFun beside.forwarders _
    · cases beside with
      | deliver => exact Function.update_of_ne differs _ _
      | _ => rfl
  | answer =>
    cases own
    refine ⟨fun asked => asked, fun _ held => held, fun differs => ?_, fun _ => rfl⟩
    dsimp only
    split
    · exact Function.update_of_ne differs _ _
    · rfl
  | forward | leave =>
    cases own
    exact ⟨fun asked => asked, fun _ held => held, fun differs => Function.update_of_ne differs _ _, fun _ => rfl⟩
  | _ => exact ⟨fun asked => asked, fun _ held => held, fun _ => rfl, fun _ => rfl⟩

theorem Works.keeps (works : Works delay id s lines messages s') : Keeps id s s' := by
  induction works with
  | done => exact .refl id _
  | next first own _ ih => exact (first.keeps own).trans ih

theorem Works.append {more : List Text} {later : List Json} (works : Works delay id s lines messages s')
    (rest : Works delay id s' more later s'') : Works delay id s (lines ++ more) (messages ++ later) s'' := by
  induction works with
  | done => exact rest
  | next first own _ ih =>
    rw [List.append_assoc, List.append_assoc]
    exact .next first own (ih rest)

/-- A scan that nobody interrupts goes on to its end. -/
theorem Works.scan {c : Composer} {p p' : Progress} (scans : s.Scans id) (progress : s.scans id = some p)
    (sections : Detect.Sections s.composer p c p') :
    Works delay id s [] [] { s with composer := c, scans := Function.update s.scans id (some p') } := by
  generalize from_ : s.composer = start at sections
  induction sections generalizing s with
  | done =>
    rw [← from_, ← progress, Function.update_eq_self]
    exact .done
  | next first _ ih =>
    have rest := @ih { s with composer := _, scans := Function.update s.scans id (some _) } scans
      (Function.update_self ..) rfl
    rw [Function.update_idem] at rest
    exact .next (.scan scans progress (from_ ▸ first)) rfl rest

/-- A scan that has just begun goes on to its end, if nobody interrupts it. -/
theorem Step.scans (first : Step delay s e s') (own : e.line? = some id) (scans : s'.Scans id)
    (begun : s'.scans id = some (.ofDocument d)) :
    Works delay id s (linesOf [e]) (sent [e]) { s' with
      composer := (Detect.scan s'.composer d).2
      scans := Function.update s'.scans id (some ⟨[], (Detect.scan s'.composer d).1, false⟩) } := by
  simpa using Works.next first own (.scan scans begun (Detect.scan_sections _ d))

/-- The provider of a server that scans with a delay. -/
def System.provider (s : System) (delay : Nat) : Provider := { composer := s.composer, cache := s.cache.cache, delay }

/-- A delayed scan that nothing has come of yet. -/
structure Awaits (s : System) (pending : Pending) (id : Nat) : Prop where
  asked : s.commands[id]? = some (.provideLenses pending.document)
  call : s.cache.tasks[id]? = some
    { call := .debounce pending.document.uri (some pending.document.version), stage := .waiting pending.timer }
  waits : s.forwarders id = .waiting
  nothing : s.fresh id = none

theorem Awaits.keep (awaits : Awaits s pending other) (keeps : Keeps id s s') (differs : other ≠ id) :
    Awaits s' pending other where
  asked := keeps.commands awaits.asked
  call := keeps.tasks differs awaits.call
  waits := (keeps.forwarders differs).trans awaits.waits
  nothing := (keeps.fresh differs).trans awaits.nothing

section Requests
variable {now : Nat} {p : Provider}

/-- A document whose lenses are ready is provided for by sections of the loop. -/
theorem works_ready {lenses : Lenses} (idle : s.loop = .idle) (asked : command? line = some (.provideLenses d))
    (provided : Provided (s.provider delay) now d (.ready lenses) p) :
    ∃ s', Works delay s.commands.length s [line] [lensesMessage d lenses false] s' ∧ s'.loop = .idle ∧
      p = s'.provider delay := by
  have command := last_command s (.provideLenses d)
  have ask : Step delay s _ _ := .ask idle asked
  cases provided with
  | unhandled other =>
    rw [if_neg (by simp [other])] at ask
    exact ⟨_, .next ask rfl (.next (.answer rfl command) rfl .done), rfl, rfl⟩
  | held handled got same =>
    rw [if_pos handled] at ask
    have look : Step delay (s.reading (.provideLenses d) (.debounce d.uri (some d.version)) (.asked s.commands.length))
      _ _ := .hit now rfl command got same
    exact ⟨_, .next ask rfl (.next look rfl (.next (.answer rfl command) rfl .done)), rfl, rfl⟩
  | atOnce handled missed undelayed =>
    rw [if_pos handled] at ask
    have look : Step delay (s.reading (.provideLenses d) (.debounce d.uri (some d.version)) (.asked s.commands.length))
      _ _ := .missAtOnce now rfl command missed undelayed
    have scanned := look.scans rfl (.inl rfl) (Function.update_self ..)
    exact ⟨_, .next ask rfl (scanned.append (.next (.store now rfl command (Function.update_self ..)) rfl
      (.next (.answer rfl command) rfl .done))), rfl, rfl⟩

/-- A document whose scan is delayed is provided for by sections of the loop, and a thread waits for the rest. -/
theorem works_delayed {stale : Option Lenses} (idle : s.loop = .idle)
    (counted : s.commands.length = s.cache.tasks.length) (nothing : s.fresh s.commands.length = none)
    (asked : command? line = some (.provideLenses d))
    (provided : Provided (s.provider delay) now d (.delayed stale pending) p) :
    ∃ s', Works delay s.commands.length s [line] [lensesMessage d (stale.getD []) true] s' ∧ s'.loop = .idle ∧
      p = s'.provider delay ∧ Awaits s' pending s.commands.length := by
  have command := last_command s (.provideLenses d)
  have called := last_call counted (.debounce d.uri (some d.version))
  have ask : Step delay s _ _ := .ask idle asked
  cases provided with
  | delayed handled missed delayed =>
    rw [if_pos handled] at ask
    have look : Step delay (s.reading (.provideLenses d) (.debounce d.uri (some d.version)) (.asked s.commands.length))
      _ _ := .missDelayed now rfl command missed delayed
    refine ⟨_, .next ask rfl (.next look rfl (.next (.act called .cancel (.cancel d.uri rfl)) rfl
      (.next (.act (moved called) .number (.number rfl)) rfl
        (.next (.act (moved (moved called)) .insert (.insert d.uri rfl)) rfl
          (.next (.answer rfl command) rfl .done))))), rfl, rfl, ?_⟩
    exact ⟨command, moved (moved (moved called)), Function.update_self .., nothing⟩

/-- A timer that fires does so by sections of its own thread and of the one that forwards its lenses. -/
theorem works_fire (delay : Nat) (awaits : Awaits s pending id) (now : Nat) :
    ∃ s', Works delay id s []
        (((s.provider delay).fire now pending).1.toList.map (refreshedMessage pending.document)) s' ∧
      s'.loop = s.loop ∧ ((s.provider delay).fire now pending).2 = s'.provider delay := by
  by_cases waits : (s.provider delay).isWaiting pending = true
  · have current : s.cache.cache.isCurrent pending.document.uri pending.timer = true := waits
    rw [Provider.fire_of_waiting waits now]
    have fired : Step delay s _ _ := .act awaits.call (.fire current) (.fire awaits.asked)
    have scanned := fired.scans rfl (.inr ⟨_, _, moved awaits.call⟩) (Function.update_self ..)
    have works := scanned.append (.next (.act (moved awaits.call) (.compute _) (.compute (Function.update_self ..))) rfl
      (.next (.act (moved (moved awaits.call)) (.commit now current) (.commit _ _)) rfl
        (.next (.act (moved (moved (moved awaits.call))) .deliver (.deliver _)) rfl
          (.next (.forward awaits.waits awaits.asked (Function.update_self ..)) rfl .done))))
    exact ⟨_, works, rfl, rfl⟩
  · have stale : s.cache.cache.isCurrent pending.document.uri pending.timer = false := Bool.eq_false_iff.mpr waits
    rw [Provider.fire_of_not_waiting waits now]
    have stopped : Step delay s _ _ := .act awaits.call (.stop stale) .stop
    have works := Works.next stopped rfl (.next (.leave awaits.waits awaits.nothing (moved awaits.call)) rfl .done)
    exact ⟨_, works, rfl, rfl⟩

end Requests

/-! ### The server -/

/-- The lines that ask for lenses or close a document, and those that cannot be decoded. -/
inductive Asks (line : Text) : Prop where
  | lenses {d : Document} (asked : command? line = some (.provideLenses d))
  | close {uri : Text} (asked : command? line = some (.documentClosed uri))
  | undecoded {r : Refusal} (undecoded : Undecoded line r)

/-- A server that has come as far as a system has. -/
structure Follows (delay : Nat) (server : Server) (s : System) : Prop where
  idle : s.loop = .idle
  lenses : server.session.lenses = s.provider delay
  waiting : ∃ ids : List Nat, ids.Nodup ∧ List.Forall₂ (Awaits s) server.waiting ids

variable {server : Server} {waiting : List Pending} {ids : List Nat}

theorem keep_waiting (waits : List.Forall₂ (Awaits s) waiting ids) (keeps : Keeps id s s') (apart : id ∉ ids) :
    List.Forall₂ (Awaits s') waiting ids := by
  induction waits with
  | nil => exact .nil
  | cons first _ ih =>
    obtain ⟨differs, apart⟩ := not_or.mp (List.mem_cons.not.mp apart)
    exact .cons (first.keep keeps (Ne.symm differs)) (ih apart)

/-- The next line is none of those that wait. -/
theorem next_not_mem (waits : List.Forall₂ (Awaits s) waiting ids) : s.commands.length ∉ ids := by
  induction waits with
  | nil => exact List.not_mem_nil
  | cons first _ ih =>
    rintro (_ | ⟨_, among⟩)
    · exact absurd (List.getElem?_eq_some_iff.mp first.asked).1 (Nat.lt_irrefl _)
    · exact ih among

/-- The loop does what a server does at once, and its thread waits wherever the server does. -/
theorem Follows.provideLenses (follows : Follows delay server s) (run : Run v capacity idleLimit delay es s)
    (asked : command? line = some (.provideLenses d)) :
    ∃ s', Works delay s.commands.length s [line] (server.provideLenses d).messages s' ∧
      Follows delay (server.provideLenses d).server s' := by
  obtain ⟨ids, distinct, waits⟩ := follows.waiting
  have apart := next_not_mem waits
  have provided := (s.provider delay).provided server.session.surroundings.now.1 d
  rw [Server.provideLenses, Session.provideLenses]
  rcases answer : (s.provider delay).provide server.session.surroundings.now.1 d with ⟨lenses | ⟨stale, pending⟩, p⟩
  · simp only [follows.lenses, answer]
    rw [answer] at provided
    obtain ⟨s', works, idle, same⟩ := works_ready follows.idle asked provided
    exact ⟨s', works, idle, same, ids, distinct, keep_waiting waits works.keeps apart⟩
  · simp only [follows.lenses, answer]
    rw [answer] at provided
    have nothing : s.fresh s.commands.length = none := by
      by_contra there
      obtain ⟨lenses, there⟩ := Option.ne_none_iff_exists'.mp there
      obtain ⟨_, asked, _⟩ := run.sound.fresh there
      exact absurd (List.getElem?_eq_some_iff.mp asked).1 (Nat.lt_irrefl _)
    obtain ⟨s', works, idle, same, awaits⟩ := works_delayed follows.idle run.counted nothing asked provided
    refine ⟨s', works, idle, same, ids ++ [s.commands.length], ?_, ?_⟩
    · exact List.concat_eq_append ▸ distinct.concat apart
    · exact List.rel_append (keep_waiting waits works.keeps apart) (.cons awaits .nil)

theorem Follows.closeLenses {uri : Text} (follows : Follows delay server s)
    (counted : s.commands.length = s.cache.tasks.length) (asked : command? line = some (.documentClosed uri)) :
    ∃ s', Works delay s.commands.length s [line] [] s' ∧
      Follows delay { server with session := server.session.closeLenses uri } s' := by
  obtain ⟨ids, distinct, waits⟩ := follows.waiting
  have called := last_call counted (.close uri)
  have close : Step delay s _ _ := .close follows.idle asked
  have works := Works.next close rfl (.next (.act called .closeTimer (.closeTimer _ rfl)) rfl
    (.next (.act (moved called) .closeRecord (.closeRecord rfl)) rfl .done))
  refine ⟨_, works, rfl, ?_, ids, distinct, keep_waiting waits works.keeps (next_not_mem waits)⟩
  rw [Session.closeLenses, follows.lenses]
  rfl

theorem Follows.handleLine (follows : Follows delay server s) (run : Run v capacity idleLimit delay es s)
    (asks : Asks line) :
    ∃ step more s', server.handleLine line = .ok step ∧ step.goesOn = true ∧
      Run v capacity idleLimit delay (es ++ more) s' ∧ linesOf more = [line] ∧ sent more = step.messages ∧
      Follows delay step.server s' := by
  cases asks with
  | @lenses d asked =>
    obtain ⟨s', works, follows⟩ := follows.provideLenses run asked
    obtain ⟨more, run, read, told⟩ := run.works works
    have goesOn : (server.provideLenses d).goesOn = true := by
      obtain ⟨_, _, _, same⟩ := provideLenses_eq server d
      rw [same]
    exact ⟨_, more, s', handleLine_of_command asked, goesOn, run, read, told, follows⟩
  | close asked =>
    obtain ⟨s', works, follows⟩ := follows.closeLenses run.counted asked
    obtain ⟨more, run, read, told⟩ := run.works works
    exact ⟨_, more, s', handleLine_of_command asked, rfl, run, read, told, follows⟩
  | @undecoded r undecoded =>
    have refused : Refused server line r := by
      obtain ⟨read, host, typed⟩ := undecoded
      exact .command read host typed
    exact ⟨_, _, s, handleLine_of_refused refused, rfl, run.step (.refuse follows.idle undecoded), rfl, rfl, follows⟩

theorem Follows.handleLines (follows : Follows delay server s) (run : Run v capacity idleLimit delay es s)
    (asks : ∀ line ∈ lines, Asks line) :
    ∃ out last more s', server.handleLines lines = .ok (out, last) ∧ Run v capacity idleLimit delay (es ++ more) s' ∧
      linesOf more = lines ∧ sent more = out ∧ Follows delay last s' := by
  induction lines generalizing server es s with
  | nil => exact ⟨[], server, [], s, rfl, by rwa [List.append_nil], rfl, rfl, follows⟩
  | cons line rest ih =>
    obtain ⟨head, tail⟩ := List.forall_mem_cons.mp asks
    obtain ⟨step, first, s', handled, goesOn, run, read, told, follows⟩ := follows.handleLine run head
    obtain ⟨out, last, more, s'', others, run, readAll, toldAll, follows⟩ := ih follows run tail
    refine ⟨step.messages ++ out, last, first ++ more, s'', ?_, by rwa [← List.append_assoc], ?_, ?_, follows⟩
    · rw [handleLines_cons handled goesOn, others]
      rfl
    · rw [linesOf_append, read, readAll]
      rfl
    · rw [sent_append, told, toldAll]

theorem Follows.fire {rest : List Pending} (follows : Follows delay server s)
    (held : server.waiting = pending :: rest) :
    ∃ id s', Works delay id s [] (server.fire pending).1 s' ∧ Follows delay (server.fire pending).2 s' ∧
      (server.fire pending).2.waiting = rest := by
  obtain ⟨ids, distinct, waits⟩ := follows.waiting
  rw [held] at waits
  cases waits with
  | @cons _ id _ ids awaits waits =>
    obtain ⟨apart, distinct⟩ := List.nodup_cons.mp distinct
    have fired := works_fire delay awaits server.session.surroundings.now.1
    rw [Server.fire, Session.fireLenses]
    rcases fire : (s.provider delay).fire server.session.surroundings.now.1 pending with ⟨delivered, p⟩
    rw [fire] at fired
    obtain ⟨s', works, idle, same⟩ := fired
    have waiting := keep_waiting waits works.keeps apart
    simp only [follows.lenses, fire]
    have left : server.waiting.erase pending = rest := by rw [held, List.erase_cons_head]
    cases delivered with
    | none => exact ⟨id, s', works, ⟨idle.trans follows.idle, same, ids, distinct, left ▸ waiting⟩, left⟩
    | some lenses => exact ⟨id, s', works, ⟨idle.trans follows.idle, same, ids, distinct, left ▸ waiting⟩, left⟩

theorem Follows.fireEach (follows : Follows delay server s) (run : Run v capacity idleLimit delay es s)
    (held : server.waiting = waiting) :
    ∃ more s', Run v capacity idleLimit delay (es ++ more) s' ∧ linesOf more = [] ∧
      sent more = (server.fireEach waiting).1 ∧ Follows delay (server.fireEach waiting).2 s' := by
  induction waiting generalizing server es s with
  | nil => exact ⟨[], s, by rwa [List.append_nil], rfl, rfl, follows⟩
  | cons pending rest ih =>
    obtain ⟨id, s', works, follows, left⟩ := follows.fire held
    obtain ⟨first, run, read, told⟩ := run.works works
    obtain ⟨more, s'', run, readAll, toldAll, follows⟩ := ih follows run left
    refine ⟨first ++ more, s'', by rwa [← List.append_assoc], ?_, ?_, follows⟩
    · rw [linesOf_append, read, readAll]
      rfl
    · rw [sent_append, told, toldAll]
      rfl

/-- Serving lines is a run that reads these lines and sends the same messages. -/
theorem Run.of_serve {session : Session} {settings : Settings} (fresh : session.lenses = .ofSettings settings)
    (asks : ∀ line ∈ lines, Asks line) :
    ∃ out after es s, serve session lines = .ok (out, after) ∧
      Run settings.defaultApiVersion settings.lensCapacity (settings.lensSeconds?.map (· * 1000)) settings.lensDelayMs
        es s ∧ linesOf es = lines ∧ sent es = out ∧ s.loop = .idle ∧
      after.lenses = s.provider settings.lensDelayMs := by
  have follows : Follows settings.lensDelayMs { session }
      { cache := { cache := .empty settings.lensCapacity (settings.lensSeconds?.map (· * 1000)), tasks := [] }
        composer := .fresh settings.defaultApiVersion } := ⟨rfl, fresh, [], List.nodup_nil, .nil⟩
  obtain ⟨out, server, es, s, handled, run, read, told, follows⟩ := follows.handleLines .start asks
  obtain ⟨more, s', run, quiet, fired, follows⟩ := follows.fireEach run rfl
  refine ⟨out ++ (server.fireEach server.waiting).1, (server.fireEach server.waiting).2.session, es ++ more, s', ?_,
    run, ?_, ?_, follows.idle, follows.lenses⟩
  · simp only [serve, handled, bind, Except.bind]
    rfl
  · rw [linesOf_append, quiet, read, List.append_nil]
  · rw [sent_append, told, fired]

end Server.Interleaved

end EndpointConsole
