import EndpointConsole.Proofs.Server.Interleaved.Serving

/-!
What the requests for lenses of a host come to (`Run.served`), in whatever order the sections of the
threads follow each other. A refresh is only sent with lenses that a timer has committed
(`Run.committed`), and from the insertion of a timer to its commit nothing takes it away
(`Run.left_alone`). As the loop has inserted the timers of its lines before it reads another, a later
line that takes a timer away comes between the two, unless it comes after the commit.
-/
namespace EndpointConsole

namespace Lens.Cache
variable {α : Type} {capacity : Nat} {idleLimit : Option Nat} {es before later : List (Event α)} {s : System α}

/-- What is committed was left alone since its timer was inserted. -/
theorem Run.left_alone {id : Nat} {key : Text} {value : α} (run : Run capacity idleLimit es s)
    (split : es = before ++ .act id (.commit key value) :: later) :
    ∃ earlier between, before = earlier ++ .act id (.insert key) :: between ∧ ∀ e ∈ between, ¬e.Disturbs key := by
  have committed : es[before.length]? = some (.act id (.commit key value)) := by simp [split]
  obtain ⟨i, less, inserted, since⟩ := run.undisturbed committed
  have inside {k : Nat} (less : k < before.length) : es[k]? = before[k]? := by
    rw [split, List.getElem?_append_left less]
  rw [inside less, List.getElem?_eq_getElem less, Option.some.injEq] at inserted
  refine ⟨before.take i, before.drop (i + 1), ?_, fun e among => ?_⟩
  · rw [← inserted, List.getElem_cons_drop, List.take_append_drop]
  · obtain ⟨k, there⟩ := List.mem_iff_getElem?.mp among
    rw [List.getElem?_drop] at there
    have bound := (List.getElem?_eq_some_iff.mp there).1
    exact since (i + 1 + k) e (by omega) bound (by rw [inside bound, there])

end Lens.Cache

namespace Server.Interleaved

open Source (Document)
open Lens (Lenses Cache Provider Provided)
open Detect (Scanned Agree partsOf)

variable {v : Text} {capacity : Nat} {idleLimit : Option Nat} {delay id other : Nat} {es before later : List Event}
  {e : Event} {s : System} {d : Document} {m : Json} {a : Cache.Act Lenses} {lenses : Lenses} {key : Text}

theorem Event.eq_act_of_onCache (same : e.onCache? = some (.act id a)) : e = .act id a := by
  cases e with
  | act => cases same; rfl
  | read _ _ command =>
    rw [Event.onCache?, Option.map_eq_some_iff] at same
    obtain ⟨_, _, other⟩ := same
    cases other
  | _ => cases same

theorem mem_of_onCache (among : .act id a ∈ es.filterMap Event.onCache?) : .act id a ∈ es := by
  obtain ⟨e, among, same⟩ := List.mem_filterMap.mp among
  exact Event.eq_act_of_onCache same ▸ among

theorem Run.act_lt (run : Run v capacity idleLimit delay es s) (among : .act id a ∈ es) : id < s.commands.length := by
  have onCache : Cache.Event.act id a ∈ es.filterMap Event.onCache? := List.mem_filterMap.mpr ⟨_, among, rfl⟩
  obtain ⟨i, there⟩ := List.mem_iff_getElem?.mp onCache
  obtain ⟨task, held, _⟩ := run.onCache.behind there rfl
  exact run.counted ▸ (List.getElem?_eq_some_iff.mp held).1

/-- A timer is inserted by the loop, on its last line so far. -/
theorem Run.last_of_insert (run : Run v capacity idleLimit delay (before ++ .act id (.insert key) :: later) s) :
    ∃ old, Run v capacity idleLimit delay before old ∧ id + 1 = old.commands.length := by
  obtain ⟨old, new, reached, step⟩ := run.at rfl
  refine ⟨old, reached, ?_⟩
  cases step with
  | act held move beside =>
    cases beside with
    | insert key there => exact reached.stands.last (by rw [there]; rfl)

/-- What is committed is committed for the document that was asked for. -/
theorem Run.key_of_commit (run : Run v capacity idleLimit delay es s)
    (asked : s.commands[id]? = some (.provideLenses d)) (committed : .act id (.commit key lenses) ∈ es) :
    key = d.uri := by
  obtain ⟨before, later, rfl⟩ := List.append_of_mem committed
  obtain ⟨old, new, reached, step⟩ := run.at rfl
  cases step with
  | act held move beside =>
    have called := run.call_of reached held asked
    cases move with
    | commit now current =>
      cases called
      rfl

/-- Lenses come from a timer only after it has committed them. -/
theorem Run.committed (run : Run v capacity idleLimit delay es s) (fresh : s.fresh id = some lenses) :
    ∃ key, .act id (.commit key lenses) ∈ es := by
  induction run generalizing id lenses with
  | start => cases fresh
  | @step es e s next run step ih =>
    have earlier {id : Nat} {lenses : Lenses} (fresh : s.fresh id = some lenses) :
        ∃ key, .act id (.commit key lenses) ∈ es ++ [e] :=
      have ⟨key, among⟩ := ih fresh
      ⟨key, List.mem_append_left _ among⟩
    cases step with
    | @act other call stage next a cache s' held move beside =>
      cases beside with
      | deliver sent =>
        change Function.update s.fresh other (some sent) id = some lenses at fresh
        rw [Function.update_apply] at fresh
        split at fresh
        · next same =>
          subst same
          cases fresh
          cases move with
          | deliver =>
            obtain ⟨i, key, there⟩ := (run.onCache.explained held).committed _ rfl
            exact ⟨key, List.mem_append_left _ (mem_of_onCache (List.mem_of_getElem? there))⟩
        · exact earlier fresh
      | _ => exact earlier fresh
    | _ => exact earlier fresh

/-- What a thread has forwarded it was waiting for, and a timer has committed it before. -/
theorem Run.forwarded (run : Run v capacity idleLimit delay (before ++ .forward id m :: later) s) :
    answers id before ≠ [] ∧ ∃ key lenses, .act id (.commit key lenses) ∈ before := by
  obtain ⟨old, new, reached, step⟩ := run.at rfl
  cases step with
  | forward waits asked fresh =>
    obtain ⟨key, committed⟩ := reached.committed fresh
    refine ⟨fun nothing => ?_, key, _, committed⟩
    by_cases on : old.loop.line? = some id
    · cases waits.symm.trans (reached.logged.unanswered (.inr on)).2
    · obtain ⟨lenses, stale, answered⟩ := reached.logged.answered asked on
      cases nothing.symm.trans answered

theorem forward_of_refreshes (sent : refreshes id es ≠ []) :
    ∃ before m later, es = before ++ .forward id m :: later := by
  obtain ⟨m, told⟩ := List.exists_mem_of_ne_nil _ sent
  obtain ⟨e, among, same⟩ := List.mem_filterMap.mp told
  cases e with
  | forward other m' =>
    rw [Event.refreshOf?] at same
    split at same
    · next own =>
      subst own
      obtain ⟨before, later, split⟩ := List.append_of_mem among
      exact ⟨before, m', later, split⟩
    · cases same
  | _ => cases same

/-- What is committed was left alone since its timer was inserted. -/
theorem Run.left_alone
    (run : Run v capacity idleLimit delay (before ++ .act id (.commit key lenses) :: later) s) :
    ∃ earlier between, before = earlier ++ .act id (.insert key) :: between ∧
      ∀ {other : Nat} {a : Cache.Act Lenses}, .act other a ∈ between → ¬a.Disturbs key := by
  obtain ⟨_, _, split, calm⟩ := run.onCache.left_alone List.filterMap_append
  obtain ⟨earlier, more, rfl, rfl, rest⟩ := List.filterMap_eq_append_iff.mp split
  obtain ⟨quiet, e, between, rfl, -, same, rfl⟩ := List.filterMap_eq_cons_iff.mp rest
  cases Event.eq_act_of_onCache same
  refine ⟨earlier ++ quiet, between, by rw [List.append_assoc], fun {other a} among => ?_⟩
  exact calm (.act other a) (List.mem_filterMap.mpr ⟨_, among, rfl⟩)

/-- A request is not refreshed once a later line has taken its timer away, unless it was committed before. -/
theorem Run.superseded (run : Run v capacity idleLimit delay (before ++ later) s)
    (asked : s.commands[id]? = some (.provideLenses d)) (after : id < other) (disturbed : .act other a ∈ before)
    (disturbs : a.Disturbs d.uri) (uncommitted : ∀ key lenses, .act id (.commit key lenses) ∉ before) :
    refreshes id (before ++ later) = [] := by
  by_contra sent
  obtain ⟨past, m, rest, split⟩ := forward_of_refreshes sent
  have forwarded : Run v capacity idleLimit delay (past ++ .forward id m :: rest) s := split ▸ run
  obtain ⟨_, key, lenses, committed⟩ := forwarded.forwarded
  have among : .act id (.commit key lenses) ∈ before ++ later := split ▸ List.mem_append_left _ committed
  obtain rfl := run.key_of_commit asked among
  obtain ⟨mid, rest, rfl⟩ := List.append_of_mem ((List.mem_append.mp among).resolve_left (uncommitted _ _))
  rw [← List.append_assoc] at run
  obtain ⟨earlier, between, split, calm⟩ := run.left_alone
  have disturbed : .act other a ∈ before ++ mid := List.mem_append_left _ disturbed
  rw [split] at run disturbed
  rw [List.append_assoc, List.cons_append] at run
  rcases List.mem_append.mp disturbed with early | (_ | ⟨_, late⟩)
  · -- the timer was inserted before any later line was read
    obtain ⟨old, reached, last⟩ := run.last_of_insert
    have := reached.act_lt early
    omega
  · exact absurd after (Nat.lt_irrefl id)
  · exact calm late disturbs

/-- A line that closes a document has taken its timer away before it ends. -/
theorem Run.disturbed_of_finish {uri : Text}
    (run : Run v capacity idleLimit delay (before ++ .act id .finish :: later) s)
    (closes : s.commands[id]? = some (.documentClosed uri)) : ∃ a, .act id a ∈ before ∧ a.Disturbs uri := by
  obtain ⟨old, new, reached, step⟩ := run.at rfl
  cases step with
  | @act _ call stage _ _ _ _ held move beside =>
    cases run.call_of reached held closes
    have cancelled : stage = .cancelled := by cases move; rfl
    obtain ⟨_, a, there, disturbs⟩ := (reached.onCache.explained held).purged cancelled uri rfl
    exact ⟨a, mem_of_onCache (List.mem_of_getElem? there), disturbs⟩

/-- What a host is promised for its requests for lenses, by the numbers of their lines. -/
structure Served (v : Text) (capacity : Nat) (idleLimit : Option Nat) (delay : Nat) (es : List Event) (s : System) :
    Prop where
  /-- The commands are those of the lines that can be decoded. -/
  decoded : s.commands = (linesOf es).filterMap command?
  /-- By itself the loop comes to the end of its line. -/
  settles : ∃ more s', Run v capacity idleLimit delay (es ++ more) s' ∧ s'.loop = .idle ∧ s'.commands = s.commands
  /-- Each section of the loop brings it nearer to that end, and nobody else sets it back. -/
  nearer : s.loop ≠ .idle → ∀ {e : Event} {s' : System}, Step delay s e s' → Nearer s e s'
  /-- A request has one answer from the end of its line on. -/
  answered : ∀ {id : Nat} {d : Document}, s.commands[id]? = some (.provideLenses d) → s.loop.line? ≠ some id →
    ∃ lenses stale, answers id es = [lensesMessage d lenses stale]
  /-- It has none before, and other lines have none at all. -/
  unanswered : ∀ {id : Nat}, s.loop.line? = some id ∨ (∀ d, s.commands[id]? ≠ some (.provideLenses d)) →
    answers id es = []
  /-- A request is refreshed once at most, with what a scan of its document finds. That is what the scan would find
      by itself unless two documents disagree about the version of a controller. -/
  refreshed : ∀ {id : Nat}, refreshes id es ≠ [] → ∃ d lenses, s.commands[id]? = some (.provideLenses d) ∧
    refreshes id es = [refreshedMessage d lenses] ∧ Scanned v (partsAsked s.commands) d lenses ∧
      (Agree (partsAsked s.commands) → lenses = (Detect.scan (.fresh v) d).1)
  /-- The answer is there before the refresh. -/
  after : ∀ {id : Nat} {m : Json} {before later : List Event}, es = before ++ .forward id m :: later →
    answers id before ≠ []
  /-- A request is not refreshed if a later line has taken its timer away before it committed, by a timer of its own
      for the document or to close it. -/
  superseded : ∀ {id other : Nat} {d : Document} {a : Cache.Act Lenses} {before later : List Event},
    es = before ++ later → s.commands[id]? = some (.provideLenses d) → id < other → .act other a ∈ before →
    a.Disturbs d.uri → (∀ key lenses, .act id (.commit key lenses) ∉ before) → refreshes id es = []
  /-- In particular it is not if a later line has closed the document by then. -/
  closed : ∀ {id other : Nat} {d : Document} {before later : List Event},
    es = before ++ later → s.commands[id]? = some (.provideLenses d) → id < other →
    s.commands[other]? = some (.documentClosed d.uri) → .act other .finish ∈ before →
    (∀ key lenses, .act id (.commit key lenses) ∉ before) → refreshes id es = []

/-- What is answered was asked for. -/
theorem Run.asked_of_answers (run : Run v capacity idleLimit delay es s) (sent : answers id es ≠ []) :
    ∃ d, s.commands[id]? = some (.provideLenses d) := by
  obtain ⟨m, told⟩ := List.exists_mem_of_ne_nil _ sent
  obtain ⟨e, among, same⟩ := List.mem_filterMap.mp told
  obtain ⟨before, later, rfl⟩ := List.append_of_mem among
  obtain ⟨old, new, reached, step⟩ := run.at rfl
  cases step with
  | @answer other d _ _ there asked =>
    rw [Event.answerTo?] at same
    split at same
    · next own =>
      subst own
      exact ⟨d, run.asked_of reached asked⟩
    · cases same
  | _ => cases same

/-- In whatever order the sections of all threads follow each other, requests are answered once and refreshed at most
    once, and only as long as they are not superseded. -/
theorem Run.served (run : Run v capacity idleLimit delay es s) : Served v capacity idleLimit delay es s where
  decoded := run.decoded
  settles := run.settles
  nearer busy _ _ step := step.nearer run.stands busy
  answered := run.logged.answered
  unanswered := by
    rintro id (on | unasked)
    · exact (run.logged.unanswered (.inr on)).1
    · by_contra sent
      obtain ⟨d, asked⟩ := run.asked_of_answers sent
      exact unasked d asked
  refreshed := by
    intro id sent
    obtain ⟨d, lenses, asked, scanned, same⟩ := run.logged.refreshed sent
    exact ⟨d, lenses, asked, same, scanned, fun agree => scanned.eq_scan agree (partsOf_subset asked)⟩
  after := by
    rintro id m before later rfl
    exact run.forwarded.1
  superseded := by
    rintro id other d a before later rfl asked follows disturbed disturbs uncommitted
    exact run.superseded asked follows disturbed disturbs uncommitted
  closed := by
    rintro id other d before later rfl asked follows closes ended uncommitted
    obtain ⟨past, rest, rfl⟩ := List.append_of_mem ended
    have split : (past ++ .act other .finish :: rest) ++ later = past ++ .act other .finish :: (rest ++ later) :=
      List.append_assoc ..
    obtain ⟨a, disturbed, disturbs⟩ := (split ▸ run : Run v capacity idleLimit delay _ s).disturbed_of_finish closes
    exact run.superseded asked follows (List.mem_append_left _ disturbed) disturbs uncommitted

/-- A controller with one endpoint. -/
def orders : Document :=
  { uri := "orders".toList, file := "AController.cs".toList, version := 3,
    text := "class AController\n[HttpGet]\npublic int Get()".toList }

/-- The line that asks for its lenses. -/
def ordersLine : Text :=
  ("\x7b\"type\":\"provideCodeLenses\",\"data\":\x7b\"uri\":\"orders\",\"filePath\":\"AController.cs\"," ++
    "\"version\":3,\"text\":\"class AController\\n[HttpGet]\\npublic int Get()\"\x7d\x7d").toList

/-- A run in which a request is answered without lenses and then refreshed. -/
theorem Run.served_refresh :
    ∃ es s, Run "1.0".toList 0 none 300 es s ∧ linesOf es = [ordersLine] ∧
      sent es = [lensesMessage orders [] true, refreshedMessage orders (Detect.scan (.fresh "1.0".toList) orders).1] ∧
      Served "1.0".toList 0 none 300 es s := by
  have asked : command? ordersLine = some (.provideLenses orders) := by decide +kernel
  have handled : orders.isController = true := by decide +kernel
  have provided : Provided ⟨.fresh "1.0".toList, .empty 0 none, 300⟩ 0 orders _ _ :=
    .delayed handled (fun _ held => nomatch held) (by decide)
  obtain ⟨s, works, _, same, awaits⟩ := works_delayed
    (s := { cache := { cache := .empty 0 none, tasks := [] }, composer := .fresh "1.0".toList })
    rfl rfl rfl asked provided
  obtain ⟨es, answered, read, told⟩ := Run.start.works works
  obtain ⟨s', fires, _, _⟩ := works_fire 300 awaits 0
  rw [← same, Provider.fire_of_waiting (by decide +kernel)] at fires
  obtain ⟨more, run, quiet, refreshed⟩ := answered.works fires
  refine ⟨_, s', run, ?_, ?_, run.served⟩
  · rw [linesOf_append, quiet, List.append_nil, List.nil_append, read]
  · rw [sent_append, refreshed, List.nil_append, told]
    rfl

end Server.Interleaved

end EndpointConsole
