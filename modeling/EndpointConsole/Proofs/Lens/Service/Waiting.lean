import EndpointConsole.Proofs.Lens.Service
import EndpointConsole.Proofs.Lens.Timers
import Mathlib.Data.List.Induction

/-!
The timers of delayed scans. No two scans have a timer of one number
(`Service.Numbered`), so a timer stays current until its own scan ends, unless its
document is asked for again or closed (`Service.waits_after`).
-/
namespace EndpointConsole.Lens.Service

open Source (Document)

variable {s : Service} {acts : List Act} {act : Act} {uri : Text} {n : Nat}

/-- The numbers of the timers of all scans. -/
def numbers (s : Service) : List Nat := s.scans.map (·.pending.timer)

/-- An act takes no number, or the next one. -/
theorem Step.numbers {s' : Service} (step : Step s act s') :
    (s'.numbers = s.numbers ∧ s'.provider.cache.lastTimer = s.provider.cache.lastTimer) ∨
      (s'.numbers = s.numbers ++ [s.provider.cache.lastTimer + 1] ∧
        s'.provider.cache.lastTimer = s.provider.cache.lastTimer + 1) := by
  cases step with
  | @provide d answer next way =>
    have used := (Cache.sameTimers_get s.provider.cache s.now d.uri).lastTimer
    cases way with
    | delayed handled missed delayed =>
      have taken : (((s.provider.cache.get s.now d.uri).2.cancel d.uri).schedule d.uri).1 =
          s.provider.cache.lastTimer + 1 := congrArg (· + 1) used
      refine .inr ⟨?_, taken⟩
      rw [Service.numbers, Answer.scans, List.map_append, taken]
      rfl
    | unhandled other => exact .inl ⟨by simp [Service.numbers, Answer.scans], rfl⟩
    | held handled got same => exact .inl ⟨by simp [Service.numbers, Answer.scans], used⟩
    | atOnce handled missed undelayed =>
      have stored := (Cache.sameTimers_set (s.provider.cache.get s.now d.uri).2 s.now d.uri d.version
        (s.provider.scan d).1).lastTimer
      exact .inl ⟨by simp [Service.numbers, Answer.scans], stored.trans used⟩
  | @fire n pending held waits =>
    refine .inl ⟨?_, rfl⟩
    obtain ⟨inside, same⟩ := List.getElem?_eq_some_iff.mp held
    have within : n < (s.scans.map (·.pending.timer)).length := by rwa [List.length_map]
    have number : (s.scans.map (·.pending.timer))[n] = pending.timer := by rw [List.getElem_map, same]
    rw [Service.numbers, List.map_set, ← number, List.set_getElem_self]
    rfl
  | @finish n pending lenses held waits =>
    exact .inl ⟨rfl, (Cache.sameTimers_set (s.provider.cache.cancel pending.document.uri) s.now
      pending.document.uri pending.document.version lenses).lastTimer⟩
  | close uri => exact .inl ⟨rfl, rfl⟩
  | advance ms => exact .inl ⟨rfl, rfl⟩
  | unfired n => exact .inl ⟨rfl, rfl⟩
  | dropped n => exact .inl ⟨rfl, rfl⟩

/-- No two scans have one number, and the numbers to come are new. -/
structure Numbered (s : Service) : Prop where
  distinct : s.numbers.Nodup
  taken : ∀ number ∈ s.numbers, number ≤ s.provider.cache.lastTimer

theorem Step.numbered {s' : Service} (step : Step s act s') (numbered : Numbered s) : Numbered s' := by
  rcases step.numbers with ⟨same, last⟩ | ⟨more, last⟩
  · exact ⟨same ▸ numbered.distinct, fun number among => last ▸ numbered.taken number (same ▸ among)⟩
  · constructor
    · rw [more, List.nodup_append]
      refine ⟨numbered.distinct, List.nodup_singleton _, ?_⟩
      intro old among new fresh
      have bound := numbered.taken old among
      rw [List.mem_singleton.mp fresh]
      omega
    · intro number among
      rw [more] at among
      rw [last]
      rcases List.mem_append.mp among with old | new
      · exact Nat.le_succ_of_le (numbered.taken number old)
      · exact Nat.le_of_eq (List.mem_singleton.mp new)

/-- The acts that take away the timer of a document. -/
def Act.Disturbs (uri : Text) : Act → Prop
  | .provide d => d.uri = uri
  | .close name => name = uri
  | _ => False

theorem isCurrent_cancel_of_ne {c : Cache Lenses} {name : Text} (other : name ≠ uri) (timer : Nat) :
    (c.cancel name).isCurrent uri timer = c.isCurrent uri timer := by
  rw [Cache.isCurrent, Cache.isCurrent, Cache.cancel, lookup?_without, if_neg other]

theorem isCurrent_insertTimer_of_ne {c : Cache Lenses} {name : Text} (other : name ≠ uri) (number timer : Nat) :
    (c.insertTimer name number).isCurrent uri timer = c.isCurrent uri timer := by
  rw [Cache.isCurrent, Cache.isCurrent, Cache.insertTimer, Json.lookup?, if_neg other, lookup?_without, if_neg other]

/-- A timer stays current until its scan ends, unless it is taken away. -/
theorem Step.current {s' : Service} {timer : Nat} (step : Step s act s')
    (current : s.provider.cache.isCurrent uri timer = true) (calm : ¬act.Disturbs uri) :
    s'.provider.cache.isCurrent uri timer = true ∨
      ∃ n scan, act = .finish n ∧ s.scans[n]? = some scan ∧ scan.pending.timer = timer := by
  cases step with
  | @provide d answer next way =>
    have other : d.uri ≠ uri := calm
    have used := Cache.sameTimers_get s.provider.cache s.now d.uri
    have still := used.isCurrent.trans current
    cases way with
    | unhandled other => exact .inl current
    | held handled got same => exact .inl still
    | atOnce handled missed undelayed =>
      have stored := Cache.sameTimers_set (s.provider.cache.get s.now d.uri).2 s.now d.uri d.version
        (s.provider.scan d).1
      exact .inl (stored.isCurrent.trans still)
    | delayed handled missed delayed =>
      have cancelled := (isCurrent_cancel_of_ne other timer).trans still
      exact .inl ((isCurrent_insertTimer_of_ne other _ timer).trans cancelled)
  | close name =>
    have other : name ≠ uri := calm
    exact .inl ((isCurrent_cancel_of_ne other timer).trans current)
  | @finish n pending lenses held waits =>
    have stored := Cache.sameTimers_set (s.provider.cache.cancel pending.document.uri) s.now
      pending.document.uri pending.document.version lenses
    by_cases same : pending.document.uri = uri
    · -- one timer only is current for the document
      rw [Provider.isWaiting, Cache.isCurrent_iff, same] at waits
      rw [Cache.isCurrent_iff, waits, Option.some.injEq] at current
      exact .inr ⟨n, _, rfl, held, current⟩
    · exact .inl (stored.isCurrent.trans ((isCurrent_cancel_of_ne same timer).trans current))
  | advance ms => exact .inl current
  | fire held waits => exact .inl current
  | unfired n => exact .inl current
  | dropped n => exact .inl current

theorem numbered_after (numbered : Numbered s) (acts : List Act) : Numbered (s.after acts) := by
  induction acts generalizing s with
  | nil => exact numbered
  | cons act rest ih => exact ih ((s.step act).numbered numbered)

/-- A scan whose timer is left alone waits until it ends, and has its lenses once its timer has fired. -/
theorem waits_after {pending : Pending} (numbered : Numbered s) (held : s.scans[n]? = some { pending })
    (waits : s.provider.isWaiting pending = true) (calm : ∀ act ∈ acts, ¬act.Disturbs pending.document.uri)
    (unended : .finish n ∉ acts) :
    (s.after acts).provider.isWaiting pending = true ∧
      ∃ lenses, (s.after acts).scans[n]? = some { pending, lenses } ∧ (.fire n ∈ acts → lenses.isSome) := by
  induction acts using List.reverseRecOn with
  | nil => exact ⟨waits, none, held, nofun⟩
  | append_singleton acts act ih =>
    rw [List.forall_mem_append, List.forall_mem_singleton] at calm
    rw [List.mem_append, not_or, List.mem_singleton] at unended
    obtain ⟨still, lenses, kept, fired⟩ := ih calm.1 unended.1
    have step := (s.after acts).step act
    rw [← after_concat] at step
    constructor
    · rcases step.current still calm.2 with next | ⟨m, other, rfl, ended, same⟩
      · exact next
      · -- no other scan has this timer
        have one : (s.after acts).numbers[n]? = some pending.timer := by rw [numbers, List.getElem?_map, kept]; rfl
        have also : (s.after acts).numbers[m]? = some pending.timer := by
          rw [numbers, List.getElem?_map, ended, Option.map_some, same]
        obtain ⟨inside, _⟩ := List.getElem?_eq_some_iff.mp one
        have distinct := (numbered_after numbered acts).distinct
        rw [(List.getElem?_inj inside distinct).mp (one.trans also.symm)] at unended
        exact absurd rfl unended.2
    · rcases step.scans_kept kept with next | ⟨unfired, next⟩
      · refine ⟨lenses, next, ?_⟩
        intro fires
        rcases List.mem_append.mp fires with before | now
        · exact fired before
        · rw [← List.mem_singleton.mp now, after_concat, perform] at next
          cases lenses with
          | some lenses => rfl
          | none =>
            obtain ⟨inside, _⟩ := List.getElem?_eq_some_iff.mp kept
            rw [fire_of_waiting kept still, List.getElem?_set_self inside] at next
            cases next
      · exact ⟨_, next, fun _ => rfl⟩

end EndpointConsole.Lens.Service
