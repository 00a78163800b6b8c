import EndpointConsole.Proofs.Lens.Sections
import EndpointConsole.Proofs.Sorted

/-!
Which timers are current, section by section. A timer that is current after a
section was current before and left alone, or was just inserted
(`Move.isCurrent`), and numbers are taken once (`Numbered`), so that a current
timer belongs to one call.
-/
namespace EndpointConsole.Lens.Cache

variable {α : Type} {c c' : Cache α} {key name : Text} {timer : Nat}

theorem isCurrent_iff : c.isCurrent key timer = true ↔ Json.lookup? key c.timers = some timer := by
  rw [isCurrent, beq_iff_eq]

theorem isCurrent_cancel_eq (c : Cache α) (name key : Text) (timer : Nat) :
    (c.cancel name).isCurrent key timer = (c.isCurrent key timer && !name == key) := by
  change (Json.lookup? key (Sorted.erase name c.timers) == some timer) = _
  rw [Sorted.lookup?_erase]
  by_cases same : name = key
  · simp [same]
  · simp [same, isCurrent]

theorem isCurrent_cancel (current : (c.cancel name).isCurrent key timer = true) :
    name ≠ key ∧ c.isCurrent key timer = true := by
  rw [isCurrent_cancel_eq, Bool.and_eq_true] at current
  exact ⟨by simpa using current.2, current.1⟩

theorem isCurrent_insertTimer {number : Nat} (current : (c.insertTimer name number).isCurrent key timer = true) :
    (name ≠ key ∧ c.isCurrent key timer = true) ∨ (name = key ∧ timer = number) := by
  rw [isCurrent_iff, insertTimer, Json.lookup?] at current
  by_cases same : name = key
  · rw [if_pos same, Option.some.injEq] at current
    exact .inr ⟨same, current.symm⟩
  · rw [if_neg same] at current
    exact .inl (isCurrent_cancel (isCurrent_iff.mpr current))

theorem isCurrent_clearTimers : c.clearTimers.isCurrent key timer = false := rfl

/-- What works on the records leaves the timers alone. -/
structure SameTimers (c c' : Cache α) : Prop where
  timers : c'.timers = c.timers
  lastTimer : c'.lastTimer = c.lastTimer

theorem sameTimers_set (c : Cache α) (now : Nat) (key : Text) (version : Int) (value : α) :
    SameTimers c (c.set now key version value).2 := by
  rw [set]
  split <;> exact ⟨rfl, rfl⟩

theorem sameTimers_get (c : Cache α) (now : Nat) (key : Text) : SameTimers c (c.get now key).2 := by
  rw [get]
  split
  · exact ⟨rfl, rfl⟩
  · split <;> exact ⟨rfl, rfl⟩

theorem sameTimers_commit (c : Cache α) (now : Nat) (key : Text) (version : Option Int) (value : α) :
    SameTimers c (c.commit now key version value) := by
  cases version with
  | none => exact ⟨rfl, rfl⟩
  | some version => exact sameTimers_set c now key version value

theorem Use.sameTimers (use : Use c c') : SameTimers c c' := by
  cases use with
  | set now key version value => exact sameTimers_set c now key version value
  | remove key => exact ⟨rfl, rfl⟩
  | get now key => exact sameTimers_get c now key

theorem SameTimers.isCurrent (same : SameTimers c c') : c'.isCurrent key timer = c.isCurrent key timer := by
  rw [Cache.isCurrent, Cache.isCurrent, same.timers]

namespace Move
variable {call : Call} {stage next : Stage α} {a : Act α}

/-- A current timer was left alone, or has just been inserted by its call. -/
theorem isCurrent (move : Move c call stage a next c') (current : c'.isCurrent key timer = true) :
    (c.isCurrent key timer = true ∧ ¬a.Disturbs key) ∨ (a = .insert key ∧ next.timer? = some timer) := by
  cases move with
  | cancel =>
    obtain ⟨other, before⟩ := isCurrent_cancel current
    exact .inl ⟨before, other⟩
  | closeTimer =>
    obtain ⟨other, before⟩ := isCurrent_cancel current
    exact .inl ⟨before, other⟩
  | insert =>
    rcases isCurrent_insertTimer current with ⟨other, before⟩ | ⟨rfl, rfl⟩
    · exact .inl ⟨before, other⟩
    · exact .inr ⟨rfl, rfl⟩
  | commit now held =>
    rw [(sameTimers_commit _ now _ _ _).isCurrent] at current
    exact .inl ⟨(isCurrent_cancel current).2, id⟩
  | clearTimers =>
    rw [isCurrent_clearTimers] at current
    cases current
  | number => exact .inl ⟨current, id⟩
  | stop stale => exact .inl ⟨current, id⟩
  | fire held => exact .inl ⟨current, id⟩
  | compute value => exact .inl ⟨current, id⟩
  | discard stale => exact .inl ⟨current, id⟩
  | deliver => exact .inl ⟨current, id⟩
  | closeRecord => exact .inl ⟨current, id⟩
  | clearRecords => exact .inl ⟨current, id⟩

/-- A call keeps the number of its timer, or has just taken the next one. -/
theorem timer? (move : Move c call stage a next c') (held : next.timer? = some timer) :
    (stage.timer? = some timer ∧ c'.lastTimer = c.lastTimer) ∨
      (timer = c.lastTimer + 1 ∧ c'.lastTimer = c.lastTimer + 1) := by
  cases move with
  | number =>
    cases held
    exact .inr ⟨rfl, rfl⟩
  | insert => exact .inl ⟨held, rfl⟩
  | fire current => exact .inl ⟨held, rfl⟩
  | compute value => exact .inl ⟨held, rfl⟩
  | cancel => cases held
  | stop stale => cases held
  | discard stale => cases held
  | commit now current => cases held
  | deliver => cases held
  | closeTimer => cases held
  | closeRecord => cases held
  | clearTimers => cases held
  | clearRecords => cases held

theorem lastTimer_le (move : Move c call stage a next c') : c.lastTimer ≤ c'.lastTimer := by
  cases move with
  | number => exact Nat.le_succ _
  | commit now current =>
    rw [(sameTimers_commit _ now _ _ _).lastTimer]
    exact Nat.le_refl _
  | _ => exact Nat.le_refl _

/-- Each document keeps one timer at most. -/
theorem distinct (move : Move c call stage a next c') (nodup : (c.timers.map Prod.fst).Nodup) :
    (c'.timers.map Prod.fst).Nodup := by
  have erased (name : Text) : ((without name c.timers).map Prod.fst).Nodup :=
    nodup.sublist (List.filter_sublist.map Prod.fst)
  cases move with
  | cancel => exact erased _
  | closeTimer => exact erased _
  | commit now current =>
    rw [(sameTimers_commit _ now _ _ _).timers]
    exact erased _
  | insert =>
    refine List.nodup_cons.mpr ⟨?_, erased _⟩
    intro member
    obtain ⟨p, inside, same⟩ := List.mem_map.mp member
    have other := (List.mem_filter.mp inside).2
    simp [same] at other
  | clearTimers => exact List.nodup_nil
  | number => exact nodup
  | stop stale => exact nodup
  | fire current => exact nodup
  | compute value => exact nodup
  | discard stale => exact nodup
  | deliver => exact nodup
  | closeRecord => exact nodup
  | clearRecords => exact nodup

end Move

/-- The call at a place of a system that has not gone on yet. -/
theorem getElem?_set_cases {tasks : List (Task α)} {id i : Nat} {new t : Task α}
    (held : (tasks.set id new)[i]? = some t) : (i = id ∧ t = new) ∨ (i ≠ id ∧ tasks[i]? = some t) := by
  rw [List.getElem?_set] at held
  by_cases same : id = i
  · rw [if_pos same] at held
    split at held
    · exact .inl ⟨same.symm, (Option.some.inj held).symm⟩
    · cases held
  · rw [if_neg same] at held
    exact .inr ⟨Ne.symm same, held⟩

/-- Where one call of a system goes on, each call goes on or stays. -/
theorem getElem?_set_of {tasks : List (Task α)} {id i : Nat} {old t : Task α} (new : Task α)
    (found : tasks[id]? = some old) (held : tasks[i]? = some t) :
    (i = id ∧ t = old ∧ (tasks.set id new)[i]? = some new) ∨ (i ≠ id ∧ (tasks.set id new)[i]? = some t) := by
  obtain ⟨inside, _⟩ := List.getElem?_eq_some_iff.mp found
  rw [List.getElem?_set]
  by_cases same : id = i
  · subst same
    rw [found, Option.some.injEq] at held
    rw [if_pos rfl, if_pos inside]
    exact .inl ⟨rfl, held.symm, rfl⟩
  · rw [if_neg same]
    exact .inr ⟨Ne.symm same, held⟩

theorem getElem?_append_cases {β : Type} {l : List β} {i : Nat} {new b : β} (held : (l ++ [new])[i]? = some b) :
    (i = l.length ∧ b = new) ∨ (i < l.length ∧ l[i]? = some b) := by
  rw [List.getElem?_append] at held
  by_cases before : i < l.length
  · rw [if_pos before] at held
    exact .inr ⟨before, held⟩
  · rw [if_neg before, List.getElem?_singleton] at held
    split at held
    · exact .inl ⟨by omega, (Option.some.inj held).symm⟩
    · cases held

/-- Whether the call at a place holds a number for its timer. -/
def System.Holds (s : System α) (id timer : Nat) : Prop :=
  ∃ task, s.tasks[id]? = some task ∧ task.stage.timer? = some timer

/-- Numbers are taken in order, and no two calls hold the same. -/
structure Numbered (s : System α) : Prop where
  held : ∀ id timer, s.Holds id timer → timer ≤ s.cache.lastTimer
  current : ∀ key timer, s.cache.isCurrent key timer = true → timer ≤ s.cache.lastTimer
  unique : ∀ i j timer, s.Holds i timer → s.Holds j timer → i = j

namespace System.Holds
variable {s : System α} {id i : Nat}

theorem of_begin {call : Call}
    (holds : System.Holds { s with tasks := s.tasks ++ [{ call, stage := .called }] } i timer) : s.Holds i timer := by
  obtain ⟨task, held, number⟩ := holds
  rcases getElem?_append_cases held with ⟨_, rfl⟩ | ⟨_, before⟩
  · cases number
  · exact ⟨task, before, number⟩

/-- After a section a call holds a number that it held before, or the one just taken. -/
theorem of_act {call : Call} {stage next : Stage α} {a : Act α} {cache : Cache α}
    (held : s.tasks[id]? = some { call, stage }) (move : Move s.cache call stage a next cache)
    (holds : System.Holds { cache, tasks := s.tasks.set id { call, stage := next } } i timer) :
    s.Holds i timer ∨ (i = id ∧ timer = s.cache.lastTimer + 1 ∧ cache.lastTimer = s.cache.lastTimer + 1) := by
  obtain ⟨task, found, number⟩ := holds
  rcases getElem?_set_cases found with ⟨rfl, rfl⟩ | ⟨_, before⟩
  · rcases move.timer? number with ⟨kept, _⟩ | ⟨new, last⟩
    · exact .inl ⟨_, held, kept⟩
    · exact .inr ⟨rfl, new, last⟩
  · exact .inl ⟨task, before, number⟩

end System.Holds

theorem Numbered.step {s s' : System α} {e : Event α} (numbered : Numbered s) (step : Step s e s') : Numbered s' := by
  cases step with
  | begin call =>
    exact ⟨fun id timer holds => numbered.held id timer holds.of_begin, numbered.current,
      fun i j timer first second => numbered.unique i j timer first.of_begin second.of_begin⟩
  | use use =>
    have same := use.sameTimers
    refine ⟨?_, ?_, numbered.unique⟩
    · intro id timer holds
      exact same.lastTimer ▸ numbered.held id timer holds
    · intro key timer current
      rw [same.isCurrent] at current
      exact same.lastTimer ▸ numbered.current key timer current
  | @act id call stage next a cache held move =>
    have grows := move.lastTimer_le
    constructor
    · intro i timer holds
      rcases System.Holds.of_act held move holds with before | ⟨_, new, last⟩
      · exact Nat.le_trans (numbered.held i timer before) grows
      · exact Nat.le_of_eq (new.trans last.symm)
    · intro key timer current
      rcases move.isCurrent current with ⟨before, _⟩ | ⟨_, number⟩
      · exact Nat.le_trans (numbered.current key timer before) grows
      · rcases move.timer? number with ⟨kept, _⟩ | ⟨new, last⟩
        · exact Nat.le_trans (numbered.held id timer ⟨_, held, kept⟩) grows
        · exact Nat.le_of_eq (new.trans last.symm)
    · intro i j timer first second
      rcases System.Holds.of_act held move first with before | ⟨rfl, new, _⟩
      · rcases System.Holds.of_act held move second with also | ⟨rfl, new, _⟩
        · exact numbered.unique i j timer before also
        · have bound := numbered.held i timer before
          omega
      · rcases System.Holds.of_act held move second with also | ⟨rfl, _, _⟩
        · have bound := numbered.held j timer also
          omega
        · rfl

theorem Run.numbered {capacity : Nat} {idleLimit : Option Nat} {es : List (Event α)} {s : System α}
    (run : Run capacity idleLimit es s) : Numbered s := by
  induction run with
  | start =>
    constructor
    · rintro id timer ⟨task, held, _⟩
      cases held
    · intro key timer current
      cases current
    · rintro i j timer ⟨task, held, _⟩
      cases held
  | step run step ih => exact ih.step step

/-- There is one timer at most for each document. -/
theorem Run.distinct {capacity : Nat} {idleLimit : Option Nat} {es : List (Event α)} {s : System α}
    (run : Run capacity idleLimit es s) : (s.cache.timers.map Prod.fst).Nodup := by
  induction run with
  | start => exact List.nodup_nil
  | step run step ih =>
    cases step with
    | begin call => exact ih
    | use use => exact use.sameTimers.timers ▸ ih
    | act held move => exact move.distinct ih

end EndpointConsole.Lens.Cache
