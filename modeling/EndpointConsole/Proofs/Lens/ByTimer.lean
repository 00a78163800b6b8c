import EndpointConsole.Proofs.Lens.Timers

/-!
A value that is computed by a timer while other things happen (`computeByTimer`)
comes about in a run in which the sections of all calls are interleaved. So what
holds of every run holds of the cache that does one thing after the other.
-/
namespace EndpointConsole.Lens.Cache

variable {α : Type} {capacity : Nat} {idleLimit : Option Nat} {es : List (Event α)} {cache : Cache α}
  {tasks : List (Task α)}

/-- A call goes on where it stands. -/
theorem Run.act {call : Call} {stage next : Stage α} {a : Act α} {cache' : Cache α} {later : List (Task α)}
    (run : Run capacity idleLimit es { cache, tasks := tasks ++ { call, stage } :: later })
    (move : Move cache call stage a next cache') :
    Run capacity idleLimit (es ++ [.act tasks.length a])
      { cache := cache', tasks := tasks ++ { call, stage := next } :: later } := by
  have held : (tasks ++ { call, stage } :: later)[tasks.length]? = some { call, stage } := by simp
  have moved := run.step (.act held move)
  simpa using moved

theorem without_without {β : Type} (key : Text) (pairs : List (Text × β)) :
    without key (without key pairs) = without key pairs := by
  simp [without]

/-- Whatever may happen while a value is computed is made of sections of new calls. -/
theorem Run.perform (run : Run capacity idleLimit es { cache, tasks }) (now : Nat) (action : Action α) :
    ∃ more later, Run capacity idleLimit (es ++ more)
      { cache := Cache.perform now cache action, tasks := tasks ++ later } := by
  have unchanged {next : Cache α} (use : Use cache next) :
      ∃ more later, Run capacity idleLimit (es ++ more) { cache := next, tasks := tasks ++ later } := by
    refine ⟨[.use], [], ?_⟩
    rw [List.append_nil]
    exact run.step (.use use)
  have begun (call : Call) := run.step (.begin call)
  cases action with
  | remove key => exact unchanged (.remove key)
  | set key version value => exact unchanged (.set now key version value)
  | close key =>
    have closed := ((begun (.close key)).act .closeTimer).act .closeRecord
    rw [List.append_assoc, List.append_assoc] at closed
    exact ⟨_, _, closed⟩
  | clear =>
    have cleared := ((begun .clear).act .clearTimers).act .clearRecords
    rw [List.append_assoc, List.append_assoc] at cleared
    exact ⟨_, _, cleared⟩
  | schedule key =>
    have scheduled := (((begun (.debounce key none)).act .cancel).act .number).act .insert
    rw [List.append_assoc, List.append_assoc, List.append_assoc] at scheduled
    have same : ((cache.cancel key).number.2.insertTimer key (cache.cancel key).number.1) =
        Cache.perform now cache (.schedule key) := by
      simp only [Cache.perform, schedule, insertTimer, number, cancel, without_without]
    rw [same] at scheduled
    exact ⟨_, _, scheduled⟩

theorem Run.performAll (run : Run capacity idleLimit es { cache, tasks }) (now : Nat) (during : List (Action α)) :
    ∃ more later, Run capacity idleLimit (es ++ more)
      { cache := during.foldl (Cache.perform now) cache, tasks := tasks ++ later } := by
  induction during generalizing es cache tasks with
  | nil =>
    refine ⟨[], [], ?_⟩
    rw [List.append_nil, List.append_nil]
    exact run
  | cons action rest ih =>
    obtain ⟨first, others, performed⟩ := run.perform now action
    obtain ⟨more, later, all⟩ := ih performed
    rw [List.append_assoc, List.append_assoc] at all
    exact ⟨_, _, all⟩

/-- A value computed by a timer, while some actions happen, is computed in a run. -/
theorem Run.computeByTimer (run : Run capacity idleLimit es { cache, tasks }) (now : Nat) (key : Text)
    (version : Option Int) (value : α) (during : List (Action α)) :
    ∃ more later, Run capacity idleLimit (es ++ more)
      { cache := (cache.computeByTimer now key version value during).2, tasks := tasks ++ later } := by
  have inserted := (((run.step (.begin (.debounce key version))).act .cancel).act .number).act .insert
  have current : ((cache.cancel key).schedule key).2.isCurrent key ((cache.cancel key).schedule key).1 = true := by
    simp [schedule, number, insertTimer, isCurrent, Json.lookup?]
  have fired := inserted.act (.fire current)
  obtain ⟨more, later, all⟩ := fired.performAll now during
  rw [List.append_assoc tasks, List.singleton_append] at all
  have computed := all.act (.compute value)
  rw [Cache.computeByTimer]
  by_cases still : (during.foldl (Cache.perform now) ((cache.cancel key).schedule key).2).isCurrent key
      ((cache.cancel key).schedule key).1 = true
  · have committed := computed.act (.commit now still)
    simp only [Cache.deliver, if_pos still]
    simp only [List.append_assoc] at committed
    exact ⟨_, _, committed⟩
  · have discarded := computed.act (.discard (Bool.eq_false_iff.mpr still))
    simp only [Cache.deliver, if_neg still]
    simp only [List.append_assoc] at discarded
    exact ⟨_, _, discarded⟩

end EndpointConsole.Lens.Cache
