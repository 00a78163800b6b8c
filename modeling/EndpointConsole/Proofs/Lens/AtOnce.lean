import EndpointConsole.Proofs.Lens.Timers

/-!
A value computed at once against one computed by a timer that fires at once, while others act on
the cache. Both compute and commit alike as long as nobody takes the timer of the document away.
Where somebody does, the timer discards its value, as it is promised of every commit; without a
delay there is no timer that could be taken away, and the value is committed and delivered all the
same (`runNow_agrees_iff`). Nothing else differs.
-/
namespace EndpointConsole.Lens.Cache

variable {α : Type} {c c' : Cache α} {key : Text} {timer now : Nat} {value : α}

/-! ### Any commit, and actions each at its time -/

/-- What a commit makes of the records with a value. -/
abbrev Commit (α : Type) := α → List (Text × Record α) → List (Text × Record α)

def commitBy (c : Cache α) (commit : Commit α) (value : α) : Cache α := { c with records := commit value c.records }

def performAll (c : Cache α) (during : List (Nat × Action α)) : Cache α :=
  during.foldl (fun c p => perform p.1 c p.2) c

/-- A value computed without delay. -/
def runNow (c : Cache α) (key : Text) (commit : Commit α) (value : α) (during : List (Nat × Action α)) :
    Option α × Cache α :=
  (some value, ((c.cancel key).performAll during).commitBy commit value)

/-- A value computed by a timer that fires at once. -/
def runByTimer (c : Cache α) (key : Text) (commit : Commit α) (value : α) (during : List (Nat × Action α)) :
    Option α × Cache α :=
  let (timer, c) := (c.cancel key).schedule key
  let c := c.performAll during
  if c.isCurrent key timer then (some value, (c.cancel key).commitBy commit value) else (none, c)

/-- The commit that stores a value for a version, if there is one. -/
def storing (capacity now : Nat) (key : Text) (version : Option Int) : Commit α :=
  fun value records => (({ capacity, idleLimit := none, records } : Cache α).commit now key version value).records

theorem commit_eq_commitBy (c : Cache α) (now : Nat) (key : Text) (version : Option Int) (value : α) :
    c.commit now key version value = c.commitBy (storing c.capacity now key version) value := by
  cases version with
  | none => rfl
  | some version =>
    have same : ({ capacity := c.capacity, idleLimit := none, records := c.records } : Cache α).holdsNewer key version =
        c.holdsNewer key version := rfl
    by_cases refused : c.holdsNewer key version = true
    · simp [commit, commitBy, storing, Cache.set, same, refused]
    · simp [commit, commitBy, storing, Cache.set, same, refused, putFirst]

theorem perform_capacity (now : Nat) (c : Cache α) (a : Action α) : (perform now c a).capacity = c.capacity := by
  cases a with
  | set key version value =>
    rw [perform, Cache.set]
    split <;> rfl
  | _ => rfl

theorem performAll_capacity (c : Cache α) (during : List (Nat × Action α)) :
    (c.performAll during).capacity = c.capacity := by
  induction during generalizing c with
  | nil => rfl
  | cons p rest ih => exact (ih _).trans (perform_capacity p.1 c p.2)

theorem foldl_perform (now : Nat) (c : Cache α) (during : List (Action α)) :
    during.foldl (perform now) c = c.performAll (during.map (now, ·)) := by
  rw [performAll, List.foldl_map]

theorem computeNow_eq_runNow (c : Cache α) (now : Nat) (key : Text) (version : Option Int) (value : α)
    (during : List (Action α)) : c.computeNow now key version value during =
      c.runNow key (storing c.capacity now key version) value (during.map (now, ·)) := by
  rw [computeNow, runNow, foldl_perform, commit_eq_commitBy, performAll_capacity]
  rfl

theorem computeByTimer_eq_runByTimer (c : Cache α) (now : Nat) (key : Text) (version : Option Int) (value : α)
    (during : List (Action α)) : c.computeByTimer now key version value during =
      c.runByTimer key (storing c.capacity now key version) value (during.map (now, ·)) := by
  have same : (((c.cancel key).schedule key).2.performAll (during.map (now, ·))).capacity = c.capacity :=
    performAll_capacity _ _
  simp only [computeByTimer, runByTimer, deliver, foldl_perform, commit_eq_commitBy]
  rw [← same]
  rfl

/-! ### One action -/

/-- Whether an action takes the timer of a document away, if there is one. -/
def Action.disturbs (key : Text) : Action α → Bool
  | .close k | .schedule k => k == key
  | .clear => true
  | _ => false

/-- The documents with a pending timer. -/
def pending (c : Cache α) : List Text := c.timers.map Prod.fst

/-- The documents that have a pending timer after an action, of those before. -/
def Action.pendingOf (keys : List Text) : Action α → List Text
  | .close key => keys.filter (· ≠ key)
  | .schedule key => key :: keys.filter (· ≠ key)
  | .clear => []
  | _ => keys

theorem pending_without (key : Text) (timers : List (Text × Nat)) :
    (without key timers).map Prod.fst = (timers.map Prod.fst).filter (· ≠ key) := by
  rw [List.filter_map]
  rfl

theorem pending_perform (now : Nat) (c : Cache α) (a : Action α) : (perform now c a).pending = a.pendingOf c.pending := by
  cases a with
  | close key => exact pending_without key c.timers
  | schedule key => exact congrArg (key :: ·) (pending_without key c.timers)
  | set key version value => exact congrArg (List.map Prod.fst) (sameTimers_set c now key version value).timers
  | remove key => rfl
  | clear => rfl

/-- An action that takes the timer of a document away leaves no trace of it. -/
theorem pendingOf_of_disturbs {a : Action α} (disturbs : a.disturbs key = true) (keys : List Text) :
    a.pendingOf keys = a.pendingOf (keys.filter (· ≠ key)) := by
  cases a with
  | close name => simp_all [Action.disturbs, Action.pendingOf]
  | schedule name => simp_all [Action.disturbs, Action.pendingOf]
  | clear => rfl
  | remove name => cases disturbs
  | set name version value => cases disturbs

/-- Any other action does the same to the timers of the other documents. -/
theorem filter_pendingOf {a : Action α} (leaves : a.disturbs key = false) (keys : List Text) :
    (a.pendingOf keys).filter (· ≠ key) = a.pendingOf (keys.filter (· ≠ key)) := by
  cases a with
  | close name => simp [Action.pendingOf, List.filter_filter, Bool.and_comm]
  | schedule name =>
    have other : name ≠ key := by simpa [Action.disturbs] using leaves
    simp [Action.pendingOf, List.filter_filter, Bool.and_comm, other]
  | clear => rfl
  | remove name => rfl
  | set name version value => rfl

theorem lastTimer_perform (now : Nat) (c : Cache α) (a : Action α) : c.lastTimer ≤ (perform now c a).lastTimer := by
  cases a with
  | schedule key => exact Nat.le_succ _
  | set key version value => exact Nat.le_of_eq (sameTimers_set c now key version value).lastTimer.symm
  | _ => exact Nat.le_refl _

/-- A timer stays current through the actions that leave it alone, and does not become so again, as
    numbers are not used twice. -/
theorem isCurrent_perform (taken : timer ≤ c.lastTimer) (now : Nat) (a : Action α) :
    (perform now c a).isCurrent key timer = (c.isCurrent key timer && !a.disturbs key) := by
  cases a with
  | close name => exact c.isCurrent_cancel_eq name key timer
  | schedule name =>
    by_cases same : name = key
    · have other : c.lastTimer + 1 ≠ timer := by omega
      simp [perform, Cache.schedule, number, insertTimer, isCurrent, Json.lookup?, Action.disturbs, same, other]
    · have kept := c.isCurrent_cancel_eq name key timer
      simp only [isCurrent, cancel] at kept
      simp [perform, Cache.schedule, number, insertTimer, isCurrent, Json.lookup?, Action.disturbs, same, kept]
  | clear => simp [perform, clear, clearTimers, clearRecords, isCurrent, Action.disturbs, Json.lookup?]
  | remove name => simp [perform, Cache.remove, isCurrent, Action.disturbs]
  | set name version value =>
    change (c.set now name version value).2.isCurrent key timer = _
    simp [(sameTimers_set c now name version value).isCurrent, Action.disturbs]

/-- Two caches with the same records and the same room for them. -/
structure SameRecords (c c' : Cache α) : Prop where
  capacity : c.capacity = c'.capacity
  records : c.records = c'.records

theorem SameRecords.perform (same : SameRecords c c') (now : Nat) (a : Action α) :
    SameRecords (perform now c a) (perform now c' a) := by
  obtain ⟨capacity, records⟩ := same
  cases a with
  | set key version value =>
    have newer : c.holdsNewer key version = c'.holdsNewer key version := by rw [holdsNewer, holdsNewer, peek?, peek?, records]
    rw [Cache.perform, Cache.perform, Cache.set, Cache.set, newer]
    split
    · exact ⟨capacity, records⟩
    · exact ⟨capacity, by simp only [putFirst, capacity, records]⟩
  | close key => exact ⟨capacity, congrArg (without key) records⟩
  | remove key => exact ⟨capacity, congrArg (without key) records⟩
  | clear => exact ⟨capacity, rfl⟩
  | schedule key => exact ⟨capacity, records⟩

/-! ### All actions -/

variable {during : List (Nat × Action α)}

/-- Whether some action takes the timer of a document away. -/
def disturbed (key : Text) (during : List (Nat × Action α)) : Bool := during.any fun p => p.2.disturbs key

theorem SameRecords.performAll (same : SameRecords c c') (during : List (Nat × Action α)) :
    SameRecords (c.performAll during) (c'.performAll during) := by
  induction during generalizing c c' with
  | nil => exact same
  | cons p rest ih => exact ih (same.perform p.1 p.2)

theorem isCurrent_performAll (taken : timer ≤ c.lastTimer) (during : List (Nat × Action α)) :
    (c.performAll during).isCurrent key timer = (c.isCurrent key timer && !disturbed key during) := by
  induction during generalizing c with
  | nil => simp [performAll, disturbed]
  | cons p rest ih =>
    have still := Nat.le_trans taken (lastTimer_perform p.1 c p.2)
    change ((perform p.1 c p.2).performAll rest).isCurrent key timer = _
    rw [ih still, isCurrent_perform taken]
    simp [disturbed, Bool.and_assoc]

/-- The documents that have a pending timer after some actions, of those before. -/
def pendingAfter (during : List (Nat × Action α)) (keys : List Text) : List Text :=
  during.foldl (fun keys p => p.2.pendingOf keys) keys

theorem pending_performAll (c : Cache α) (during : List (Nat × Action α)) :
    (c.performAll during).pending = pendingAfter during c.pending := by
  induction during generalizing c with
  | nil => rfl
  | cons p rest ih =>
    change ((perform p.1 c p.2).performAll rest).pending = _
    rw [ih, pending_perform]
    rfl

/-- Whether a document had a timer at the beginning shows in the end only in its own timer, and not
    even there if that was taken away. -/
theorem pendingAfter_filter (key : Text) (during : List (Nat × Action α)) (keys : List Text) :
    if disturbed key during = true then pendingAfter during keys = pendingAfter during (keys.filter (· ≠ key))
    else (pendingAfter during keys).filter (· ≠ key) = pendingAfter during (keys.filter (· ≠ key)) := by
  induction during generalizing keys with
  | nil => simp [disturbed, pendingAfter]
  | cons p rest ih =>
    have later := ih (p.2.pendingOf keys)
    have first (keys : List Text) : pendingAfter (p :: rest) keys = pendingAfter rest (p.2.pendingOf keys) := rfl
    cases disturbs : p.2.disturbs key with
    | true =>
      have here : disturbed key (p :: rest) = true := by simp [disturbed, disturbs]
      rw [if_pos here, first, first, pendingOf_of_disturbs disturbs]
    | false =>
      have here : disturbed key (p :: rest) = disturbed key rest := by simp [disturbed, disturbs]
      rw [here, first, first, ← filter_pendingOf disturbs]
      exact later

/-! ### The two ways -/

/-- What two computations of a value deliver and leave is the same. -/
structure Agree (a b : Option α × Cache α) : Prop where
  delivered : a.1 = b.1
  records : a.2.records = b.2.records
  pending : a.2.pending = b.2.pending

/-- The first delivers and commits a value that the second discards, and nothing else differs. -/
structure Overrides (commit : Commit α) (value : α) (a b : Option α × Cache α) : Prop where
  delivered : a.1 = some value
  discarded : b.1 = none
  records : a.2.records = commit value b.2.records
  pending : a.2.pending = b.2.pending

section
variable (c : Cache α) (key : Text)

/-- The cache when a timer that was just scheduled begins to compute. -/
def awaiting : Cache α := ((c.cancel key).schedule key).2

theorem sameRecords_awaiting : SameRecords (c.cancel key) (c.awaiting key) := ⟨rfl, rfl⟩

theorem pending_awaiting : (c.awaiting key).pending.filter (· ≠ key) = (c.cancel key).pending := by
  have scheduled : (c.awaiting key).pending = key :: ((c.cancel key).pending.filter (· ≠ key)) :=
    congrArg (key :: ·) (pending_without key (c.cancel key).timers)
  have cancelled : (c.cancel key).pending = c.pending.filter (· ≠ key) := pending_without key c.timers
  simp [scheduled, cancelled]

theorem isCurrent_awaiting (during : List (Nat × Action α)) :
    ((c.awaiting key).performAll during).isCurrent key (c.lastTimer + 1) = !disturbed key during := by
  have current : (c.awaiting key).isCurrent key (c.lastTimer + 1) = true := by
    simp [awaiting, schedule, number, insertTimer, cancel, isCurrent, Json.lookup?]
  have taken : c.lastTimer + 1 ≤ (c.awaiting key).lastTimer := Nat.le_refl _
  rw [isCurrent_performAll taken, current, Bool.true_and]

theorem runByTimer_eq (commit : Commit α) (value : α) (during : List (Nat × Action α)) :
    c.runByTimer key commit value during =
      if disturbed key during then (none, (c.awaiting key).performAll during)
      else (some value, (((c.awaiting key).performAll during).cancel key).commitBy commit value) := by
  have current := c.isCurrent_awaiting key during
  change (if ((c.awaiting key).performAll during).isCurrent key (c.lastTimer + 1) = true then _ else _) = _
  rw [current]
  cases disturbed key during <;> rfl

end

theorem overrides_of_disturbed (c : Cache α) (commit : Commit α) (value : α) (taken : disturbed key during = true) :
    Overrides commit value (c.runNow key commit value during) (c.runByTimer key commit value during) := by
  have same := (c.sameRecords_awaiting key).performAll during
  have keys := pendingAfter_filter key during (c.awaiting key).pending
  rw [if_pos taken, pending_awaiting, ← pending_performAll, ← pending_performAll] at keys
  rw [runByTimer_eq, if_pos taken]
  exact ⟨rfl, rfl, congrArg (commit value) same.records, keys.symm⟩

theorem agree_of_undisturbed (c : Cache α) (commit : Commit α) (value : α) (left : ¬disturbed key during = true) :
    Agree (c.runNow key commit value during) (c.runByTimer key commit value during) := by
  have same := (c.sameRecords_awaiting key).performAll during
  have keys := pendingAfter_filter key during (c.awaiting key).pending
  rw [if_neg left, pending_awaiting, ← pending_performAll, ← pending_performAll] at keys
  rw [runByTimer_eq, if_neg left]
  refine ⟨rfl, congrArg (commit value) same.records, keys.symm.trans ?_⟩
  exact (pending_without key ((c.awaiting key).performAll during).timers).symm

theorem Overrides.not_agree {commit : Commit α} {a b : Option α × Cache α} (overrides : Overrides commit value a b) :
    ¬Agree a b := by
  intro agree
  have delivered := agree.delivered
  rw [overrides.delivered, overrides.discarded] at delivered
  cases delivered

theorem agree_iff_undisturbed (c : Cache α) (key : Text) (commit : Commit α) (value : α)
    (during : List (Nat × Action α)) :
    Agree (c.runNow key commit value during) (c.runByTimer key commit value during) ↔ ¬disturbed key during = true :=
  ⟨fun agree taken => (c.overrides_of_disturbed commit value taken).not_agree agree, c.agree_of_undisturbed commit value⟩

/-- With and without a delay a value is computed alike just if no action takes the timer of its document
    away; if one does, only the value that the timer discards is delivered and committed without a delay. -/
theorem runNow_agrees_iff (c : Cache α) (key : Text) (commit : Commit α) (value : α) (during : List (Nat × Action α)) :
    (Agree (c.runNow key commit value during) (c.runByTimer key commit value during) ↔
        ∀ p ∈ during, p.2.disturbs key = false) ∧
      ((∃ p ∈ during, p.2.disturbs key = true) →
        Overrides commit value (c.runNow key commit value during) (c.runByTimer key commit value during)) := by
  have undisturbed : (∀ p ∈ during, p.2.disturbs key = false) ↔ ¬disturbed key during = true := by
    simp [disturbed]
  have taken : (∃ p ∈ during, p.2.disturbs key = true) ↔ disturbed key during = true := by
    simp [disturbed]
  rw [undisturbed, taken]
  exact ⟨c.agree_iff_undisturbed key commit value during, c.overrides_of_disturbed commit value⟩

/-- So it is where the value is stored for a version. -/
theorem compute_agree_iff (c : Cache α) (now : Nat) (key : Text) (version : Option Int) (value : α)
    (during : List (Action α)) :
    Agree (c.computeNow now key version value during) (c.computeByTimer now key version value during) ↔
      ∀ a ∈ during, a.disturbs key = false := by
  rw [computeNow_eq_runNow, computeByTimer_eq_runByTimer, agree_iff_undisturbed]
  simp [disturbed]

/-- A document is closed while a value is computed for it: the timer discards the value, and without a
    delay it is stored all the same. -/
theorem not_agree_closed :
    (empty 10 none).computeNow 0 ['a'] (some 9) 30 [.close ['a']] =
        (some 30, { (empty 10 none : Cache Nat) with records := [(['a'], ⟨9, 30, 0⟩)] }) ∧
      (empty 10 none).computeByTimer 0 ['a'] (some 9) 30 [.close ['a']] =
        (none, { (empty 10 none : Cache Nat) with lastTimer := 1 }) ∧
      ¬Agree ((empty 10 none : Cache Nat).computeNow 0 ['a'] (some 9) 30 [.close ['a']])
        ((empty 10 none).computeByTimer 0 ['a'] (some 9) 30 [.close ['a']]) := by
  refine ⟨by decide, by decide, ?_⟩
  rw [compute_agree_iff]
  decide

end EndpointConsole.Lens.Cache
