import EndpointConsole.Proofs.Lens.Eviction

/-!
Records that have expired. What a cache answers depends on its unexpired records alone (`live`),
with one exception: storing looks at the version that is held and not at its age, so that a record
which has expired still refuses an older version (`refusesExpired`). Two caches with the same
unexpired records therefore answer alike just if they refuse alike on account of expired ones
(`Alike.serve`, `Alike.outcomes_iff`), and where the versions of a document never go back an
expired record is as good as none (`outcomes_of_rising`).
-/
namespace EndpointConsole.Lens.Cache

variable {α : Type} {c c' : Cache α} {key : Text} {now later : Nat} {r : Record α} {version : Int} {value : α}
  {capacity : Nat} {idleLimit : Option Nat}

/-- The records that have not expired. -/
def live (now : Nat) (c : Cache α) : List (Text × Record α) := c.records.filter fun p => !c.isExpired now p.2

theorem lookup?_filter {f : Record α → Bool} {records : List (Text × Record α)}
    (distinct : (records.map Prod.fst).Nodup) (key : Text) :
    Json.lookup? key (records.filter fun p => f p.2) = (Json.lookup? key records).filter f := by
  induction records with
  | nil => rfl
  | cons p rest ih =>
    obtain ⟨name, r⟩ := p
    obtain ⟨absent, others⟩ := List.nodup_cons.mp distinct
    have later := ih others
    by_cases same : name = key
    · subst same
      by_cases kept : f r = true
      · simp [Json.lookup?, Option.filter, kept]
      · simp [Json.lookup?, Option.filter, kept, later, Json.lookup?_of_not_mem absent]
    · by_cases kept : f r = true
      · simp [Json.lookup?, kept, same, later]
      · simp [Json.lookup?, kept, same, later]

/-- Where everything behind what is left out is left out too, it does not matter which is cut first. -/
theorem filter_take {β : Type} {f : β → Bool} {l : List β} (closed : l.Pairwise fun a b => f b = true → f a = true)
    (n : Nat) : (l.take n).filter f = (l.filter f).take n := by
  induction l generalizing n with
  | nil => simp
  | cons a rest ih =>
    obtain ⟨before, others⟩ := List.pairwise_cons.mp closed
    cases n with
    | zero => simp
    | succ n =>
      by_cases kept : f a = true
      · simp [kept, ih others]
      · have none_kept : ∀ b ∈ rest, ¬f b = true := fun b among inside => kept (before b among inside)
        have none_taken : ∀ b ∈ rest.take n, ¬f b = true := fun b among => none_kept b (List.mem_of_mem_take among)
        simp [kept, List.filter_eq_nil_iff.mpr none_kept, List.filter_eq_nil_iff.mpr none_taken]

theorem Tidy.lookup?_live (tidy : c.Tidy) (now : Nat) (key : Text) :
    Json.lookup? key (c.live now) = (c.peek? key).filter fun r => !c.isExpired now r :=
  lookup?_filter (f := fun r => !c.isExpired now r) tidy.distinct key

theorem live_remove (c : Cache α) (now : Nat) (key : Text) : (c.remove key).live now = without key (c.live now) := by
  simp [live, remove, without, isExpired, List.filter_filter, Bool.and_comm]

theorem live_wait (c : Cache α) (le : now ≤ later) :
    c.live later = (c.live now).filter fun p => !c.isExpired later p.2 := by
  rw [live, live, List.filter_filter]
  apply List.filter_congr
  intro p held
  by_cases expired : c.isExpired now p.2 = true
  · simp [expired, isExpired_of_idle (Nat.sub_le_sub_right le p.2.used) expired]
  · simp [expired]

/-- What is used now has not expired. -/
theorem isExpired_of_used (c : Cache α) (used : r.used = now) : c.isExpired now r = false := by
  simp [isExpired, used]

/-- The unexpired records stand before the expired ones, so that these go first. -/
theorem Ordered.live_putFirst (ordered : Ordered now c) (key : Text) (used : r.used = now) :
    (c.putFirst key r).live now =
      if c.capacity = 0 then (key, r) :: without key (c.live now)
      else ((key, r) :: without key (c.live now)).take c.capacity := by
  have fresh : c.isExpired now r = false := c.isExpired_of_used used
  have whole : ((key, r) :: without key c.records).filter (fun p => !c.isExpired now p.2) =
      (key, r) :: without key (c.live now) := by
    rw [List.filter_cons_of_pos (by simp [fresh]), ← live_remove]
    rfl
  have closed : ((key, r) :: without key c.records).Pairwise
      fun p q => (!c.isExpired now q.2) = true → (!c.isExpired now p.2) = true := by
    apply List.Pairwise.cons
    · intro p held unexpired
      simp [fresh]
    · apply (ordered.remove key).recent.imp
      intro p q le unexpired
      by_contra expired
      have gone := isExpired_of_idle (Nat.sub_le_sub_left le now) (by simpa using expired)
      simp [gone] at unexpired
  rw [live, Cache.putFirst]
  split
  · exact whole
  · rw [← whole, ← filter_take closed]
    rfl

theorem Tidy.peek?_of_live (tidy : c.Tidy) (held : Json.lookup? key (c.live now) = some r) :
    c.peek? key = some r ∧ c.isExpired now r = false := by
  rw [tidy.lookup?_live, Option.filter_eq_some_iff] at held
  simpa using held

theorem Tidy.isExpired_of_not_live (tidy : c.Tidy) (absent : Json.lookup? key (c.live now) = none)
    (held : c.peek? key = some r) : c.isExpired now r = true := by
  by_contra fresh
  rw [tidy.lookup?_live, held, Option.filter_some, if_pos (by simpa using fresh)] at absent
  cases absent

theorem Tidy.get_of_live (tidy : c.Tidy) (held : Json.lookup? key (c.live now) = some r) :
    c.get now key = (some { r with used := now }, c.putFirst key { r with used := now }) := by
  obtain ⟨found, fresh⟩ := tidy.peek?_of_live held
  simp [Cache.get, found, fresh]

theorem Tidy.get_of_not_live (tidy : c.Tidy) (absent : Json.lookup? key (c.live now) = none) :
    (c.get now key).1 = none ∧ (c.get now key).2.live now = c.live now := by
  rw [Cache.get]
  split
  · exact ⟨rfl, rfl⟩
  · next old found =>
    rw [if_pos (tidy.isExpired_of_not_live absent found), live_remove, without_of_absent absent]
    exact ⟨rfl, rfl⟩

/-- Whether storing a version is refused by a record that has expired. -/
def refusesExpired (now : Nat) (c : Cache α) (key : Text) (version : Int) : Bool :=
  (c.peek? key).any fun r => c.isExpired now r && decide (version < r.version)

theorem Tidy.refusesExpired_of_live (tidy : c.Tidy) (held : Json.lookup? key (c.live now) = some r) (version : Int) :
    c.refusesExpired now key version = false := by
  obtain ⟨found, fresh⟩ := tidy.peek?_of_live held
  simp [refusesExpired, found, fresh]

theorem Tidy.holdsNewer_of_live (tidy : c.Tidy) (held : Json.lookup? key (c.live now) = some r) (version : Int) :
    c.holdsNewer key version = decide (version < r.version) := by
  rw [holdsNewer, (tidy.peek?_of_live held).1, Option.any_some]

theorem Tidy.holdsNewer_of_not_live (tidy : c.Tidy) (absent : Json.lookup? key (c.live now) = none) (version : Int) :
    c.holdsNewer key version = c.refusesExpired now key version := by
  rw [holdsNewer, refusesExpired]
  cases found : c.peek? key with
  | none => rfl
  | some r => simp [tidy.isExpired_of_not_live absent found]

/-- No section changes the limits of a cache. -/
theorem Section.limits (made : Section now c c') : c'.capacity = c.capacity ∧ c'.idleLimit = c.idleLimit := by
  cases made with
  | get key =>
    rw [Cache.get]
    split
    · exact ⟨rfl, rfl⟩
    · split <;> exact ⟨rfl, rfl⟩
  | set key version value =>
    rw [Cache.set]
    split <;> exact ⟨rfl, rfl⟩
  | remove key => exact ⟨rfl, rfl⟩
  | clearRecords => exact ⟨rfl, rfl⟩
  | timers timers lastTimer => exact ⟨rfl, rfl⟩

theorem Reached.limits (reached : Reached capacity idleLimit now c) :
    c.capacity = capacity ∧ c.idleLimit = idleLimit.filter (0 < ·) := by
  induction reached with
  | empty now => exact ⟨rfl, rfl⟩
  | wait reached le ih => exact ih
  | step reached made ih => exact ⟨made.limits.1.trans ih.1, made.limits.2.trans ih.2⟩

/-- Two caches that came about with the same limits and hold the same unexpired records. -/
structure Alike (capacity : Nat) (idleLimit : Option Nat) (now : Nat) (c c' : Cache α) : Prop where
  left : Reached capacity idleLimit now c
  right : Reached capacity idleLimit now c'
  live : c.live now = c'.live now

namespace Alike

/-- A record that has expired is all that distinguishes a cache from the one without it. -/
theorem of_expired (reached : Reached capacity idleLimit now c) (held : c.peek? key = some r)
    (expired : c.isExpired now r = true) : Alike capacity idleLimit now c (c.remove key) where
  left := reached
  right := reached.step (.remove key)
  live := by
    rw [live_remove, without_of_absent]
    rw [reached.tidy.lookup?_live, held]
    simp [Option.filter, expired]

theorem live_putFirst (alike : Alike capacity idleLimit now c c') (key : Text) (used : r.used = now) :
    (c.putFirst key r).live now = (c'.putFirst key r).live now := by
  rw [alike.left.ordered.live_putFirst key used, alike.right.ordered.live_putFirst key used, alike.live,
    alike.left.limits.1, alike.right.limits.1]

theorem get (alike : Alike capacity idleLimit now c c') (key : Text) :
    (c.get now key).1 = (c'.get now key).1 ∧ (c.get now key).2.live now = (c'.get now key).2.live now := by
  cases found : Json.lookup? key (c.live now) with
  | some r =>
    have found' := alike.live ▸ found
    rw [alike.left.tidy.get_of_live found, alike.right.tidy.get_of_live found']
    exact ⟨rfl, alike.live_putFirst key rfl⟩
  | none =>
    obtain ⟨missed, same⟩ := alike.left.tidy.get_of_not_live found
    obtain ⟨missed', same'⟩ := alike.right.tidy.get_of_not_live (alike.live ▸ found)
    exact ⟨missed.trans missed'.symm, same.trans (alike.live.trans same'.symm)⟩

/-- Two such caches refuse the same version just if they refuse it alike on account of expired records. -/
theorem holdsNewer_iff (alike : Alike capacity idleLimit now c c') (key : Text) (version : Int) :
    c.holdsNewer key version = c'.holdsNewer key version ↔
      c.refusesExpired now key version = c'.refusesExpired now key version := by
  cases found : Json.lookup? key (c.live now) with
  | some r =>
    have found' := alike.live ▸ found
    rw [alike.left.tidy.holdsNewer_of_live found, alike.right.tidy.holdsNewer_of_live found',
      alike.left.tidy.refusesExpired_of_live found, alike.right.tidy.refusesExpired_of_live found']
    simp
  | none =>
    rw [alike.left.tidy.holdsNewer_of_not_live found, alike.right.tidy.holdsNewer_of_not_live (alike.live ▸ found)]

theorem set (alike : Alike capacity idleLimit now c c') (key : Text) (version : Int) (value : α)
    (same : c.holdsNewer key version = c'.holdsNewer key version) :
    (c.set now key version value).2.live now = (c'.set now key version value).2.live now := by
  rw [Cache.set, Cache.set, same]
  split
  · exact alike.live
  · exact alike.live_putFirst key rfl

end Alike

/-- Whether an operation is refused by a record that has expired. -/
def refused (now : Nat) (c : Cache α) : Operation α → Bool
  | .set key version _ => c.refusesExpired now key version
  | _ => false

/-- Two caches with the same unexpired records answer an operation alike just if they refuse it alike
    on account of expired ones, and then they still hold the same. -/
theorem Alike.serve (alike : Alike capacity idleLimit now c c') (op : Operation α) :
    ((c.serve now op).1 = (c'.serve now op).1 ↔ c.refused now op = c'.refused now op) ∧
      ((c.serve now op).1 = (c'.serve now op).1 →
        Alike capacity idleLimit (op.tick now) (c.serve now op).2 (c'.serve now op).2) := by
  have left := alike.left.serve op
  have right := alike.right.serve op
  cases op with
  | set key version value =>
    have answer (c : Cache α) : (c.serve now (.set key version value)).1 = .stored !c.holdsNewer key version := by
      by_cases refused : c.holdsNewer key version = true
      · simp [Cache.serve, Cache.set, refused]
      · simp [Cache.serve, Cache.set, refused]
    rw [answer, answer, Outcome.stored.injEq, Bool.not_inj_iff]
    exact ⟨alike.holdsNewer_iff key version, fun same => ⟨left, right, alike.set key version value same⟩⟩
  | get key =>
    obtain ⟨answer, live⟩ := alike.get key
    exact ⟨iff_of_true (congrArg Outcome.record answer) rfl, fun _ => ⟨left, right, live⟩⟩
  | lookup key version =>
    obtain ⟨answer, live⟩ := alike.get key
    have same : (c.lookup now key version).1 = (c'.lookup now key version).1 := by simp only [Cache.lookup, answer]
    exact ⟨iff_of_true (congrArg Outcome.value same) rfl, fun _ => ⟨left, right, live⟩⟩
  | remove key =>
    refine ⟨iff_of_true rfl rfl, fun _ => ⟨left, right, ?_⟩⟩
    exact (c.live_remove now key).trans ((congrArg _ alike.live).trans (c'.live_remove now key).symm)
  | close key =>
    refine ⟨iff_of_true rfl rfl, fun _ => ⟨left, right, ?_⟩⟩
    exact (c.live_remove now key).trans ((congrArg _ alike.live).trans (c'.live_remove now key).symm)
  | clear => exact ⟨iff_of_true rfl rfl, fun _ => ⟨left, right, rfl⟩⟩
  | advance ms =>
    refine ⟨iff_of_true rfl rfl, fun _ => ⟨left, right, ?_⟩⟩
    have le := Nat.le_add_right now ms
    change c.live (now + ms) = c'.live (now + ms)
    rw [c.live_wait le, c'.live_wait le, alike.live]
    simp only [isExpired, alike.left.limits.2, alike.right.limits.2]

/-- The answers to operations, each at its time, without the size of what is left. -/
def outcomes (now : Nat) (c : Cache α) (ops : List (Operation α)) : List (Outcome α) :=
  (answers Cache.serve (·.records.length) now c ops).map Prod.fst

/-- Which operations are refused by a record that has expired. -/
def refusals (now : Nat) (c : Cache α) : List (Operation α) → List Bool
  | [] => []
  | op :: rest => c.refused now op :: refusals (op.tick now) (c.serve now op).2 rest

theorem Alike.outcomes_iff (alike : Alike capacity idleLimit now c c') (ops : List (Operation α)) :
    outcomes now c ops = outcomes now c' ops ↔ refusals now c ops = refusals now c' ops := by
  induction ops generalizing now c c' with
  | nil => exact iff_of_true rfl rfl
  | cons op rest ih =>
    obtain ⟨answer, next⟩ := alike.serve op
    change (c.serve now op).1 :: outcomes (op.tick now) (c.serve now op).2 rest =
      (c'.serve now op).1 :: outcomes (op.tick now) (c'.serve now op).2 rest ↔ _
    rw [refusals, refusals, List.cons.injEq, List.cons.injEq, ← answer]
    exact and_congr_right fun same => ih (next same)

/-- Without a record that has expired the answers are the same, but for what storing refuses on account
    of expired records: they are the same just if that is the same. -/
theorem outcomes_without_expired_iff (reached : Reached capacity idleLimit now c) (held : c.peek? key = some r)
    (expired : c.isExpired now r = true) (ops : List (Operation α)) :
    outcomes now c ops = outcomes now (c.remove key) ops ↔ refusals now c ops = refusals now (c.remove key) ops :=
  (Alike.of_expired reached held expired).outcomes_iff ops

/-- A cache whose only record has expired. -/
def idle : Cache Nat := after serve 0 (empty 10 (some 60)) [.set ['a'] 5 10, .advance 61]

theorem reached_idle : Reached 10 (some 60) 61 idle :=
  Reached.after (.empty 0) [.set ['a'] 5 10, .advance 61]

/-- A later version is stored with and without the record that has expired. -/
theorem outcomes_without_expired_later : Reached 10 (some 60) 61 idle ∧ idle.peek? ['a'] = some ⟨5, 10, 0⟩ ∧
    idle.isExpired 61 ⟨5, 10, 0⟩ = true ∧
    outcomes 61 idle [.set ['a'] 6 20, .lookup ['a'] 6] =
      outcomes 61 (idle.remove ['a']) [.set ['a'] 6 20, .lookup ['a'] 6] := by
  have held : idle.peek? ['a'] = some ⟨5, 10, 0⟩ := by decide
  have expired : idle.isExpired 61 ⟨5, 10, 0⟩ = true := by decide
  refine ⟨reached_idle, held, expired, ?_⟩
  rw [outcomes_without_expired_iff reached_idle held expired]
  decide

/-- An earlier version is refused with the record that has expired, and stored without it. -/
theorem outcomes_with_expired : Reached 10 (some 60) 61 idle ∧ idle.peek? ['a'] = some ⟨5, 10, 0⟩ ∧
    idle.isExpired 61 ⟨5, 10, 0⟩ = true ∧
    outcomes 61 idle [.set ['a'] 4 20] ≠ outcomes 61 (idle.remove ['a']) [.set ['a'] 4 20] :=
  ⟨reached_idle, by decide, by decide, by decide⟩

/-- No version that is stored is older than the one held, or than one stored before. -/
structure Rising (c : Cache α) (ops : List (Operation α)) : Prop where
  held : ∀ key version value r, .set key version value ∈ ops → c.peek? key = some r → r.version ≤ version
  stored : ops.Pairwise fun a b => ∀ key version value version' value',
    a = .set key version value → b = .set key version' value' → version ≤ version'

namespace Rising

theorem serve {op : Operation α} {rest : List (Operation α)} (rising : Rising c (op :: rest)) (now : Nat) :
    Rising (c.serve now op).2 rest := by
  obtain ⟨first, others⟩ := List.pairwise_cons.mp rising.stored
  refine ⟨?_, others⟩
  intro key version value r among left
  rcases peek?_serve left with ⟨old, found, same⟩ | ⟨before, stored, _⟩
  · rw [← same]
    exact rising.held key version value old (List.mem_cons_of_mem op among) found
  · exact first _ among key r.version before version value stored rfl

theorem remove {ops : List (Operation α)} (rising : Rising c ops) (name : Text) : Rising (c.remove name) ops := by
  refine ⟨?_, rising.stored⟩
  intro key version value r among left
  rw [peek?_remove] at left
  split at left
  · cases left
  · exact rising.held key version value r among left

theorem refused_eq_false {op : Operation α} {rest : List (Operation α)} (rising : Rising c (op :: rest)) (now : Nat) :
    c.refused now op = false := by
  cases op with
  | set key version value =>
    rw [refused, refusesExpired, Option.any_eq_false]
    intro r found
    have newest := rising.held key version value r List.mem_cons_self found
    simp [Int.not_lt.mpr newest]
  | _ => rfl

theorem refusals_eq {ops : List (Operation α)} (rising : Rising c ops) (now : Nat) :
    refusals now c ops = ops.map fun _ => false := by
  induction ops generalizing now c with
  | nil => rfl
  | cons op rest ih =>
    rw [refusals, List.map_cons, rising.refused_eq_false now, ih (rising.serve now)]

end Rising

/-- Where the versions of a document do not go back, a record that has expired is as good as none. -/
theorem outcomes_of_rising (reached : Reached capacity idleLimit now c) (held : c.peek? key = some r)
    (expired : c.isExpired now r = true) {ops : List (Operation α)} (rising : Rising c ops) :
    outcomes now c ops = outcomes now (c.remove key) ops := by
  rw [(Alike.of_expired reached held expired).outcomes_iff, rising.refusals_eq, (rising.remove key).refusals_eq]

end EndpointConsole.Lens.Cache
