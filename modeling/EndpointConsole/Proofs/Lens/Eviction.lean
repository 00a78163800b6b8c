import EndpointConsole.Proofs.Lens.Recency

/-!
What goes when a cache is full. On a clock that does not go back the records stand in the
order of their last use, whatever sections of whatever calls follow each other
(`Section.ordered`, `Reached.ordered`). So the last record is the one idle for longest, and
storing never drops a record that has not expired while another one has
(`Ordered.expired_of_evicts`).
-/
namespace EndpointConsole.Lens.Cache

variable {α : Type} {c c' : Cache α} {key : Text} {now : Nat} {r r' : Record α} {p q : Text × Record α}
  {capacity : Nat} {idleLimit : Option Nat}

/-- What one section makes of a cache at a time. A call works on the records under one lock and on
    the timers under another, so that between any two of its sections others may come. -/
inductive Section (now : Nat) : Cache α → Cache α → Prop where
  | get {c : Cache α} (key : Text) : Section now c (c.get now key).2
  | set {c : Cache α} (key : Text) (version : Int) (value : α) : Section now c (c.set now key version value).2
  | remove {c : Cache α} (key : Text) : Section now c (c.remove key)
  | clearRecords {c : Cache α} : Section now c c.clearRecords
  /-- Whatever is done to the timers alone. -/
  | timers {c : Cache α} (timers : List (Text × Nat)) (lastTimer : Nat) : Section now c { c with timers, lastTimer }

/-- What an empty cache may have come to at a time, on a clock that does not go back. -/
inductive Reached (capacity : Nat) (idleLimit : Option Nat) : Nat → Cache α → Prop where
  | empty (now : Nat) : Reached capacity idleLimit now (empty capacity idleLimit)
  | wait {now later : Nat} {c : Cache α} (reached : Reached capacity idleLimit now c) (le : now ≤ later) :
      Reached capacity idleLimit later c
  | step {now : Nat} {c c' : Cache α} (reached : Reached capacity idleLimit now c) (made : Section now c c') :
      Reached capacity idleLimit now c'

namespace Reached

/-- The sections of an operation, and the time that it lets pass. -/
theorem serve (reached : Reached capacity idleLimit now c) (op : Operation α) :
    Reached capacity idleLimit (op.tick now) (c.serve now op).2 := by
  cases op with
  | set key version value => exact reached.step (.set key version value)
  | get key => exact reached.step (.get key)
  | lookup key version => exact reached.step (.get key)
  | remove key => exact reached.step (.remove key)
  | close key => exact (reached.step (.timers _ c.lastTimer)).step (.remove key)
  | clear => exact (reached.step (.timers [] c.lastTimer)).step .clearRecords
  | advance ms => exact reached.wait (Nat.le_add_right now ms)

theorem after (reached : Reached capacity idleLimit now c) (ops : List (Operation α)) :
    Reached capacity idleLimit (ops.foldl Operation.tick now) (after Cache.serve now c ops) := by
  induction ops generalizing now c with
  | nil => exact reached
  | cons op rest ih => exact ih (reached.serve op)

/-- A timer that ends delivers its value in two sections. -/
theorem deliver (reached : Reached capacity idleLimit now c) (key : Text) (timer : Nat) (version : Option Int)
    (value : α) : Reached capacity idleLimit now (c.deliver now key timer version value).2 := by
  have cancelled := reached.step (.timers (without key c.timers) c.lastTimer)
  rw [Cache.deliver]
  split
  · cases version with
    | none => exact cancelled
    | some version => exact cancelled.step (.set key version value)
  · exact reached

end Reached

/-- The records stand in the order of their last use, the latest first, and none was used in time to come. -/
structure Ordered (now : Nat) (c : Cache α) : Prop where
  recent : c.records.Pairwise fun p q => q.2.used ≤ p.2.used
  past : ∀ p ∈ c.records, p.2.used ≤ now

namespace Ordered

theorem wait (ordered : Ordered now c) {later : Nat} (le : now ≤ later) : Ordered later c :=
  ⟨ordered.recent, fun p held => Nat.le_trans (ordered.past p held) le⟩

theorem of_sublist (ordered : Ordered now c) (fewer : c'.records.Sublist c.records) : Ordered now c' :=
  ⟨ordered.recent.sublist fewer, fun p held => ordered.past p (fewer.subset held)⟩

theorem remove (ordered : Ordered now c) (key : Text) : Ordered now (c.remove key) :=
  ordered.of_sublist List.filter_sublist

/-- What is used now may stand first. -/
theorem putFirst (ordered : Ordered now c) (key : Text) (used : r.used = now) : Ordered now (c.putFirst key r) := by
  have others := ordered.remove key
  have all : Ordered now { c with records := (key, r) :: without key c.records } := by
    constructor
    · apply List.Pairwise.cons _ others.recent
      intro p held
      simpa [used] using others.past p held
    · intro p held
      rcases List.mem_cons.mp held with rfl | other
      · exact Nat.le_of_eq used
      · exact others.past p other
  apply all.of_sublist
  rw [Cache.putFirst]
  split
  · exact List.Sublist.refl _
  · exact List.take_sublist _ _

theorem get (ordered : Ordered now c) (key : Text) : Ordered now (c.get now key).2 := by
  rw [Cache.get]
  split
  · exact ordered
  · split
    · exact ordered.remove key
    · exact ordered.putFirst key rfl

theorem set (ordered : Ordered now c) (key : Text) (version : Int) (value : α) :
    Ordered now (c.set now key version value).2 := by
  rw [Cache.set]
  split
  · exact ordered
  · exact ordered.putFirst key rfl

end Ordered

/-- Each section keeps the order: what it moves to the front is used by it. -/
theorem Section.ordered (made : Section now c c') (ordered : Ordered now c) : Ordered now c' := by
  cases made with
  | get key => exact ordered.get key
  | set key version value => exact ordered.set key version value
  | remove key => exact ordered.remove key
  | clearRecords => exact ordered.of_sublist (List.nil_sublist _)
  | timers timers lastTimer => exact ⟨ordered.recent, ordered.past⟩

theorem Section.tidy (made : Section now c c') (tidy : c.Tidy) : c'.Tidy := by
  cases made with
  | get key => exact tidy.get now key
  | set key version value => exact tidy.set now key version value
  | remove key => exact tidy.remove key
  | clearRecords => exact ⟨List.nodup_nil, fun _ => Nat.zero_le _⟩
  | timers timers lastTimer => exact ⟨tidy.distinct, tidy.within⟩

theorem Reached.ordered (reached : Reached capacity idleLimit now c) : Ordered now c := by
  induction reached with
  | empty now => exact ⟨List.Pairwise.nil, List.forall_mem_nil _⟩
  | wait reached le ih => exact ih.wait le
  | step reached made ih => exact made.ordered ih

theorem Reached.tidy (reached : Reached capacity idleLimit now c) : c.Tidy := by
  induction reached with
  | empty now => exact tidy_empty capacity idleLimit
  | wait reached le ih => exact ih
  | step reached made ih => exact made.tidy ih

/-- What has been idle for at least as long as an expired record has expired. -/
theorem isExpired_of_idle {later : Nat} (longer : now - r.used ≤ later - r'.used) (expired : c.isExpired now r = true) :
    c.isExpired later r' = true := by
  rw [isExpired, Option.any_eq_true] at expired ⊢
  obtain ⟨limit, is, beyond⟩ := expired
  exact ⟨limit, is, decide_eq_true (Nat.lt_of_lt_of_le (of_decide_eq_true beyond) longer)⟩

/-- Whether storing for a document drops the record of another. -/
def Evicts (c : Cache α) (now : Nat) (key : Text) (version : Int) (value : α) (p : Text × Record α) : Prop :=
  p ∈ c.records ∧ p.1 ≠ key ∧ p ∉ (c.set now key version value).2.records

theorem getLast?_of_not_mem_dropLast {β : Type} {b : β} {l : List β} (held : b ∈ l) (gone : b ∉ l.dropLast) :
    l.getLast? = some b := by
  obtain ⟨front, last, rfl⟩ := (List.eq_nil_or_concat' l).resolve_left (List.ne_nil_of_mem held)
  simp_all

/-- It is the last record that storing drops. -/
theorem Tidy.last_of_evicts (tidy : c.Tidy) {version : Int} {value : α} (evicts : c.Evicts now key version value p) :
    c.records.getLast? = some p := by
  obtain ⟨held, other, gone⟩ := evicts
  have left : p ∈ without key c.records := by simp [without, held, other]
  rw [Cache.set] at gone
  split at gone
  · exact absurd held gone
  · cases found : c.peek? key with
    | some old =>
      rw [tidy.records_putFirst_of_held found] at gone
      exact absurd (List.mem_cons_of_mem _ left) gone
    | none =>
      rw [tidy.records_putFirst, without_of_absent found] at gone
      split at gone
      · -- what is no longer there without the last record is the last record
        rw [List.dropLast_cons_of_ne_nil (List.ne_nil_of_mem held), List.mem_cons, not_or] at gone
        exact getLast?_of_not_mem_dropLast held gone.2
      · exact absurd (List.mem_cons_of_mem _ held) gone

/-- The last record was used before every other one. -/
theorem Ordered.last_le (ordered : Ordered now c) (last : c.records.getLast? = some p) (held : q ∈ c.records) :
    p.2.used ≤ q.2.used := by
  obtain ⟨front, whole⟩ := List.getLast?_eq_some_iff.mp last
  have recent := ordered.recent
  rw [whole, List.pairwise_append] at recent
  rw [whole, List.mem_append, List.mem_singleton] at held
  rcases held with before | rfl
  · exact recent.2.2 q before p (List.mem_singleton_self p)
  · exact Nat.le_refl _

theorem Ordered.expired_of_evicts (ordered : Ordered now c) (tidy : c.Tidy) {version : Int} {value : α}
    (evicts : c.Evicts now key version value p) (held : q ∈ c.records) (expired : c.isExpired now q.2 = true) :
    c.isExpired now p.2 = true :=
  isExpired_of_idle (Nat.sub_le_sub_left (ordered.last_le (tidy.last_of_evicts evicts) held) now) expired

/-- In every cache that comes about on a clock the records stand in the order of their last use, and
    storing drops no record that has not expired while one is held that has. -/
theorem Reached.evicts_expired (reached : Reached capacity idleLimit now c) :
    c.records.Pairwise (fun p q => q.2.used ≤ p.2.used) ∧
      ∀ (key : Text) (version : Int) (value : α) (p q : Text × Record α), c.Evicts now key version value p →
        q ∈ c.records → c.isExpired now q.2 = true → c.isExpired now p.2 = true := by
  refine ⟨reached.ordered.recent, ?_⟩
  intro key version value p q evicts held expired
  exact reached.ordered.expired_of_evicts reached.tidy evicts held expired

/-- A full cache in which two records have expired and the one stored first has not. -/
def lookedUpFirst : Cache Nat :=
  after serve 0 (empty 3 (some 60))
    [.set ['a'] 1 10, .set ['b'] 1 20, .advance 5, .set ['c'] 1 30, .advance 45, .lookup ['a'] 1, .advance 16]

theorem evicts_expired_looked_up : Reached 3 (some 60) 66 lookedUpFirst ∧
    lookedUpFirst.Evicts 66 ['d'] 1 40 (['b'], ⟨1, 20, 0⟩) ∧
    (['c'], ⟨1, 30, 5⟩) ∈ lookedUpFirst.records ∧ lookedUpFirst.isExpired 66 ⟨1, 30, 5⟩ = true ∧
    lookedUpFirst.isExpired 66 ⟨1, 20, 0⟩ = true := by
  have reached : Reached 3 (some 60) 66 lookedUpFirst := Reached.after (.empty 0)
    [.set ['a'] 1 10, .set ['b'] 1 20, .advance 5, .set ['c'] 1 30, .advance 45, .lookup ['a'] 1, .advance 16]
  have evicts : lookedUpFirst.Evicts 66 ['d'] 1 40 (['b'], ⟨1, 20, 0⟩) := by unfold Evicts; decide
  have held : (['c'], ⟨1, 30, 5⟩) ∈ lookedUpFirst.records := by decide
  have expired : lookedUpFirst.isExpired 66 ⟨1, 30, 5⟩ = true := by decide
  exact ⟨reached, evicts, held, expired, reached.evicts_expired.2 ['d'] 1 40 _ _ evicts held expired⟩

end EndpointConsole.Lens.Cache
