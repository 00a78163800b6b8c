import EndpointConsole.Proofs.History.Contents

/-!
A history can be built anew over its storage at any time, and nobody can tell
(`answers_reloaded`). Every answer is a function of the contents
(`perform_outcome`), and the storage never falls behind the contents (`Settled`):
it is written unless a call left them as they were, although buckets that became
empty may be left in it.
-/
namespace EndpointConsole.History

def contents (h : History) : Contents := Buckets.contents h.buckets

/-- What may be asked of a history. -/
inductive Call where
  | add (bucket : Text) (item : Item) (limit : Nat)
  | get (bucket : Text) (now : Int)
  | clear (bucket : Text)
  deriving Repr

/-- The answer to a call, which is empty for clearing, and the history after it. -/
def perform (h : History) : Call → Checked (List Item × History)
  | .add bucket item limit => .ok (h.add bucket item limit)
  | .get bucket now => h.get bucket now
  | .clear bucket => .ok ([], h.clear bucket)

/-- A call whose numbers fit machine words, in a history that keeps items for so long. -/
def Call.Fits (kept : Option Nat) : Call → Prop
  | .add _ item _ => item.Fits
  | .get _ now => ∀ time ∈ kept, minSigned ≤ now - time ∧ now - time ≤ maxSigned
  | .clear _ => True

/-- What is left of the contents at a time. -/
def Contents.at (kept : Option Nat) (now : Int) (contents : Contents) : Contents :=
  match kept with
  | none => contents
  | some time => fun bucket => (contents bucket).filter fun i => now - time ≤ i.time

/-- What a call answers and what it makes of the contents. -/
def Call.outcome (kept : Option Nat) (contents : Contents) : Call → List Item × Contents
  | .add bucket item limit =>
    let items := addItem item limit (contents bucket)
    (items, contents.set bucket items)
  | .get bucket now =>
    let left := contents.at kept now
    (newestFirst (left bucket), left)
  | .clear bucket => ([], contents.set bucket [])

/-- The storage of a history holds what the history holds, and can be written. -/
structure Settled (h : History) : Prop where
  available : h.storage.Available
  storable : h.buckets.Storable
  stored : (load h.storage).contents = h.contents

theorem settled_restored {storage : Storage} (available : storage.Available) (kept : Option Nat) :
    (restored storage kept).Settled :=
  ⟨available, load_storable storage, rfl⟩

theorem settled_persisted {h : History} (available : h.storage.Available) (storable : h.buckets.Storable) :
    h.persisted.Settled := by
  refine ⟨available.trySet _ _, storable, ?_⟩
  change (load (h.storage.trySet storageKey (toJson h.buckets))).contents = h.buckets.contents
  rw [load_trySet available storable]

namespace Settled
variable {h : History}

/-- A new history over the same storage has the same contents. -/
theorem reloaded (settled : h.Settled) : h.reloaded.Settled ∧ h.reloaded.contents = h.contents :=
  ⟨settled_restored settled.available h.kept, settled.stored⟩

theorem add {item : Item} (settled : h.Settled) (bucket : Text) (fits : item.Fits) (limit : Nat) :
    (h.add bucket item limit).2.Settled := by
  have each := addItem_fits fits (settled.storable.itemsOf bucket) limit
  exact settled_persisted settled.available (settled.storable.insert each)

theorem clear (settled : h.Settled) (bucket : Text) :
    (h.clear bucket).Settled ∧ (h.clear bucket).contents = h.contents.set bucket [] := by
  rw [History.clear]
  cases found : Json.lookup? bucket h.buckets with
  | none => exact ⟨settled, (contents_set_absent found).symm⟩
  | some items => exact ⟨settled_persisted settled.available settled.storable.erase, contents_erase⟩

/-- Dropping old items writes the storage only if there are any, and needs to only then. -/
theorem keptSince (settled : h.Settled) (cutoff : Int) :
    (h.keptSince cutoff).Settled ∧
      (h.keptSince cutoff).contents = fun bucket => (h.contents bucket).filter fun i => cutoff ≤ i.time := by
  have left := contents_since settled.storable.increasing cutoff
  rw [History.keptSince]
  by_cases same : count (since cutoff h.buckets) = count h.buckets
  · rw [if_neg (not_not.mpr same)]
    have unchanged := contents_since_of_count settled.storable.increasing same
    exact ⟨⟨settled.available, settled.storable.since cutoff, settled.stored.trans unchanged.symm⟩, left⟩
  · rw [if_pos same]
    exact ⟨settled_persisted settled.available (settled.storable.since cutoff), left⟩

end Settled

theorem kept_keptSince (h : History) (cutoff : Int) : (h.keptSince cutoff).kept = h.kept := by
  rw [keptSince]
  split <;> rfl

theorem kept_clear (h : History) (bucket : Text) : (h.clear bucket).kept = h.kept := by
  rw [clear]
  split <;> rfl

theorem wrappedSigned_natCast {n : Nat} (signed : (n : Int) ≤ maxSigned) : wrappedSigned n = n := by
  rw [wrappedSigned]
  simp only [maxSigned] at signed
  exact Int.bmod_eq_of_le (by simp only [maxWord]; omega) (by simp only [maxWord]; omega)

/-- A settled history answers a call by its contents, and is settled again. -/
theorem perform_outcome {h : History} {c : Call} (settled : h.Settled) (signed : ∀ time ∈ h.kept, (time : Int) ≤ maxSigned)
    (fits : c.Fits h.kept) :
    ∃ next, h.perform c = .ok ((c.outcome h.kept h.contents).1, next) ∧ next.Settled ∧ next.kept = h.kept ∧
      next.contents = (c.outcome h.kept h.contents).2 := by
  cases c with
  | add bucket item limit =>
    exact ⟨(h.add bucket item limit).2, rfl, settled.add bucket fits limit, rfl, contents_insert⟩
  | clear bucket =>
    obtain ⟨after, contents⟩ := settled.clear bucket
    exact ⟨h.clear bucket, rfl, after, kept_clear h bucket, contents⟩
  | get bucket now =>
    cases kept : h.kept with
    | none =>
      refine ⟨h, ?_, settled, kept, rfl⟩
      rw [perform, get, pruned, kept]
      rfl
    | some time =>
      have cutoff := fits time kept
      obtain ⟨after, contents⟩ := settled.keptSince (now - time)
      refine ⟨h.keptSince (now - time), ?_, after, (kept_keptSince h _).trans kept, contents⟩
      rw [perform, get, pruned, kept]
      simp only [wrappedSigned_natCast (signed time kept), checkedSigned, if_pos cutoff]
      exact congrArg (fun items => Except.ok (newestFirst items, h.keptSince (now - time))) (congrFun contents bucket)

/-- A step of a run: a call, or the history is replaced by a new one over its storage. -/
inductive Step where
  | call (c : Call)
  | reload
  deriving Repr

def Step.isCall : Step → Bool
  | call _ => true
  | reload => false

/-- The answers to the calls of a run. -/
def answers (h : History) : List Step → Checked (List (List Item))
  | [] => .ok []
  | .reload :: rest => answers h.reloaded rest
  | .call c :: rest => do
    let (answer, next) ← h.perform c
    let more ← answers next rest
    pure (answer :: more)

/-- The answers by what each call makes of the contents. -/
def outcomes (kept : Option Nat) (contents : Contents) : List Step → List (List Item)
  | [] => []
  | .reload :: rest => outcomes kept contents rest
  | .call c :: rest =>
    let (answer, next) := c.outcome kept contents
    answer :: outcomes kept next rest

theorem answers_eq_outcomes {steps : List Step} {h : History} (settled : h.Settled)
    (signed : ∀ time ∈ h.kept, (time : Int) ≤ maxSigned) (fits : ∀ c, .call c ∈ steps → c.Fits h.kept) :
    answers h steps = .ok (outcomes h.kept h.contents steps) := by
  induction steps generalizing h with
  | nil => rfl
  | cons step rest ih =>
    have later : ∀ c, .call c ∈ rest → c.Fits h.kept := fun c member => fits c (List.mem_cons_of_mem step member)
    cases step with
    | reload =>
      obtain ⟨again, contents⟩ := settled.reloaded
      rw [answers, outcomes, ih again signed later, contents]
      rfl
    | call c =>
      obtain ⟨next, performed, after, kept, contents⟩ :=
        perform_outcome settled signed (fits c List.mem_cons_self)
      have more := ih after (kept ▸ signed) (kept ▸ later)
      rw [kept, contents] at more
      rw [answers, performed]
      change (do let more ← answers next rest; pure ((c.outcome h.kept h.contents).1 :: more)) = _
      rw [more]
      rfl

theorem outcomes_filter (kept : Option Nat) (contents : Contents) (steps : List Step) :
    outcomes kept contents (steps.filter Step.isCall) = outcomes kept contents steps := by
  induction steps generalizing contents with
  | nil => rfl
  | cons step rest ih =>
    cases step with
    | reload => exact ih contents
    | call c => exact congrArg (_ :: ·) (ih _)

/-- Over any storage that can be read and written, whatever it holds at first, a run of calls among
    which the history is built anew over the storage is answered as the same run of calls alone. -/
theorem answers_reloaded {storage : Storage} (available : storage.Available) {kept : Option Nat}
    (signed : ∀ time ∈ kept, (time : Int) ≤ maxSigned) {steps : List Step}
    (fits : ∀ c, .call c ∈ steps → c.Fits kept) :
    ∃ found, answers (restored storage kept) steps = .ok found ∧
      answers (restored storage kept) (steps.filter Step.isCall) = .ok found := by
  have settled := settled_restored available kept
  have calls : ∀ c, .call c ∈ steps.filter Step.isCall → c.Fits kept := fun c member =>
    fits c (List.mem_of_mem_filter member)
  refine ⟨_, answers_eq_outcomes settled signed fits, ?_⟩
  rw [answers_eq_outcomes settled signed calls, outcomes_filter]

theorem answers_reloaded_after_add :
    let item : Item := { id := ['a'], query := [], body := [], time := 5, status := some 200 }
    let steps : List Step := [.call (.add ['k'] item 3), .reload, .call (.get ['k'] 900)]
    Storage.Available (.database []) ∧ (∀ time ∈ some 1000, ((time : Nat) : Int) ≤ maxSigned) ∧
      (∀ c, .call c ∈ steps → c.Fits (some 1000)) ∧
      ∃ found, answers (restored (.database []) (some 1000)) steps = .ok found ∧
        answers (restored (.database []) (some 1000)) (steps.filter Step.isCall) = .ok found := by
  intro item steps
  have available : Storage.Available (.database []) := trivial
  have signed : ∀ time ∈ some 1000, ((time : Nat) : Int) ≤ maxSigned := by decide
  have fits : ∀ c, .call c ∈ steps → c.Fits (some 1000) := by
    intro c member
    simp only [steps, List.mem_cons, List.not_mem_nil, Step.call.injEq, reduceCtorEq, or_false, false_or] at member
    rcases member with rfl | rfl
    · exact ⟨by decide, by decide, by decide⟩
    · intro time kept
      cases kept
      decide
  exact ⟨available, signed, fits, answers_reloaded available signed fits⟩

end EndpointConsole.History
