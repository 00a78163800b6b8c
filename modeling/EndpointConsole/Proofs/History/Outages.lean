import EndpointConsole.Proofs.History.Reload

/-!
A history whose storage fails. The buckets in memory are what counts: an answer is a function of them
and of nothing else, and a write changes none of them. So whichever writes fail, and whatever they leave
behind, the calls are answered as over a new storage that never fails (`answers_despite_failures`).
-/
namespace EndpointConsole.History

/-- A history while its storage is out of service. -/
def detached (h : History) : History := { h with storage := .broken }

variable {h : History} {c : Call}

theorem persisted_detached (h : History) : h.detached.persisted = h.persisted.detached := rfl

theorem keptSince_detached (h : History) (cutoff : Int) :
    h.detached.keptSince cutoff = (h.keptSince cutoff).detached := by
  have buckets : h.detached.buckets = h.buckets := rfl
  rw [keptSince, keptSince]
  simp only [buckets]
  split
  · exact persisted_detached { h with buckets := since cutoff h.buckets }
  · rfl

theorem pruned_detached (h : History) (now : Int) : h.detached.pruned now = (h.pruned now).map detached := by
  have same : h.detached.kept = h.kept := rfl
  rw [pruned, pruned, same]
  cases h.kept with
  | none => rfl
  | some time =>
    change (checkedSigned (now - wrappedSigned time)).map _ = ((checkedSigned (now - wrappedSigned time)).map _).map _
    cases checkedSigned (now - wrappedSigned time) with
    | error _ => rfl
    | ok cutoff => exact congrArg Except.ok (keptSince_detached h cutoff)

/-- A call is answered without the storage as with it, and makes the same of the buckets. -/
theorem perform_detached (h : History) (c : Call) :
    h.detached.perform c = (h.perform c).map fun (items, next) => (items, next.detached) := by
  cases c with
  | add bucket item limit => rfl
  | get bucket now =>
    rw [perform, perform, get, get, pruned_detached]
    cases h.pruned now <;> rfl
  | clear bucket =>
    have buckets : h.detached.buckets = h.buckets := rfl
    rw [perform, perform, clear, clear, buckets]
    cases Json.lookup? bucket h.buckets <;> rfl

/-- How the write of a call goes, if the call writes at all. -/
inductive Write where
  | succeeds
  /-- It fails, and leaves this storage behind. -/
  | fails (left : Storage)
  deriving Repr

/-- What a call answers when its write goes so, and the history after it. -/
def performWriting (h : History) (c : Call) : Write → Checked (List Item × History)
  | .succeeds => h.perform c
  | .fails left => (h.detached.perform c).map fun (items, next) => (items, { next with storage := left })

/-- The answers to some calls, each of which writes as said. -/
def answersWriting (h : History) : List (Call × Write) → Checked (List (List Item))
  | [] => .ok []
  | (c, write) :: rest => do
    let (answer, next) ← h.performWriting c write
    let more ← answersWriting next rest
    pure (answer :: more)

/-- However its write goes, a call leaves the history the same but for the storage. -/
theorem performWriting_detached (h : History) (c : Call) (write : Write) :
    (h.performWriting c write).map (fun (items, next) => (items, next.detached)) = h.detached.perform c := by
  cases write with
  | succeeds => exact (perform_detached h c).symm
  | fails left =>
    rw [performWriting, perform_detached]
    cases h.perform c <;> rfl

/-- However the writes go, the answers are those of the history without its storage. -/
theorem answersWriting_eq (h : History) (calls : List (Call × Write)) :
    answersWriting h calls = answers h.detached (calls.map fun p => .call p.1) := by
  induction calls generalizing h with
  | nil => rfl
  | cons first rest ih =>
    obtain ⟨c, write⟩ := first
    rw [answersWriting, List.map_cons, answers, ← performWriting_detached h c write]
    cases h.performWriting c write with
    | error _ => rfl
    | ok done =>
      obtain ⟨items, next⟩ := done
      change (do let more ← answersWriting next rest; pure (items :: more)) = _
      rw [ih next]
      rfl

theorem answers_eq_writing (h : History) (calls : List Call) :
    answers h (calls.map .call) = answersWriting h (calls.map fun c => (c, .succeeds)) := by
  induction calls generalizing h with
  | nil => rfl
  | cons c rest ih =>
    rw [List.map_cons, List.map_cons, answers, answersWriting, performWriting]
    simp only [ih]

theorem load_of_unread {storage : Storage} (unread : ∀ v, storage.get storageKey ≠ .ok (some v)) :
    load storage = [] := by
  rw [load]
  split
  · next v found => exact absurd found (unread v)
  · rfl

theorem load_new {storage : Storage} (new : storage = .memory [] ∨ storage = .database []) : load storage = [] := by
  rcases new with rfl | rfl <;> rfl

/-- Where nothing is read at the start, because the storage fails or has nothing, calls of which any
    writes fail are answered as over a new storage that never fails. -/
theorem answers_despite_failures {opened : Storage} (unread : ∀ v, opened.get storageKey ≠ .ok (some v))
    (storage : Storage) (kept : Option Nat) (calls : List (Call × Write)) {healthy : Storage}
    (new : healthy = .memory [] ∨ healthy = .database []) :
    answersWriting { restored opened kept with storage } calls =
      answers (restored healthy kept) (calls.map fun p => .call p.1) := by
  have same : detached { restored opened kept with storage } = (restored healthy kept).detached := by
    rw [detached, detached, restored, restored, load_of_unread unread, load_new new]
  have reference := answers_eq_writing (restored healthy kept) (calls.map Prod.fst)
  rw [answersWriting_eq] at reference
  rw [answersWriting_eq, same]
  simpa only [List.map_map, Function.comp_def] using reference.symm

/-- A storage that cannot be read at first, loses the first item and holds something foreign later. -/
theorem answers_despite_failures_lost :
    let item (id : Char) (time : Int) : Item := { id := [id], query := [], body := [], time, status := none }
    let calls : List (Call × Write) :=
      [(.add ['k'] (item 'a' 5) 3, .fails (.database [(storageKey, "7".toList)])), (.get ['k'] 2000, .fails .broken),
        (.add ['k'] (item 'b' 9) 3, .succeeds), (.get ['k'] 8, .succeeds)]
    (∀ v, Storage.get .broken storageKey ≠ .ok (some v)) ∧
      answersWriting { restored .broken (some 1000) with storage := .memory [] } calls =
        answers (restored (.database []) (some 1000)) (calls.map fun p => .call p.1) ∧
      answersWriting { restored .broken (some 1000) with storage := .memory [] } calls =
        .ok [[item 'a' 5], [], [item 'b' 9], [item 'b' 9]] := by
  intro item calls
  have unread : ∀ v, Storage.get .broken storageKey ≠ .ok (some v) := nofun
  exact ⟨unread, answers_despite_failures unread (.memory []) (some 1000) calls (.inr rfl), by decide +kernel⟩

end EndpointConsole.History
