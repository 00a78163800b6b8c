import EndpointConsole.Proofs.Lens.Records

/-!
A cache answers as a list of entries in the order of their last use (`Recency`), in
which an entry is looked for, renewed at the front, or dropped: `Mirrors.serve` for
one operation, `Mirrors.answers` for any number of them. From the list one reads what
the limits of a cache mean: an entry that was idle for longer than the limit is gone
when it is asked for, and beyond the capacity it is the last entry that goes.
-/
namespace EndpointConsole.Lens

variable {α : Type}

/-! ### The reference -/

structure Entry (α : Type) where
  key : Text
  version : Int
  value : α
  /-- The time of the last use, in milliseconds. -/
  used : Nat
  deriving Repr, DecidableEq

/-- What was stored, the entry used last first. -/
structure Recency (α : Type) where
  /-- The number of entries kept; zero is no limit. -/
  capacity : Nat
  /-- The idle time after which an entry expires; zero is no limit. -/
  idleLimit : Option Nat
  entries : List (Entry α) := []
  deriving Repr, DecidableEq

namespace Recency

def find? (m : Recency α) (key : Text) : Option (Entry α) := m.entries.find? (·.key = key)

def drop (m : Recency α) (key : Text) : Recency α := { m with entries := m.entries.eraseP (·.key = key) }

/-- Puts an entry at the front, in place of the one of its document. -/
def renew (m : Recency α) (e : Entry α) : Recency α := { m with entries := e :: (m.drop e.key).entries }

/-- Drops the last entry beyond the capacity. -/
def trim (m : Recency α) : Recency α :=
  if m.capacity ≠ 0 ∧ m.capacity < m.entries.length then { m with entries := m.entries.dropLast } else m

/-- Whether an entry was idle for strictly longer than the limit. -/
def isIdle (m : Recency α) (now : Nat) (e : Entry α) : Bool :=
  match m.idleLimit with
  | some limit => limit ≠ 0 ∧ e.used + limit < now
  | none => false

def get (m : Recency α) (now : Nat) (key : Text) : Option (Entry α) × Recency α :=
  match m.find? key with
  | none => (none, m)
  | some e =>
    if m.isIdle now e then (none, m.drop key)
    else
      let e := { e with used := now }
      (some e, m.renew e)

/-- The entry is renewed whatever its version, and its value given for its version alone. -/
def lookup (m : Recency α) (now : Nat) (key : Text) (version : Int) : Option α × Recency α :=
  match m.get now key with
  | (none, m) => (none, m)
  | (some e, m) => (if e.version = version then some e.value else none, m)

def set (m : Recency α) (now : Nat) (key : Text) (version : Int) (value : α) : Bool × Recency α :=
  if ∃ e ∈ m.entries, e.key = key ∧ version < e.version then (false, m)
  else (true, (m.renew { key, version, value, used := now }).trim)

end Recency

/-! ### Operations -/

inductive Operation (α : Type) where
  | set (key : Text) (version : Int) (value : α)
  | get (key : Text)
  | lookup (key : Text) (version : Int)
  | remove (key : Text)
  | close (key : Text)
  | clear
  | advance (ms : Nat)
  deriving Repr, DecidableEq

inductive Outcome (α : Type) where
  | done
  | stored (accepted : Bool)
  | record (r : Option (Record α))
  | value (v : Option α)
  deriving Repr, DecidableEq

def Operation.tick (now : Nat) : Operation α → Nat
  | advance ms => now + ms
  | _ => now

def Cache.serve (now : Nat) (c : Cache α) : Operation α → Outcome α × Cache α
  | .set key version value => let (accepted, c) := c.set now key version value; (.stored accepted, c)
  | .get key => let (r, c) := c.get now key; (.record r, c)
  | .lookup key version => let (v, c) := c.lookup now key version; (.value v, c)
  | .remove key => (.done, c.remove key)
  | .close key => (.done, c.close key)
  | .clear => (.done, c.clear)
  | .advance _ => (.done, c)

/-- What an entry says of its document. -/
def Entry.record (e : Entry α) : Record α := { version := e.version, value := e.value, used := e.used }

def Recency.serve (now : Nat) (m : Recency α) : Operation α → Outcome α × Recency α
  | .set key version value => let (accepted, m) := m.set now key version value; (.stored accepted, m)
  | .get key => let (e, m) := m.get now key; (.record (e.map Entry.record), m)
  | .lookup key version => let (v, m) := m.lookup now key version; (.value v, m)
  | .remove key | .close key => (.done, m.drop key)
  | .clear => (.done, { m with entries := [] })
  | .advance _ => (.done, m)

/-- What is left after operations, each at its time. -/
def after {σ : Type} (serve : Nat → σ → Operation α → Outcome α × σ) (now : Nat) (s : σ) : List (Operation α) → σ
  | [] => s
  | op :: rest => after serve (op.tick now) (serve now s op).2 rest

/-- The answers to operations, each at its time and with the size that it leaves. -/
def answers {σ : Type} (serve : Nat → σ → Operation α → Outcome α × σ) (size : σ → Nat) (now : Nat) (s : σ) :
    List (Operation α) → List (Outcome α × Nat)
  | [] => []
  | op :: rest =>
    let (answer, next) := serve now s op
    (answer, size next) :: answers serve size (op.tick now) next rest

def entryOf (p : Text × Record α) : Entry α :=
  { key := p.1, version := p.2.version, value := p.2.value, used := p.2.used }

theorem find?_entries (key : Text) (records : List (Text × Record α)) :
    (records.map entryOf).find? (·.key = key) = (Json.lookup? key records).map fun r => entryOf (key, r) := by
  induction records with
  | nil => rfl
  | cons p rest ih =>
    obtain ⟨name, r⟩ := p
    rw [List.map_cons, Json.lookup?]
    by_cases same : name = key
    · subst same
      rw [List.find?_cons_of_pos (by simp [entryOf]), if_pos rfl, Option.map_some]
    · rw [List.find?_cons_of_neg (by simp [entryOf, same]), if_neg same, ih]

/-- Where no document has two records, all of a document are the first. -/
theorem entries_without {records : List (Text × Record α)} (distinct : (records.map Prod.fst).Nodup) (key : Text) :
    (without key records).map entryOf = (records.map entryOf).eraseP (·.key = key) := by
  induction records with
  | nil => rfl
  | cons p rest ih =>
    obtain ⟨name, r⟩ := p
    obtain ⟨absent, others⟩ := List.nodup_cons.mp distinct
    rw [List.map_cons]
    by_cases same : name = key
    · subst same
      rw [List.eraseP_cons_of_pos (by simp [entryOf]), without, List.filter_cons_of_neg (by simp), ← without,
        without_of_absent (Json.lookup?_of_not_mem absent)]
    · rw [List.eraseP_cons_of_neg (by simp [entryOf, same]), without,
        List.filter_cons_of_pos (by simpa using same), ← without, List.map_cons, ih others]

theorem exists_newer_iff {records : List (Text × Record α)} (distinct : (records.map Prod.fst).Nodup) (key : Text)
    (version : Int) : (∃ e ∈ records.map entryOf, e.key = key ∧ version < e.version) ↔
      ∃ r, Json.lookup? key records = some r ∧ version < r.version := by
  constructor
  · rintro ⟨e, among, rfl, newer⟩
    obtain ⟨⟨name, r⟩, held, rfl⟩ := List.mem_map.mp among
    exact ⟨r, Json.lookup?_of_mem distinct held, newer⟩
  · rintro ⟨r, held, newer⟩
    exact ⟨_, List.mem_map_of_mem (Json.lookup?_mem held), rfl, newer⟩

/-! ### The cache as the list -/

/-- A tidy cache and the list that holds the same. -/
structure Mirrors (c : Cache α) (m : Recency α) : Prop where
  tidy : c.Tidy
  capacity : m.capacity = c.capacity
  idleLimit : m.idleLimit.filter (0 < ·) = c.idleLimit
  entries : m.entries = c.records.map entryOf

theorem mirrors_empty (capacity : Nat) (idleLimit : Option Nat) :
    Mirrors (Cache.empty capacity idleLimit : Cache α) { capacity, idleLimit } :=
  ⟨Cache.tidy_empty capacity idleLimit, rfl, rfl, rfl⟩

namespace Mirrors
variable {c : Cache α} {m : Recency α}

theorem length (mirrors : Mirrors c m) : m.entries.length = c.records.length := by
  rw [mirrors.entries, List.length_map]

theorem find? (mirrors : Mirrors c m) (key : Text) :
    m.find? key = (c.peek? key).map fun r => entryOf (key, r) := by
  rw [Recency.find?, mirrors.entries, find?_entries, Cache.peek?]

theorem isIdle (mirrors : Mirrors c m) (now : Nat) (key : Text) (r : Record α) :
    m.isIdle now (entryOf (key, r)) = c.isExpired now r := by
  rw [Recency.isIdle, Cache.isExpired, ← mirrors.idleLimit]
  cases m.idleLimit with
  | none => rfl
  | some limit =>
    by_cases zero : limit = 0
    · simp [zero]
    · have beyond : r.used + limit < now ↔ limit < now - r.used := by omega
      simp [entryOf, zero, Nat.pos_of_ne_zero zero, beyond]

theorem drop (mirrors : Mirrors c m) (key : Text) : Mirrors (c.remove key) (m.drop key) where
  tidy := mirrors.tidy.remove key
  capacity := mirrors.capacity
  idleLimit := mirrors.idleLimit
  entries := by
    rw [Recency.drop, mirrors.entries, Cache.remove]
    exact (entries_without mirrors.tidy.distinct key).symm

/-- Using a record renews its entry; a tidy cache has room for it. -/
theorem renew (mirrors : Mirrors c m) {key : Text} {old : Record α} (held : c.peek? key = some old) (r : Record α) :
    Mirrors (c.putFirst key r) (m.renew (entryOf (key, r))) where
  tidy := mirrors.tidy.putFirst key r
  capacity := mirrors.capacity
  idleLimit := mirrors.idleLimit
  entries := by
    rw [mirrors.tidy.records_putFirst_of_held held, List.map_cons]
    exact congrArg (entryOf (key, r) :: ·) (mirrors.drop key).entries

theorem store (mirrors : Mirrors c m) (key : Text) (r : Record α) :
    Mirrors (c.putFirst key r) (m.renew (entryOf (key, r))).trim := by
  have written : (m.renew (entryOf (key, r))).entries = ((key, r) :: without key c.records).map entryOf := by
    rw [List.map_cons]
    exact congrArg (entryOf (key, r) :: ·) (mirrors.drop key).entries
  have same : (m.renew (entryOf (key, r))).capacity = c.capacity := mirrors.capacity
  have cut := mirrors.tidy.records_putFirst key r
  have tidy := mirrors.tidy.putFirst key r
  by_cases beyond : c.capacity ≠ 0 ∧ c.capacity < ((key, r) :: without key c.records).length
  · rw [if_pos beyond] at cut
    rw [Recency.trim, if_pos (by rw [written, List.length_map, same]; exact beyond)]
    refine ⟨tidy, mirrors.capacity, mirrors.idleLimit, ?_⟩
    rw [cut, written, List.map_dropLast]
  · rw [if_neg beyond] at cut
    rw [Recency.trim, if_neg (by rw [written, List.length_map, same]; exact beyond)]
    refine ⟨tidy, mirrors.capacity, mirrors.idleLimit, ?_⟩
    rw [cut, written]

theorem get (mirrors : Mirrors c m) (now : Nat) (key : Text) :
    (m.get now key).1 = (c.get now key).1.map (fun r => entryOf (key, r)) ∧
      Mirrors (c.get now key).2 (m.get now key).2 := by
  rw [Recency.get, Cache.get, mirrors.find?]
  cases held : c.peek? key with
  | none => exact ⟨rfl, mirrors⟩
  | some r =>
    simp only [Option.map_some, mirrors.isIdle]
    split
    · exact ⟨rfl, mirrors.drop key⟩
    · exact ⟨rfl, mirrors.renew held _⟩

theorem lookup (mirrors : Mirrors c m) (now : Nat) (key : Text) (version : Int) :
    (m.lookup now key version).1 = (c.lookup now key version).1 ∧
      Mirrors (c.lookup now key version).2 (m.lookup now key version).2 := by
  obtain ⟨answer, left⟩ := mirrors.get now key
  rw [Recency.lookup, Cache.lookup]
  generalize m.get now key = got at answer left ⊢
  generalize c.get now key = held at answer left ⊢
  obtain ⟨e, m'⟩ := got
  obtain ⟨r, c'⟩ := held
  cases r with
  | none =>
    subst answer
    exact ⟨rfl, left⟩
  | some r =>
    subst answer
    refine ⟨?_, left⟩
    by_cases same : r.version = version
    · simp [entryOf, Option.filter, same]
    · simp [entryOf, Option.filter, same]

theorem set (mirrors : Mirrors c m) (now : Nat) (key : Text) (version : Int) (value : α) :
    (m.set now key version value).1 = (c.set now key version value).1 ∧
      Mirrors (c.set now key version value).2 (m.set now key version value).2 := by
  have newer : (∃ e ∈ m.entries, e.key = key ∧ version < e.version) ↔ c.holdsNewer key version = true := by
    rw [mirrors.entries, exists_newer_iff mirrors.tidy.distinct, Cache.holdsNewer_iff, Cache.peek?]
  rw [Recency.set, Cache.set]
  by_cases refused : c.holdsNewer key version = true
  · rw [if_pos refused, if_pos (newer.mpr refused)]
    exact ⟨rfl, mirrors⟩
  · rw [if_neg refused, if_neg (mt newer.mp refused)]
    exact ⟨rfl, mirrors.store key _⟩

/-- The cache and the list answer an operation alike, and hold the same after it. -/
theorem serve (mirrors : Mirrors c m) (now : Nat) (op : Operation α) :
    (c.serve now op).1 = (m.serve now op).1 ∧ Mirrors (c.serve now op).2 (m.serve now op).2 := by
  cases op with
  | set key version value =>
    obtain ⟨answer, left⟩ := mirrors.set now key version value
    exact ⟨congrArg Outcome.stored answer.symm, left⟩
  | get key =>
    obtain ⟨answer, left⟩ := mirrors.get now key
    refine ⟨congrArg Outcome.record ?_, left⟩
    change (c.get now key).1 = (m.get now key).1.map Entry.record
    rw [answer, Option.map_map]
    exact Option.map_id'.symm
  | lookup key version =>
    obtain ⟨answer, left⟩ := mirrors.lookup now key version
    exact ⟨congrArg Outcome.value answer.symm, left⟩
  | remove key => exact ⟨rfl, mirrors.drop key⟩
  | close key =>
    have cancelled : Mirrors (c.cancel key) m :=
      ⟨mirrors.tidy.cancel key, mirrors.capacity, mirrors.idleLimit, mirrors.entries⟩
    exact ⟨rfl, cancelled.drop key⟩
  | clear => exact ⟨rfl, .clear c, mirrors.capacity, mirrors.idleLimit, rfl⟩
  | advance ms => exact ⟨rfl, mirrors⟩

theorem answers (mirrors : Mirrors c m) (now : Nat) (ops : List (Operation α)) :
    answers Cache.serve (·.records.length) now c ops = answers Recency.serve (·.entries.length) now m ops := by
  induction ops generalizing c m now with
  | nil => rfl
  | cons op rest ih =>
    obtain ⟨answer, left⟩ := mirrors.serve now op
    exact congrArg₂ List.cons (Prod.ext answer left.length.symm) (ih left _)

end Mirrors

/-! ### What a run keeps -/

namespace Cache
variable {c : Cache α} {key : Text} {r r' : Record α}

theorem Tidy.serve (tidy : c.Tidy) (now : Nat) (op : Operation α) : (c.serve now op).2.Tidy := by
  cases op with
  | set key version value => exact tidy.set now key version value
  | get key => exact tidy.get now key
  | lookup key version => exact tidy.get now key
  | remove key => exact tidy.remove key
  | close key => exact tidy.close key
  | clear => exact .clear c
  | advance ms => exact tidy

theorem capacity_serve (c : Cache α) (now : Nat) (op : Operation α) : (c.serve now op).2.capacity = c.capacity := by
  cases op with
  | set key version value =>
    change (c.set now key version value).2.capacity = c.capacity
    rw [set]
    split <;> rfl
  | get key => exact c.capacity_get now key
  | lookup key version => exact c.capacity_get now key
  | remove key => rfl
  | close key => rfl
  | clear => rfl
  | advance ms => rfl

theorem Tidy.size_le (tidy : c.Tidy) (limited : c.capacity ≠ 0) (now : Nat) (ops : List (Operation α)) :
    ∀ a ∈ answers Cache.serve (·.records.length) now c ops, a.2 ≤ c.capacity := by
  induction ops generalizing c now with
  | nil => nofun
  | cons op rest ih =>
    intro a among
    have same := c.capacity_serve now op
    have kept := tidy.serve now op
    rw [← same] at limited ⊢
    rcases List.mem_cons.mp among with rfl | later
    · exact kept.within limited
    · exact ih kept limited _ a later

/-- What is held after an operation has a version that was held before, or one that the operation
    stored and that is no older than the one before. -/
theorem peek?_serve {now : Nat} {op : Operation α} (left : (c.serve now op).2.peek? key = some r') :
    (∃ r, c.peek? key = some r ∧ r.version = r'.version) ∨
      ∃ value, op = .set key r'.version value ∧ ∀ r, c.peek? key = some r → r.version ≤ r'.version := by
  have kept {name : Text} (held : (if name = key then none else c.peek? key) = some r') :
      ∃ r, c.peek? key = some r ∧ r.version = r'.version := by
    split at held
    · cases held
    · exact ⟨r', held, rfl⟩
  have used {name : Text} (held : (c.get now name).2.peek? key = some r') :
      ∃ r, c.peek? key = some r ∧ r.version = r'.version := by
    obtain ⟨r, found, version, _⟩ := peek?_get held
    exact ⟨r, found, version⟩
  cases op with
  | set name version value =>
    rcases peek?_set left with ⟨rfl, rfl, newest⟩ | found
    · exact .inr ⟨value, rfl, newest⟩
    · exact .inl ⟨r', found, rfl⟩
  | get name => exact .inl (used left)
  | lookup name version => exact .inl (used left)
  | remove name => exact .inl (kept ((c.peek?_remove name key).symm.trans left))
  | close name => exact .inl (kept ((c.peek?_close name key).symm.trans left))
  | clear => cases left
  | advance ms => exact .inl ⟨r', left, rfl⟩

/-- An operation leaves no older version of a document. -/
theorem version_le_serve {now : Nat} {op : Operation α} (held : c.peek? key = some r)
    (left : (c.serve now op).2.peek? key = some r') : r.version ≤ r'.version := by
  rcases peek?_serve left with ⟨old, before, same⟩ | ⟨_, _, newest⟩
  · rw [held, Option.some.injEq] at before
    exact Int.le_of_eq ((congrArg Record.version before).trans same)
  · exact newest r held

theorem version_le_after {now : Nat} {ops : List (Operation α)} (held : c.peek? key = some r)
    (present : ∀ n ≤ ops.length, ((after serve now c (ops.take n)).peek? key).isSome)
    (left : (after serve now c ops).peek? key = some r') : r.version ≤ r'.version := by
  induction ops generalizing c now r with
  | nil =>
    rw [after, held, Option.some.injEq] at left
    exact Int.le_of_eq (congrArg Record.version left)
  | cons op rest ih =>
    obtain ⟨next, still⟩ := Option.isSome_iff_exists.mp (present 1 (Nat.le_add_left 1 rest.length))
    have grown : r.version ≤ next.version := version_le_serve held still
    exact Int.le_trans grown (ih still (fun n inside => present (n + 1) (Nat.succ_le_succ inside)) left)

end Cache

theorem after_append {σ : Type} (serve : Nat → σ → Operation α → Outcome α × σ) (now : Nat) (s : σ)
    (ops more : List (Operation α)) :
    after serve now s (ops ++ more) = after serve (ops.foldl Operation.tick now) (after serve now s ops) more := by
  induction ops generalizing now s with
  | nil => rfl
  | cons op rest ih => exact ih _ _

/-- What a cache does in a run from an empty one on. -/
structure Refined (capacity : Nat) (idleLimit : Option Nat) (now : Nat) (ops : List (Operation α)) : Prop where
  /-- It answers as the list, and holds as many records. -/
  answers : answers Cache.serve (·.records.length) now (.empty capacity idleLimit) ops =
    answers Recency.serve (·.entries.length) now { capacity, idleLimit } ops
  within : capacity ≠ 0 →
    ∀ a ∈ Lens.answers Cache.serve (·.records.length) now (.empty capacity idleLimit) ops, a.2 ≤ capacity
  /-- While a document has a record, its version does not decrease. -/
  rising : ∀ (before between : List (Operation α)) (key : Text) (r r' : Record α), ops = before ++ between →
    (after Cache.serve now (.empty capacity idleLimit) before).peek? key = some r →
    (∀ n ≤ between.length,
      ((after Cache.serve now (.empty capacity idleLimit) (before ++ between.take n)).peek? key).isSome) →
    (after Cache.serve now (.empty capacity idleLimit) ops).peek? key = some r' → r.version ≤ r'.version

theorem cache_refines_recency (capacity : Nat) (idleLimit : Option Nat) (now : Nat) (ops : List (Operation α)) :
    Refined capacity idleLimit now ops where
  answers := (mirrors_empty capacity idleLimit).answers now ops
  within limited := (Cache.tidy_empty capacity idleLimit).size_le limited now ops
  rising := by
    intro before between key r r' split held present left
    subst split
    simp only [after_append] at present left
    exact Cache.version_le_after held present left

/-- Of two records the one looked up stays when a third comes. -/
example : answers Cache.serve (·.records.length) 0 (.empty 2 none)
    [.set ['a'] 1 10, .set ['b'] 1 20, .lookup ['a'] 1, .set ['c'] 1 30, .lookup ['b'] 1, .lookup ['a'] 1] =
    [(.stored true, 1), (.stored true, 2), (.value (some 10), 2), (.stored true, 2), (.value none, 2),
      (.value (some 10), 2)] := by decide

end EndpointConsole.Lens
