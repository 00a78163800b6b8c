import EndpointConsole.Proofs.History.Stored
import EndpointConsole.Proofs.Json.Nesting
import EndpointConsole.Storage.Database
import Mathlib.Data.List.Induction

/-!
The two storages agree. Values that can be printed and read again (`Storable`) are found in a database
as they are in memory: what a key was last given, or nothing (`Storage.serve_tells`). To a database with
its tables this carries over by way of its rows (`Database.answers_eq_rows`), which are no others after
it was opened again, so `Database.agreement` is about any calls with any openings between them.
-/
namespace EndpointConsole

namespace Json
variable {α β : Type} (f : α → β)

theorem lookup?_map (name : Text) (members : List (Text × α)) :
    lookup? name (members.map fun m => (m.1, f m.2)) = (lookup? name members).map f := by
  induction members with
  | nil => rfl
  | cons m rest ih =>
    rw [List.map_cons, lookup?, lookup?, ih]
    split <;> rfl

theorem setMember_map (name : Text) (value : α) (members : List (Text × α)) :
    (setMember name value members).map (fun m => (m.1, f m.2)) =
      setMember name (f value) (members.map fun m => (m.1, f m.2)) := by
  induction members with
  | nil => rfl
  | cons m rest ih =>
    rw [List.map_cons, setMember, setMember]
    split
    · rfl
    · rw [List.map_cons, ih]

end Json

namespace Storage

inductive Call where
  | get (key : Text)
  | set (key : Text) (v : Json)

inductive Answer where
  | found (v? : Option Json)
  | done
  | failed (why : Failure)

/-- The answer to a call, and the storage after it. -/
def serve (s : Storage) : Call → Answer × Storage
  | .get key =>
    match s.get key with
    | .ok v? => (.found v?, s)
    | .error why => (.failed why, s)
  | .set key v =>
    match s.set key v with
    | .ok s => (.done, s)
    | .error why => (.failed why, s)

def answers (s : Storage) : List Call → List Answer
  | [] => []
  | call :: calls => (s.serve call).1 :: answers (s.serve call).2 calls

/-- A value in which only integers stand, whose objects have distinct names and which nests no deeper
    than text may. -/
structure Storable (v : Json) : Prop where
  nested : v.depth ≤ Json.maxDepth
  integers : v.OnlyIntegers
  distinct : v.DistinctNames

/-- The value that the last of the calls that set a key put under it, if there is one. -/
inductive LastSet (key : Text) (calls : List Call) : Option Json → Prop where
  | set {before after : List Call} {v : Json} (split : calls = before ++ .set key v :: after)
      (kept : ∀ w, .set key w ∉ after) : LastSet key calls (some v)
  | never (unset : ∀ w, .set key w ∉ calls) : LastSet key calls none

/-- What the keys were given, after one more call. -/
def Call.tell (told : Text → Option Json) : Call → Text → Option Json
  | .get _ => told
  | .set key v => Function.update told key (some v)

/-- The answer of a storage that keeps what it is told. -/
def Call.answer (told : Text → Option Json) : Call → Answer
  | .get key => .found (told key)
  | .set _ _ => .done

def recalled (told : Text → Option Json) : List Call → List Answer
  | [] => []
  | call :: calls => call.answer told :: recalled (call.tell told) calls

theorem recalled_at (told : Text → Option Json) (before : List Call) (call : Call) (after : List Call) :
    (recalled told (before ++ call :: after))[before.length]? = some (call.answer (before.foldl Call.tell told)) := by
  induction before generalizing told with
  | nil => rfl
  | cons first before ih => exact ih (first.tell told)

theorem LastSet.append_get {key asked : Text} {calls : List Call} {v? : Option Json} (last : LastSet key calls v?) :
    LastSet key (calls ++ [.get asked]) v? := by
  cases last with
  | @set before after v split kept =>
    have split' : calls ++ [.get asked] = before ++ .set key v :: (after ++ [.get asked]) := by rw [split]; simp
    exact .set split' (by simpa using kept)
  | never unset => exact .never (by simpa using unset)

theorem LastSet.append_set {key other : Text} {calls : List Call} {v? : Option Json} (last : LastSet key calls v?)
    (apart : key ≠ other) (w : Json) : LastSet key (calls ++ [.set other w]) v? := by
  cases last with
  | @set before after v split kept =>
    have split' : calls ++ [.set other w] = before ++ .set key v :: (after ++ [.set other w]) := by rw [split]; simp
    exact .set split' (by simp [kept, apart])
  | never unset => exact .never (by simp [unset, apart])

/-- What a key was given is what it was last given. -/
theorem lastSet_foldl (key : Text) (calls : List Call) :
    LastSet key calls (calls.foldl Call.tell (fun _ => none) key) := by
  induction calls using List.reverseRecOn with
  | nil => exact .never nofun
  | append_singleton calls call ih =>
    rw [List.foldl_append, List.foldl_cons, List.foldl_nil]
    cases call with
    | get asked => exact ih.append_get
    | set other v =>
      rw [Call.tell, Function.update_apply]
      split
      · next same =>
        subst same
        exact .set rfl nofun
      · next apart => exact ih.append_set apart v

/-- A storage holds what it was told: the values, or their texts. -/
def Tells (told : Text → Option Json) : Storage → Prop
  | memory values => ∀ key, Json.lookup? key values = told key
  | database rows => ∀ key, Json.lookup? key rows = (told key).map Json.compact ∧ ∀ v ∈ told key, Storable v
  | broken => False

theorem Storable.parse?_compact {v : Json} (storable : Storable v) : Json.parse? v.compact = some v :=
  Json.parse?_compact (Json.faithful_of_depth_le storable.nested storable.integers storable.distinct)

theorem Tells.get {told : Text → Option Json} {s : Storage} (tells : s.Tells told) (key : Text) :
    s.get key = .ok (told key) := by
  cases s with
  | memory values => exact congrArg Except.ok (tells key)
  | database rows =>
    obtain ⟨row, storable⟩ := tells key
    cases given : told key with
    | none =>
      rw [given, Option.map_none] at row
      simp only [Storage.get, row]
    | some v =>
      rw [given, Option.map_some] at row
      simp only [Storage.get, row, (storable v given).parse?_compact]
  | broken => exact tells.elim

theorem Tells.set {told : Text → Option Json} {s : Storage} (tells : s.Tells told) (key : Text) {v : Json}
    (storable : Storable v) : ∃ after, s.set key v = .ok after ∧ after.Tells (Function.update told key (some v)) := by
  cases s with
  | memory values =>
    refine ⟨_, rfl, fun asked => ?_⟩
    rw [Json.lookup?_setMember, Function.update_apply, tells asked]
    simp only [eq_comm]
  | database rows =>
    refine ⟨_, rfl, fun asked => ?_⟩
    rw [Json.lookup?_setMember, Function.update_apply]
    by_cases same : key = asked
    · rw [if_pos same, if_pos same.symm]
      exact ⟨rfl, fun w given => Option.some.inj given ▸ storable⟩
    · rw [if_neg same, if_neg (Ne.symm same)]
      exact tells asked
  | broken => exact tells.elim

/-- One call: the answer is what the storage was told, and the storage has been told one thing more. -/
theorem serve_tells {told : Text → Option Json} {s : Storage} (tells : s.Tells told) {call : Call}
    (storable : ∀ key v, call = .set key v → Storable v) :
    (s.serve call).1 = call.answer told ∧ (s.serve call).2.Tells (call.tell told) := by
  cases call with
  | get key =>
    rw [serve, tells.get key]
    exact ⟨rfl, tells⟩
  | set key v =>
    obtain ⟨after, done, tells⟩ := tells.set key (storable key v rfl)
    rw [serve, done]
    exact ⟨rfl, tells⟩

theorem answers_eq_recalled {told : Text → Option Json} {s : Storage} (tells : s.Tells told) {calls : List Call}
    (storable : ∀ key v, .set key v ∈ calls → Storable v) : s.answers calls = recalled told calls := by
  induction calls generalizing s told with
  | nil => rfl
  | cons call calls ih =>
    obtain ⟨answer, tells⟩ := serve_tells tells fun key v first => storable key v (first ▸ List.mem_cons_self)
    rw [answers, recalled, answer, ih tells fun key v later => storable key v (List.mem_cons_of_mem call later)]

end Storage

namespace Database
open Storage (Call Answer Storable LastSet)

/-- What is done with a database: a call, at some time, or opening it again. -/
inductive Act where
  | call (call : Call) (now : Int)
  | reopen

def Act.call? : Act → Option Storage.Call
  | .call asked _ => some asked
  | .reopen => none

/-- The calls among some acts. -/
def calls (acts : List Act) : List Call := acts.filterMap Act.call?

/-- The answer to a call, and the database after it. -/
def serve (db : Database) (now : Int) : Call → Answer × Database
  | .get key =>
    match db.get key with
    | .ok v? => (.found v?, db)
    | .error why => (.failed why, db)
  | .set key v =>
    match db.set key v now with
    | .ok db => (.done, db)
    | .error why => (.failed why, db)

def act (db : Database) : Act → Database
  | .call call now => (db.serve now call).2
  | .reopen => db.opened

/-- The answers to the calls. -/
def answers (db : Database) : List Act → List Answer
  | [] => []
  | .call call now :: acts => (db.serve now call).1 :: answers (db.serve now call).2 acts
  | .reopen :: acts => answers db.opened acts

/-- What a database is once it is open. -/
structure IsOpen (db : Database) : Prop where
  complete : db.withTables = db
  current : schemaVersion ≤ db.version

theorem opened_of_lt {db : Database} (behind : db.withTables.version < schemaVersion) :
    db.opened = { db.withTables with facts := some (Json.setMember versionKey (Json.intText schemaVersion)
      (db.facts.getD [])) } :=
  if_pos behind

theorem opened_of_le {db : Database} (current : schemaVersion ≤ db.withTables.version) : db.opened = db.withTables :=
  if_neg (Int.not_lt.2 current)

theorem isOpen_opened (db : Database) : db.opened.IsOpen := by
  rcases Int.lt_or_le db.withTables.version schemaVersion with behind | current
  · have written : signedOf? (Json.intText schemaVersion) = some schemaVersion := rfl
    rw [opened_of_lt behind]
    refine ⟨rfl, ?_⟩
    rw [version, Option.bind_some, Json.lookup?_setMember, if_pos rfl, Option.bind_some, written]
    exact Int.le_refl _
  · rw [opened_of_le current]
    exact ⟨rfl, current⟩

/-- Opening leaves an open database as it is. -/
theorem IsOpen.opened_eq {db : Database} (ready : db.IsOpen) : db.opened = db := by
  have current : schemaVersion ≤ db.withTables.version := by
    rw [ready.complete]
    exact ready.current
  rw [opened_of_le current, ready.complete]

theorem rows_opened (db : Database) : db.opened.rows = db.rows := by
  rcases Int.lt_or_le db.withTables.version schemaVersion with behind | current
  · rw [opened_of_lt behind]
    rfl
  · rw [opened_of_le current]
    rfl

theorem IsOpen.table {db : Database} (ready : db.IsOpen) :
    ∃ table, db.values = some table ∧ db.rows = table.map fun row => (row.1, row.2.value) := by
  have table : db.values = some (db.values.getD []) := (congrArg Database.values ready.complete).symm
  exact ⟨_, table, rfl⟩

variable {db : Database}

theorem IsOpen.get_eq (ready : db.IsOpen) (key : Text) : db.get key = (Storage.database db.rows).get key := by
  obtain ⟨table, there, texts⟩ := ready.table
  simp only [get, there, Storage.get, texts, Json.lookup?_map Row.value]
  cases Json.lookup? key table <;> rfl

theorem IsOpen.set_eq (ready : db.IsOpen) (key : Text) (v : Json) (now : Int) :
    ∃ after, db.set key v now = .ok after ∧ after.IsOpen ∧
      (Storage.database db.rows).set key v = .ok (.database after.rows) := by
  obtain ⟨table, there, texts⟩ := ready.table
  have facts : some (db.facts.getD []) = db.facts := congrArg Database.facts ready.complete
  refine ⟨{ db with values := some (Json.setMember key ⟨v.compact, now⟩ table) }, ?_, ⟨?_, ready.current⟩, ?_⟩
  · rw [set, there]
  · rw [withTables, facts]
    rfl
  · rw [Storage.set, texts, rows, Option.getD_some, Json.setMember_map Row.value]

/-- One call: an open database does what the storage of its rows does. -/
theorem IsOpen.serve_eq (ready : db.IsOpen) (now : Int) (call : Call) :
    (db.serve now call).2.IsOpen ∧
      (Storage.database db.rows).serve call = ((db.serve now call).1, .database (db.serve now call).2.rows) := by
  cases call with
  | get key =>
    rw [serve, Storage.serve, ← ready.get_eq]
    cases db.get key <;> exact ⟨ready, rfl⟩
  | set key v =>
    obtain ⟨after, done, ready, same⟩ := ready.set_eq key v now
    rw [serve, Storage.serve, done, same]
    exact ⟨ready, rfl⟩

/-- Any acts: when a call is made, and openings in between, make no difference to the answers. -/
theorem IsOpen.answers_eq_rows (ready : db.IsOpen) (acts : List Act) :
    db.answers acts = (Storage.database db.rows).answers (calls acts) := by
  induction acts generalizing db with
  | nil => rfl
  | cons first acts ih =>
    cases first with
    | call call now =>
      obtain ⟨ready, same⟩ := ready.serve_eq now call
      change _ = Storage.answers _ (call :: calls acts)
      rw [answers, ih ready, Storage.answers, same]
    | reopen =>
      change answers db.opened acts = _
      rw [ih (isOpen_opened db), rows_opened]
      rfl

theorem IsOpen.act (ready : db.IsOpen) (act : Act) : (db.act act).IsOpen := by
  cases act with
  | call call now => exact (ready.serve_eq now call).1
  | reopen => exact isOpen_opened db

theorem IsOpen.acts (ready : db.IsOpen) (acts : List Act) : (acts.foldl Database.act db).IsOpen := by
  induction acts generalizing db with
  | nil => exact ready
  | cons act acts ih => exact ih (ready.act act)

/-- What comes of acts on a new database. -/
structure Agreement (acts : List Act) : Prop where
  /-- The calls are answered as by a new storage in memory. -/
  memory : (opened {}).answers acts = (Storage.memory []).answers (calls acts)
  /-- The rows alone answer the same. -/
  rows : (opened {}).answers acts = (Storage.database []).answers (calls acts)
  /-- What a key was last given is found under it, or nothing if it was given nothing. -/
  found : ∀ {before after : List Call} {key : Text}, calls acts = before ++ .get key :: after →
    ∃ v?, LastSet key before v? ∧ ((opened {}).answers acts)[before.length]? = some (.found v?)
  done : ∀ {before after : List Call} {key : Text} {v : Json}, calls acts = before ++ .set key v :: after →
    ((opened {}).answers acts)[before.length]? = some .done
  /-- No database that is open is changed by opening it again, whatever has been done with it. -/
  unchanged : ∀ db : Database, (acts.foldl act db.opened).opened = acts.foldl act db.opened
  /-- Nor are the answers of any: they are the same with openings in between and without. -/
  reopened : ∀ db : Database, db.opened.answers acts = db.opened.answers (acts.filter fun a => a.call?.isSome)

theorem agreement {acts : List Act} (storable : ∀ key v, .set key v ∈ calls acts → Storable v) : Agreement acts := by
  have inMemory : (Storage.memory []).Tells fun _ => none := fun _ => rfl
  have inRows : (Storage.database []).Tells fun _ => none := fun _ => ⟨rfl, nofun⟩
  have rows : (opened {}).answers acts = (Storage.database []).answers (calls acts) :=
    (isOpen_opened {}).answers_eq_rows acts
  have recalled : (opened {}).answers acts = Storage.recalled (fun _ => none) (calls acts) :=
    rows.trans (Storage.answers_eq_recalled inRows storable)
  have calls_filter : calls (acts.filter fun a => a.call?.isSome) = calls acts := by
    rw [calls, List.filterMap_filter]
    exact List.filterMap_congr fun a _ => by cases a <;> rfl
  exact {
    memory := recalled.trans (Storage.answers_eq_recalled inMemory storable).symm
    rows := rows
    found := fun {before after key} split => by
      refine ⟨_, Storage.lastSet_foldl key before, ?_⟩
      rw [recalled, split, Storage.recalled_at]
      rfl
    done := fun {before after key v} split => by
      rw [recalled, split, Storage.recalled_at]
      rfl
    unchanged := fun db => ((isOpen_opened db).acts acts).opened_eq
    reopened := fun db => by
      rw [(isOpen_opened db).answers_eq_rows, (isOpen_opened db).answers_eq_rows, calls_filter] }

/-- A value that replaced another one is found after the database was opened again, its members in order. -/
theorem agreement_across_openings :
    let acts : List Act :=
      [.call (.set ['k'] (.string ['x'])) 5, .reopen,
        .call (.set ['k'] (.object [(['b'], .array [.ofInt (-7)]), (['a'], .string ['"'])])) 3, .reopen,
        .call (.get ['k']) 4]
    (∀ key v, .set key v ∈ calls acts → Storable v) ∧ Agreement acts := by
  intro acts
  have number : (Json.ofInt (-7)).OnlyIntegers ∧ (Json.ofInt (-7)).DistinctNames :=
    ⟨Json.onlyIntegers_number.mpr ⟨by decide, by decide⟩, nofun⟩
  have storable : ∀ key v, .set key v ∈ calls acts → Storable v := by
    simp only [acts, calls, Act.call?, List.filterMap_cons, List.filterMap_nil, List.mem_cons, Call.set.injEq,
      reduceCtorEq, List.not_mem_nil, or_false]
    rintro key v (⟨-, rfl⟩ | ⟨-, rfl⟩)
    · exact ⟨by decide, Json.onlyIntegers_string _, Json.distinctNames_string _⟩
    · exact {
        nested := by decide
        integers := by
          simp [Json.onlyIntegers_object, Json.onlyIntegers_array, Json.onlyIntegers_string, number.1]
        distinct := by
          simp [Json.distinctNames_object, Json.distinctNames_array, Json.distinctNames_string, number.2] }
  exact ⟨storable, agreement storable⟩

end Database

end EndpointConsole
