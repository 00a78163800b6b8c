import EndpointConsole.History
import EndpointConsole.Proofs.Json.Printed
import EndpointConsole.Proofs.Sorted

/-!
A history is read back from where it was stored (`load_trySet`). Its buckets read
back from their JSON value because their keys are in order and their numbers fit
the words that are read (`ofJson?_toJson`), and what can be loaded at all is of
that form (`load_stored`).
-/
namespace EndpointConsole

namespace Storage

/-- A storage that can be read and written. -/
def Available : Storage → Prop
  | memory _ => True
  | database _ => True
  | broken => False

theorem Available.trySet {s : Storage} (available : s.Available) (key : Text) (v : Json) :
    (s.trySet key v).Available := by
  cases s with
  | memory values => trivial
  | database rows => trivial
  | broken => exact available.elim

/-- A value that was put under a key is found there. -/
theorem get_trySet {s : Storage} (available : s.Available) (key : Text) {v : Json}
    (faithful : Json.Faithful Json.maxDepth v) : (s.trySet key v).get key = .ok (some v) := by
  cases s with
  | memory values =>
    have found := Json.lookup?_setMember key key v values
    rw [if_pos rfl] at found
    exact congrArg Except.ok found
  | database rows =>
    have found := Json.lookup?_setMember key key v.compact rows
    rw [if_pos rfl] at found
    simp only [trySet, set, get, found, Json.parse?_compact faithful]
  | broken => exact available.elim

end Storage

namespace History
open Sorted (Increasing)

/-- The numbers of an item fit the words that they are kept in. -/
structure Item.Fits (i : Item) : Prop where
  low : minSigned ≤ i.time
  high : i.time ≤ maxSigned
  status : ∀ status ∈ i.status, status ≤ 65535

theorem short?_ofNat {n : Nat} (short : n ≤ 65535) : (Json.ofNat n).short? = some n := by
  have inside : (0 : Int) ≤ n ∧ (n : Int) ≤ 65535 := by omega
  simp only [Json.ofNat, Json.short?, Json.intBetween?, if_pos inside, Option.map_some, Int.toNat_natCast]

theorem signed?_ofInt {n : Int} (low : minSigned ≤ n) (high : n ≤ maxSigned) : (Json.ofInt n).signed? = some n := by
  rw [Json.ofInt, Json.signed?, Json.intBetween?, if_pos ⟨low, high⟩]

theorem nullable_status {status : Option Nat} (fits : ∀ n ∈ status, n ≤ 65535) :
    Json.nullable Json.short? (some ((status.map Json.ofNat).getD .null)) = some status := by
  cases status with
  | none => rfl
  | some n =>
    have read := short?_ofNat (fits n rfl)
    change (Json.short? (Json.ofNat n)).map some = some (some n)
    rw [read, Option.map_some]

theorem Item.ofJson?_toJson {i : Item} (fits : i.Fits) : Item.ofJson? i.toJson = some i := by
  have parts : Json.record? Item.fields i.toJson = some [some (.string i.id), some (.string i.query),
      some (.string i.body), some (.ofInt i.time), some ((i.status.map Json.ofNat).getD .null)] := rfl
  simp only [Item.ofJson?, parts, Option.bind_eq_bind, Option.bind_some, Json.needed, Json.text?,
    signed?_ofInt fits.low fits.high, nullable_status fits.status, Option.pure_def]

theorem signed?_bounds {v : Json} {n : Int} (read : v.signed? = some n) : minSigned ≤ n ∧ n ≤ maxSigned := by
  unfold Json.signed? Json.intBetween? at read
  split at read
  · split at read
    · next inside =>
      rw [Option.some.injEq] at read
      exact read ▸ inside
    · cases read
  · cases read

theorem short?_bound {v : Json} {n : Nat} (read : v.short? = some n) : n ≤ 65535 := by
  unfold Json.short? Json.intBetween? at read
  split at read
  · split at read
    · next inside =>
      rw [Option.map_some, Option.some.injEq] at read
      omega
    · cases read
  · cases read

theorem nullable_short? {v : Option Json} {status : Option Nat} (read : Json.nullable Json.short? v = some status) :
    ∀ n ∈ status, n ≤ 65535 := by
  unfold Json.nullable at read
  intro n member
  split at read
  · cases read
    cases member
  · cases read
    cases member
  · obtain ⟨m, short, rfl⟩ := Option.map_eq_some_iff.mp read
    cases member
    exact short?_bound short

/-- Only numbers that fit are read. -/
theorem Item.fits_of_ofJson? {v : Json} {i : Item} (read : Item.ofJson? v = some i) : i.Fits := by
  simp only [Item.ofJson?, Option.bind_eq_bind, Option.bind_eq_some_iff] at read
  obtain ⟨fields, _, read⟩ := read
  split at read
  · next id query body time status _ =>
    simp only [Option.bind_eq_some_iff, Option.pure_def, Option.some.injEq] at read
    obtain ⟨_, _, _, _, _, _, t, timeRead, s, statusRead, rfl⟩ := read
    have bounds : minSigned ≤ t ∧ t ≤ maxSigned := by
      cases time with
      | none => cases timeRead
      | some w => exact signed?_bounds timeRead
    exact ⟨bounds.1, bounds.2, nullable_short? statusRead⟩
  · cases read

/-- Buckets as they can be stored: in the order of their keys, with items whose numbers fit. -/
structure Buckets.Storable (buckets : Buckets) : Prop where
  increasing : Increasing buckets
  fits : ∀ p ∈ buckets, ∀ i ∈ p.2, i.Fits

theorem ofJson?_toJson {buckets : Buckets} (storable : buckets.Storable) : ofJson? (toJson buckets) = some buckets := by
  have pairs : (buckets.map fun p => (p.1, Json.array (p.2.map Item.toJson))).mapM
      (fun m => (Json.listOf? Item.ofJson? m.2).map (m.1, ·)) = some buckets := by
    apply Json.mapM_eq_some
    rintro ⟨bucket, items⟩ member
    have read : Json.listOf? Item.ofJson? (.array (items.map Item.toJson)) = some items :=
      Json.mapM_eq_some fun i inside => Item.ofJson?_toJson (storable.fits _ member i inside)
    simp only [read, Option.map_some]
  change ((buckets.map fun p => (p.1, Json.array (p.2.map Item.toJson))).mapM
    (fun m => (Json.listOf? Item.ofJson? m.2).map (m.1, ·))).bind (fun pairs => some (Sorted.ofList pairs)) = _
  rw [pairs, Option.bind_some, Sorted.ofList_of_increasing storable.increasing]

theorem storable_of_ofJson? {v : Json} {buckets : Buckets} (read : ofJson? v = some buckets) : buckets.Storable := by
  simp only [ofJson?, Option.bind_eq_bind, Option.bind_eq_some_iff, Option.pure_def, Option.some.injEq] at read
  obtain ⟨members, _, pairs, each, rfl⟩ := read
  refine ⟨Sorted.ofList_increasing pairs, ?_⟩
  intro p member i inside
  obtain ⟨⟨bucket, w⟩, _, list⟩ := Json.mem_of_mapM each (Sorted.mem_ofList member)
  obtain ⟨items, itemsRead, rfl⟩ := Option.map_eq_some_iff.mp list
  unfold Json.listOf? at itemsRead
  split at itemsRead
  · obtain ⟨w, _, itemRead⟩ := Json.mem_of_mapM itemsRead inside
    exact Item.fits_of_ofJson? itemRead
  · cases itemsRead

theorem Buckets.Storable.nil : Buckets.Storable [] := by
  constructor
  · exact List.Pairwise.nil
  · intro p member
    cases member

/-- Whatever a storage holds, what is loaded from it can be stored. -/
theorem load_storable (storage : Storage) : (load storage).Storable := by
  unfold load
  split
  · next v _ =>
    cases read : ofJson? v with
    | none => exact Buckets.Storable.nil
    | some buckets => exact storable_of_ofJson? read
  · exact Buckets.Storable.nil

theorem Item.faithful_toJson {i : Item} (fits : i.Fits) (depth : Nat) : Json.Faithful (depth + 1) i.toJson := by
  have time : Json.ReadsBack (.int i.time) := by
    have word : maxSigned ≤ (maxWord : Int) := by decide
    exact Json.int_readsBack fits.low (Int.le_trans fits.high word)
  have status : Json.Faithful depth ((i.status.map Json.ofNat).getD .null) := by
    cases known : i.status with
    | none => simp [Json.Faithful]
    | some n =>
      have short := fits.status n known
      rw [Option.map_some, Option.getD_some, Json.ofNat, Json.Faithful]
      exact Json.int_readsBack (by simp only [minSigned]; omega) (by simp only [maxWord]; omega)
  simp only [Item.toJson, Json.ofInt, Json.Faithful, Json.FaithfulMembers, time, status, and_true, List.map_cons,
    List.map_nil]
  decide

theorem faithful_toJson {buckets : Buckets} (storable : buckets.Storable) (depth : Nat) :
    Json.Faithful (depth + 3) (toJson buckets) := by
  rw [toJson, Json.Faithful]
  refine ⟨?_, Json.faithfulMembers_of_forall ?_⟩
  · rw [List.map_map]
    exact storable.increasing.nodup
  intro m member
  obtain ⟨⟨bucket, items⟩, among, rfl⟩ := List.mem_map.mp member
  rw [Json.Faithful]
  apply Json.faithfulItems_of_forall
  intro v inside
  obtain ⟨i, known, rfl⟩ := List.mem_map.mp inside
  exact Item.faithful_toJson (storable.fits _ among i known) depth

/-- Buckets that were put into a storage are loaded from it again. -/
theorem load_trySet {storage : Storage} (available : storage.Available) {buckets : Buckets}
    (storable : buckets.Storable) : load (storage.trySet storageKey (toJson buckets)) = buckets := by
  have kept := Storage.get_trySet available storageKey (faithful_toJson storable 124)
  simp only [load, kept, ofJson?_toJson storable, Option.getD_some]

end History

end EndpointConsole
