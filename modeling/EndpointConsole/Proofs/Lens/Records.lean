import EndpointConsole.Lens.Cache
import EndpointConsole.Proofs.Json.Members
import EndpointConsole.Proofs.Sorted

/-!
What the operations of a cache leave of its records. A cache is tidy when no document
has two records and no more are held than the capacity allows (`Cache.Tidy`); every
operation keeps it so. Then putting a record first drops the last one at most
(`Cache.Tidy.records_putFirst`), and there are two ways only to lose a record without
dropping it: it has expired (`Cache.Tidy.kept_of_get`), or it was the last one of a
full cache (`Cache.Tidy.kept_of_set`).
-/
namespace EndpointConsole.Lens

section Pairs
variable {β : Type} {key name : Text} {value : β} {pairs : List (Text × β)}

theorem lookup?_without (name key : Text) (pairs : List (Text × β)) :
    Json.lookup? name (without key pairs) = if key = name then none else Json.lookup? name pairs :=
  Sorted.lookup?_erase name key pairs

theorem nodup_without (distinct : (pairs.map Prod.fst).Nodup) (key : Text) :
    ((without key pairs).map Prod.fst).Nodup :=
  distinct.sublist (List.filter_sublist.map Prod.fst)

theorem not_mem_without (key : Text) (pairs : List (Text × β)) : key ∉ (without key pairs).map Prod.fst := by
  simp [without]

theorem without_of_absent (absent : Json.lookup? key pairs = none) : without key pairs = pairs := by
  induction pairs with
  | nil => rfl
  | cons m rest ih =>
    rw [Json.lookup?] at absent
    split at absent
    · cases absent
    · next other => rw [without, List.filter_cons_of_pos (by simpa using other), ← without, ih absent]

theorem length_without_lt (held : Json.lookup? key pairs = some value) :
    (without key pairs).length < pairs.length := by
  refine List.length_filter_lt_length_iff_exists.mpr ⟨(key, value), Json.lookup?_mem held, ?_⟩
  simp

theorem lookup?_of_prefix {front : List (Text × β)} (start : front <+: pairs)
    (held : Json.lookup? key front = some value) : Json.lookup? key pairs = some value := by
  obtain ⟨rest, rfl⟩ := start
  induction front with
  | nil => cases held
  | cons m front ih =>
    rw [List.cons_append, Json.lookup?]
    rw [Json.lookup?] at held
    split at held
    · next same => rw [if_pos same, held]
    · next other => rw [if_neg other, ih held]

/-- What is only found in the last pair stands there. -/
theorem getLast?_of_lookup? (held : Json.lookup? key pairs = some value)
    (lost : Json.lookup? key pairs.dropLast = none) : pairs.getLast? = some (key, value) := by
  induction pairs with
  | nil => cases held
  | cons m rest ih =>
    rw [Json.lookup?] at held
    cases rest with
    | nil =>
      split at held
      · next same => rw [List.getLast?_singleton, ← same, ← Option.some.inj held]
      · cases held
    | cons m' rest =>
      rw [List.dropLast_cons_cons, Json.lookup?] at lost
      split at held
      · next same =>
        rw [if_pos same] at lost
        cases lost
      · next other =>
        rw [if_neg other] at lost
        rw [List.getLast?_cons_cons]
        exact ih held lost

end Pairs

namespace Cache

variable {α : Type} {c : Cache α} {key name : Text} {now : Nat} {version : Int} {value : α} {r r' : Record α}

theorem peek?_remove (c : Cache α) (name key : Text) :
    (c.remove name).peek? key = if name = key then none else c.peek? key :=
  lookup?_without key name c.records

theorem peek?_putFirst (held : (c.putFirst name r).peek? key = some r') :
    (name = key ∧ r' = r) ∨ (name ≠ key ∧ c.peek? key = some r') := by
  have among : Json.lookup? key ((name, r) :: without name c.records) = some r' := by
    rw [peek?, putFirst] at held
    split at held
    · exact held
    · exact lookup?_of_prefix (List.take_prefix c.capacity _) held
  rw [Json.lookup?] at among
  split at among
  · next same => exact .inl ⟨same, (Option.some.inj among).symm⟩
  · next other =>
    rw [lookup?_without, if_neg other] at among
    exact .inr ⟨other, among⟩

/-- Using a record changes neither its version nor its value. -/
theorem peek?_get (held : (c.get now name).2.peek? key = some r') :
    ∃ r, c.peek? key = some r ∧ r.version = r'.version ∧ r.value = r'.value := by
  rw [get] at held
  split at held
  · exact ⟨r', held, rfl, rfl⟩
  · next old found =>
    split at held
    · rw [peek?_remove] at held
      split at held
      · cases held
      · exact ⟨r', held, rfl, rfl⟩
    · rcases peek?_putFirst held with ⟨rfl, rfl⟩ | ⟨_, before⟩
      · exact ⟨old, found, rfl, rfl⟩
      · exact ⟨r', before, rfl, rfl⟩

theorem holdsNewer_iff : c.holdsNewer key version = true ↔ ∃ r, c.peek? key = some r ∧ version < r.version := by
  simp [holdsNewer, Option.any_eq_true]

/-- What is held after storing is what was stored, in place of no newer version, or was held before. -/
theorem peek?_set (held : (c.set now name version value).2.peek? key = some r') :
    (name = key ∧ r' = { version, value, used := now } ∧ ∀ r, c.peek? key = some r → r.version ≤ version) ∨
      c.peek? key = some r' := by
  rw [set] at held
  split at held
  · exact .inr held
  · next guard =>
    rcases peek?_putFirst held with ⟨rfl, stored⟩ | ⟨_, before⟩
    · refine .inl ⟨rfl, stored, ?_⟩
      intro r old
      by_contra newer
      exact guard (holdsNewer_iff.mpr ⟨r, old, Int.not_le.mp newer⟩)
    · exact .inr before

theorem peek?_close (c : Cache α) (name key : Text) :
    (c.close name).peek? key = if name = key then none else c.peek? key :=
  peek?_remove (c.cancel name) name key

/-- No document has two records, and no more are held than the capacity allows. -/
structure Tidy (c : Cache α) : Prop where
  distinct : (c.records.map Prod.fst).Nodup
  within : c.capacity ≠ 0 → c.records.length ≤ c.capacity

theorem tidy_empty (capacity : Nat) (idleLimit : Option Nat) : (empty capacity idleLimit : Cache α).Tidy :=
  ⟨List.nodup_nil, fun _ => Nat.zero_le capacity⟩

namespace Tidy

theorem remove (tidy : c.Tidy) (key : Text) : (c.remove key).Tidy where
  distinct := nodup_without tidy.distinct key
  within limited := Nat.le_trans (List.length_filter_le _ _) (tidy.within limited)

theorem cancel (tidy : c.Tidy) (key : Text) : (c.cancel key).Tidy := ⟨tidy.distinct, tidy.within⟩

theorem close (tidy : c.Tidy) (key : Text) : (c.close key).Tidy := (tidy.cancel key).remove key

theorem clear (c : Cache α) : c.clear.Tidy := ⟨List.nodup_nil, fun _ => Nat.zero_le _⟩

theorem putFirst (tidy : c.Tidy) (key : Text) (r : Record α) : (c.putFirst key r).Tidy := by
  have all : (((key, r) :: without key c.records).map Prod.fst).Nodup :=
    List.nodup_cons.mpr ⟨not_mem_without key c.records, nodup_without tidy.distinct key⟩
  constructor
  · rw [Cache.putFirst]
    split
    · exact all
    · exact all.sublist ((List.take_sublist _ _).map Prod.fst)
  · intro limited
    change c.capacity ≠ 0 at limited
    rw [Cache.putFirst]
    simp only [if_neg limited, List.length_take]
    exact Nat.min_le_left _ _

theorem get (tidy : c.Tidy) (now : Nat) (key : Text) : (c.get now key).2.Tidy := by
  rw [Cache.get]
  split
  · exact tidy
  · split
    · exact tidy.remove key
    · exact tidy.putFirst key _

theorem set (tidy : c.Tidy) (now : Nat) (key : Text) (version : Int) (value : α) :
    (c.set now key version value).2.Tidy := by
  rw [Cache.set]
  split
  · exact tidy
  · exact tidy.putFirst key _

/-- Beyond the capacity exactly the last record goes. -/
theorem records_putFirst (tidy : c.Tidy) (key : Text) (r : Record α) :
    (c.putFirst key r).records =
      if c.capacity ≠ 0 ∧ c.capacity < ((key, r) :: without key c.records).length then
        ((key, r) :: without key c.records).dropLast
      else (key, r) :: without key c.records := by
  have fewer : (without key c.records).length ≤ c.records.length := List.length_filter_le _ _
  rw [Cache.putFirst]
  by_cases unlimited : c.capacity = 0
  · simp [unlimited]
  have bound := tidy.within unlimited
  rw [List.length_cons]
  by_cases full : c.capacity < (without key c.records).length + 1
  · have one : c.capacity = ((key, r) :: without key c.records).length - 1 := by
      rw [List.length_cons]
      omega
    simp only [if_neg unlimited, if_pos (And.intro unlimited full)]
    rw [List.dropLast_eq_take, ← one]
  · have all : ((key, r) :: without key c.records).length ≤ c.capacity := by
      rw [List.length_cons]
      omega
    simp only [if_neg unlimited, if_neg (fun both : _ ∧ _ => full both.2), List.take_of_length_le all]

/-- A record in place of one that was held drops no other. -/
theorem records_putFirst_of_held (tidy : c.Tidy) (held : c.peek? key = some r) (r' : Record α) :
    (c.putFirst key r').records = (key, r') :: without key c.records := by
  have fewer := length_without_lt held
  rw [tidy.records_putFirst, if_neg]
  rintro ⟨limited, beyond⟩
  have bound := tidy.within limited
  rw [List.length_cons] at beyond
  omega

end Tidy

theorem get_of_absent (absent : c.peek? key = none) : c.get now key = (none, c) := by
  simp only [get, absent]

theorem capacity_get (c : Cache α) (now : Nat) (key : Text) : (c.get now key).2.capacity = c.capacity := by
  rw [get]
  split
  · rfl
  · split <;> rfl

/-- What is used is what was held, from now on. -/
theorem get_eq_some (got : (c.get now key).1 = some r) :
    ∃ old, c.peek? key = some old ∧ c.isExpired now old = false ∧ r = { old with used := now } := by
  rw [get] at got
  split at got
  · cases got
  · next old held =>
    split at got
    · cases got
    · next fresh => exact ⟨old, held, Bool.eq_false_iff.mpr fresh, (Option.some.inj got).symm⟩

namespace Tidy

/-- A record stays when one is used, unless it is that one and has expired. -/
theorem kept_of_get (tidy : c.Tidy) (now : Nat) (name : Text) (held : c.peek? key = some r) :
    (name = key ∧ c.isExpired now r = true) ∨
      ∃ r', (c.get now name).2.peek? key = some r' ∧ r'.version = r.version := by
  rw [Cache.get]
  cases found : c.peek? name with
  | none => exact .inr ⟨r, held, rfl⟩
  | some old =>
    by_cases same : name = key
    · subst same
      rw [held, Option.some.injEq] at found
      subst found
      by_cases expired : c.isExpired now r = true
      · exact .inl ⟨rfl, expired⟩
      · refine .inr ⟨{ r with used := now }, ?_, rfl⟩
        simp only [if_neg expired]
        rw [peek?, tidy.records_putFirst_of_held held, Json.lookup?, if_pos rfl]
    · refine .inr ⟨r, ?_, rfl⟩
      dsimp only
      split
      · rw [peek?_remove, if_neg same, held]
      · rw [peek?, tidy.records_putFirst_of_held found, Json.lookup?, if_neg same, lookup?_without, if_neg same]
        exact held

/-- A record stays or gives way to a newer one when one is stored, unless it is the last of a full
    cache and what is stored is of a document without a record. -/
theorem kept_of_set (tidy : c.Tidy) (now : Nat) (name : Text) (version : Int) (value : α)
    (held : c.peek? key = some r) :
    (∃ r', (c.set now name version value).2.peek? key = some r' ∧ r.version ≤ r'.version) ∨
      (c.capacity ≠ 0 ∧ c.records.length = c.capacity ∧ c.records.getLast? = some (key, r) ∧ c.peek? name = none ∧
        (c.set now name version value).2.peek? key = none) := by
  by_cases refused : c.holdsNewer name version = true
  · rw [Cache.set, if_pos refused]
    exact .inl ⟨r, held, Int.le_refl _⟩
  rw [Cache.set, if_neg refused]
  dsimp only
  cases found : c.peek? name with
  | some old =>
    -- what is stored takes the place of the record of its document
    rw [peek?, tidy.records_putFirst_of_held found, Json.lookup?]
    by_cases same : name = key
    · subst same
      rw [if_pos rfl]
      refine .inl ⟨_, rfl, ?_⟩
      by_contra newer
      exact refused (holdsNewer_iff.mpr ⟨r, held, Int.not_le.mp newer⟩)
    · rw [if_neg same, lookup?_without, if_neg same]
      exact .inl ⟨r, held, Int.le_refl _⟩
  | none =>
    have same : name ≠ key := by
      rintro rfl
      rw [held] at found
      cases found
    have fits : Json.lookup? key ((name, { version, value, used := now }) :: c.records) = some r := by
      rw [Json.lookup?, if_neg same]
      exact held
    rw [peek?, tidy.records_putFirst, without_of_absent found]
    split
    · next beyond =>
      cases left : Json.lookup? key ((name, { version, value, used := now }) :: c.records).dropLast with
      | some r' =>
        have before := lookup?_of_prefix (List.dropLast_prefix _) left
        rw [fits, Option.some.injEq] at before
        exact .inl ⟨r', rfl, Int.le_of_eq (congrArg Record.version before)⟩
      | none =>
        have last := getLast?_of_lookup? fits left
        have bound := tidy.within beyond.1
        have more := beyond.2
        rw [List.length_cons] at more
        have some_ : c.records ≠ [] := by
          intro empty
          rw [peek?, empty] at held
          cases held
        rw [List.getLast?_cons_of_ne_nil some_] at last
        exact .inr ⟨beyond.1, by omega, last, rfl, rfl⟩
    · exact .inl ⟨r, fits, Int.le_refl _⟩

/-- A full cache that has no record of a document was left alone when the document was asked for. -/
theorem eq_of_get_full (tidy : c.Tidy) (limited : (c.get now name).2.capacity ≠ 0)
    (full : (c.get now name).2.records.length = (c.get now name).2.capacity)
    (absent : (c.get now name).2.peek? name = none) : (c.get now name).2 = c := by
  rw [capacity_get] at limited full
  cases found : c.peek? name with
  | none => rw [get_of_absent found]
  | some old =>
    rcases tidy.kept_of_get now name found with ⟨_, expired⟩ | ⟨r', held, _⟩
    · -- the record dropped would have left room
      have fewer := length_without_lt found
      have bound := tidy.within limited
      simp only [Cache.get, found, if_pos expired, Cache.remove] at full
      omega
    · rw [held] at absent
      cases absent

end Tidy

end Cache

end EndpointConsole.Lens
