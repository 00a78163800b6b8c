import EndpointConsole.Proofs.Json.Printed

/-!
What stands within a value, at any depth. A value that was read from text and in
which only integers stand can be printed and read again (`faithful_of_parse?`):
reading keeps the limit on nesting and merges members of one name.
-/
namespace EndpointConsole

/-- Whether a number was written as an integer. Minus zero was, although it is read as a
    floating-point number. -/
def Number.IsInteger : Number → Prop
  | int n => minSigned ≤ n ∧ n ≤ maxWord
  | real x => x = ⟨true, 0, Binary64.minExponent⟩

namespace Json

/-- A value stands within another: it is that value, or stands within one of its parts. -/
inductive Within (w : Json) : Json → Prop where
  | self : Within w w
  | item {items : List Json} {v : Json} (among : v ∈ items) (inside : Within w v) : Within w (.array items)
  | member {members : List (Text × Json)} {m : Text × Json} (among : m ∈ members) (inside : Within w m.2) :
      Within w (.object members)

/-- All numbers within a value are integers. -/
def OnlyIntegers (v : Json) : Prop := ∀ n, Within (.number n) v → n.IsInteger

theorem onlyIntegers_number {n : Number} : OnlyIntegers (.number n) ↔ n.IsInteger := by
  constructor
  · intro integers
    exact integers n .self
  · intro integer m inside
    cases inside
    exact integer

theorem onlyIntegers_string (s : Text) : OnlyIntegers (.string s) := by
  intro n inside
  cases inside

theorem onlyIntegers_array {items : List Json} : OnlyIntegers (.array items) ↔ ∀ v ∈ items, OnlyIntegers v := by
  constructor
  · intro integers v among n inside
    exact integers n (.item among inside)
  · intro each n inside
    cases inside with
    | item among inside => exact each _ among n inside

theorem onlyIntegers_object {members : List (Text × Json)} :
    OnlyIntegers (.object members) ↔ ∀ m ∈ members, OnlyIntegers m.2 := by
  constructor
  · intro integers m among n inside
    exact integers n (.member among inside)
  · intro each n inside
    cases inside with
    | member among inside => exact each _ among n inside

theorem isInteger_readsBack {n : Number} (integer : n.IsInteger) : ReadsBack n := by
  cases n with
  | int n => exact int_readsBack integer.1 integer.2
  | real x =>
    rw [Number.IsInteger] at integer
    exact integer ▸ minusZero_readsBack

namespace Written

mutual

/-- What a tree reads as nests no deeper than allowed, and each of its objects has distinct names. -/
theorem faithful_of_value? {depth : Nat} {w : Written} {v : Json} (read : value? depth w = some v)
    (integers : OnlyIntegers v) : Faithful depth v := by
  cases w with
  | null =>
    rw [value?, Option.some.injEq] at read
    exact read ▸ trivial
  | bool b =>
    rw [value?, Option.some.injEq] at read
    exact read ▸ trivial
  | number n =>
    rw [value?] at read
    obtain ⟨m, _, rfl⟩ := Option.map_eq_some_iff.mp read
    rw [Faithful]
    exact isInteger_readsBack (onlyIntegers_number.mp integers)
  | string s =>
    rw [value?] at read
    obtain ⟨t, _, rfl⟩ := Option.map_eq_some_iff.mp read
    rw [Faithful]
    trivial
  | array items =>
    cases depth with
    | zero =>
      rw [value?] at read
      cases read
    | succ depth =>
      rw [value?] at read
      obtain ⟨found, each, rfl⟩ := Option.map_eq_some_iff.mp read
      rw [Faithful]
      have inside := onlyIntegers_array.mp integers
      exact faithfulItems_of_forall fun v among => faithful_of_values? each v among (inside v among)
  | object members =>
    cases depth with
    | zero =>
      rw [value?] at read
      cases read
    | succ depth =>
      rw [value?] at read
      obtain ⟨found, each, rfl⟩ := Option.map_eq_some_iff.mp read
      rw [Faithful]
      refine ⟨nodup_ofMembers found, faithfulMembers_of_forall fun m among => ?_⟩
      -- a member that another of its name took the place of need not hold integers
      exact faithful_of_memberValues? each m (mem_ofMembers among) (onlyIntegers_object.mp integers m among)

theorem faithful_of_values? {depth : Nat} {items : List Written} {found : List Json}
    (each : values? depth items = some found) (v : Json) (among : v ∈ found) (integers : OnlyIntegers v) :
    Faithful depth v := by
  cases items with
  | nil =>
    rw [values?, Option.some.injEq] at each
    subst each
    cases among
  | cons w rest =>
    simp only [values?, Option.bind_eq_bind, Option.bind_eq_some_iff, Option.pure_def, Option.some.injEq] at each
    obtain ⟨first, head, more, tail, rfl⟩ := each
    rcases List.mem_cons.mp among with rfl | later
    · exact faithful_of_value? head integers
    · exact faithful_of_values? tail v later integers

theorem faithful_of_memberValues? {depth : Nat} {members : List (Option Text × Written)}
    {found : List (Text × Json)} (each : memberValues? depth members = some found) (m : Text × Json)
    (among : m ∈ found) (integers : OnlyIntegers m.2) : Faithful depth m.2 := by
  cases members with
  | nil =>
    rw [memberValues?, Option.some.injEq] at each
    subst each
    cases among
  | cons first rest =>
    obtain ⟨key, w⟩ := first
    simp only [memberValues?, Option.bind_eq_bind, Option.bind_eq_some_iff, Option.pure_def,
      Option.some.injEq] at each
    obtain ⟨name, _, v, head, more, tail, rfl⟩ := each
    rcases List.mem_cons.mp among with rfl | later
    · exact faithful_of_value? head integers
    · exact faithful_of_memberValues? tail m later integers

end

end Written

/-- A value that was read, and in which only integers stand, can be printed and read again. -/
theorem faithful_of_parse? {s : Text} {v : Json} (parsed : parse? s = some v) (integers : OnlyIntegers v) :
    Faithful maxDepth v := by
  obtain ⟨w, _, read⟩ := Option.bind_eq_some_iff.mp parsed
  exact Written.faithful_of_value? read integers

end Json

end EndpointConsole
