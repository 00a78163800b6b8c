import EndpointConsole.Proofs.Json.Within

/-!
How deep values nest. A value in which only integers stand and whose objects have distinct names can
be printed and read again if it nests no deeper than text may (`faithful_of_depth_le`).
-/
namespace EndpointConsole.Json

mutual

/-- The containers that lie in each other at most. -/
def depth : Json → Nat
  | .null | .bool _ | .number _ | .string _ => 0
  | .array items => depthOfItems items + 1
  | .object members => depthOfMembers members + 1

def depthOfItems : List Json → Nat
  | [] => 0
  | v :: rest => max (depth v) (depthOfItems rest)

def depthOfMembers : List (Text × Json) → Nat
  | [] => 0
  | (_, v) :: rest => max (depth v) (depthOfMembers rest)

end

/-- Each object within a value has at most one member of a name. -/
def DistinctNames (v : Json) : Prop := ∀ members, Within (.object members) v → (members.map Prod.fst).Nodup

theorem distinctNames_string (s : Text) : DistinctNames (.string s) := by
  intro members inside
  cases inside

theorem distinctNames_array {items : List Json} : DistinctNames (.array items) ↔ ∀ v ∈ items, DistinctNames v := by
  constructor
  · intro distinct v among members inside
    exact distinct members (.item among inside)
  · intro each members inside
    cases inside with
    | item among inside => exact each _ among members inside

theorem distinctNames_object {members : List (Text × Json)} :
    DistinctNames (.object members) ↔ (members.map Prod.fst).Nodup ∧ ∀ m ∈ members, DistinctNames m.2 := by
  constructor
  · intro distinct
    exact ⟨distinct members .self, fun m among inner inside => distinct inner (.member among inside)⟩
  · rintro ⟨outer, each⟩ inner inside
    cases inside with
    | self => exact outer
    | member among inside => exact each _ among inner inside

mutual

/-- What reads back from its text, as far as its nesting is concerned. -/
theorem faithful_of_depth_le {limit : Nat} {v : Json} (nested : depth v ≤ limit) (integers : OnlyIntegers v)
    (distinct : DistinctNames v) : Faithful limit v := by
  cases v with
  | null | bool | string => trivial
  | number n =>
    rw [Faithful]
    exact isInteger_readsBack (onlyIntegers_number.mp integers)
  | array items =>
    cases limit with
    | zero => cases nested
    | succ limit =>
      rw [depth, Nat.succ_le_succ_iff] at nested
      rw [Faithful]
      exact faithfulItems_of_depth_le nested (onlyIntegers_array.mp integers) (distinctNames_array.mp distinct)
  | object members =>
    cases limit with
    | zero => cases nested
    | succ limit =>
      rw [depth, Nat.succ_le_succ_iff] at nested
      rw [Faithful]
      obtain ⟨names, distinct⟩ := distinctNames_object.mp distinct
      exact ⟨names, faithfulMembers_of_depth_le nested (onlyIntegers_object.mp integers) distinct⟩

theorem faithfulItems_of_depth_le {limit : Nat} {items : List Json} (nested : depthOfItems items ≤ limit)
    (integers : ∀ v ∈ items, OnlyIntegers v) (distinct : ∀ v ∈ items, DistinctNames v) : FaithfulItems limit items := by
  cases items with
  | nil => trivial
  | cons v rest =>
    rw [depthOfItems, Nat.max_le] at nested
    rw [List.forall_mem_cons] at integers distinct
    rw [FaithfulItems]
    exact ⟨faithful_of_depth_le nested.1 integers.1 distinct.1,
      faithfulItems_of_depth_le nested.2 integers.2 distinct.2⟩

theorem faithfulMembers_of_depth_le {limit : Nat} {members : List (Text × Json)}
    (nested : depthOfMembers members ≤ limit) (integers : ∀ m ∈ members, OnlyIntegers m.2)
    (distinct : ∀ m ∈ members, DistinctNames m.2) : FaithfulMembers limit members := by
  cases members with
  | nil => trivial
  | cons m rest =>
    obtain ⟨key, v⟩ := m
    rw [depthOfMembers, Nat.max_le] at nested
    rw [List.forall_mem_cons] at integers distinct
    rw [FaithfulMembers]
    exact ⟨faithful_of_depth_le nested.1 integers.1 distinct.1,
      faithfulMembers_of_depth_le nested.2 integers.2 distinct.2⟩

end

end EndpointConsole.Json
