import EndpointConsole.History.Mask
import EndpointConsole.Proofs.Json.Within
import EndpointConsole.Proofs.Text.Cutting

/-!
The masking of values. `Masked` says what it is to mask a value, for each member of
each object at any depth, and `maskValue` is the one way to do it (`masked_iff`).
Masked values have the members, the order and the nesting of what they were made of,
so that they can be printed and read again and masking them changes nothing.
-/
namespace EndpointConsole.History
open Json (Within OnlyIntegers Faithful FaithfulItems FaithfulMembers)

/-- Whether the name of a member holds `token`, in any ASCII case. -/
def NamesToken (key : Text) : Prop := "token".toList <:+: Text.asciiLower key

/-- Whether a member whose name holds `token` stands at any depth of a value. -/
def HasToken (v : Json) : Prop :=
  ∃ members, Within (.object members) v ∧ ∃ m ∈ members, NamesToken m.1

mutual

/-- Masking a value: an array item by item, an object member by member, and nothing else changes. -/
inductive Masked : Json → Json → Prop where
  | null : Masked .null .null
  | bool (b : Bool) : Masked (.bool b) (.bool b)
  | number (n : Number) : Masked (.number n) (.number n)
  | string (s : Text) : Masked (.string s) (.string s)
  | array {items masked : List Json} (each : List.Forall₂ Masked items masked) : Masked (.array items) (.array masked)
  | object {members masked : List (Text × Json)} (each : List.Forall₂ MaskedMember members masked) :
      Masked (.object members) (.object masked)

/-- Masking a member: the name stays, and the value is the mask or is itself masked. -/
inductive MaskedMember : Text × Json → Text × Json → Prop where
  | token {key : Text} {v : Json} (names : NamesToken key) : MaskedMember (key, v) (key, .string "***".toList)
  | other {key : Text} {v w : Json} (other : ¬NamesToken key) (masked : Masked v w) : MaskedMember (key, v) (key, w)

end

theorem isTokenKey_iff (key : Text) : isTokenKey key = true ↔ NamesToken key := Text.contains_iff _ _

mutual

theorem masked_maskValue (v : Json) : Masked v (maskValue v) := by
  cases v with
  | null => exact .null
  | bool b => exact .bool b
  | number n => exact .number n
  | string s => exact .string s
  | array items => exact .array (masked_maskItems items)
  | object members => exact .object (masked_maskMembers members)

theorem masked_maskItems (items : List Json) : List.Forall₂ Masked items (maskItems items) := by
  cases items with
  | nil => exact .nil
  | cons v rest => exact .cons (masked_maskValue v) (masked_maskItems rest)

theorem masked_maskMembers (members : List (Text × Json)) :
    List.Forall₂ MaskedMember members (maskMembers members) := by
  cases members with
  | nil => exact .nil
  | cons m rest =>
    obtain ⟨key, v⟩ := m
    rw [maskMembers]
    refine .cons ?_ (masked_maskMembers rest)
    by_cases token : isTokenKey key = true
    · rw [if_pos token]
      exact .token ((isTokenKey_iff key).mp token)
    · rw [if_neg token]
      exact .other (mt (isTokenKey_iff key).mpr token) (masked_maskValue v)

end

mutual

theorem eq_maskValue {v w : Json} (masked : Masked v w) : w = maskValue v := by
  cases v with
  | null => cases masked; rfl
  | bool b => cases masked; rfl
  | number n => cases masked; rfl
  | string s => cases masked; rfl
  | array items =>
    cases masked with
    | array each => rw [maskValue, eq_maskItems each]
  | object members =>
    cases masked with
    | object each => rw [maskValue, eq_maskMembers each]

theorem eq_maskItems {items masked : List Json} (each : List.Forall₂ Masked items masked) :
    masked = maskItems items := by
  cases items with
  | nil => cases each; rfl
  | cons v rest =>
    cases each with
    | cons head tail => rw [maskItems, eq_maskValue head, eq_maskItems tail]

theorem eq_maskMembers {members masked : List (Text × Json)} (each : List.Forall₂ MaskedMember members masked) :
    masked = maskMembers members := by
  cases members with
  | nil => cases each; rfl
  | cons m rest =>
    cases each with
    | cons head tail =>
      cases head with
      | token names =>
        rw [maskMembers, eq_maskMembers tail, if_pos ((isTokenKey_iff _).mpr names)]
        rfl
      | other unnamed masked =>
        rw [maskMembers, eq_maskMembers tail, if_neg (mt (isTokenKey_iff _).mp unnamed), ← eq_maskValue masked]

end

/-- There is one way to mask a value. -/
theorem masked_iff {v w : Json} : Masked v w ↔ w = maskValue v :=
  ⟨eq_maskValue, fun same => same ▸ masked_maskValue v⟩

theorem hasToken_array {items : List Json} : HasToken (.array items) ↔ ∃ v ∈ items, HasToken v := by
  constructor
  · rintro ⟨members, inside, names⟩
    cases inside with
    | item among inside => exact ⟨_, among, members, inside, names⟩
  · rintro ⟨v, among, members, inside, names⟩
    exact ⟨members, .item among inside, names⟩

theorem hasToken_object {members : List (Text × Json)} :
    HasToken (.object members) ↔ ∃ m ∈ members, NamesToken m.1 ∨ HasToken m.2 := by
  constructor
  · rintro ⟨found, inside, m, held, names⟩
    cases inside with
    | self => exact ⟨m, held, .inl names⟩
    | member among inside => exact ⟨_, among, .inr ⟨found, inside, m, held, names⟩⟩
  · rintro ⟨m, among, names | ⟨found, inside, held⟩⟩
    · exact ⟨members, .self, m, among, names⟩
    · exact ⟨found, .member among inside, held⟩

mutual

theorem hasTokenKey_iff (v : Json) : hasTokenKey v = true ↔ HasToken v := by
  have leaf {w : Json} (bare : ∀ {members}, ¬Within (.object members) w) : ¬HasToken w :=
    fun ⟨_, inside, _⟩ => bare inside
  cases v with
  | null => exact iff_of_false Bool.false_ne_true (leaf nofun)
  | bool b => exact iff_of_false Bool.false_ne_true (leaf nofun)
  | number n => exact iff_of_false Bool.false_ne_true (leaf nofun)
  | string s => exact iff_of_false Bool.false_ne_true (leaf nofun)
  | array items => rw [hasTokenKey, anyTokenKey_iff, hasToken_array]
  | object members => rw [hasTokenKey, anyTokenMember_iff, hasToken_object]

theorem anyTokenKey_iff (items : List Json) : anyTokenKey items = true ↔ ∃ v ∈ items, HasToken v := by
  cases items with
  | nil => simp [anyTokenKey]
  | cons v rest => rw [anyTokenKey, Bool.or_eq_true, hasTokenKey_iff, anyTokenKey_iff, List.exists_mem_cons_iff]

theorem anyTokenMember_iff (members : List (Text × Json)) :
    anyTokenMember members = true ↔ ∃ m ∈ members, NamesToken m.1 ∨ HasToken m.2 := by
  cases members with
  | nil => simp [anyTokenMember]
  | cons m rest =>
    obtain ⟨key, v⟩ := m
    rw [anyTokenMember, Bool.or_eq_true, Bool.or_eq_true, isTokenKey_iff, hasTokenKey_iff, anyTokenMember_iff,
      List.exists_mem_cons_iff]

end

mutual

/-- The names that were found are still there. -/
theorem hasTokenKey_maskValue (v : Json) : hasTokenKey (maskValue v) = hasTokenKey v := by
  cases v with
  | array items => exact anyTokenKey_maskItems items
  | object members => exact anyTokenMember_maskMembers members
  | _ => rfl

theorem anyTokenKey_maskItems (items : List Json) : anyTokenKey (maskItems items) = anyTokenKey items := by
  cases items with
  | nil => rfl
  | cons v rest => rw [maskItems, anyTokenKey, anyTokenKey, hasTokenKey_maskValue, anyTokenKey_maskItems]

theorem anyTokenMember_maskMembers (members : List (Text × Json)) :
    anyTokenMember (maskMembers members) = anyTokenMember members := by
  cases members with
  | nil => rfl
  | cons m rest =>
    obtain ⟨key, v⟩ := m
    rw [maskMembers, anyTokenMember, anyTokenMember, anyTokenMember_maskMembers]
    by_cases token : isTokenKey key = true
    · simp only [token, Bool.true_or]
    · rw [if_neg token, hasTokenKey_maskValue]

end

mutual

theorem maskValue_maskValue (v : Json) : maskValue (maskValue v) = maskValue v := by
  cases v with
  | array items => exact congrArg Json.array (maskItems_maskItems items)
  | object members => exact congrArg Json.object (maskMembers_maskMembers members)
  | _ => rfl

theorem maskItems_maskItems (items : List Json) : maskItems (maskItems items) = maskItems items := by
  cases items with
  | nil => rfl
  | cons v rest => rw [maskItems, maskItems, maskValue_maskValue, maskItems_maskItems]

theorem maskMembers_maskMembers (members : List (Text × Json)) :
    maskMembers (maskMembers members) = maskMembers members := by
  cases members with
  | nil => rfl
  | cons m rest =>
    obtain ⟨key, v⟩ := m
    rw [maskMembers, maskMembers, maskMembers_maskMembers]
    by_cases token : isTokenKey key = true
    · rw [if_pos token, if_pos token]
    · rw [if_neg token, if_neg token, maskValue_maskValue]

end

mutual

theorem onlyIntegers_maskValue {v : Json} (integers : OnlyIntegers v) : OnlyIntegers (maskValue v) := by
  cases v with
  | array items => exact Json.onlyIntegers_array.mpr (onlyIntegers_maskItems (Json.onlyIntegers_array.mp integers))
  | object members =>
    exact Json.onlyIntegers_object.mpr (onlyIntegers_maskMembers (Json.onlyIntegers_object.mp integers))
  | _ => exact integers

theorem onlyIntegers_maskItems {items : List Json} (integers : ∀ v ∈ items, OnlyIntegers v) :
    ∀ w ∈ maskItems items, OnlyIntegers w := by
  cases items with
  | nil => exact integers
  | cons v rest =>
    rw [List.forall_mem_cons] at integers
    rw [maskItems, List.forall_mem_cons]
    exact ⟨onlyIntegers_maskValue integers.1, onlyIntegers_maskItems integers.2⟩

theorem onlyIntegers_maskMembers {members : List (Text × Json)} (integers : ∀ m ∈ members, OnlyIntegers m.2) :
    ∀ m ∈ maskMembers members, OnlyIntegers m.2 := by
  cases members with
  | nil => exact integers
  | cons m rest =>
    obtain ⟨key, v⟩ := m
    rw [List.forall_mem_cons] at integers
    rw [maskMembers, List.forall_mem_cons]
    refine ⟨?_, onlyIntegers_maskMembers integers.2⟩
    split
    · rintro n ⟨⟩
    · exact onlyIntegers_maskValue integers.1

end

theorem map_fst_maskMembers (members : List (Text × Json)) :
    (maskMembers members).map Prod.fst = members.map Prod.fst := by
  induction members with
  | nil => rfl
  | cons m rest ih => rw [maskMembers, List.map_cons, List.map_cons, ih]

mutual

theorem faithful_maskValue {depth : Nat} {v : Json} (faithful : Faithful depth v) : Faithful depth (maskValue v) := by
  cases v with
  | array items =>
    cases depth with
    | zero => rw [Faithful] at faithful; exact faithful.elim
    | succ depth =>
      rw [Faithful] at faithful
      rw [maskValue, Faithful]
      exact faithfulItems_maskItems faithful
  | object members =>
    cases depth with
    | zero => rw [Faithful] at faithful; exact faithful.elim
    | succ depth =>
      rw [Faithful] at faithful
      rw [maskValue, Faithful, map_fst_maskMembers]
      exact ⟨faithful.1, faithfulMembers_maskMembers faithful.2⟩
  | _ => exact faithful

theorem faithfulItems_maskItems {depth : Nat} {items : List Json} (faithful : FaithfulItems depth items) :
    FaithfulItems depth (maskItems items) := by
  cases items with
  | nil => exact faithful
  | cons v rest =>
    rw [FaithfulItems] at faithful
    rw [maskItems, FaithfulItems]
    exact ⟨faithful_maskValue faithful.1, faithfulItems_maskItems faithful.2⟩

theorem faithfulMembers_maskMembers {depth : Nat} {members : List (Text × Json)}
    (faithful : FaithfulMembers depth members) : FaithfulMembers depth (maskMembers members) := by
  cases members with
  | nil => exact faithful
  | cons m rest =>
    obtain ⟨key, v⟩ := m
    rw [FaithfulMembers] at faithful
    rw [maskMembers, FaithfulMembers]
    refine ⟨?_, faithfulMembers_maskMembers faithful.2⟩
    split
    · rw [Faithful]
      trivial
    · exact faithful_maskValue faithful.1

end

end EndpointConsole.History
