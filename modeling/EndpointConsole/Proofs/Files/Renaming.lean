import EndpointConsole.Proofs.Files.Writing

/-!
What renaming a file leaves in a tree, by absolute names (`entryAt?_rename`): the file lies at
its new name, and whatever lies apart from both names is where it was.
-/
namespace EndpointConsole.Files

variable {fs : Files} {source target : List Text}

/-- Neither of two names lies at or below the other. -/
structure Apart (a b : List Text) : Prop where
  notBelow : isWithin a b = false
  notAbove : isWithin b a = false

theorem isWithin_iff {place names : List Text} : isWithin place names = true ↔ ∃ below, names = place ++ below := by
  rw [isWithin, List.isPrefixOf_iff_prefix]
  constructor
  · rintro ⟨below, rfl⟩
    exact ⟨below, rfl⟩
  · rintro ⟨below, rfl⟩
    exact List.prefix_append place below

theorem isWithin_refl (place : List Text) : isWithin place place = true := isWithin_iff.mpr ⟨[], by simp⟩

theorem Apart.ne {a b : List Text} (apart : Apart a b) : a ≠ b := by
  rintro rfl
  exact absurd apart.notBelow (by simp [isWithin_refl])

/-- Two names in one folder lie apart. -/
theorem apart_siblings {folder : List Text} {a b : Text} (other : a ≠ b) : Apart (folder ++ [a]) (folder ++ [b]) := by
  have notBelow {a b : Text} (other : a ≠ b) : isWithin (folder ++ [a]) (folder ++ [b]) = false := by
    rw [Bool.eq_false_iff, Ne, isWithin_iff]
    rintro ⟨below, same⟩
    rw [List.append_assoc, List.append_cancel_left_eq, List.singleton_append] at same
    exact other (List.cons.inj same).1.symm
  exact ⟨notBelow other, notBelow other.symm⟩

/-- No folder lies below what is in it. -/
theorem not_isWithin_above {folder upper : List Text} (above : upper <+: folder) (name : Text) :
    isWithin (folder ++ [name]) upper = false := by
  rw [Bool.eq_false_iff, Ne, isWithin_iff]
  rintro ⟨below, rfl⟩
  have longer := above.length_le
  simp only [List.length_append, List.length_singleton] at longer
  omega

/-- The name of an entry after the renaming. -/
def movedTo (source target key : List Text) : List Text :=
  if isWithin source key then target ++ key.drop source.length else key

theorem movedTo_source : movedTo source target source = target := by
  rw [movedTo, if_pos (isWithin_refl source), List.drop_length, List.append_nil]

/-- Only what is renamed gets its new name, if nothing has that yet. -/
theorem source_of_movedTo {key : List Text} (free : key ≠ target) (moved : movedTo source target key = target) :
    key = source := by
  rw [movedTo] at moved
  split at moved
  · next within =>
    obtain ⟨below, rfl⟩ := isWithin_iff.mp within
    rw [List.drop_left] at moved
    have nothing : below = [] := List.append_cancel_left (moved.trans (List.append_nil target).symm)
    rw [nothing, List.append_nil]
  · exact absurd moved free

theorem find?_moved {entries : List (List Text × Entry)} (free : ∀ p ∈ entries, p.1 ≠ target) :
    find? target (entries.map fun p => (movedTo source target p.1, p.2)) = find? source entries := by
  induction entries with
  | nil => rfl
  | cons p rest ih =>
    obtain ⟨freeHere, freeBelow⟩ := List.forall_mem_cons.mp free
    rw [List.map_cons, find?, find?]
    by_cases here : p.1 = source
    · rw [if_pos here, if_pos (by rw [here, movedTo_source])]
    · rw [if_neg here, if_neg fun moved => here (source_of_movedTo freeHere moved)]
      exact ih freeBelow

theorem find?_moved_apart {entries : List (List Text × Entry)} {key : List Text}
    (notSource : isWithin source key = false) (notTarget : isWithin target key = false) :
    find? key (entries.map fun p => (movedTo source target p.1, p.2)) = find? key entries := by
  induction entries with
  | nil => rfl
  | cons p rest ih =>
    have stays : movedTo source target key = key := if_neg (by simp [notSource])
    rw [List.map_cons, find?, find?]
    by_cases here : p.1 = key
    · rw [if_pos here, if_pos (by rw [here, stays])]
    · have elsewhere : movedTo source target p.1 ≠ key := by
        rw [movedTo]
        split
        · rintro rfl
          exact absurd notTarget (by rw [isWithin_iff.mpr ⟨_, rfl⟩]; simp)
        · exact here
      rw [if_neg here, if_neg elsewhere]
      exact ih

theorem ne_of_find?_eq_none {entries : List (List Text × Entry)} (none : find? target entries = none) :
    ∀ p ∈ entries, p.1 ≠ target := by
  induction entries with
  | nil => nofun
  | cons p rest ih =>
    rw [find?] at none
    split at none
    · cases none
    · next other => exact List.forall_mem_cons.mpr ⟨other, ih none⟩

/-- The entries after a renaming, which takes away what lies at the new name. -/
theorem rename_eq_ok {path other : Text} {bytes : List UInt8} {after : Files}
    (looked : fs.look path = .ok (source, .file bytes)) (located : fs.locate other = .ok target)
    (apart : Apart source target) (renamed : fs.rename path other = .ok after) :
    target ≠ [] ∧ ∃ entries, (∀ p ∈ entries, p.1 ≠ target) ∧
      (∀ key, isWithin target key = false → find? key entries = find? key fs.entries) ∧
      after = { fs with entries := entries.map fun p => (movedTo source target p.1, p.2) } := by
  have below : target ≠ [] := by
    rintro rfl
    exact absurd apart.notAbove (by simp [isWithin])
  refine ⟨below, ?_⟩
  rw [rename, looked, located] at renamed
  simp only [bind, Except.bind, pure, Except.pure] at renamed
  have move : (fun p : List Text × Entry =>
      if isWithin source p.1 = true then (target ++ p.1.drop source.length, p.2) else (p.1, p.2)) =
      fun p => (movedTo source target p.1, p.2) := by
    funext p
    rw [movedTo]
    split <;> rfl
  rw [move] at renamed
  cases held : fs.entryAt? target with
  | none =>
    rw [held] at renamed
    refine ⟨fs.entries, ne_of_find?_eq_none (by rwa [entryAt?, if_neg below] at held), fun key _ => rfl, ?_⟩
    dsimp only at renamed
    split at renamed
    · exact (Except.ok.inj renamed).symm
    · cases renamed
    · cases renamed
  | some entry =>
    rw [held] at renamed
    cases entry with
    | folder => cases renamed
    | file old =>
      dsimp only at renamed
      rw [if_neg apart.ne] at renamed
      refine ⟨(fs.drop target).entries, ?_, ?_, (Except.ok.inj renamed).symm⟩
      · intro p kept same
        rw [drop_entries, same.symm] at kept
        have outside := (List.mem_filter.mp kept).2
        rw [isWithin_refl] at outside
        cases outside
      · intro key outside
        rw [drop_entries]
        exact find?_filter fs.entries (fun k => !isWithin target k) (by simp [outside])

/-- The file lies at its new name, and what lies apart stays. -/
theorem entryAt?_rename {path other : Text} {bytes : List UInt8} {after : Files}
    (looked : fs.look path = .ok (source, .file bytes)) (located : fs.locate other = .ok target)
    (apart : Apart source target) (renamed : fs.rename path other = .ok after) :
    after.entryAt? target = some (.file bytes) ∧
      ∀ key, isWithin source key = false → isWithin target key = false → after.entryAt? key = fs.entryAt? key := by
  obtain ⟨below, entries, free, kept, rfl⟩ := rename_eq_ok looked located apart renamed
  obtain ⟨_, held⟩ := look_eq_ok.mp looked
  have file : find? source fs.entries = some (.file bytes) := by
    rw [entryAt?] at held
    split at held
    · cases held
    · exact held
  constructor
  · rw [entryAt?, if_neg below]
    dsimp only
    rw [find?_moved free, kept source apart.notAbove, file]
  · intro key notSource notTarget
    rw [entryAt?, entryAt?]
    dsimp only
    rw [find?_moved_apart notSource notTarget, kept key notTarget]

end EndpointConsole.Files
