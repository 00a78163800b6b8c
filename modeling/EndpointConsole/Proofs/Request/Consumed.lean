import EndpointConsole.Request.Target
import Mathlib.Data.List.Nodup

/-!
Which entries of a request fill placeholders of its route, and which are left.
Filling takes entries out and keeps the others in their order
(`fillPieces_sublist`), and every entry carries its place, so the entries that
are left are those whose place was not consumed (`left_eq_filter`).
-/
namespace EndpointConsole.Request

/-- The entries that fill no placeholder of a route, in their order. -/
def unconsumed (route : Text) (entries : List Entry) : List Entry :=
  ((numbered entries).filter fun p => !(consumed entries (fillRoute route entries).2).contains p.1).map (·.2)

theorem takeNamed?_sublist {name value : Text} {entries left : List Numbered}
    (taken : takeNamed? name entries = some (value, left)) : left.Sublist entries := by
  induction entries generalizing left with
  | nil => cases taken
  | cons first rest ih =>
    obtain ⟨n, e⟩ := first
    rw [takeNamed?] at taken
    split at taken
    · cases taken
      exact List.sublist_cons_self _ _
    · simp only [Option.map_eq_some_iff, Prod.mk.injEq] at taken
      obtain ⟨⟨_, left'⟩, found, rfl, rfl⟩ := taken
      exact (ih found).cons_cons _

theorem fillPieces_sublist (pieces : List (Text.Piece Text)) (entries : List Numbered) :
    (fillPieces pieces entries).2.Sublist entries := by
  induction pieces generalizing entries with
  | nil => exact List.Sublist.refl _
  | cons piece rest ih =>
    cases piece with
    | char c => exact ih entries
    | found content =>
      simp only [fillPieces]
      split
      · next value left taken =>
        split at taken
        · cases taken
        · exact (ih left).trans (takeNamed?_sublist taken)
      · exact ih entries

theorem numbered_places (entries : List Entry) : (numbered entries).map (·.1) = List.range entries.length := by
  rw [numbered, List.map_map]
  exact List.zipIdx_map_snd 0 entries ▸ (List.range_eq_range' ▸ rfl)

/-- A part of a list with distinct places is what the places of the part select. -/
theorem filter_places_of_sublist {part all : List Numbered} (sub : part.Sublist all)
    (distinct : (all.map (·.1)).Nodup) : (all.filter fun p => (part.map (·.1)).contains p.1) = part := by
  induction sub with
  | slnil => rfl
  | @cons part all first sub ih =>
    rw [List.map_cons, List.nodup_cons] at distinct
    have outside : first.1 ∉ part.map (·.1) := fun member => distinct.1 ((sub.map _).subset member)
    rw [List.filter_cons_of_neg (by simpa using outside), ih distinct.2]
  | @cons_cons part all first sub ih =>
    rw [List.map_cons, List.nodup_cons] at distinct
    have others : ∀ p ∈ all, ((part.map (·.1)).contains p.1 = ((first :: part).map (·.1)).contains p.1) := by
      intro p member
      have different : p.1 ≠ first.1 := fun same => distinct.1 (same ▸ List.mem_map_of_mem member)
      simp [different]
    rw [List.filter_cons_of_pos (by simp), ← List.filter_congr others, ih distinct.2]

theorem mem_consumed {entries : List Entry} {left : List Numbered} {n : Nat} :
    n ∈ consumed entries left ↔ n < entries.length ∧ n ∉ left.map (·.1) := by
  simp only [consumed, List.mem_filter, List.mem_range, Bool.not_eq_true', List.contains_eq_mem, decide_eq_false_iff_not]

/-- The entries that are left over are those whose place was not consumed. -/
theorem left_eq_filter (route : Text) (entries : List Entry) :
    (fillRoute route entries).2 =
      (numbered entries).filter fun p => !(consumed entries (fillRoute route entries).2).contains p.1 := by
  have sub : (fillRoute route entries).2.Sublist (numbered entries) := fillPieces_sublist _ _
  have distinct : ((numbered entries).map (·.1)).Nodup := numbered_places entries ▸ List.nodup_range
  conv => lhs; rw [← filter_places_of_sublist sub distinct]
  apply List.filter_congr
  intro p member
  have place : p.1 < entries.length := by
    rw [← List.mem_range, ← numbered_places]
    exact List.mem_map_of_mem member
  rw [List.contains_eq_mem, List.contains_eq_mem, ← decide_not, decide_eq_decide, mem_consumed, not_and, not_not]
  exact ⟨fun left _ => left, fun unless_outside => unless_outside place⟩

theorem left_entries (route : Text) (entries : List Entry) :
    (fillRoute route entries).2.map (·.2) = unconsumed route entries := by
  conv => lhs; rw [left_eq_filter]
  rfl

end EndpointConsole.Request
