import EndpointConsole.Sorted
import Mathlib.Data.Char
import Mathlib.Data.List.Lex

/-!
Maps in the order of their keys. What `insert` and `erase` write is what `lookup?`
finds, whatever the order of the pairs; the order (`Increasing`) is kept by both,
and a map in order is the one made of its own pairs.
-/
namespace EndpointConsole.Sorted
open Json (lookup?)

variable {α : Type} {key : Text} {value : α} {map : List (Text × α)}

/-- The keys grow strictly, so that none stands twice. -/
def Increasing (map : List (Text × α)) : Prop := map.Pairwise fun a b => a.1 < b.1

theorem lookup?_insert (name key : Text) (value : α) (map : List (Text × α)) :
    lookup? name (insert key value map) = if key = name then some value else lookup? name map := by
  induction map with
  | nil => rfl
  | cons m rest ih =>
    obtain ⟨k, v⟩ := m
    by_cases same : k = key
    · rw [insert, if_pos same, lookup?, lookup?, same]
      by_cases asked : key = name
      · rw [if_pos asked, if_pos asked]
      · rw [if_neg asked, if_neg asked, if_neg asked]
    by_cases before : key < k
    · rw [insert, if_neg same, if_pos before, lookup?]
    · rw [insert, if_neg same, if_neg before, lookup?, lookup?, ih]
      by_cases asked : key = name
      · have other : k ≠ name := asked ▸ same
        rw [if_neg other, if_pos asked, if_pos asked]
      · rw [if_neg asked, if_neg asked]

theorem lookup?_erase (name key : Text) (map : List (Text × α)) :
    lookup? name (erase key map) = if key = name then none else lookup? name map := by
  induction map with
  | nil => simp [erase, lookup?]
  | cons m rest ih =>
    obtain ⟨k, v⟩ := m
    rw [erase] at ih ⊢
    by_cases same : k = key
    · rw [List.filter_cons_of_neg (by simpa using same), ih, lookup?, same]
      by_cases asked : key = name
      · rw [if_pos asked, if_pos asked]
      · rw [if_neg asked, if_neg asked, if_neg asked]
    · rw [List.filter_cons_of_pos (by simpa using same), lookup?, lookup?, ih]
      by_cases asked : key = name
      · have other : k ≠ name := asked ▸ same
        rw [if_neg other, if_pos asked, if_pos asked]
      · rw [if_neg asked, if_neg asked]

theorem mem_insert {p : Text × α} (member : p ∈ insert key value map) : p = (key, value) ∨ p ∈ map := by
  induction map with
  | nil => exact .inl (List.mem_singleton.mp member)
  | cons m rest ih =>
    obtain ⟨k, v⟩ := m
    rw [insert] at member
    split at member
    · rcases List.mem_cons.mp member with head | tail
      · exact .inl head
      · exact .inr (List.mem_cons_of_mem _ tail)
    · split at member
      · exact List.mem_cons.mp member
      · rcases List.mem_cons.mp member with head | tail
        · exact .inr (head ▸ List.mem_cons_self)
        · rcases ih tail with new | old
          · exact .inl new
          · exact .inr (List.mem_cons_of_mem _ old)

namespace Increasing

theorem nodup (increasing : Increasing map) : (map.map Prod.fst).Nodup :=
  List.pairwise_map.mpr (increasing.imp fun less => ne_of_lt less)

theorem insert (increasing : Increasing map) : Increasing (insert key value map) := by
  induction map with
  | nil => exact List.pairwise_singleton _ _
  | cons m rest ih =>
    obtain ⟨k, v⟩ := m
    obtain ⟨above, tail⟩ := List.pairwise_cons.mp increasing
    rw [Sorted.insert]
    by_cases same : k = key
    · rw [if_pos same]
      exact List.pairwise_cons.mpr ⟨fun p member => same ▸ above p member, tail⟩
    by_cases before : key < k
    · rw [if_neg same, if_pos before]
      refine List.pairwise_cons.mpr ⟨?_, increasing⟩
      intro p member
      rcases List.mem_cons.mp member with rfl | later
      · exact before
      · exact lt_trans before (above p later)
    · rw [if_neg same, if_neg before]
      refine List.pairwise_cons.mpr ⟨?_, ih tail⟩
      intro p member
      rcases mem_insert member with rfl | old
      · exact lt_of_le_of_ne (not_lt.mp before) same
      · exact above p old

theorem erase (increasing : Increasing map) : Increasing (erase key map) := List.Pairwise.filter _ increasing

end Increasing

theorem ofList_increasing (pairs : List (Text × α)) : Increasing (ofList pairs) := by
  have onto (map : List (Text × α)) (increasing : Increasing map) :
      Increasing (pairs.foldl (fun map p => insert p.1 p.2 map) map) := by
    induction pairs generalizing map with
    | nil => exact increasing
    | cons p rest ih => exact ih _ increasing.insert
  exact onto [] List.Pairwise.nil

theorem mem_ofList {p : Text × α} {pairs : List (Text × α)} (member : p ∈ ofList pairs) : p ∈ pairs := by
  have onto (map : List (Text × α)) (inside : p ∈ pairs.foldl (fun map p => insert p.1 p.2 map) map) :
      p ∈ map ∨ p ∈ pairs := by
    clear member
    induction pairs generalizing map with
    | nil => exact .inl inside
    | cons q rest ih =>
      rcases ih _ inside with before | later
      · rcases mem_insert before with rfl | old
        · exact .inr List.mem_cons_self
        · exact .inl old
      · exact .inr (List.mem_cons_of_mem q later)
  rcases onto [] member with none | pair
  · cases none
  · exact pair

theorem insert_above (above : ∀ p ∈ map, p.1 < key) : insert key value map = map ++ [(key, value)] := by
  induction map with
  | nil => rfl
  | cons m rest ih =>
    have less := above m List.mem_cons_self
    rw [insert, if_neg (ne_of_lt less), if_neg (lt_asymm less),
      ih fun p member => above p (List.mem_cons_of_mem m member), List.cons_append]

/-- A map in order is the map of its own pairs. -/
theorem ofList_of_increasing (increasing : Increasing map) : ofList map = map := by
  -- generalised over the pairs already put in
  have onto (done : List (Text × α)) (all : Increasing (done ++ map)) :
      map.foldl (fun map p => insert p.1 p.2 map) done = done ++ map := by
    induction map generalizing done with
    | nil => rw [List.foldl_nil, List.append_nil]
    | cons p rest ih =>
      have split : done ++ p :: rest = done ++ [p] ++ rest := by rw [List.append_assoc, List.singleton_append]
      have above : ∀ q ∈ done, q.1 < p.1 := fun q member =>
        (List.pairwise_append.mp all).2.2 q member p List.mem_cons_self
      rw [List.foldl_cons, insert_above above, split]
      exact ih (List.pairwise_cons.mp increasing).2 _ (split ▸ all)
  exact onto [] increasing

end EndpointConsole.Sorted
