import EndpointConsole.Proofs.Route.Remembered
import Mathlib.Data.Finset.Dedup
import Mathlib.Data.Finset.Insert
import Mathlib.Data.Finset.Card

/-!
A composer at work on one route after the other. It searches the lines once for each file
and controller that needs a version (`Counts.version`), whether or not a version is found.
So the number of its searches, like every route it gives, is a function of what it was asked
for so far (`composeAll_getElem?`).
-/
namespace EndpointConsole.Route

theorem lookups_append (parts more : List Parts) : lookups (parts ++ more) = lookups parts ++ lookups more :=
  List.filter_append ..

namespace Composer

/-- A composer that has made some lookups, and one search for each file and controller among them. -/
structure Counts (c : Composer) (defaultVersion : Text) (before : List Parts) : Prop
    extends c.Remembers defaultVersion before where
  searches : c.searches = (before.map Parts.key).toFinset.card

theorem counts_fresh (defaultVersion : Text) : (fresh defaultVersion).Counts defaultVersion [] :=
  ⟨remembers_fresh defaultVersion, rfl⟩

variable {c : Composer} {d : Text} {before : List Parts}

/-- What is remembered is what was looked up. -/
theorem Remembers.isSome_remembered? (remembers : c.Remembers d before) (key : Text × Text) :
    (remembered? key c.known).isSome = true ↔ key ∈ before.map Parts.key := by
  rw [remembers.known key, Option.isSome_map, List.find?_isSome, List.mem_map]
  simp

/-- The lines are searched for a file and controller unless that was done before. -/
theorem Counts.version (counts : c.Counts d before) (p : Parts) : (c.version p).2.Counts d (before ++ [p]) := by
  refine ⟨(counts.toRemembers.version p).2, ?_⟩
  have known := counts.isSome_remembered? p.key
  have keys : ((before ++ [p]).map Parts.key).toFinset = insert p.key (before.map Parts.key).toFinset := by
    rw [List.map_append, List.toFinset_append, Finset.union_comm]
    simp
  rw [keys, Composer.version]
  cases found : remembered? p.key c.known with
  | some version =>
    rw [found] at known
    have again : p.key ∈ (before.map Parts.key).toFinset := List.mem_toFinset.mpr (known.mp rfl)
    rw [Finset.insert_eq_of_mem again]
    exact counts.searches
  | none =>
    rw [found] at known
    have new : p.key ∉ (before.map Parts.key).toFinset := by
      intro member
      cases known.mpr (List.mem_toFinset.mp member)
    rw [Finset.card_insert_of_notMem new, ← counts.searches]

/-- A route without a place for a version leaves the number of searches alone. -/
theorem Counts.compose (counts : c.Counts d before) (p : Parts) : (c.compose p).2.Counts d (before ++ lookups [p]) := by
  refine ⟨(compose_route counts.toRemembers p).2, ?_⟩
  rw [Composer.compose]
  by_cases place : p.hasPlace = true
  · have looked : lookups [p] = [p] := by simp [lookups, place]
    have placed : hasVersionPlaceholder (substituted p) = true := place
    rw [if_pos placed, looked]
    exact (counts.version p).searches
  · have none_looked : lookups [p] = [] := by simp [lookups, place]
    have bare : ¬hasVersionPlaceholder (substituted p) = true := place
    rw [if_neg bare, none_looked, List.append_nil]
    exact counts.searches

/-- The composer after some routes. -/
def after (c : Composer) (parts : List Parts) : Composer := parts.foldl (fun c p => (c.compose p).2) c

theorem Counts.after (counts : c.Counts d before) (parts : List Parts) :
    (c.after parts).Counts d (before ++ lookups parts) := by
  induction parts generalizing c before with
  | nil =>
    have none_looked : lookups [] = [] := rfl
    rw [none_looked, List.append_nil]
    exact counts
  | cons p rest ih =>
    rw [← List.singleton_append, lookups_append, ← List.append_assoc]
    exact ih (counts.compose p)

end Composer

end EndpointConsole.Route
