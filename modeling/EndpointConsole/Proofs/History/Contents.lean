import EndpointConsole.Proofs.History.Stored

/-!
What counts of a history is which items each of its buckets holds (`contents`).
Here is what writing, erasing and dropping old items make of the contents, and
that they leave buckets that can be stored.
-/
namespace EndpointConsole.History
open Sorted (Increasing)

/-- The items of each bucket. -/
abbrev Contents := Text → List Item

def Buckets.contents (buckets : Buckets) : Contents := fun bucket => itemsOf bucket buckets

/-- The contents with the items of one bucket replaced. -/
def Contents.set (contents : Contents) (bucket : Text) (items : List Item) : Contents :=
  fun name => if bucket = name then items else contents name

variable {buckets : Buckets} {bucket : Text} {items : List Item}

theorem contents_insert : Buckets.contents (Sorted.insert bucket items buckets) = buckets.contents.set bucket items := by
  funext name
  rw [Buckets.contents, itemsOf, Sorted.lookup?_insert, Contents.set]
  by_cases asked : bucket = name
  · rw [if_pos asked, if_pos asked, Option.getD_some]
  · rw [if_neg asked, if_neg asked]
    rfl

theorem contents_erase : Buckets.contents (Sorted.erase bucket buckets) = buckets.contents.set bucket [] := by
  funext name
  rw [Buckets.contents, itemsOf, Sorted.lookup?_erase, Contents.set]
  by_cases asked : bucket = name
  · rw [if_pos asked, if_pos asked, Option.getD_none]
  · rw [if_neg asked, if_neg asked]
    rfl

/-- An empty bucket is as good as none. -/
theorem contents_set_absent (absent : Json.lookup? bucket buckets = none) :
    buckets.contents.set bucket [] = buckets.contents := by
  funext name
  rw [Contents.set]
  by_cases asked : bucket = name
  · rw [if_pos asked, Buckets.contents, itemsOf, ← asked, absent, Option.getD_none]
  · rw [if_neg asked]

theorem since_cons (cutoff : Int) (p : Text × List Item) (rest : Buckets) :
    since cutoff (p :: rest) =
      if p.2.filter (fun i => cutoff ≤ i.time) = [] then since cutoff rest
      else (p.1, p.2.filter fun i => cutoff ≤ i.time) :: since cutoff rest := by
  rw [since, List.map_cons]
  by_cases empty : p.2.filter (fun i => cutoff ≤ i.time) = []
  · rw [if_pos empty, List.filter_cons_of_neg (by simp only [empty, List.isEmpty_nil]; decide)]
    rfl
  · rw [if_neg empty, List.filter_cons_of_pos (by simpa [List.isEmpty_iff] using empty)]
    rfl

theorem keys_since (cutoff : Int) (buckets : Buckets) :
    ((since cutoff buckets).map Prod.fst).Sublist (buckets.map Prod.fst) := by
  induction buckets with
  | nil => exact List.Sublist.slnil
  | cons p rest ih =>
    rw [since_cons]
    split
    · exact ih.cons p.1
    · exact ih.cons_cons p.1

theorem lookup?_since (increasing : Increasing buckets) (cutoff : Int) (bucket : Text) :
    (Json.lookup? bucket (since cutoff buckets)).getD [] =
      ((Json.lookup? bucket buckets).getD []).filter fun i => cutoff ≤ i.time := by
  induction buckets with
  | nil => rfl
  | cons p rest ih =>
    have tail := ih (List.pairwise_cons.mp increasing).2
    rw [since_cons, Json.lookup?]
    by_cases asked : p.1 = bucket
    · rw [if_pos asked, Option.getD_some]
      split
      · next empty =>
        -- no other pair has this key, so that nothing is found once the bucket has gone
        have distinct := Increasing.nodup increasing
        rw [List.map_cons, List.nodup_cons, asked] at distinct
        have absent : bucket ∉ (since cutoff rest).map Prod.fst := fun member =>
          distinct.1 ((keys_since cutoff rest).subset member)
        rw [Json.lookup?_of_not_mem absent, Option.getD_none, empty]
      · rw [Json.lookup?, if_pos asked, Option.getD_some]
    · rw [if_neg asked]
      split
      · exact tail
      · rw [Json.lookup?, if_neg asked]
        exact tail

theorem contents_since (increasing : Increasing buckets) (cutoff : Int) :
    Buckets.contents (since cutoff buckets) = fun bucket => (buckets.contents bucket).filter fun i => cutoff ≤ i.time :=
  funext (lookup?_since increasing cutoff)

theorem count_since_cons (cutoff : Int) (p : Text × List Item) (rest : Buckets) :
    count (since cutoff (p :: rest)) =
      (p.2.filter fun i => cutoff ≤ i.time).length + count (since cutoff rest) := by
  rw [since_cons]
  split
  · next empty => rw [empty, List.length_nil, Nat.zero_add]
  · rw [count]

theorem count_since_le (cutoff : Int) (buckets : Buckets) : count (since cutoff buckets) ≤ count buckets := by
  induction buckets with
  | nil => exact Nat.le_refl _
  | cons p rest ih =>
    have head := List.length_filter_le (fun i : Item => cutoff ≤ i.time) p.2
    rw [count_since_cons, count]
    omega

/-- Where the number of items stays the same, no item is dropped. -/
theorem filter_of_count {cutoff : Int} (same : count (since cutoff buckets) = count buckets) :
    ∀ p ∈ buckets, p.2.filter (fun i => cutoff ≤ i.time) = p.2 := by
  induction buckets with
  | nil =>
    intro p member
    cases member
  | cons q rest ih =>
    have head := List.length_filter_le (fun i : Item => cutoff ≤ i.time) q.2
    have tail := count_since_le cutoff rest
    rw [count_since_cons, count] at same
    intro p member
    rcases List.mem_cons.mp member with rfl | later
    · exact List.filter_sublist.eq_of_length (by omega)
    · exact ih (by omega) p later

theorem contents_since_of_count {cutoff : Int} (increasing : Increasing buckets)
    (same : count (since cutoff buckets) = count buckets) :
    Buckets.contents (since cutoff buckets) = buckets.contents := by
  rw [contents_since increasing]
  funext bucket
  rw [Buckets.contents, itemsOf]
  cases found : Json.lookup? bucket buckets with
  | none => rfl
  | some items => exact filter_of_count same _ (Json.lookup?_mem found)

theorem addItem_fits {item : Item} (fits : item.Fits) (each : ∀ i ∈ items, i.Fits) (limit : Nat) :
    ∀ i ∈ addItem item limit items, i.Fits := by
  intro i member
  rcases List.mem_cons.mp (List.mem_mergeSort.mp (List.mem_of_mem_take member)) with rfl | old
  · exact fits
  · exact each i (List.mem_of_mem_filter old)

theorem increasing_since (increasing : Increasing buckets) (cutoff : Int) : Increasing (since cutoff buckets) :=
  List.Pairwise.filter _ (List.pairwise_map.mpr increasing)

namespace Buckets.Storable

theorem itemsOf (storable : buckets.Storable) (bucket : Text) : ∀ i ∈ itemsOf bucket buckets, i.Fits := by
  rw [History.itemsOf]
  cases found : Json.lookup? bucket buckets with
  | none =>
    intro i member
    cases member
  | some items => exact storable.fits _ (Json.lookup?_mem found)

theorem insert (storable : buckets.Storable) (each : ∀ i ∈ items, i.Fits) :
    Buckets.Storable (Sorted.insert bucket items buckets) := by
  refine ⟨storable.increasing.insert, ?_⟩
  intro p member
  rcases Sorted.mem_insert member with rfl | old
  · exact each
  · exact storable.fits p old

theorem erase (storable : buckets.Storable) : Buckets.Storable (Sorted.erase bucket buckets) :=
  ⟨storable.increasing.erase, fun p member => storable.fits p (List.mem_of_mem_filter member)⟩

theorem since (storable : buckets.Storable) (cutoff : Int) : Buckets.Storable (since cutoff buckets) := by
  constructor
  · exact increasing_since storable.increasing cutoff
  · intro p member i inside
    obtain ⟨q, among, rfl⟩ := List.mem_map.mp (List.mem_of_mem_filter member)
    exact storable.fits q among i (List.mem_of_mem_filter inside)

end Buckets.Storable

end EndpointConsole.History
