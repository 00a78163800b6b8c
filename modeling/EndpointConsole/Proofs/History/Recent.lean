import EndpointConsole.Proofs.History.Lists
import Mathlib.Data.List.Induction

/-!
A bucket keeps the most recent requests. Items that come in the order of time leave a
bucket with the last addition of each identity, latest first, cut to the limit
(`latest_kept`). Each addition cuts the list anew, so an identity may have gone from it
and come back; nothing is lost by this because an addition drops at most one item
besides the last one (`take_others_take`).
-/
namespace EndpointConsole.History

/-- The last addition of each identity, latest first: an item counts if none with its identity came later. -/
def lastAdditions : List Item → List Item
  | [] => []
  | item :: later => lastAdditions later ++ if ∃ i ∈ later, i.id = item.id then [] else [item]

theorem lastAdditions_sublist (added : List Item) : (lastAdditions added).Sublist added.reverse := by
  induction added with
  | nil => exact .slnil
  | cons item later ih =>
    rw [lastAdditions, List.reverse_cons]
    refine ih.append ?_
    split
    · exact List.nil_sublist _
    · exact .refl _

theorem mem_of_mem_lastAdditions {added : List Item} {i : Item} (among : i ∈ lastAdditions added) : i ∈ added :=
  List.mem_reverse.mp ((lastAdditions_sublist added).subset among)

theorem nodup_lastAdditions (added : List Item) : ((lastAdditions added).map Item.id).Nodup := by
  induction added with
  | nil => exact List.nodup_nil
  | cons item later ih =>
    rw [lastAdditions]
    split
    · rwa [List.append_nil]
    · next last =>
      rw [List.map_append, List.nodup_append]
      refine ⟨ih, List.nodup_singleton _, ?_⟩
      intro id among other here same
      obtain ⟨i, kept, rfl⟩ := List.mem_map.mp among
      rw [List.map_singleton, List.mem_singleton] at here
      exact last ⟨i, mem_of_mem_lastAdditions kept, same.trans here⟩

/-- One more addition goes to the front, and the earlier one with its identity goes. -/
theorem lastAdditions_concat (added : List Item) (item : Item) :
    lastAdditions (added ++ [item]) = item :: (lastAdditions added).filter fun i => i.id ≠ item.id := by
  induction added with
  | nil => rfl
  | cons first later ih =>
    rw [List.cons_append, lastAdditions, ih, lastAdditions, List.filter_append, List.cons_append]
    by_cases same : first.id = item.id
    · simp [same]
    · have other : ¬item.id = first.id := Ne.symm same
      by_cases again : ∃ i ∈ later, i.id = first.id <;> simp [same, other, again]

/-- In the order of time, the last additions stand newest first. -/
theorem lastAdditions_ordered {added : List Item} (rising : added.Pairwise fun a b => a.time ≤ b.time) :
    (lastAdditions added).Pairwise fun a b => b.time ≤ a.time :=
  (List.pairwise_reverse.mpr rising).sublist (lastAdditions_sublist added)

/-- Where an identity stands once, its item may be dropped before or after the list is cut, with room
    for one less. -/
theorem take_others_take (id : Text) {items : List Item} (distinct : (items.map Item.id).Nodup) (n : Nat) :
    (((items.take (n + 1)).filter fun i => i.id ≠ id).take n) = (items.filter fun i => i.id ≠ id).take n := by
  induction items generalizing n with
  | nil => rfl
  | cons i rest ih =>
    obtain ⟨once, others⟩ := List.nodup_cons.mp distinct
    rw [List.take_succ_cons]
    by_cases same : i.id = id
    · have left (some : List Item) (part : some ⊆ rest) : (some.filter fun i => i.id ≠ id) = some := by
        rw [List.filter_eq_self]
        intro j among
        simpa using fun equal : j.id = id => once (List.mem_map.mpr ⟨j, part among, equal.trans same.symm⟩)
      rw [List.filter_cons_of_neg (by simpa using same), List.filter_cons_of_neg (by simpa using same),
        left _ (List.take_subset n rest), left _ (List.Subset.refl rest), List.take_take, Nat.min_self]
    · rw [List.filter_cons_of_pos (by simpa using same), List.filter_cons_of_pos (by simpa using same)]
      cases n with
      | zero => rfl
      | succ n => rw [List.take_succ_cons, List.take_succ_cons, ih others]

/-- An item that is not older than those before it, put into a list of the last additions. -/
theorem addItem_lastAdditions {added : List Item} {item : Item} {limit : Nat} (room : 1 ≤ limit)
    (rising : (added ++ [item]).Pairwise fun a b => a.time ≤ b.time) :
    addItem item limit ((lastAdditions added).take limit) = (lastAdditions (added ++ [item])).take limit := by
  obtain ⟨n, rfl⟩ := Nat.exists_eq_add_of_le' room
  have order := lastAdditions_ordered rising
  have fewer : (item :: ((lastAdditions added).take (n + 1)).filter fun i => i.id ≠ item.id).Sublist
      (lastAdditions (added ++ [item])) := by
    rw [lastAdditions_concat]
    exact (List.Sublist.filter _ (List.take_sublist _ _)).cons_cons item
  rw [addItem, newestFirst_of_ordered (order.sublist fewer), max_eq_left room, lastAdditions_concat,
    List.take_succ_cons, List.take_succ_cons, take_others_take item.id (nodup_lastAdditions added) n]

/-- An item that is put into a bucket, with a limit. -/
structure Addition where
  bucket : Text
  item : Item
  limit : Nat
  deriving Repr

/-- The history after some additions. -/
def addAll (h : History) (adds : List Addition) : History :=
  adds.foldl (fun h a => (h.add a.bucket a.item a.limit).2) h

/-- The items that were put into a bucket, in order. -/
def addedTo (bucket : Text) (adds : List Addition) : List Item :=
  (adds.filter fun a => a.bucket = bucket).map Addition.item

theorem addAll_concat (h : History) (adds : List Addition) (a : Addition) :
    h.addAll (adds ++ [a]) = ((h.addAll adds).add a.bucket a.item a.limit).2 := List.foldl_append

theorem addedTo_concat (bucket : Text) (adds : List Addition) (a : Addition) :
    addedTo bucket (adds ++ [a]) = addedTo bucket adds ++ if a.bucket = bucket then [a.item] else [] := by
  rw [addedTo, List.filter_append, List.map_append, ← addedTo]
  by_cases here : a.bucket = bucket <;> simp [here]

theorem kept_addAll (h : History) (adds : List Addition) : (h.addAll adds).kept = h.kept := by
  induction adds generalizing h with
  | nil => rfl
  | cons a rest ih => exact ih (h.add a.bucket a.item a.limit).2

theorem contents_addAll {h : History} {bucket : Text} {limit : Nat} (room : 1 ≤ limit)
    (empty : h.contents bucket = []) {adds : List Addition}
    (limits : ∀ a ∈ adds, a.bucket = bucket → a.limit = limit)
    (rising : (addedTo bucket adds).Pairwise fun a b => a.time ≤ b.time) :
    (h.addAll adds).contents bucket = (lastAdditions (addedTo bucket adds)).take limit := by
  induction adds using List.reverseRecOn with
  | nil => exact empty.trans List.take_nil.symm
  | append_singleton adds a ih =>
    rw [addedTo_concat] at rising ⊢
    have before := ih (fun b among => limits b (List.mem_append_left _ among))
      (rising.sublist (List.sublist_append_left _ _))
    rw [addAll_concat, contents_add, Contents.set]
    by_cases here : a.bucket = bucket
    · rw [if_pos here] at rising ⊢
      rw [if_pos here, limits a (List.mem_append_right _ List.mem_cons_self) here, here, before,
        addItem_lastAdditions room rising]
    · rw [if_neg here, if_neg here, List.append_nil, before]

/-- Whatever else is put into other buckets, a bucket that was empty and takes its items in the order of
    time, all with one limit, holds the last addition of each identity, latest first, up to the limit.
    The same is answered to the next addition, and to a lookup where items are kept for good. -/
theorem latest_kept {h : History} {bucket : Text} {limit : Nat} (room : 1 ≤ limit) (empty : h.contents bucket = [])
    {adds : List Addition} (limits : ∀ a ∈ adds, a.bucket = bucket → a.limit = limit)
    (rising : (addedTo bucket adds).Pairwise fun a b => a.time ≤ b.time) :
    (h.addAll adds).contents bucket = (lastAdditions (addedTo bucket adds)).take limit ∧
      (∀ item, (∀ i ∈ addedTo bucket adds, i.time ≤ item.time) →
        ((h.addAll adds).add bucket item limit).1 = (lastAdditions (addedTo bucket adds ++ [item])).take limit) ∧
      (h.kept = none → ∀ now, (h.addAll adds).get bucket now =
        .ok ((lastAdditions (addedTo bucket adds)).take limit, h.addAll adds)) := by
  have held := contents_addAll room empty limits rising
  refine ⟨held, ?_, ?_⟩
  · intro item newest
    have later : (addedTo bucket adds ++ [item]).Pairwise fun a b => a.time ≤ b.time :=
      List.pairwise_append.mpr ⟨rising, List.pairwise_singleton _ _, by simpa using newest⟩
    have put : ((h.addAll adds).add bucket item limit).1 = addItem item limit ((h.addAll adds).contents bucket) := rfl
    rw [put, held, addItem_lastAdditions room later]
  · intro forever now
    have order := (lastAdditions_ordered rising).sublist (List.take_sublist limit _)
    have kept : (h.addAll adds).kept = none := (kept_addAll h adds).trans forever
    have sorted : newestFirst ((h.addAll adds).contents bucket) = (h.addAll adds).contents bucket := by
      rw [held, newestFirst_of_ordered order]
    rw [← held, ← sorted, History.get, pruned, kept]
    rfl

/-- With room for two, an identity that was cut off comes back to the front, with what it was last given. -/
theorem latest_kept_returning :
    let item (id : Char) (time : Int) (status : Nat) : Item := { id := [id], query := [], body := [], time, status }
    let h : History := { storage := .broken, buckets := [(['o'], [item 'z' 9 200])], kept := none }
    let adds : List Addition := [⟨['k'], item 'a' 1 200, 2⟩, ⟨['k'], item 'b' 2 200, 2⟩,
      ⟨['o'], item 'y' 0 200, 0⟩, ⟨['k'], item 'c' 2 200, 2⟩, ⟨['k'], item 'a' 2 409, 2⟩]
    (1 ≤ 2 ∧ h.contents ['k'] = [] ∧ (∀ a ∈ adds, a.bucket = ['k'] → a.limit = 2) ∧
        (addedTo ['k'] adds).Pairwise fun a b => a.time ≤ b.time) ∧
      (h.addAll adds).contents ['k'] = [item 'a' 2 409, item 'c' 2 200] ∧
      ((h.addAll adds).add ['k'] (item 'c' 3 500) 2).1 = [item 'c' 3 500, item 'a' 2 409] := by
  intro item h adds
  have limits : ∀ a ∈ adds, a.bucket = ['k'] → a.limit = 2 := by decide
  have rising : (addedTo ['k'] adds).Pairwise fun a b => a.time ≤ b.time := by decide
  have newest : ∀ i ∈ addedTo ['k'] adds, i.time ≤ (item 'c' 3 500).time := by decide
  obtain ⟨held, next, _⟩ := latest_kept (h := h) (by decide : 1 ≤ 2) rfl limits rising
  exact ⟨⟨by decide, rfl, limits, rising⟩, held.trans (by decide), (next _ newest).trans (by decide)⟩

end EndpointConsole.History
