import EndpointConsole.Proofs.History.Pruning

/-!
The lists of a history that began with nothing. Whatever is called, and whenever the
history is built anew over its storage, no bucket is empty, and every list is in
order, holds no identity twice and is within the limit of the last item put in
(`Tidy`); a call changes the list of its own bucket only, apart from items that are
too old (`Run.orderly`). A new history begins where the old one stopped because the
storage holds the buckets in memory after each step, which is part of the invariant
(`Run.invariant`).
-/
namespace EndpointConsole.History
open Sorted (Increasing)

/-- Items sorted newest first, where those of one time stand as they stood before. -/
structure IsNewestFirst (items sorted : List Item) : Prop where
  order : sorted.Pairwise fun a b => b.time ≤ a.time
  stable : ∀ time, sorted.filter (·.time = time) = items.filter (·.time = time)

theorem isNewestFirst_newestFirst (items : List Item) : IsNewestFirst items (newestFirst items) := by
  refine ⟨newestFirst_sorted items, ?_⟩
  intro time
  have level : (items.filter (·.time = time)).Pairwise fun a b => isNewer a b = true := by
    rw [List.pairwise_iff_forall_sublist]
    intro a b both
    have first : a.time = time := by simpa using (List.mem_filter.mp (both.subset (by simp : a ∈ [a, b]))).2
    have second : b.time = time := by simpa using (List.mem_filter.mp (both.subset (by simp : b ∈ [a, b]))).2
    simp [isNewer, first, second]
  rw [filter_newestFirst, newestFirst, List.mergeSort_of_pairwise level]

theorem mem_iff_of_stable {first second : List Item}
    (same : ∀ time, first.filter (·.time = time) = second.filter (·.time = time)) (i : Item) :
    i ∈ first ↔ i ∈ second := by
  have here := congrArg (i ∈ ·) (same i.time)
  simpa using here

theorem time_le_head {a i : Item} {rest : List Item} (order : (a :: rest).Pairwise fun a b => b.time ≤ a.time)
    (among : i ∈ a :: rest) : i.time ≤ a.time := by
  rcases List.mem_cons.mp among with rfl | behind
  · exact Int.le_refl _
  · exact (List.pairwise_cons.mp order).1 i behind

/-- Lists in order that hold the same items of each time are the same. -/
theorem eq_of_stable {first second : List Item} (order : first.Pairwise fun a b => b.time ≤ a.time)
    (order' : second.Pairwise fun a b => b.time ≤ a.time)
    (same : ∀ time, first.filter (·.time = time) = second.filter (·.time = time)) : first = second := by
  induction first generalizing second with
  | nil =>
    rw [eq_comm, List.eq_nil_iff_forall_not_mem]
    exact fun i among => List.not_mem_nil ((mem_iff_of_stable same i).mpr among)
  | cons a rest ih =>
    have mine := (mem_iff_of_stable same a).mp List.mem_cons_self
    obtain ⟨b, rest', rfl⟩ := List.exists_cons_of_ne_nil (List.ne_nil_of_mem mine)
    have others := (mem_iff_of_stable same b).mpr List.mem_cons_self
    -- each of the first items stands somewhere in the other list, so neither is newer
    have level : a.time = b.time := Int.le_antisymm (time_le_head order' mine) (time_le_head order others)
    have heads := same a.time
    rw [List.filter_cons_of_pos (by simp), List.filter_cons_of_pos (by simp [level]), List.cons.injEq] at heads
    obtain ⟨rfl, _⟩ := heads
    have tails (time : Int) : rest.filter (·.time = time) = rest'.filter (·.time = time) := by
      have both := same time
      by_cases now : a.time = time
      · rw [List.filter_cons_of_pos (by simpa using now), List.filter_cons_of_pos (by simpa using now)] at both
        exact (List.cons.inj both).2
      · rwa [List.filter_cons_of_neg (by simpa using now), List.filter_cons_of_neg (by simpa using now)] at both
    rw [ih (List.pairwise_cons.mp order).2 (List.pairwise_cons.mp order').2 tails]

/-- There is one such order. -/
theorem isNewestFirst_iff {items sorted : List Item} : IsNewestFirst items sorted ↔ sorted = newestFirst items := by
  constructor
  · intro order
    have known := isNewestFirst_newestFirst items
    exact eq_of_stable order.order known.order fun time => (order.stable time).trans (known.stable time).symm
  · rintro rfl
    exact isNewestFirst_newestFirst items

/-- What happens to a history: it is called, or built anew over its storage, to keep items for some time. -/
inductive Event where
  | call (c : Call)
  | rebuilt (kept : Option Nat)
  deriving Repr

/-- The numbers of an item that is put in fit the words they are kept in. -/
def Event.Fits : Event → Prop
  | .call (.add _ item _) => item.Fits
  | _ => True

/-- What happened since a history was first built, and the history after it. -/
inductive Run (first : History) : List Event → History → Prop where
  | start : Run first [] first
  | call {es : List Event} {h next : History} {c : Call} {answer : List Item} (run : Run first es h)
      (performed : h.perform c = .ok (answer, next)) : Run first (es ++ [.call c]) next
  | rebuilt {es : List Event} {h : History} (run : Run first es h) (kept : Option Nat) :
      Run first (es ++ [.rebuilt kept]) (restored h.storage kept)

/-- The limit with which an item is put into a bucket. -/
def Event.limit? (bucket : Text) : Event → Option Nat
  | .call (.add name _ limit) => if name = bucket then some limit else none
  | _ => none

/-- The limit with which an item was last put into a bucket. -/
def lastLimit? (bucket : Text) (es : List Event) : Option Nat := es.reverse.findSome? (Event.limit? bucket)

theorem lastLimit?_concat (bucket : Text) (es : List Event) (e : Event) :
    lastLimit? bucket (es ++ [e]) = (e.limit? bucket).or (lastLimit? bucket es) := by
  rw [lastLimit?, List.reverse_append, List.reverse_singleton, List.singleton_append, List.findSome?_cons]
  cases e.limit? bucket <;> rfl

theorem lastLimit?_of_silent {bucket : Text} {e : Event} (silent : e.limit? bucket = none) (es : List Event) :
    lastLimit? bucket (es ++ [e]) = lastLimit? bucket es := by
  rw [lastLimit?_concat, silent, Option.none_or]

/-- A list as it is kept in a bucket into which an item was last put with a limit. -/
structure Tidy (limit : Option Nat) (items : List Item) : Prop where
  nonempty : items ≠ []
  order : items.Pairwise fun a b => b.time ≤ a.time
  distinct : (items.map Item.id).Nodup
  short : ∃ n ∈ limit, items.length ≤ max 1 n

theorem Tidy.of_sublist {limit : Option Nat} {items left : List Item} (tidy : Tidy limit items)
    (sub : left.Sublist items) (nonempty : left ≠ []) : Tidy limit left := by
  obtain ⟨n, last, short⟩ := tidy.short
  exact ⟨nonempty, tidy.order.sublist sub, tidy.distinct.sublist (sub.map _), n, last, sub.length_le.trans short⟩

/-- An item in front of a list from which those with its identity are gone. -/
theorem nodup_cons_others (item : Item) {items : List Item} (distinct : (items.map Item.id).Nodup) :
    ((item :: items.filter fun i => i.id ≠ item.id).map Item.id).Nodup := by
  have others : item.id ∉ (items.filter fun i => i.id ≠ item.id).map Item.id := by
    intro member
    obtain ⟨i, among, same⟩ := List.mem_map.mp member
    simpa [same] using (List.mem_filter.mp among).2
  exact List.nodup_cons.mpr ⟨others, distinct.sublist (List.filter_sublist.map _)⟩

/-- Whatever a list without repeated identities was before, it is kept once an item was put in. -/
theorem tidy_addItem (item : Item) (limit : Nat) {items : List Item} (distinct : (items.map Item.id).Nodup) :
    Tidy (some limit) (addItem item limit items) := by
  have all (items : List Item) : (newestFirst items).Perm items := List.mergeSort_perm _ _
  refine ⟨?_, ?_, ?_, limit, rfl, ?_⟩
  · rw [addItem, ← List.length_pos_iff, List.length_take, (all _).length_eq, List.length_cons]
    omega
  · exact (newestFirst_sorted _).sublist (List.take_sublist _ _)
  · have distinctAll := ((all _).map Item.id).nodup_iff.mpr (nodup_cons_others item distinct)
    exact distinctAll.sublist ((List.take_sublist _ _).map _)
  · rw [addItem, List.length_take]
    omega

theorem mem_since {cutoff : Int} {buckets : Buckets} {p : Text × List Item} (member : p ∈ since cutoff buckets) :
    p.2 ≠ [] ∧ ∃ q ∈ buckets, p.1 = q.1 ∧ p.2.Sublist q.2 := by
  obtain ⟨among, nonempty⟩ := List.mem_filter.mp member
  obtain ⟨q, inside, rfl⟩ := List.mem_map.mp among
  exact ⟨by simpa using nonempty, q, inside, rfl, List.filter_sublist⟩

/-- Where no bucket is empty, dropping no item changes nothing. -/
theorem since_of_count {cutoff : Int} {buckets : Buckets} (nonempty : ∀ p ∈ buckets, p.2 ≠ [])
    (same : count (since cutoff buckets) = count buckets) : since cutoff buckets = buckets := by
  have each := filter_of_count same
  clear same
  induction buckets with
  | nil => rfl
  | cons p rest ih =>
    have whole := each p List.mem_cons_self
    have tail := ih (fun q member => nonempty q (List.mem_cons_of_mem p member)) fun q member =>
      each q (List.mem_cons_of_mem p member)
    rw [since_cons, whole, if_neg (nonempty p List.mem_cons_self), tail]

/-- What holds of a history after what happened. -/
structure Invariant (es : List Event) (h : History) : Prop where
  storable : h.buckets.Storable
  lists : ∀ p ∈ h.buckets, Tidy (lastLimit? p.1 es) p.2
  /-- The storage can be written and holds what the history holds, or else it is out of service. -/
  stored : h.storage.Available ∧ load h.storage = h.buckets ∨ h.storage = .broken

namespace Invariant
variable {es : List Event} {h : History}

theorem start {storage : Storage} (none : load storage = []) (kept : Option Nat) :
    Invariant [] (restored storage kept) := by
  refine ⟨load_storable storage, ?_, ?_⟩
  · intro p member
    rw [restored, none] at member
    cases member
  · cases storage with
    | memory values => exact .inl ⟨trivial, rfl⟩
    | database rows => exact .inl ⟨trivial, rfl⟩
    | broken => exact .inr rfl

/-- Nothing is put in. -/
theorem silent (inv : Invariant es h) {e : Event} (silent : ∀ bucket, e.limit? bucket = none) :
    Invariant (es ++ [e]) h := by
  refine ⟨inv.storable, ?_, inv.stored⟩
  intro p member
  rw [lastLimit?_of_silent (silent p.1)]
  exact inv.lists p member

/-- The buckets change, and are written. -/
theorem written {before : History} (inv : Invariant es before) {later : List Event}
    (storage : h.storage = before.storage) (storable : h.buckets.Storable)
    (lists : ∀ p ∈ h.buckets, Tidy (lastLimit? p.1 later) p.2) : Invariant later h.persisted := by
  refine ⟨storable, lists, ?_⟩
  rcases inv.stored with ⟨available, _⟩ | broken
  · rw [← storage] at available
    exact .inl ⟨available.trySet _ _, load_trySet available storable⟩
  · rw [persisted, storage, broken]
    exact .inr rfl

theorem nodup_itemsOf (inv : Invariant es h) (bucket : Text) : ((itemsOf bucket h.buckets).map Item.id).Nodup := by
  rw [itemsOf]
  cases found : Json.lookup? bucket h.buckets with
  | none => exact List.nodup_nil
  | some items => exact (inv.lists _ (Json.lookup?_mem found)).distinct

theorem add (inv : Invariant es h) (bucket : Text) {item : Item} (fits : item.Fits) (limit : Nat) :
    Invariant (es ++ [.call (.add bucket item limit)]) (h.add bucket item limit).2 := by
  have each := addItem_fits fits (inv.storable.itemsOf bucket) limit
  have increasing : Increasing (Sorted.insert bucket (addItem item limit (itemsOf bucket h.buckets)) h.buckets) :=
    inv.storable.increasing.insert
  refine inv.written rfl (inv.storable.insert each) ?_
  rintro ⟨name, items⟩ member
  by_cases same : name = bucket
  · subst same
    have found := Json.lookup?_of_mem increasing.nodup member
    rw [Sorted.lookup?_insert, if_pos rfl, Option.some.injEq] at found
    rw [lastLimit?_concat, Event.limit?, if_pos rfl, ← found]
    exact tidy_addItem item limit (inv.nodup_itemsOf name)
  · have silent : Event.limit? name (.call (.add bucket item limit)) = none := if_neg (Ne.symm same)
    rw [lastLimit?_of_silent silent]
    rcases Sorted.mem_insert member with new | old
    · exact absurd (congrArg Prod.fst new) same
    · exact inv.lists _ old

theorem clear (inv : Invariant es h) (bucket : Text) : Invariant es (h.clear bucket) := by
  rw [History.clear]
  cases Json.lookup? bucket h.buckets with
  | none => exact inv
  | some items =>
    exact inv.written rfl inv.storable.erase fun p member => inv.lists p (List.mem_of_mem_filter member)

theorem keptSince (inv : Invariant es h) (cutoff : Int) : Invariant es (h.keptSince cutoff) := by
  have lists : ∀ p ∈ since cutoff h.buckets, Tidy (lastLimit? p.1 es) p.2 := by
    intro p member
    obtain ⟨nonempty, q, inside, name, sub⟩ := mem_since member
    rw [name]
    exact (inv.lists q inside).of_sublist sub nonempty
  rw [History.keptSince]
  by_cases same : count (since cutoff h.buckets) = count h.buckets
  · -- nothing is written, and nothing needs to be
    have unchanged := since_of_count (fun p member => (inv.lists p member).nonempty) same
    rw [if_neg (not_not.mpr same), unchanged]
    exact inv
  · rw [if_pos same]
    exact inv.written rfl (inv.storable.since cutoff) lists

theorem get {next : History} {answer : List Item} {bucket : Text} {now : Int} (inv : Invariant es h)
    (found : h.get bucket now = .ok (answer, next)) : Invariant es next := by
  rw [History.get, pruned] at found
  cases time : h.kept with
  | none =>
    simp only [time, Except.map, Except.ok.injEq, Prod.mk.injEq] at found
    exact found.2 ▸ inv
  | some ms =>
    simp only [time] at found
    cases cut : checkedSigned (now - wrappedSigned ms) with
    | error _ =>
      rw [cut] at found
      cases found
    | ok cutoff =>
      simp only [cut, Except.map, Except.ok.injEq, Prod.mk.injEq] at found
      exact found.2 ▸ inv.keptSince cutoff

theorem rebuilt (inv : Invariant es h) (kept : Option Nat) : Invariant es (restored h.storage kept) := by
  rcases inv.stored with ⟨available, same⟩ | broken
  · exact ⟨load_storable h.storage, fun p member => inv.lists p (same ▸ member), .inl ⟨available, rfl⟩⟩
  · rw [broken]
    exact ⟨load_storable .broken, nofun, .inr rfl⟩

end Invariant

theorem Run.invariant {first h : History} {es : List Event} (run : Run first es h) (start : Invariant [] first)
    (fits : ∀ e ∈ es, e.Fits) : Invariant es h := by
  induction run with
  | start => exact start
  | @call es h next c answer _ performed ih =>
    have before := ih fun e member => fits e (List.mem_append_left _ member)
    have this : Event.Fits (.call c) := fits _ (List.mem_append_right _ List.mem_cons_self)
    cases c with
    | add bucket item limit =>
      cases performed
      exact before.add bucket this limit
    | get bucket now => exact (before.get performed).silent fun _ => rfl
    | clear bucket =>
      cases performed
      exact (before.clear bucket).silent fun _ => rfl
  | rebuilt _ kept ih =>
    have before := ih fun e member => fits e (List.mem_append_left _ member)
    exact (before.rebuilt kept).silent fun _ => rfl

theorem newestFirst_of_ordered {items : List Item} (order : items.Pairwise fun a b => b.time ≤ a.time) :
    newestFirst items = items :=
  (isNewestFirst_iff.mp ⟨order, fun _ => rfl⟩).symm

theorem unexpired_sublist (kept : Option Nat) (now : Int) (items : List Item) :
    (unexpired kept now items).Sublist items := by
  cases kept with
  | none => exact List.Sublist.refl _
  | some time => exact List.filter_sublist

theorem Invariant.contents_ordered {es : List Event} {h : History} (inv : Invariant es h) (bucket : Text) :
    (h.contents bucket).Pairwise fun a b => b.time ≤ a.time := by
  rw [contents, Buckets.contents, itemsOf]
  cases found : Json.lookup? bucket h.buckets with
  | none => exact List.Pairwise.nil
  | some items => exact (inv.lists _ (Json.lookup?_mem found)).order

/-- The lists of a history after what happened, and what each call will make of them. -/
structure Orderly (es : List Event) (h : History) : Prop where
  /-- A bucket holds items, in order and none twice, and no more than the last limit for it allows. -/
  lists : ∀ p ∈ h.buckets, Tidy (lastLimit? p.1 es) p.2
  /-- No bucket stands twice. -/
  buckets : (h.buckets.map Prod.fst).Nodup
  /-- An item that is put in goes before all others to be sorted, takes the place of those with its
      identity, and leaves room for the limit, but one at least. Nothing else changes. -/
  add : ∀ bucket item limit, ∃ sorted,
    (∀ other, IsNewestFirst (item :: (h.contents bucket).filter fun i => i.id ≠ item.id) other ↔ other = sorted) ∧
      (h.add bucket item limit).1 = sorted.take (max 1 limit) ∧
      (h.add bucket item limit).2.contents = h.contents.set bucket (sorted.take (max 1 limit))
  /-- Nothing but the bucket itself is cleared. -/
  clear : ∀ bucket, (h.clear bucket).contents = h.contents.set bucket []
  /-- A lookup drops what is too old, and gives what is left in the bucket. -/
  get : ∀ bucket now, (Call.get bucket now).CutoffFits h.kept →
    ∃ next, h.get bucket now = .ok (next.contents bucket, next) ∧ next.contents = h.contents.unexpired h.kept now
  /-- A new history over a storage in service holds what the old one held. -/
  rebuilt : h.storage.Available → ∀ kept, (restored h.storage kept).contents = h.contents

/-- Beginning with a storage that holds no history, every run of calls among which the history may be
    built anew leaves it orderly. -/
theorem Run.orderly {storage : Storage} (none : load storage = []) {kept : Option Nat} {es : List Event} {h : History}
    (run : Run (restored storage kept) es h) (fits : ∀ e ∈ es, e.Fits) : Orderly es h := by
  have now := run.invariant (Invariant.start none kept) fits
  refine ⟨now.lists, now.storable.increasing.nodup, ?_, contents_clear h, ?_, ?_⟩
  · intro bucket item limit
    have added : (h.add bucket item limit).2.contents =
        h.contents.set bucket (addItem item limit (h.contents bucket)) := contents_insert
    refine ⟨newestFirst (item :: (h.contents bucket).filter fun i => i.id ≠ item.id), ?_, ?_, ?_⟩
    · exact fun _ => isNewestFirst_iff
    · rw [max_comm]
      rfl
    · rw [added, addItem, max_comm]
  · intro bucket time cutoff
    obtain ⟨next, found, _, _, left⟩ := get_unexpired now.storable.increasing cutoff
    refine ⟨next, ?_, left⟩
    have order := (now.contents_ordered bucket).sublist (unexpired_sublist h.kept time (h.contents bucket))
    rw [found, left, Contents.unexpired, newestFirst_of_ordered order]
  · intro available time
    rcases now.stored with ⟨_, same⟩ | broken
    · exact congrArg Buckets.contents same
    · rw [broken] at available
      exact available.elim

/-- An item older than the one in its bucket, put in where there is room for one, is cut off itself; of
    two items of one time the one put in later comes first, also after the history was built anew. -/
theorem Run.orderly_equal_times :
    let item (id : Char) (time : Int) : Item := { id := [id], query := [], body := [], time, status := none }
    let first := restored (.memory []) (some 1000)
    let second := ((first.add ['k'] (item 'a' 9) 2).2.add ['k'] (item 'b' 5) 0).2
    let last := ((restored second.storage none).add ['k'] (item 'c' 9) 2).2
    let es : List Event :=
      [.call (.add ['k'] (item 'a' 9) 2), .call (.add ['k'] (item 'b' 5) 0), .rebuilt none,
        .call (.add ['k'] (item 'c' 9) 2)]
    load (.memory []) = [] ∧ Run first es last ∧ (∀ e ∈ es, e.Fits) ∧ Orderly es last ∧
      last.buckets = [(['k'], [item 'c' 9, item 'a' 9])] := by
  intro item first second last es
  have run : Run first es last := .call (.rebuilt (.call (.call .start rfl) rfl) none) rfl
  have fits : ∀ e ∈ es, e.Fits := by
    have small (id : Char) {time : Int} (low : minSigned ≤ time) (high : time ≤ maxSigned) : (item id time).Fits :=
      ⟨low, high, nofun⟩
    intro e member
    simp only [es, List.mem_cons, List.not_mem_nil, or_false] at member
    rcases member with rfl | rfl | rfl | rfl
    · exact small 'a' (by decide) (by decide)
    · exact small 'b' (by decide) (by decide)
    · trivial
    · exact small 'c' (by decide) (by decide)
  have nothing : newestFirst [] = [] := List.mergeSort_nil
  have alone : addItem (item 'a' 9) 2 [] = [item 'a' 9] := by simp [addItem, item, newestFirst_cons, nothing]
  have cut : addItem (item 'b' 5) 0 [item 'a' 9] = [item 'a' 9] := by
    simp [addItem, item, newestFirst_cons, nothing]
  have tie : addItem (item 'c' 9) 2 [item 'a' 9] = [item 'c' 9, item 'a' 9] := by
    simp [addItem, item, newestFirst_cons, nothing]
  have put {h : History} {items : List Item} (before : h.buckets = [(['k'], items)]) (i : Item) (limit : Nat) :
      (h.add ['k'] i limit).2.buckets = [(['k'], addItem i limit items)] := by
    simp only [History.add, persisted, before]
    rfl
  have once : (first.add ['k'] (item 'a' 9) 2).2.buckets = [(['k'], [item 'a' 9])] :=
    alone ▸ (rfl : _ = [(['k'], addItem (item 'a' 9) 2 [])])
  have twice : second.buckets = [(['k'], [item 'a' 9])] := cut ▸ put once _ _
  have found : load second.storage = [(['k'], [item 'a' 9])] := by
    have written : second.storage = .memory [(storageKey, toJson second.buckets)] := rfl
    rw [written, twice]
    rfl
  exact ⟨rfl, run, fits, run.orderly rfl fits, tie ▸ put found _ _⟩

end EndpointConsole.History
