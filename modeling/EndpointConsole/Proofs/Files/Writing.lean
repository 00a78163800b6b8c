import EndpointConsole.Proofs.Files.Leading

/-!
What writing a file, making a folder and removing leave in a tree, by absolute names
(`entryAt?_put`, `entryAt?_drop`).
-/
namespace EndpointConsole.Files
open Path (IsName Plain solidPieces)
open Text (splitOn)

variable {fs : Files} {place names : List Text} {path : Text}

theorem find?_append (key : List Text) (a b : List (List Text × Entry)) :
    find? key (a ++ b) = (find? key a).or (find? key b) := by
  induction a with
  | nil => rfl
  | cons p rest ih =>
    rw [List.cons_append, find?, find?]
    split
    · rfl
    · exact ih

theorem find?_eq_none {key : List Text} {entries : List (List Text × Entry)} (without : ∀ p ∈ entries, p.1 ≠ key) :
    find? key entries = none := by
  induction entries with
  | nil => rfl
  | cons p rest ih =>
    rw [find?, if_neg (without p List.mem_cons_self)]
    exact ih fun q member => without q (List.mem_cons_of_mem _ member)

theorem put_entries (fs : Files) (names : List Text) (entry : Entry) :
    (fs.put names entry).entries = fs.entries.filter (fun p => decide (p.1 ≠ names)) ++ [(names, entry)] := rfl

theorem drop_entries (fs : Files) (names : List Text) :
    (fs.drop names).entries = fs.entries.filter fun p => !isWithin names p.1 := rfl

theorem entryAt?_put {entry : Entry} {key : List Text} (below : names ≠ []) :
    (fs.put names entry).entryAt? key = if key = names then some entry else fs.entryAt? key := by
  by_cases here : key = names
  · subst here
    have without : ∀ p ∈ fs.entries.filter (fun p => decide (p.1 ≠ key)), p.1 ≠ key := by
      intro p member
      simpa using (List.mem_filter.mp member).2
    rw [if_pos rfl, entryAt?, if_neg below, put_entries, find?_append, find?_eq_none without, find?]
    simp
  · rw [if_neg here, entryAt?, entryAt?, put_entries, find?_append,
      find?_filter fs.entries (fun k => decide (k ≠ names)) (decide_eq_true here)]
    simp only [find?, if_neg (Ne.symm here), Option.or_none]

theorem entryAt?_drop {key : List Text} (apart : isWithin names key = false) :
    (fs.drop names).entryAt? key = fs.entryAt? key := by
  rw [entryAt?, entryAt?, drop_entries, find?_filter fs.entries (fun k => !isWithin names k) (by simp [apart])]

theorem WellNamed.put (named : fs.WellNamed) {entry : Entry} (isName : ∀ name ∈ names, IsName name) :
    (fs.put names entry).WellNamed := by
  intro p member
  rcases List.mem_append.mp member with old | new
  · exact named p (List.mem_filter.mp old).1
  · rw [List.mem_singleton.mp new]
    exact isName

theorem WellNamed.drop (named : fs.WellNamed) : (fs.drop names).WellNamed :=
  fun p member => named p (List.mem_filter.mp member).1

theorem write_eq_ok {bytes : List UInt8} {after : Files} (written : fs.write path bytes = .ok after) :
    ∃ place, fs.locate path = .ok place ∧ fs.entryAt? place ≠ some .folder ∧ after = fs.put place (.file bytes) := by
  rw [write] at written
  cases located : fs.locate path with
  | error failure =>
    rw [located] at written
    cases written
  | ok place =>
    rw [located] at written
    simp only [bind, Except.bind, pure, Except.pure] at written
    refine ⟨place, rfl, ?_⟩
    split at written
    · cases written
    · next held =>
      cases written
      exact ⟨by rw [held]; simp, rfl⟩
    · next held =>
      split at written
      · cases written
        exact ⟨by rw [held]; simp, rfl⟩
      · cases written
      · cases written

theorem remove_eq_ok {after : Files} (removed : fs.remove path = .ok after) :
    ∃ place entry, fs.look path = .ok (place, entry) ∧ after = fs.drop place := by
  rw [remove] at removed
  cases looked : fs.look path with
  | error failure =>
    rw [looked] at removed
    cases removed
  | ok found =>
    rw [looked] at removed
    cases removed
    exact ⟨found.1, found.2, rfl, rfl⟩

/-- Folders that are there are not made. -/
theorem makeFolders_pieces {pieces more : List Text} (noUp : ['.', '.'] ∉ pieces)
    (along : fs.FoldersAlong place (solidPieces pieces)) :
    fs.makeFolders place (pieces ++ more) = fs.makeFolders (place ++ solidPieces pieces) more := by
  induction pieces generalizing place with
  | nil => simp [solidPieces]
  | cons piece rest ih =>
    have noUpRest : ['.', '.'] ∉ rest := fun member => noUp (List.mem_cons_of_mem _ member)
    have noUpHere : piece ≠ ['.', '.'] := fun up => noUp (up ▸ List.mem_cons_self)
    rw [List.cons_append, makeFolders]
    by_cases trivial : Path.isTrivial piece = true
    · have skipped : solidPieces (piece :: rest) = solidPieces rest := List.filter_cons_of_neg (by simp [trivial])
      rw [if_pos trivial, skipped]
      exact ih noUpRest (skipped ▸ along)
    · have taken : solidPieces (piece :: rest) = piece :: solidPieces rest := List.filter_cons_of_pos (by simp [trivial])
      rw [taken] at along ⊢
      rw [if_neg trivial, if_neg noUpHere, along.2.first]
      dsimp only
      rw [ih noUpRest along.2, List.append_assoc, List.singleton_append]

/-- A folder below one that is there is made if nothing has its name. -/
theorem createFolders_join (plain : Plain path names) (along : fs.FoldersAlong [] names) {name : Text}
    (isName : IsName name) {after : Files} (made : fs.createFolders (Path.join path name) = .ok after) :
    fs.entryAt? (names ++ [name]) = some .folder ∧ after = fs ∨
      fs.entryAt? (names ++ [name]) = none ∧ after = fs.put (names ++ [name]) .folder := by
  obtain ⟨more, before, written, cut, leads, noUp⟩ := plain.join_pieces isName
  have absolute : Path.isAbsolute ('/' :: more) = true := rfl
  rw [createFolders, written, if_pos absolute, splitOn_absolute, makeFolders, if_pos (by rfl), cut,
    makeFolders_pieces noUp (leads.symm ▸ along), leads, List.nil_append, makeFolders, isName.solid,
    if_neg Bool.false_ne_true, if_neg isName.noStepUp] at made
  split at made
  · next held => exact .inl ⟨held, (Except.ok.inj made).symm⟩
  · cases made
  · next held => exact .inr ⟨held, (Except.ok.inj made).symm⟩

end EndpointConsole.Files
