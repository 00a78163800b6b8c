import EndpointConsole.Proofs.BaseUrls.Attempts

/-!
What lies in the file once a request has returned and nothing is saved after it. As long as every
write succeeds the file gives every project the URLs that the caller has (`Run.reopened`). A
write that fails is given up all the same: the file holds the lists exactly if the last write
succeeded, or an earlier one left the same lists (`Run.load_iff`).
-/
namespace EndpointConsole.BaseUrls.Interleaved

variable {fs : Files} {path : Text} {es : List Event} {s : System}

theorem last?_eq_some {β : Type} {shown : Event → Option β} {value : β} (last : last? shown es = some value) :
    ∃ before e later, es = before ++ e :: later ∧ shown e = some value ∧ ∀ other ∈ later, shown other = none := by
  obtain ⟨later, e, before, split, here, after⟩ := List.findSome?_eq_some_iff.mp last
  refine ⟨before.reverse, e, later.reverse, ?_, here, fun other member => after other (List.mem_reverse.mp member)⟩
  rw [← List.reverse_reverse es, split]
  simp

theorem last?_append_of_none {β : Type} {shown : Event → Option β} {later : List Event}
    (silent : ∀ e ∈ later, shown e = none) (before : List Event) :
    last? shown (before ++ later) = last? shown before := by
  have nothing : later.reverse.findSome? shown = none :=
    List.findSome?_eq_none_iff.mpr fun e member => silent e (List.mem_reverse.mp member)
  rw [last?, List.reverse_append, List.findSome?_append, nothing, Option.none_or]
  rfl

theorem Event.left?_of_write? {e : Event} (silent : e.write? = none) : e.left? = none := by
  cases e with
  | write => cases silent
  | save | tell | ask | note | expire | take | answer | outside => rfl

theorem Event.eq_of_write? {e : Event} {lists : List (Text × List Text)} {succeeds : Bool}
    (write : e.write? = some (lists, succeeds)) : e = .write lists succeeds := by
  cases e with
  | write =>
    cases write
    rfl
  | save | tell | ask | note | expire | take | answer | outside => cases write

/-- The last write that is tried leaves its lists if it succeeds, and what lay there if it fails. -/
theorem held_of_lastWrite? {first lists : List (Text × List Text)} {succeeds : Bool}
    (last : lastWrite? es = some (lists, succeeds)) :
    .write lists succeeds ∈ es ∧ (succeeds = true → held first es = lists) := by
  obtain ⟨before, e, later, rfl, write, others⟩ := last?_eq_some last
  obtain rfl := Event.eq_of_write? write
  refine ⟨List.mem_append_right _ List.mem_cons_self, ?_⟩
  rintro rfl
  rw [List.append_cons, held, last?_append_of_none fun e member => Event.left?_of_write? (others e member),
    last?_concat]
  rfl

theorem held_of_no_write {first : List (Text × List Text)} (silent : lastWrite? es = none) : held first es = first := by
  have writes := List.findSome?_eq_none_iff.mp silent
  have nothing : last? Event.left? es = none :=
    List.findSome?_eq_none_iff.mpr fun e member => Event.left?_of_write? (writes e member)
  rw [held, nothing]
  rfl

/-- While every write succeeds the file holds the lists. -/
theorem Run.load_eq (run : Run fs path es s) (succeed : ∀ lists, .write lists false ∉ es) (flushed : Flushed es) :
    load s.files path = s.book.lists := by
  rw [run.load_eq_held]
  rcases run.tried flushed with ⟨_, silent, first⟩ | ⟨succeeds, last⟩
  · rw [held_of_no_write silent, first]
  · obtain ⟨member, holds⟩ := held_of_lastWrite? last
    cases succeeds with
    | true => exact holds rfl
    | false => exact absurd member (succeed s.book.lists)

/-- As long as every write succeeds, lists that are opened anew after a flush give what those before
    give, and that is what was saved last. -/
theorem Run.reopened (run : Run fs path es s) (succeed : ∀ lists, .write lists false ∉ es) (flushed : Flushed es)
    (project : Text) :
    (ofFile s.files path).urls project = s.book.urls project ∧
      ∀ urls, lastSaved? project es = some urls → (ofFile s.files path).urls project = kept urls ∧
        (kept urls = [] → Json.lookup? project (ofFile s.files path).lists = none) := by
  have same : (ofFile s.files path).lists = s.book.lists := run.load_eq succeed flushed
  have value := run.lookup? project
  rw [urls, urls, same]
  refine ⟨rfl, fun urls saved => ?_⟩
  rw [saved] at value
  dsimp only at value
  rw [value]
  split
  · next empty => exact ⟨empty.symm, fun _ => rfl⟩
  · next solid => exact ⟨rfl, fun empty => absurd empty solid⟩

/-- A workspace without a file for its lists, and a project in it. -/
def shop : Files := { entries := [(["shop".toList], .folder)] }

def shopPath : Text := pathIn "/shop".toList

def shopProject : Text := "/shop/Shop.csproj".toList

def shopUrls : List Text := [" http://a ".toList, [], "http://a".toList]

def shopLists : List (Text × List Text) := [(shopProject, ["http://a".toList])]

/-- Some URLs are saved there. -/
def shopSaved : BaseUrls := (ofFile shop shopPath).save shopProject shopUrls

theorem shopSaved_lists : shopSaved.lists = shopLists := by decide +kernel

theorem shopSaved_written : (writeFile shop shopPath (toJson shopSaved.lists).pretty).2 = true := by decide +kernel

/-- The URLs are saved and flushed. -/
def shopFlushed : List Event :=
  [.save shopProject shopUrls, .tell, .note, .ask .flush, .take .flush, .write shopLists true, .answer .flush]

theorem shop_flushed :
    Run shop shopPath shopFlushed { book := (shopSaved.flush shop).1, files := (shopSaved.flush shop).2 } := by
  have opened : Run shop shopPath [] { book := ofFile shop shopPath, files := shop } := .start
  have saved := opened.save ⟨rfl, rfl, rfl⟩ shopProject shopUrls
  have events : flushing shopSaved shop = [.ask .flush, .take .flush, .write shopLists true, .answer .flush] := by
    have written := shopSaved_written
    rw [shopSaved_lists] at written
    have unsaved : shopSaved.unsaved = true := rfl
    have path : shopSaved.path = shopPath := rfl
    simp only [flushing, unsaved, path, shopSaved_lists, written, if_true]
    rfl
  have leaves : Leaves shopPath (toJson shopSaved.lists).pretty shop
      (writeFile shop shopPath (toJson shopSaved.lists).pretty).1
      (writeFile shop shopPath (toJson shopSaved.lists).pretty).2 := by
    rw [shopSaved_written]
    exact leaves_writeFile shopSaved_written
  have flushed := saved.flush ⟨rfl, rfl, rfl⟩ leaves
  rw [show ((ofFile shop shopPath).save shopProject shopUrls) = shopSaved from rfl, events] at flushed
  exact flushed

/-- Lists that are saved and flushed are read from the file that the flush replaces. -/
theorem reopened_shop :
    Run shop shopPath shopFlushed { book := (shopSaved.flush shop).1, files := (shopSaved.flush shop).2 } ∧
      (∀ lists, .write lists false ∉ shopFlushed) ∧ Flushed shopFlushed ∧
      (ofFile (shopSaved.flush shop).2 shopPath).urls shopProject = ["http://a".toList] := by
  have succeed : ∀ lists, .write lists false ∉ shopFlushed := by simp [shopFlushed]
  have flushed : Flushed shopFlushed := ⟨shopFlushed.dropLast, .flush, [], rfl, nofun⟩
  refine ⟨shop_flushed, succeed, flushed, ?_⟩
  have urls := ((shop_flushed.reopened succeed flushed shopProject).2 shopUrls rfl).1
  rw [urls]
  decide +kernel

/-- After a flush the lists are those of the last write, and the file holds them only if that one
    succeeded or they lay there before. -/
theorem Run.load_iff (run : Run fs path es s) (flushed : Flushed es) (saved : ¬Unsaved es) :
    ∃ succeeds, lastWrite? es = some (s.book.lists, succeeds) ∧
      (load s.files path = s.book.lists ↔ succeeds = true ∨ held (load fs path) es = s.book.lists) := by
  rcases run.tried flushed with ⟨unsaved, _⟩ | ⟨succeeds, last⟩
  · exact absurd unsaved saved
  · refine ⟨succeeds, last, ?_⟩
    rw [run.load_eq_held]
    constructor
    · exact .inr
    · rintro (success | same)
      · exact (held_of_lastWrite? last).2 success
      · exact same

/-- The folder of the lists is there. -/
def shopCleared : Files := shop.put ["shop".toList, ".vscode".toList] .folder

/-- Another folder lies where the file is written before it is put in its place. -/
def shopBlocked : Files :=
  shopCleared.put ["shop".toList, ".vscode".toList, "csharp-api-console-config.json.tmp".toList] .folder

/-- Some URLs are saved, the write after the delay fails, what was in its way goes, and a flush
    returns. -/
def shopForgotten : List Event :=
  [.save shopProject shopUrls, .tell, .note, .expire, .write shopLists false, .outside, .ask .flush, .take .flush,
    .answer .flush]

theorem shop_forgotten : Run shopBlocked shopPath shopForgotten
    { book := { path := shopPath, lists := shopLists }, files := shopCleared } := by
  have lists : ((ofFile shopBlocked shopPath).save shopProject shopUrls).lists = shopLists := by decide +kernel
  have fails : (writeFile shopBlocked shopPath (toJson shopLists).pretty).2 = false := by decide +kernel
  have failed : Leaves shopPath (toJson shopLists).pretty shopBlocked
      (writeFile shopBlocked shopPath (toJson shopLists).pretty).1 false := by
    rw [← fails]
    refine writeFile_leaves fun made folders => ?_
    -- the folder is there
    have there : shopBlocked.createFolders ((Path.parent? shopPath).getD []) = .ok shopBlocked := rfl
    obtain rfl := Except.ok.inj (there.symm.trans folders)
    rfl
  have same : shopCleared.readText shopPath =
      (writeFile shopBlocked shopPath (toJson shopLists).pretty).1.readText shopPath := by
    decide +kernel
  have opened : Run shopBlocked shopPath [] { book := ofFile shopBlocked shopPath, files := shopBlocked } := .start
  have saved := (opened.step (.save shopProject shopUrls rfl)).step (.tell rfl)
  dsimp only at saved
  rw [lists] at saved
  have written := ((saved.step (.note rfl rfl)).step (.expire rfl rfl)).step (.write rfl failed)
  have asked := (written.step (.outside same)).step (.ask .flush rfl)
  exact (asked.step (.take rfl rfl)).step (.answer rfl)

theorem shopForgotten_flushed : Flushed shopForgotten := ⟨shopForgotten.dropLast, .flush, [], rfl, nofun⟩

theorem shopForgotten_saved : ¬Unsaved shopForgotten := fun unsaved => unsaved shopProject shopUrls List.mem_cons_self

/-- The only write has failed, so that the file lacks the lists. -/
theorem load_iff_shop : Flushed shopForgotten ∧ ¬Unsaved shopForgotten ∧ ∃ s, Run shopBlocked shopPath shopForgotten s ∧
    lastWrite? shopForgotten = some (s.book.lists, false) ∧ load s.files shopPath ≠ s.book.lists := by
  refine ⟨shopForgotten_flushed, shopForgotten_saved, _, shop_forgotten, rfl, ?_⟩
  obtain ⟨succeeds, last, holds⟩ := shop_forgotten.load_iff shopForgotten_flushed shopForgotten_saved
  rw [Ne, holds]
  cases last
  decide +kernel

/-- A flush returns while the file can be written, and what was saved is not there. -/
theorem forgotten_shop : ∃ s, Run shopBlocked shopPath shopForgotten s ∧ Flushed shopForgotten ∧ ¬Unsaved shopForgotten ∧
    (writeFile s.files shopPath (toJson s.book.lists).pretty).2 = true ∧ load s.files shopPath ≠ s.book.lists := by
  refine ⟨_, shop_forgotten, shopForgotten_flushed, shopForgotten_saved, ?_, ?_⟩
  · decide +kernel
  · decide +kernel

end EndpointConsole.BaseUrls.Interleaved
