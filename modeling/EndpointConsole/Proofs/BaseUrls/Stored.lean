import EndpointConsole.BaseUrls
import EndpointConsole.Proofs.Json.Commented
import EndpointConsole.Proofs.Sorted

/-!
The base URLs of projects in their file. What is kept of some URLs is each of them trimmed,
the blank ones left out, and of equal ones the first (`cleaned_nil`). The lists of all
projects are read back from the text that is written of them (`parse?_pretty`), whatever the
projects and URLs are; the keys of what is loaded are in order, as are those of what is saved.
-/
namespace EndpointConsole

theorem Json.writtenItems_eq_map (items : List Json) : writtenItems items = items.map written := by
  induction items with
  | nil => rfl
  | cons v rest ih => rw [writtenItems, ih, List.map_cons]

theorem Json.writtenMembers_eq_map (members : List (Text × Json)) :
    writtenMembers members = members.map fun m => (some m.1, written m.2) := by
  induction members with
  | nil => rfl
  | cons m rest ih => rw [writtenMembers, ih, List.map_cons]

/-- A value is read from its indented text as the tree that it is written as. -/
theorem Json.Written.parse?_pretty {v : Json} (faithful : Faithful maxDepth v) : parse? (pretty v) = some (written v) := by
  have ends : Ends [] := trivial
  have tokens := tokens?_prettyAt faithful 0 ends
  rw [List.append_nil, tokens?_nil, Option.map_some, List.append_nil] at tokens
  rw [parse?, pretty, tokens, Option.bind_some, ofTokens?_tokensOf]

namespace BaseUrls
open Sorted (Increasing)
open Json (lookup?)

/-- What is kept of some URLs: without white space around them, without blank ones, and of equal ones
    only the first. -/
def kept (urls : List Text) : List Text := ((urls.map Text.trim).filter fun url => !url.isEmpty).eraseDups

/-- The ones that are seen before are those left out. -/
theorem cleaned_eq (seen urls : List Text) :
    cleaned seen urls =
      (((urls.map Text.trim).filter fun url => !url.isEmpty).filter fun url => !seen.contains url).eraseDups := by
  fun_induction cleaned seen urls with
  | case1 => rfl
  | case2 seen url rest trimmed dropped ih =>
    rw [Bool.or_eq_true] at dropped
    rw [ih, List.map_cons]
    rcases dropped with empty | before
    · rw [List.filter_cons_of_neg (by simpa using List.isEmpty_iff.mp empty)]
    · by_cases empty : (Text.trim url).isEmpty = true
      · rw [List.filter_cons_of_neg (by simpa using List.isEmpty_iff.mp empty)]
      · rw [List.filter_cons_of_pos (by simpa using empty), List.filter_cons_of_neg (by simpa using before)]
  | case3 seen url rest trimmed taken ih =>
    rw [Bool.not_eq_true, Bool.or_eq_false_iff] at taken
    obtain ⟨solid, new⟩ := taken
    have others (solids : List Text) : (solids.filter fun url => !(trimmed :: seen).contains url) =
        (solids.filter fun url => !seen.contains url).filter fun url => !url == trimmed := by
      rw [List.filter_filter]
      refine List.filter_congr ?_
      intro other _
      rw [List.contains_cons, Bool.not_or]
    rw [ih, others, List.map_cons, List.filter_cons_of_pos (by simpa using solid),
      List.filter_cons_of_pos (by simpa using new), List.eraseDups_cons]

theorem cleaned_nil (urls : List Text) : cleaned [] urls = kept urls := by
  rw [cleaned_eq, kept]
  simp

/-- Saving sets the list of one project, or drops the project if no URL is kept. -/
theorem lookup?_save (b : BaseUrls) (project name : Text) (urls : List Text) :
    lookup? name (b.save project urls).lists =
      if project = name then (if kept urls = [] then none else some (kept urls)) else lookup? name b.lists := by
  rw [save, cleaned_nil]
  by_cases empty : kept urls = []
  · simp only [empty, List.isEmpty_nil, if_true]
    exact Sorted.lookup?_erase name project b.lists
  · have solid : ¬(kept urls).isEmpty = true := by simpa using empty
    simp only [if_neg solid, if_neg empty]
    exact Sorted.lookup?_insert name project (kept urls) b.lists

theorem increasing_save {b : BaseUrls} (increasing : Increasing b.lists) (project : Text) (urls : List Text) :
    Increasing (b.save project urls).lists := by
  rw [save]
  dsimp only
  split
  · exact increasing.erase
  · exact increasing.insert

theorem onlyIntegers_toJson (lists : List (Text × List Text)) : Json.OnlyIntegers (toJson lists) := by
  have text (s : Text) : Json.OnlyIntegers (.string s) := fun _ inside => by cases inside
  refine Json.onlyIntegers_object.mpr ?_
  rw [List.forall_mem_singleton]
  refine Json.onlyIntegers_object.mpr (List.forall_mem_map.mpr ?_)
  intro p _
  refine Json.onlyIntegers_array.mpr (List.forall_mem_map.mpr ?_)
  intro url _
  exact text url

theorem faithful_toJson {lists : List (Text × List Text)} (increasing : Increasing lists) :
    Json.Faithful Json.maxDepth (toJson lists) := by
  refine ⟨List.nodup_singleton _, ?_, trivial⟩
  refine ⟨?_, Json.faithfulMembers_of_forall (List.forall_mem_map.mpr ?_)⟩
  · rw [List.map_map]
    exact increasing.nodup
  · intro p _
    refine Json.faithfulItems_of_forall (List.forall_mem_map.mpr ?_)
    intro url _
    trivial

/-- The lists are read from the tree that they are written as. -/
theorem ofWritten?_toJson {lists : List (Text × List Text)} (increasing : Increasing lists) :
    ofWritten? (Json.written (toJson lists)) = some lists := by
  have texts (urls : List Text) :
      Json.Written.listOf? Json.Written.text? (Json.written (.array (urls.map .string))) = some urls := by
    rw [Json.written, Json.writtenItems_eq_map, List.map_map]
    exact Json.mapM_eq_some fun url _ => rfl
  have pairs : Json.Written.pairsOf? (Json.Written.listOf? Json.Written.text?)
      (Json.written (.object (lists.map fun p => (p.1, .array (p.2.map .string))))) = some lists := by
    rw [Json.written, Json.writtenMembers_eq_map, List.map_map]
    refine Json.mapM_eq_some ?_
    intro p _
    simp only [Function.comp_def, texts, Option.bind_eq_bind, Option.bind_some, Option.pure_def]
  have field (w : Json.Written) :
      Json.Written.fields? ["baseUrls".toList] (.object [(some "baseUrls".toList, w)]) = some [some w] := rfl
  rw [toJson, Json.written, Json.writtenMembers, Json.writtenMembers, ofWritten?, field]
  simp only [Option.bind_eq_bind, Option.bind_some, pairs, Option.map_some, Sorted.ofList_of_increasing increasing]

/-- The lists are read back from their file. -/
theorem parse?_pretty {lists : List (Text × List Text)} (increasing : Increasing lists) :
    parse? (toJson lists).pretty = some lists := by
  rw [parse?, Json.withoutComments_pretty (onlyIntegers_toJson lists),
    Json.Written.parse?_pretty (faithful_toJson increasing), Option.bind_some, ofWritten?_toJson increasing]

theorem load_of_readText {fs : Files} {path : Text} {lists : List (Text × List Text)} (increasing : Increasing lists)
    (read : fs.readText path = .ok (toJson lists).pretty) : load fs path = lists := by
  rw [load, read]
  simp only [parse?_pretty increasing, Option.getD_some]

theorem load_congr {fs other : Files} {path : Text} (same : fs.readText path = other.readText path) :
    load fs path = load other path := by
  rw [load, load, same]

theorem increasing_of_ofWritten? {w : Json.Written} {lists : List (Text × List Text)} (read : ofWritten? w = some lists) :
    Increasing lists := by
  simp only [ofWritten?, Option.bind_eq_bind, Option.bind_eq_some_iff] at read
  obtain ⟨fields, _, read⟩ := read
  split at read
  · cases read
    exact List.Pairwise.nil
  · obtain ⟨pairs, _, rfl⟩ := Option.map_eq_some_iff.mp read
    exact Sorted.ofList_increasing pairs
  · cases read

/-- Whatever lies at a path, what is loaded from there has its keys in order. -/
theorem increasing_load (fs : Files) (path : Text) : Increasing (load fs path) := by
  have none : Increasing ([] : List (Text × List Text)) := List.Pairwise.nil
  rw [load]
  cases fs.readText path with
  | error failure => exact none
  | ok content =>
    dsimp only
    cases read : parse? content with
    | none => exact none
    | some lists =>
      obtain ⟨w, _, written⟩ := Option.bind_eq_some_iff.mp read
      exact increasing_of_ofWritten? written

end BaseUrls

end EndpointConsole
