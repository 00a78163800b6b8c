import EndpointConsole.Proofs.Request.Filling

/-!
The placeholders of a filled route. Filling takes away the placeholders that have
an entry and leaves the others where they are, whatever the values are made of
(`placeholderPieces_path`). So entries for the names that are found in a route fill
all of them: none of these entries is left for the query, and no name is found in
the path (`build_detected`).
-/
namespace EndpointConsole.Request
open Text (Piece)
open Route (nameOf)

variable {name route : Text} {entries : List Entry}

/-- The pieces that stand in the place of a piece. -/
def piecesFor (entries : List Entry) (before : List (Piece Text)) (piece : Piece Text) : List (Piece Text) :=
  match entryFor? entries before piece with
  | some (_, e) => (Percent.encodeComponent e.value).map .char
  | none => [piece]

theorem written_piecesFor (entries : List Entry) (before : List (Piece Text)) (piece : Piece Text) :
    Route.written (piecesFor entries before piece) = putFor entries before piece := by
  rw [piecesFor, putFor]
  cases entryFor? entries before piece with
  | none => rfl
  | some p => exact Route.written_chars _

theorem written_flatMap_piecesFor (entries : List Entry) (places : List (List (Piece Text) × Piece Text)) :
    Route.written (places.flatMap fun p => piecesFor entries p.1 p.2) =
      places.flatMap fun p => putFor entries p.1 p.2 := by
  induction places with
  | nil => rfl
  | cons p rest ih => rw [List.flatMap_cons, List.flatMap_cons, Route.written_append, written_piecesFor, ih]

theorem refilled_placedFrom (entries : List Entry) (before pieces : List (Piece Text)) :
    Route.Refilled pieces ((placedFrom before pieces).flatMap fun p => piecesFor entries p.1 p.2) := by
  induction pieces generalizing before with
  | nil => exact .nil
  | cons piece rest ih =>
    rw [placedFrom, List.flatMap_cons, piecesFor]
    split
    · next n e forPiece =>
      cases piece with
      | char c => cases forPiece
      | found content =>
        have absent {brace : Char} (reserved : Percent.isUnreserved brace = false) (no_escape : brace ≠ '%') :
            brace ∉ Percent.encodeComponent e.value :=
          Percent.not_mem_encodeComponent reserved no_escape e.value
        exact .filled content (absent (by decide) (by decide)) (absent (by decide) (by decide)) (ih _)
    · exact .kept piece (ih _)

/-- The path of a filled route is cut where the route was. -/
theorem placeholderPieces_path (route : Text) (entries : List Entry) :
    Route.placeholderPieces (fillRoute route entries).1 =
      (placed route).flatMap fun p => piecesFor entries p.1 p.2 := by
  rw [fillRoute_path, ← written_flatMap_piecesFor]
  exact Route.cut_iff.mp ((Route.cut_placeholderPieces route).refilled (refilled_placedFrom entries [] _))

/-- A name that is found in the path is the name of a placeholder without an entry. -/
theorem exists_of_mem_placeholderNames (member : name ∈ Route.placeholderNames (fillRoute route entries).1) :
    name ≠ [] ∧ ∃ p ∈ placed route, entryFor? entries p.1 p.2 = none ∧ nameOf p.2 = name := by
  rw [Route.placeholderNames_eq, placeholderPieces_path, List.mem_filter, List.mem_map] at member
  obtain ⟨⟨piece, among, rfl⟩, named⟩ := member
  have some_name : nameOf piece ≠ [] := by simpa using named
  refine ⟨some_name, ?_⟩
  obtain ⟨p, place, inside⟩ := List.mem_flatMap.mp among
  rw [piecesFor] at inside
  split at inside
  · obtain ⟨c, _, rfl⟩ := List.mem_map.mp inside
    exact absurd rfl some_name
  · next nothing => exact ⟨p, place, nothing, congrArg nameOf (List.mem_singleton.mp inside).symm⟩

theorem map_snd_numbered (entries : List Entry) : (numbered entries).map Prod.snd = entries := by
  rw [numbered, List.map_map]
  exact List.zipIdx_map_fst 0 entries

theorem length_numbered (entries : List Entry) : (numbered entries).length = entries.length := by
  rw [← List.length_map Prod.snd, map_snd_numbered]

/-- Where entries are given for the names in a route, as many are given under a name as ask for it. -/
theorem length_entriesUnder (keys : entries.map Entry.key = Route.placeholderNames route) (some_name : name ≠ []) :
    (entriesUnder name entries).length = (Route.placeholderPieces route).countP (asksFor name) := by
  have places : (numbered entries).countP (isUnder name) =
      ((numbered entries).map fun p => p.2.key).countP fun key => Text.sameLetters key name := by
    rw [List.countP_map]
    rfl
  have given : ((numbered entries).map fun p => p.2.key) = Route.placeholderNames route := by
    rw [← keys, ← congrArg (List.map Entry.key) (map_snd_numbered entries), List.map_map]
    rfl
  rw [entriesUnder, ← List.countP_eq_length_filter, places, given, Route.placeholderNames_eq, List.countP_filter,
    List.countP_map]
  apply List.countP_congr
  intro piece _
  rw [Function.comp_apply, Bool.and_eq_true, asksFor, and_iff_left_iff_imp]
  intro asks
  by_contra unnamed
  have empty : nameOf piece = [] := by simpa using unnamed
  exact absurd asks (Bool.eq_false_iff.mp (asksFor_unnamed empty some_name))

/-- There is an entry for each placeholder with a name. -/
theorem isSome_entryFor? (keys : entries.map Entry.key = Route.placeholderNames route)
    {p : List (Piece Text) × Piece Text} (place : p ∈ placed route) :
    (entryFor? entries p.1 p.2).isSome = !(nameOf p.2).isEmpty := by
  obtain ⟨before, piece⟩ := p
  rw [entryFor?]
  by_cases unnamed : nameOf piece = []
  · simp [unnamed]
  · obtain ⟨behind, whole⟩ := mem_placedFrom place
    have asks : asksFor (nameOf piece) piece = true := (sameLetters_iff _ _).mpr rfl
    have more : before.countP (asksFor (nameOf piece)) < (entriesUnder (nameOf piece) entries).length := by
      rw [List.nil_append] at whole
      rw [length_entriesUnder keys unnamed, whole, List.countP_append, List.countP_cons_of_pos asks]
      omega
    rw [if_neg (by simpa using unnamed), List.getElem?_eq_getElem more]
    simp [unnamed]

theorem length_taken (keys : entries.map Entry.key = Route.placeholderNames route) :
    (taken route entries).length = entries.length := by
  have named : (placed route).countP (fun p => !(nameOf p.2).isEmpty) = (Route.placeholderNames route).length := by
    rw [Route.placeholderNames_eq, ← List.countP_eq_length_filter, List.countP_map,
      ← map_snd_placedFrom [] (Route.placeholderPieces route), List.countP_map]
    rfl
  rw [taken, List.length_filterMap_eq_countP, ← List.length_map Entry.key, keys, ← named]
  apply List.countP_congr
  intro p place
  rw [isSome_entryFor? keys place]

theorem left_eq_nil (keys : entries.map Entry.key = Route.placeholderNames route) :
    (fillRoute route entries).2 = [] := by
  have all := (numbered_perm route entries).length_eq
  rw [List.length_append, length_numbered, length_taken keys] at all
  rw [← List.length_eq_zero_iff]
  omega

/-- A request with one entry for each name that is found in a route, whatever the values are, consumes
    them all: it has no query, and no name is found in its path. -/
theorem build_detected (base route : Text) {entries : List Entry}
    (keys : entries.map Entry.key = Route.placeholderNames route) :
    let target := Target.build base route entries
    consumed entries (fillRoute route entries).2 = List.range entries.length ∧ target.query = [] ∧
      target.url = base ++ target.path ∧ Route.placeholderNames target.path = [] := by
  have none_left := left_eq_nil keys
  have no_query : (Target.build base route entries).query = [] := by
    rw [build_query, ← left_entries, none_left]
    rfl
  refine ⟨?_, no_query, ?_, ?_⟩
  · rw [none_left, consumed, List.filter_eq_self]
    intro n _
    rfl
  · rw [build_url, no_query, if_pos rfl, List.append_nil]
  · rw [List.eq_nil_iff_forall_not_mem]
    intro name member
    obtain ⟨some_name, p, place, nothing, same⟩ := exists_of_mem_placeholderNames member
    have something := isSome_entryFor? keys place
    rw [nothing, same] at something
    simp [some_name] at something

/-- A route with an empty pair of braces, a doubled brace, a name in two spellings, a placeholder without
    a name and a brace that is never closed, and values that are empty or made of braces. -/
theorem build_detected_braces :
    let route := "\x7b\x7d/\x7b\x7bx\x7d\x7d/\x7bID:int\x7d/\x7bid?\x7d/\x7b:int\x7d/\x7b".toList
    let entries : List Entry :=
      [⟨"\x7bx".toList, "\x7bid\x7d".toList⟩, ⟨"ID".toList, []⟩, ⟨"id".toList, "\x7b".toList⟩]
    let target := Target.build "http://localhost".toList route entries
    entries.map Entry.key = Route.placeholderNames route ∧
      target.path = "\x7b\x7d/%7Bid%7D\x7d//%7B/\x7b:int\x7d/\x7b".toList ∧
      consumed entries (fillRoute route entries).2 = List.range entries.length ∧ target.query = [] ∧
        target.url = "http://localhost".toList ++ target.path ∧ Route.placeholderNames target.path = [] := by
  intro route entries target
  have keys : entries.map Entry.key = Route.placeholderNames route := by decide +kernel
  exact ⟨keys, by decide +kernel, build_detected _ _ keys⟩

end EndpointConsole.Request
