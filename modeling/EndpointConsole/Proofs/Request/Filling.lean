import EndpointConsole.Proofs.Request.Query
import EndpointConsole.Proofs.Route.Placeholders

/-!
How a route is filled, without the filling (`build_filled`). Of the placeholders
of one name, in any ASCII case, each takes the entry under that name that has its
number among them (`entryFor?`); so what a placeholder takes depends on the route
before it and on the entries, but not on what other placeholders took. What
connects the two is that the entries left at some place of a route are, name by
name, those behind the first ones, one for each placeholder passed (`Waits`).
-/
namespace EndpointConsole.Request
open Text (Piece)
open Route (nameOf)

/-- Whether an entry is given under a name, in any ASCII case. -/
def isUnder (name : Text) (p : Numbered) : Bool := Text.sameLetters p.2.key name

/-- Whether a piece of a route takes entries under a name. -/
def asksFor (name : Text) (piece : Piece Text) : Bool := Text.sameLetters (nameOf piece) name

/-- The entries under a name. -/
def entriesUnder (name : Text) (entries : List Entry) : List Numbered := (numbered entries).filter (isUnder name)

/-- The entry for a piece that stands behind others in a route: among the entries under its name, the
    one at the number of pieces before it that have this name too. Without a name there is none. -/
def entryFor? (entries : List Entry) (before : List (Piece Text)) (piece : Piece Text) : Option Numbered :=
  if (nameOf piece).isEmpty then none
  else (entriesUnder (nameOf piece) entries)[before.countP (asksFor (nameOf piece))]?

/-- What is put in the place of a piece: the value of its entry, or else what stood there. -/
def putFor (entries : List Entry) (before : List (Piece Text)) (piece : Piece Text) : Text :=
  match entryFor? entries before piece with
  | some (_, e) => Percent.encodeComponent e.value
  | none => Route.written [piece]

/-- Each piece with those before it. -/
def placedFrom (before : List (Piece Text)) : List (Piece Text) → List (List (Piece Text) × Piece Text)
  | [] => []
  | piece :: rest => (before, piece) :: placedFrom (before ++ [piece]) rest

/-- The pieces of a route, each with those before it. -/
def placed (route : Text) : List (List (Piece Text) × Piece Text) := placedFrom [] (Route.placeholderPieces route)

/-- The entries that the placeholders of a route take, in the order of the placeholders. -/
def taken (route : Text) (entries : List Entry) : List Numbered :=
  (placed route).filterMap fun (before, piece) => entryFor? entries before piece

theorem map_snd_placedFrom (before pieces : List (Piece Text)) : (placedFrom before pieces).map Prod.snd = pieces := by
  induction pieces generalizing before with
  | nil => rfl
  | cons piece rest ih => rw [placedFrom, List.map_cons, ih]

theorem mem_placedFrom {before front : List (Piece Text)} {piece : Piece Text} {pieces : List (Piece Text)}
    (member : (front, piece) ∈ placedFrom before pieces) : ∃ behind, before ++ pieces = front ++ piece :: behind := by
  induction pieces generalizing before with
  | nil => cases member
  | cons first rest ih =>
    rcases List.mem_cons.mp member with here | later
    · cases here
      exact ⟨rest, rfl⟩
    · obtain ⟨behind, whole⟩ := ih later
      exact ⟨behind, by rw [← whole, List.append_assoc, List.singleton_append]⟩

variable {name other : Text} {entries : List Entry} {before : List (Piece Text)} {left : List Numbered}

theorem sameLetters_iff (a b : Text) : Text.sameLetters a b = true ↔ Text.asciiLower a = Text.asciiLower b := by
  rw [Text.sameLetters, beq_iff_eq]

theorem sameLetters_congr {a b : Text} (same : Text.sameLetters a b = true) (other : Text) :
    Text.sameLetters a other = Text.sameLetters b other := by
  rw [Text.sameLetters, Text.sameLetters, (sameLetters_iff a b).mp same]

theorem sameLetters_comm (a b : Text) : Text.sameLetters a b = Text.sameLetters b a := by
  rw [Bool.eq_iff_iff, sameLetters_iff, sameLetters_iff, eq_comm]

/-- Names that differ in case only ask for the same entries. -/
theorem isUnder_congr (same : Text.sameLetters name other = true) : isUnder name = isUnder other := by
  funext p
  rw [isUnder, isUnder, sameLetters_comm, sameLetters_congr same, sameLetters_comm]

theorem asksFor_unnamed {piece : Piece Text} (unnamed : nameOf piece = []) (some_name : name ≠ []) :
    asksFor name piece = false := by
  rw [asksFor, unnamed, Bool.eq_false_iff, ne_eq, sameLetters_iff]
  intro same
  exact some_name (List.map_eq_nil_iff.mp same.symm)

theorem filter_of_takeNamed?_eq_none (missing : takeNamed? name left = none) : left.filter (isUnder name) = [] := by
  induction left with
  | nil => rfl
  | cons first rest ih =>
    rw [takeNamed?] at missing
    split at missing
    · cases missing
    · next other =>
      have apart : ¬isUnder name first = true := other
      rw [List.filter_cons_of_neg apart]
      exact ih (Option.map_eq_none_iff.mp missing)

/-- Out of the entries goes the first one under the name, and all others stay in their order. -/
theorem exists_of_takeNamed? {value : Text} {rest : List Numbered} (took : takeNamed? name left = some (value, rest)) :
    ∃ first front back, left = front ++ first :: back ∧ rest = front ++ back ∧ first.2.value = value ∧
      isUnder name first = true ∧ ∀ p ∈ front, isUnder name p = false := by
  induction left generalizing rest with
  | nil => cases took
  | cons p more ih =>
    rw [takeNamed?] at took
    split at took
    · next under =>
      cases took
      exact ⟨p, [], more, rfl, rfl, rfl, under, fun _ none => absurd none List.not_mem_nil⟩
    · next other =>
      simp only [Option.map_eq_some_iff, Prod.mk.injEq, Prod.exists] at took
      obtain ⟨_, tail, later, rfl, rfl⟩ := took
      obtain ⟨first, front, back, rfl, rfl, value, under, none⟩ := ih later
      refine ⟨first, p :: front, back, rfl, rfl, value, under, ?_⟩
      intro q member
      rcases List.mem_cons.mp member with rfl | among
      · exact Bool.eq_false_iff.mpr other
      · exact none q among

/-- The entries left behind some pieces of a route: under each name, all but the first ones, as many as
    these pieces asked for. -/
def Waits (entries : List Entry) (before : List (Piece Text)) (left : List Numbered) : Prop :=
  ∀ name, name ≠ [] → left.filter (isUnder name) = (entriesUnder name entries).drop (before.countP (asksFor name))

namespace Waits
variable {piece : Piece Text}

theorem start (entries : List Entry) : Waits entries [] (numbered entries) := fun _ _ => rfl

/-- The entry for the next piece is the first one left under its name. -/
theorem entryFor?_eq (waits : Waits entries before left) (named : nameOf piece ≠ []) :
    entryFor? entries before piece = (left.filter (isUnder (nameOf piece))).head? := by
  rw [entryFor?, if_neg (by simpa using named), waits _ named, List.head?_drop]

theorem countP_of_asks (asks : asksFor name piece = true) :
    (before ++ [piece]).countP (asksFor name) = before.countP (asksFor name) + 1 := by
  rw [List.countP_append, List.countP_singleton, if_pos asks]

theorem countP_of_not_asks (asks : asksFor name piece = false) :
    (before ++ [piece]).countP (asksFor name) = before.countP (asksFor name) := by
  rw [List.countP_append, List.countP_singleton, asks]
  rfl

theorem unnamed (waits : Waits entries before left) (unnamed : nameOf piece = []) :
    Waits entries (before ++ [piece]) left := by
  intro name some_name
  rw [countP_of_not_asks (asksFor_unnamed unnamed some_name)]
  exact waits name some_name

theorem missing (waits : Waits entries before left) (missing : takeNamed? (nameOf piece) left = none) :
    Waits entries (before ++ [piece]) left := by
  intro name some_name
  have now := waits name some_name
  cases asks : asksFor name piece with
  | false => rw [countP_of_not_asks asks, now]
  | true =>
    have none : left.filter (isUnder name) = [] := by
      rw [← isUnder_congr asks]
      exact filter_of_takeNamed?_eq_none missing
    rw [none, eq_comm, List.drop_eq_nil_iff] at now
    rw [none, countP_of_asks asks, eq_comm, List.drop_eq_nil_iff]
    omega

/-- An entry that is taken is the one for the piece, and does not wait for the pieces that follow. -/
theorem took (waits : Waits entries before left) (named : nameOf piece ≠ []) {value : Text} {rest : List Numbered}
    (took : takeNamed? (nameOf piece) left = some (value, rest)) :
    ∃ first, entryFor? entries before piece = some first ∧ first.2.value = value ∧ left.Perm (first :: rest) ∧
      Waits entries (before ++ [piece]) rest := by
  obtain ⟨first, front, back, whole, without, read, under, skipped⟩ := exists_of_takeNamed? took
  have none : front.filter (isUnder (nameOf piece)) = [] := by simpa using skipped
  have next : left.filter (isUnder (nameOf piece)) = first :: rest.filter (isUnder (nameOf piece)) := by
    rw [whole, without, List.filter_append, List.filter_append, List.filter_cons_of_pos under, none, List.nil_append,
      List.nil_append]
  refine ⟨first, ?_, read, ?_, ?_⟩
  · rw [waits.entryFor?_eq named, next, List.head?_cons]
  · rw [whole, without]
    exact List.perm_middle
  · intro name some_name
    have now := waits name some_name
    cases asks : asksFor name piece with
    | false =>
      have apart : isUnder name first = false := by
        rw [isUnder, sameLetters_congr under]
        exact asks
      rw [countP_of_not_asks asks, ← now, whole, without, List.filter_append, List.filter_append,
        List.filter_cons_of_neg (by simp [apart])]
    | true =>
      rw [isUnder_congr asks] at next
      rw [countP_of_asks asks, ← List.tail_drop, ← now, next, List.tail_cons]

end Waits

/-- What a piece takes out of the entries. -/
def take? (piece : Piece Text) (left : List Numbered) : Option (Text × List Numbered) :=
  if (nameOf piece).isEmpty then none else takeNamed? (nameOf piece) left

theorem fillPieces_cons (piece : Piece Text) (pieces : List (Piece Text)) (left : List Numbered) :
    fillPieces (piece :: pieces) left =
      match take? piece left with
      | some (value, rest) =>
        (Percent.encodeComponent value ++ (fillPieces pieces rest).1, (fillPieces pieces rest).2)
      | none => (Route.written [piece] ++ (fillPieces pieces left).1, (fillPieces pieces left).2) := by
  cases piece with
  | char c => rfl
  | found content =>
    rw [Route.written_found]
    rfl

/-- From a place in a route on, each piece gives way to what is put for it, and the entries taken are
    those for the pieces. -/
theorem fillPieces_eq (waits : Waits entries before left) (pieces : List (Piece Text)) :
    (fillPieces pieces left).1 = (placedFrom before pieces).flatMap (fun p => putFor entries p.1 p.2) ∧
      left.Perm ((placedFrom before pieces).filterMap (fun p => entryFor? entries p.1 p.2) ++
        (fillPieces pieces left).2) := by
  induction pieces generalizing before left with
  | nil => exact ⟨rfl, List.Perm.refl left⟩
  | cons piece rest ih =>
    rw [placedFrom, List.flatMap_cons, List.filterMap_cons]
    cases took : take? piece left with
    | none =>
      have next : entryFor? entries before piece = none ∧ Waits entries (before ++ [piece]) left := by
        by_cases unnamed : nameOf piece = []
        · exact ⟨if_pos (by simp [unnamed]), waits.unnamed unnamed⟩
        · rw [take?, if_neg (by simpa using unnamed)] at took
          rw [waits.entryFor?_eq unnamed, filter_of_takeNamed?_eq_none took]
          exact ⟨rfl, waits.missing took⟩
      obtain ⟨path, entriesLeft⟩ := ih next.2
      simp only [fillPieces_cons, took, putFor, next.1]
      exact ⟨congrArg (Route.written [piece] ++ ·) path, entriesLeft⟩
    | some found =>
      obtain ⟨value, entriesLeft⟩ := found
      have named : nameOf piece ≠ [] := by
        intro unnamed
        rw [take?, unnamed] at took
        cases took
      have taken := took
      rw [take?, if_neg (by simpa using named)] at taken
      obtain ⟨first, forPiece, rfl, out, next⟩ := waits.took named taken
      obtain ⟨path, more⟩ := ih next
      simp only [fillPieces_cons, took, putFor, forPiece]
      exact ⟨congrArg (Percent.encodeComponent first.2.value ++ ·) path, out.trans (more.cons first)⟩

theorem fillRoute_path (route : Text) (entries : List Entry) :
    (fillRoute route entries).1 = (placed route).flatMap fun p => putFor entries p.1 p.2 :=
  (fillPieces_eq (Waits.start entries) _).1

/-- Every entry is taken once, or left. -/
theorem numbered_perm (route : Text) (entries : List Entry) :
    (numbered entries).Perm (taken route entries ++ (fillRoute route entries).2) :=
  (fillPieces_eq (Waits.start entries) _).2

/-- The query is set off by a question mark, unless one stands in the base URL or in the path. -/
theorem build_url (base route : Text) (entries : List Entry) :
    (Target.build base route entries).url = base ++ (Target.build base route entries).path ++
      if (Target.build base route entries).query = [] then []
      else
        (if '?' ∈ base ++ (Target.build base route entries).path then '&' else '?') ::
          (Target.build base route entries).query := by
  simp only [Target.build, List.isEmpty_iff]
  split
  · exact (List.append_nil _).symm
  · rfl

end EndpointConsole.Request
