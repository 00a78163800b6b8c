import EndpointConsole.Proofs.Text.Cutting
import EndpointConsole.Route.Placeholder

/-!
Where the placeholders of a route are. A route is cut from left to right, and a
placeholder is taken wherever one begins (`Cut`); there is one way to do so, and it
is how routes are cut (`cut_iff`). Putting text without braces in the place of some
placeholders makes no new ones and moves none of the others (`Cut.refilled`): a brace
that begins no placeholder is closed at once or never, and stays so.
-/
namespace EndpointConsole.Route
open Text (Piece)

/-- What may stand between the braces of a placeholder. -/
structure IsContent (content : Text) : Prop where
  nonempty : content ≠ []
  unclosed : '\x7d' ∉ content

/-- A placeholder begins the text. -/
def Opens (s : Text) : Prop := ∃ content after, IsContent content ∧ s = placeholderText content ++ after

variable {s content after : Text} {pieces rest : List (Piece Text)}

theorem placeholderText_append (content after : Text) :
    placeholderText content ++ after = '\x7b' :: (content ++ '\x7d' :: after) := by
  simp [placeholderText]

theorem readPlaceholder?_eq_some_iff :
    readPlaceholder? s = some (content, after) ↔ IsContent content ∧ s = placeholderText content ++ after := by
  rw [placeholderText_append]
  cases s with
  | nil => simp [readPlaceholder?]
  | cons c rest =>
    rw [readPlaceholder?]
    constructor
    · intro read
      split at read
      · next brace =>
        split at read
        · next inner behind cut =>
          obtain ⟨whole, absent⟩ := Text.cutAt?_eq_some_iff.mp cut
          split at read
          · cases read
          · next nonempty =>
            cases read
            exact ⟨⟨by simpa using nonempty, absent⟩, by rw [brace, whole]⟩
        · cases read
      · cases read
    · rintro ⟨isContent, whole⟩
      obtain ⟨rfl, rfl⟩ := List.cons.inj whole
      have nonempty : ¬content.isEmpty = true := by simpa using isContent.nonempty
      rw [if_pos rfl, Text.cutAt?_append isContent.unclosed]
      exact if_neg nonempty

theorem readPlaceholder?_eq_none_iff : readPlaceholder? s = none ↔ ¬Opens s := by
  rw [Option.eq_none_iff_forall_ne_some]
  constructor
  · rintro none ⟨content, after, isContent, whole⟩
    exact none (content, after) (readPlaceholder?_eq_some_iff.mpr ⟨isContent, whole⟩)
  · rintro closed ⟨content, after⟩ read
    exact closed ⟨content, after, readPlaceholder?_eq_some_iff.mp read⟩

/-- A placeholder begins at an opening brace that is closed later on, but not at once. -/
theorem opens_cons_iff {c : Char} :
    Opens (c :: s) ↔ c = '\x7b' ∧ '\x7d' ∈ s ∧ s.head? ≠ some '\x7d' := by
  constructor
  · rintro ⟨content, after, isContent, whole⟩
    rw [placeholderText_append] at whole
    obtain ⟨rfl, rfl⟩ := List.cons.inj whole
    obtain ⟨d, more, rfl⟩ := List.exists_cons_of_ne_nil isContent.nonempty
    have first : d ≠ '\x7d' := fun same => isContent.unclosed (same ▸ List.mem_cons_self)
    simp [first]
  · rintro ⟨rfl, closed, notAtOnce⟩
    obtain ⟨content, after, rfl, absent⟩ := List.eq_append_cons_of_mem closed
    refine ⟨content, after, ⟨?_, absent⟩, (placeholderText_append content after).symm⟩
    rintro rfl
    exact notAtOnce rfl

/-- A text cut from left to right: a placeholder wherever one begins, and every other character by
    itself. -/
inductive Cut : Text → List (Piece Text) → Prop
  | nil : Cut [] []
  | char {c : Char} {s : Text} {pieces : List (Piece Text)} :
    ¬Opens (c :: s) → Cut s pieces → Cut (c :: s) (.char c :: pieces)
  | found {content s : Text} {pieces : List (Piece Text)} :
    IsContent content → Cut s pieces → Cut (placeholderText content ++ s) (.found content :: pieces)

theorem placeholderPieces_char {c : Char} (closed : ¬Opens (c :: s)) :
    placeholderPieces (c :: s) = .char c :: placeholderPieces s := by
  rw [placeholderPieces, Text.pieces]
  simp only [readPlaceholder?_eq_none_iff.mpr closed]
  rfl

theorem placeholderPieces_found (isContent : IsContent content) (after : Text) :
    placeholderPieces (placeholderText content ++ after) = .found content :: placeholderPieces after := by
  have read : readPlaceholder? (placeholderText content ++ after) = some (content, after) :=
    readPlaceholder?_eq_some_iff.mpr ⟨isContent, rfl⟩
  rw [placeholderText_append] at read ⊢
  rw [placeholderPieces, Text.pieces]
  simp only [read]
  rw [if_pos (by simp only [List.length_cons, List.length_append]; omega)]
  rfl

theorem cut_placeholderPieces (s : Text) : Cut s (placeholderPieces s) := by
  by_cases opens : Opens s
  · obtain ⟨content, after, isContent, rfl⟩ := opens
    have shorter : after.length < (placeholderText content ++ after).length := by
      rw [placeholderText_append, List.length_cons, List.length_append, List.length_cons]
      omega
    rw [placeholderPieces_found isContent]
    exact .found isContent (cut_placeholderPieces after)
  · cases s with
    | nil =>
      rw [placeholderPieces, Text.pieces]
      exact .nil
    | cons c rest =>
      rw [placeholderPieces_char opens]
      exact .char opens (cut_placeholderPieces rest)
termination_by s.length

/-- A text is cut in one way only. -/
theorem cut_iff : Cut s pieces ↔ placeholderPieces s = pieces := by
  constructor
  · intro cut
    induction cut with
    | nil => rw [placeholderPieces, Text.pieces]
    | char closed _ ih => rw [placeholderPieces_char closed, ih]
    | found isContent _ ih => rw [placeholderPieces_found isContent, ih]
  · rintro rfl
    exact cut_placeholderPieces s

/-- The text that pieces were cut from. -/
def written (pieces : List (Piece Text)) : Text := Text.fill placeholderText pieces

theorem Cut.written_eq (cut : Cut s pieces) : written pieces = s := by
  induction cut with
  | nil => rfl
  | char _ _ ih => exact congrArg (_ :: ·) ih
  | found _ _ ih => exact congrArg (_ ++ ·) ih

theorem written_append (first second : List (Piece Text)) :
    written (first ++ second) = written first ++ written second := by
  induction first with
  | nil => rfl
  | cons piece rest ih =>
    cases piece with
    | char c => exact congrArg (c :: ·) ih
    | found content => exact (congrArg (placeholderText content ++ ·) ih).trans (List.append_assoc _ _ _).symm

theorem written_found (content : Text) : written [.found content] = placeholderText content := List.append_nil _

theorem written_chars (s : Text) : written (s.map .char) = s := by
  induction s with
  | nil => rfl
  | cons c rest ih => exact congrArg (c :: ·) ih

/-- Some placeholders have given way to text without braces, and everything else is as before. -/
inductive Refilled : List (Piece Text) → List (Piece Text) → Prop
  | nil : Refilled [] []
  | kept {pieces rest : List (Piece Text)} (piece : Piece Text) :
    Refilled pieces rest → Refilled (piece :: pieces) (piece :: rest)
  | filled {pieces rest : List (Piece Text)} (content : Text) {value : Text} :
    '\x7b' ∉ value → '\x7d' ∉ value → Refilled pieces rest →
      Refilled (.found content :: pieces) (value.map .char ++ rest)

theorem Cut.chars {value : Text} (absent : '\x7b' ∉ value) (cut : Cut s pieces) :
    Cut (value ++ s) (value.map .char ++ pieces) := by
  induction value with
  | nil => exact cut
  | cons c more ih =>
    rw [List.mem_cons, not_or] at absent
    exact .char (fun opens => absent.1 (opens_cons_iff.mp opens).1.symm) (ih absent.2)

/-- Where a closing brace comes later, one came later before. -/
theorem Refilled.closed (refilled : Refilled pieces rest) (closed : '\x7d' ∈ written rest) :
    '\x7d' ∈ written pieces := by
  induction refilled with
  | nil => exact closed
  | @kept pieces rest piece _ ih =>
    rw [← List.singleton_append, written_append, List.mem_append] at closed ⊢
    exact closed.imp_right ih
  | @filled pieces rest content value _ absent _ ih =>
    rw [written_append, written_chars, List.mem_append] at closed
    rw [← List.singleton_append, written_append, List.mem_append]
    exact .inr (ih (closed.resolve_left absent))

/-- A brace that was closed at once still is. -/
theorem Refilled.closed_at_once (refilled : Refilled pieces rest) (atOnce : (written pieces).head? = some '\x7d') :
    (written rest).head? = some '\x7d' := by
  cases refilled with
  | nil => exact atOnce
  | kept piece _ =>
    cases piece with
    | char c => exact atOnce
    | found content => exact absurd atOnce (by simp [written, Text.fill, placeholderText])
  | filled content _ _ _ => exact absurd atOnce (by simp [written, Text.fill, placeholderText])

/-- The pieces that were not filled are found where they were. -/
theorem Cut.refilled (cut : Cut s pieces) (refilled : Refilled pieces rest) : Cut (written rest) rest := by
  induction refilled generalizing s with
  | nil => exact .nil
  | @kept pieces rest piece refilled ih =>
    cases cut with
    | char closed cut =>
      refine .char ?_ (ih cut)
      intro opens
      obtain ⟨brace, later, notAtOnce⟩ := opens_cons_iff.mp opens
      apply closed
      rw [opens_cons_iff, ← cut.written_eq]
      exact ⟨brace, refilled.closed later, fun atOnce => notAtOnce (refilled.closed_at_once atOnce)⟩
    | found isContent cut => exact .found isContent (ih cut)
  | @filled pieces rest content value absent _ _ ih =>
    cases cut with
    | found _ cut =>
      rw [written_append, written_chars]
      exact (ih cut).chars absent

/-- The name that a placeholder is filled under. Characters have none. -/
def nameOf : Piece Text → Text
  | .char _ => []
  | .found content => placeholderName content

theorem placeholderNames_eq (s : Text) :
    placeholderNames s = ((placeholderPieces s).map nameOf).filter fun name => !name.isEmpty := by
  rw [placeholderNames]
  induction placeholderPieces s with
  | nil => rfl
  | cons piece rest ih =>
    cases piece with
    | char c => exact ih
    | found content => simp only [Text.found, List.map_cons, nameOf, List.filter_cons, ih]

end EndpointConsole.Route
