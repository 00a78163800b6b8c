import EndpointConsole.Proofs.Parameter.Literals
import EndpointConsole.Proofs.Parameter.Recovered

/-!
Where literals stand in a parameter list, by what the scanners make of the text before them
(`Position.Within`). Text in which some brackets are still open leaves a scanner in the context of
these brackets (`Opening.scan`). So the scanners come to a literal as they should behind any
parameters before it and any beginning of a default (`default_within`), and behind any sections and
attributes before it and any beginning of an argument (`argument_within`).
-/
namespace EndpointConsole.Parameter
open Written
open Text (trimStart)

/-- Sections of attributes of which the last is open, and what that one holds. -/
inductive OpenSection : Text → Text → Prop
  | here {body : Text} (unclosed : cutAtBracket? 1 body = none) : OpenSection ('[' :: body) body
  | later {s closed left body : Text} (cut : cutAtBracket? 1 s = some (closed, left))
      (next : OpenSection (trimStart left) body) : OpenSection ('[' :: s) body

theorem OpenSection.trimStart {s body : Text} (opened : OpenSection s body) : trimStart s = s := by
  cases opened <;> rfl

/-- Where a literal may stand in a parameter. -/
inductive Position where
  | default
  | argument
  deriving DecidableEq

/-- A parameter has come to such a position: to the default, or to an argument in a section of attributes. -/
def Position.Reached : Position → Text → Prop
  | default, s => (beforeEquals 0 false s).2 = true
  | argument, s => (beforeEquals 0 false s).2 = false ∧ quotesOpen false s = false ∧
      ∃ body, OpenSection s body ∧ literalAfter false (Char.ofNat 0) body = false ∧ '(' ∈ openPiece body

/-- A list has come to such a position in some text that is gathered. -/
def Position.Within (position : Position) (s : Text) : Prop :=
  ∃ before list, s = before ++ '(' :: list ∧ '(' ∉ before ∧ literalAfter false (Char.ofNat 0) list = false ∧
    position.Reached (trimStart (openPiece list))

variable {separators fewer : List Char} {context : List Bracket} {a s t piece : Text}

/-- Text with some brackets still open, the innermost one first, and balanced text between them. -/
inductive Opening (separators : List Char) : List Bracket → Text → Prop
  | balanced {s : Text} (balanced : Balanced separators s) : Opening separators [] s
  | opened {context : List Bracket} {s inner : Text} (before : Opening separators context s) (b : Bracket)
      (inside : Balanced [] inner) : Opening separators (b :: context) (s ++ b.opening :: inner)

namespace Opening

theorem fewer_separators (opening : Opening separators context s) (subset : fewer ⊆ separators) :
    Opening fewer context s := by
  induction opening with
  | balanced balanced => exact .balanced (balanced.fewer_separators subset)
  | opened _ b inside ih => exact .opened ih b inside

theorem prepend (balanced : Balanced separators a) (opening : Opening separators context s) :
    Opening separators context (a ++ s) := by
  induction opening with
  | balanced after => exact .balanced (balanced.append after)
  | opened _ b inside ih =>
    rw [← List.append_assoc]
    exact .opened ih b inside

/-- Within an open bracket separators do not matter. -/
theorem append {b : Bracket} {more : List Bracket} (first : Opening separators (b :: context) s)
    (second : Opening [] more t) : Opening separators (more ++ b :: context) (s ++ t) := by
  induction second with
  | balanced after =>
    cases first with
    | opened before b inside =>
      rw [List.append_assoc, List.cons_append]
      exact .opened before b (inside.append after)
  | opened _ b inside ih =>
    rw [← List.append_assoc]
    exact .opened ih b inside

/-- A scanner passes over the text, and is in the context of the open brackets behind it. -/
theorem scan {α : Type} (S : Scanner α) (opening : Opening separators context s) (kept : S.separators ⊆ separators)
    (rest : Text) : S.scan [] (s ++ rest) = s.foldr S.keep (S.scan context rest) := by
  induction opening generalizing rest with
  | balanced balanced => exact S.scan_balanced balanced [] (fun _ => kept) rest
  | @opened context s inner _ b inside ih =>
    rw [List.append_assoc, List.cons_append, ih, S.scan_opening,
      S.scan_balanced inside (b :: context) fun top => absurd top (List.cons_ne_nil b context), List.foldr_append,
      List.foldr_cons]

/-- What it gives for the whole text. -/
theorem scan_whole {α : Type} (S : Scanner α) (opening : Opening separators context s) (kept : S.separators ⊆ separators) :
    S.scan [] s = s.foldr S.keep (S.scan context []) := by
  have whole := opening.scan S kept []
  rwa [List.append_nil] at whole

end Opening

/-- Whether a literal is open behind a text, for the scanners that mind backslashes. -/
def literalScanner : Scanner Bool where
  scan _ s := literalAfter false ' ' s
  literal _ s := literalAfter true ' ' s
  keep _ := id
  separators := []
  scan_char {c _} plain _ rest := by
    have outside : literalNext false ' ' c = false := by simpa [literalNext] using (plain_iff.mp plain).2.2
    rw [literalAfter, outside, literalAfter_outside c ' ']
    rfl
  scan_opening b _ rest := by
    have outside : literalNext false ' ' b.opening = false := by simp [literalNext]
    rw [literalAfter, outside, literalAfter_outside b.opening ' ']
    rfl
  scan_closing b _ rest := by
    have outside : literalNext false ' ' b.closing = false := by simp [literalNext]
    rw [literalAfter, outside, literalAfter_outside b.closing ' ']
    rfl
  scan_quote _ rest := by
    cases rest <;> rfl
  literal_char {c} inside _ rest := by
    have plain := (literalChar_iff.mp inside).2
    have goesOn : literalNext true ' ' c = true := by simp [literalNext, not_closesLiteral inside]
    rw [literalAfter, goesOn]
    cases rest with
    | nil => rfl
    | cons d more =>
      rw [literalAfter, literalNext, if_pos rfl, closesLiteral_congr (q := ' ') plain (by decide)]
      rfl
  literal_quote _ rest := literalAfter_outside '"' ' ' rest

/-- Whether a literal is open behind a text, for the search for an equals sign. -/
def quoteScanner : Scanner Bool where
  scan _ s := quotesOpen false s
  literal _ s := quotesOpen true s
  keep _ := id
  separators := []
  scan_char plain _ rest := by
    rw [quotesOpen, beq_eq_false_iff_ne.mpr (plain_iff.mp plain).2.2]
    rfl
  scan_opening b _ rest := by
    rw [quotesOpen, beq_eq_false_iff_ne.mpr b.opening_ne_quote]
    rfl
  scan_closing b _ rest := by
    rw [quotesOpen, beq_eq_false_iff_ne.mpr b.closing_ne_quote]
    rfl
  scan_quote _ rest := rfl
  literal_char inside _ rest := by
    rw [quotesOpen, beq_eq_false_iff_ne.mpr (plain_iff.mp (literalChar_iff.mp inside).1).2.2]
    rfl
  literal_quote _ rest := rfl

theorem foldr_kept (s : Text) (x : Bool) : s.foldr (fun _ => id) x = x := by
  induction s with
  | nil => rfl
  | cons c rest ih => exact ih

theorem Opening.literalAfter (opening : Opening separators context s) (previous : Char) :
    literalAfter false previous s = false := by
  rw [literalAfter_outside previous ' ']
  exact (opening.scan_whole literalScanner (List.nil_subset _)).trans (foldr_kept s false)

theorem Opening.quotesOpen (opening : Opening separators context s) : quotesOpen false s = false :=
  (opening.scan_whole quoteScanner (List.nil_subset _)).trans (foldr_kept s false)

/-- Behind some pieces and commas, the open piece is what follows them. -/
theorem openPiece_pieces {pieces : List Text} (each : ∀ p ∈ pieces, Balanced [','] p)
    (opening : Opening [','] context piece) : openPiece (pieces.flatMap (· ++ [',']) ++ piece) = piece := by
  have cut : splitFrom [] 0 false ' ' (pieces.flatMap (· ++ [',']) ++ piece) = pieces ++ [piece] := by
    induction pieces with
    | nil =>
      have whole := congrFun (opening.scan_whole commaScanner (List.Subset.refl _)) []
      rw [foldr_commas, List.append_nil] at whole
      refine whole.trans ?_
      change splitFrom piece.reverse context.length false ' ' [] = [piece]
      rw [splitFrom, List.reverse_reverse]
    | cons p rest ih =>
      obtain ⟨here, later⟩ := List.forall_mem_cons.mp each
      rw [List.flatMap_cons, List.append_assoc, List.append_assoc, splitFrom_balanced here, List.append_nil,
        List.singleton_append, List.cons_append, ← ih later]
      change p.reverse.reverse :: splitFrom [] 0 false ',' _ = _
      rw [List.reverse_reverse, splitFrom_outside ',' ' ']
  rw [openPiece, splitFrom_outside _ ' ', cut]
  simp

/-- Parameters before, and their commas. -/
def leading (params : List Written) : Text := (params.map text).flatMap (· ++ [','])

theorem balanced_leading (params : List Written) : Balanced [] (leading params) :=
  .flatMap (List.forall_mem_map.mpr fun p _ =>
    (p.balanced_text.fewer_separators (List.nil_subset _)).append (.char rfl List.not_mem_nil .nil))

/-- A parameter behind others is at a position once it has come there. -/
theorem within_of_reached {position : Position} {start : Text} (absent : '(' ∉ start) (params : List Written)
    (opening : Opening [','] context piece) (reached : position.Reached (Text.trimStart piece)) :
    position.Within (start ++ '(' :: (leading params ++ piece)) := by
  have whole := (opening.fewer_separators (List.nil_subset _)).prepend (balanced_leading params)
  refine ⟨start, leading params ++ piece, rfl, absent, whole.literalAfter _, ?_⟩
  rw [leading, openPiece_pieces (List.forall_mem_map.mpr fun p _ => p.balanced_text) opening]
  exact reached

/-- The beginning of the default of a parameter. -/
def defaultBeginning (p : Written) (value : Text) : Text := p.before.text ++ (p.core ++ p.after.text ++ '=' :: value)

/-- A literal in a default is at such a position, whatever stands before it in the default and in the list. -/
theorem default_within {start : Text} (absent : '(' ∉ start) (params : List Written) (p : Written) {value : Text}
    (opening : Opening [','] context value) :
    Position.default.Within (start ++ '(' :: (leading params ++ defaultBeginning p value)) := by
  have equals : Balanced [','] ['='] := .char rfl (by decide) .nil
  have declared : Balanced [','] (p.before.text ++ (p.core ++ p.after.text ++ ['='])) :=
    (p.before.balanced.fewer_separators (by simp)).append
      (((p.balanced_core.append p.after.balanced).fewer_separators (by simp)).append equals)
  have whole := opening.prepend declared
  have same : p.before.text ++ (p.core ++ p.after.text ++ ['=']) ++ value = defaultBeginning p value := by
    simp [defaultBeginning]
  rw [same] at whole
  refine within_of_reached absent params whole ?_
  have trimmed : trimStart (defaultBeginning p value) = p.core ++ p.after.text ++ '=' :: value := by
    rw [defaultBeginning, Text.trimStart_blank_append p.before.blank, List.append_assoc,
      p.solid_core.trimStart_append]
  rw [Position.Reached, trimmed,
    beforeEquals_balanced ((p.balanced_core.append p.after.balanced).fewer_separators (by simp))]
  rfl

/-- The beginning of a section: attributes and their commas, and then an attribute with the beginning of its
    arguments. -/
def sectionBeginning (attributes : List Attribute) (a : Attribute) (arguments : Text) : Text :=
  (attributes.map Attribute.text).flatMap (· ++ [',']) ++
    (a.before.text ++ (a.name.text ++ a.between.text) ++ '(' :: arguments)

/-- The beginning of a parameter with such a section behind others. -/
def argumentBeginning (before : Gap) (sections : List Section) (attributes : List Attribute) (a : Attribute)
    (arguments : Text) : Text :=
  before.text ++ (sections.flatMap Section.text ++ '[' :: sectionBeginning attributes a arguments)

theorem Opening.call (a : Attribute) {arguments : Text} (opening : Opening [] context arguments) :
    Opening [',', '='] (context ++ [.round]) (a.before.text ++ (a.name.text ++ a.between.text) ++ '(' :: arguments) := by
  have name : Balanced [',', '='] (a.before.text ++ (a.name.text ++ a.between.text)) :=
    a.before.balanced.append ((balanced_name a.name.chars).append a.between.balanced)
  have called := (Opening.opened (.balanced name) .round .nil).append opening
  rwa [List.append_assoc] at called

theorem Opening.section (attributes : List Attribute) (a : Attribute) {arguments : Text}
    (opening : Opening [] context arguments) :
    Opening [] (context ++ [.round]) (sectionBeginning attributes a arguments) := by
  have attributes : Balanced [] ((attributes.map Attribute.text).flatMap (· ++ [','])) :=
    .flatMap (List.forall_mem_map.mpr fun a _ =>
      (a.balanced.fewer_separators (List.nil_subset _)).append (.char rfl List.not_mem_nil .nil))
  exact ((opening.call a).fewer_separators (List.nil_subset _)).prepend attributes

theorem openSection_sections (sections : List Section) {body : Text} (unclosed : cutAtBracket? 1 body = none) :
    OpenSection (sections.flatMap Section.text ++ '[' :: body) body := by
  induction sections with
  | nil => exact .here unclosed
  | cons first later ih =>
    have next : trimStart (first.after.text ++ (later.flatMap Section.text ++ '[' :: body)) =
        later.flatMap Section.text ++ '[' :: body := by
      rw [Text.trimStart_blank_append first.after.blank]
      exact ih.trimStart
    rw [List.flatMap_cons, Section.text, List.append_assoc, List.append_assoc, List.cons_append, List.cons_append]
    exact .later (cutAtBracket?_section first.balanced_body _) (next.symm ▸ ih)

/-- A literal in an argument of an attribute is at such a position, whatever stands before it in the argument, in
    the section, in the parameter and in the list. -/
theorem argument_within {start : Text} (absent : '(' ∉ start) (params : List Written) (before : Gap)
    (sections : List Section) (attributes : List Attribute) (a : Attribute) {arguments : Text}
    (opening : Opening [] context arguments) :
    Position.argument.Within
      (start ++ '(' :: (leading params ++ argumentBeginning before sections attributes a arguments)) := by
  have body := opening.section attributes a
  have closed : Balanced [',', '='] (sections.flatMap Section.text) := .flatMap fun s _ => s.balanced
  have parameter := (Opening.opened (.balanced closed) .square .nil).append body
  rw [List.append_assoc (sections.flatMap Section.text), List.singleton_append] at parameter
  have comma : [','] ⊆ [',', '='] := by simp
  have whole : Opening [','] _ (argumentBeginning before sections attributes a arguments) :=
    (parameter.prepend before.balanced).fewer_separators comma
  refine within_of_reached absent params whole ?_
  have unclosed : cutAtBracket? 1 (sectionBeginning attributes a arguments) = none := by
    have cut := body.scan_whole sectionScanner (List.Subset.refl _)
    rw [foldr_sections] at cut
    exact cut
  have opened := openSection_sections sections unclosed
  have trimmed : trimStart (argumentBeginning before sections attributes a arguments) =
      sections.flatMap Section.text ++ '[' :: sectionBeginning attributes a arguments := by
    rw [argumentBeginning, Text.trimStart_blank_append before.blank]
    exact opened.trimStart
  rw [trimmed]
  refine ⟨?_, parameter.quotesOpen, _, opened, body.literalAfter _, ?_⟩
  · have read := parameter.scan_whole equalsScanner (by simp [equalsScanner])
    rw [foldr_equals] at read
    exact congrArg Prod.snd read
  · rw [sectionBeginning, openPiece_pieces (List.forall_mem_map.mpr fun a _ => a.balanced.fewer_separators comma)
      ((opening.call a).fewer_separators comma)]
    simp

end EndpointConsole.Parameter
