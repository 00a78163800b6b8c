import EndpointConsole.Proofs.Endpoint.Layout
import Mathlib.Data.Nat.Find

/-!
Comments that fill a line. The searches for the attributes of an action and for a
version pass over them, whatever they say (`actionOf?_blanked`, `versionIn?_blanked`).
The searches for a method, for its class, for the route of the class and for the
parameters do not: what a method reads of other lines is `Reads`. If no method reads
a comment, blanking comments changes nothing just if none of them is reported as an
endpoint itself (`scan_blanked_iff`); comments that are read do show (`comments_read`).
-/
namespace EndpointConsole

namespace Source
open Text

/-! ### Comments and blank lines -/

/-- A line with a comment on it and nothing else, which has no part in a block comment. -/
def isLineComment (line : Text) : Bool :=
  startsWith "//".toList (trim line) && !contains "/*".toList (trim line) && !contains "*/".toList (trim line)

/-- A line that is left as it is, or a comment that is blanked. -/
inductive LeftOrBlanked : Text → Text → Prop where
  | left (line : Text) : LeftOrBlanked line line
  | blanked {line line' : Text} (comment : isLineComment line = true) (blank : IsBlank line') : LeftOrBlanked line line'

theorem blockAfter_of_unmarked {s : Text} (unopened : contains "/*".toList s = false)
    (unclosed : contains "*/".toList s = false) : blockAfter s = none := by
  induction s with
  | nil => rfl
  | cons c rest ih =>
    simp only [← Bool.not_eq_true, contains_iff] at unopened unclosed ih
    rw [blockAfter_cons, ih (fun inside => unopened (inside.trans (List.suffix_cons c rest).isInfix))
      (fun inside => unclosed (inside.trans (List.suffix_cons c rest).isInfix)), Option.none_or]
    unfold markAt
    split
    · next first =>
      obtain ⟨more, rfl⟩ := List.head?_eq_some_iff.mp first
      exact absurd (List.prefix_append "/*".toList more).isInfix unopened
    · next first =>
      obtain ⟨more, rfl⟩ := List.head?_eq_some_iff.mp first
      exact absurd (List.prefix_append "*/".toList more).isInfix unclosed
    · rfl

theorem trim_of_blank {line : Text} (blank : IsBlank line) : trim line = [] := by
  rw [trim, trimStart_of_blank blank]
  rfl

theorem starts_of_comment {line : Text} (comment : isLineComment line = true) : startsWith "//".toList (trim line) = true := by
  rw [isLineComment, Bool.and_eq_true, Bool.and_eq_true] at comment
  exact comment.1.1

theorem blockAfter_of_comment {line : Text} (comment : isLineComment line = true) : blockAfter line = none := by
  rw [isLineComment, Bool.and_eq_true, Bool.and_eq_true, Bool.not_eq_true', Bool.not_eq_true'] at comment
  rw [← blockAfter_trim, blockAfter_of_unmarked comment.1.2 comment.2]

theorem blockAfter_of_blank {line : Text} (blank : IsBlank line) : blockAfter line = none := by
  rw [← blockAfter_trim, trim_of_blank blank]
  rfl

theorem LeftOrBlanked.blockAfter {line line' : Text} (related : LeftOrBlanked line line') :
    Source.blockAfter line' = Source.blockAfter line := by
  cases related with
  | left => rfl
  | blanked comment blank => rw [blockAfter_of_comment comment, blockAfter_of_blank blank]

end Source

/-! ### Searches that pass over comments -/

namespace Route
open Source

theorem insideBlock_blanked {lines lines' : List Text} (related : List.Forall₂ LeftOrBlanked lines lines') :
    insideBlock lines' = insideBlock lines := by
  induction related with
  | nil => rfl
  | cons head _ ih => rw [insideBlock, insideBlock, head.blockAfter, ih]

theorem isCommentedOut_blanked {line : Text} {above above' : List Text} (related : List.Forall₂ LeftOrBlanked above above') :
    isCommentedOut line above' = isCommentedOut line above := by
  have window := insideBlock_blanked (.cons (.left line) (List.forall₂_take commentLookback related))
  rw [isCommentedOut, isCommentedOut, window]

theorem isCommentedOut_comment {line : Text} (comment : isLineComment line = true) (above : List Text) :
    isCommentedOut line above = true := by
  simp only [isCommentedOut, starts_of_comment comment, Bool.true_or]

/-- A comment is passed over by the search for a version. -/
theorem versionIn?_comment {line : Text} (comment : isLineComment line = true) (window above : List Text) (head : Text) :
    versionIn? (line :: window) (head :: above) = versionIn? window above := by
  rw [versionIn?, isCommentedOut_comment comment, if_pos rfl]

/-- So is a blank line. -/
theorem versionIn?_blank {line : Text} (blank : Text.IsBlank line) (window above : List Text) (head : Text) :
    versionIn? (line :: window) (head :: above) = versionIn? window above := by
  have nothing : apiVersionAttribute? [] = none := by decide +kernel
  have unclassed : hasClassKeyword [] = false := by decide +kernel
  rw [versionIn?]
  split
  · rfl
  · simp only [trim_of_blank blank, nothing, unclassed, Bool.false_eq_true, if_false]

theorem versionIn?_blanked {window window' above above' : List Text}
    (searched : List.Forall₂ LeftOrBlanked window window') (related : List.Forall₂ LeftOrBlanked above above') :
    versionIn? window' above' = versionIn? window above := by
  induction searched generalizing above above' with
  | nil => rw [versionIn?, versionIn?]
  | @cons line line' window window' head _ ih =>
    cases related with
    | nil => rw [versionIn?.eq_2 _ (List.cons_ne_nil _ _), versionIn?.eq_2 _ (List.cons_ne_nil _ _)]
    | @cons first first' above above' _ related =>
      cases head with
      | blanked comment blank => rw [versionIn?_comment comment, versionIn?_blank blank, ih related]
      | left => rw [versionIn?, versionIn?, isCommentedOut_blanked related, ih related]

end Route

namespace Detect
open Source
open Route (Composer)

theorem isSkipped_comment {line : Text} (comment : isLineComment line = true) : isSkipped (Text.trim line) = true := by
  simp only [isSkipped, isCommentLine, starts_of_comment comment, Bool.true_or, Bool.or_true]

theorem isSkipped_blank {line : Text} (blank : Text.IsBlank line) : isSkipped (Text.trim line) = true := by
  rw [trim_of_blank blank]
  rfl

theorem collect_blanked {above above' : List Text} (related : List.Forall₂ LeftOrBlanked above above') (a : Action) :
    a.collect (above'.map Text.trim) = a.collect (above.map Text.trim) := by
  induction related generalizing a with
  | nil => rfl
  | cons head _ ih =>
    rw [List.map_cons, List.map_cons, Action.collect, Action.collect]
    cases head with
    | left => simp only [ih]
    | blanked comment blank => rw [if_pos (isSkipped_blank blank), if_pos (isSkipped_comment comment), ih]

theorem linesAbove_blanked {lines lines' : List Text} (related : List.Forall₂ LeftOrBlanked lines lines') (n : Nat) :
    List.Forall₂ LeftOrBlanked (linesAbove lines n) (linesAbove lines' n) :=
  List.rel_reverse (List.forall₂_take n related)

theorem actionOf?_blanked {lines lines' : List Text} (related : List.Forall₂ LeftOrBlanked lines lines') (m : Nat)
    (route : Option Text) : actionOf? lines' m route = actionOf? lines m route := by
  rw [actionOf?, actionOf?, collect_blanked (List.forall₂_take attributeLookback (linesAbove_blanked related m))]

/-! ### Searches that read comments -/

/-- Line `i` is the nearest line above line `n` that has a property. -/
structure Nearest (has : Text → Bool) (lines : List Text) (n i : Nat) : Prop where
  above : i < n
  found : ∃ line, lines[i]? = some line ∧ has line = true
  nearest : ∀ j line, i < j → j < n → lines[j]? = some line → has line = false

def declaresController (line : Text) : Bool := (controllerClass? line).isSome

def givesRoute (line : Text) : Bool := (routeAttribute? (Text.trim line)).isSome

/-- The lines whose comments count for the method on line `m`: the line of its class, the line of the
    route of its class, and those among which its parameters are not complete yet. -/
inductive Reads (lines : List Text) (m : Nat) : Nat → Prop where
  | controller {i : Nat} (nearest : Nearest declaresController lines (m + 1) i) : Reads lines m i
  | route {i j : Nat} (class_line : Nearest declaresController lines (m + 1) j) (nearest : Nearest givesRoute lines j i)
      (near : j ≤ i + controllerRouteLookback) : Reads lines m i
  | parameters {i : Nat} (below : m < i) (near : i < m + Parameter.listLookahead)
      (incomplete : Parameter.listAt? (lines.take i) m = none) : Reads lines m i

/-- Lines of which some, comments all of them, are blanked. -/
structure Blanking (gone : Nat → Prop) (lines lines' : List Text) : Prop where
  length : lines'.length = lines.length
  left : ∀ i, ¬gone i → lines'[i]? = lines[i]?
  blanked : ∀ i, gone i → ∃ line line', lines[i]? = some line ∧ lines'[i]? = some line' ∧
    isLineComment line = true ∧ Text.IsBlank line'

variable {gone : Nat → Prop} {lines lines' : List Text}

theorem Blanking.related (b : Blanking gone lines lines') : List.Forall₂ LeftOrBlanked lines lines' := by
  rw [List.forall₂_iff_get]
  refine ⟨b.length.symm, fun i inside inside' => ?_⟩
  simp only [List.get_eq_getElem]
  by_cases blanked : gone i
  · obtain ⟨line, line', held, held', comment, blank⟩ := b.blanked i blanked
    rw [(List.getElem?_eq_some_iff.mp held).2, (List.getElem?_eq_some_iff.mp held').2]
    exact .blanked comment blank
  · have same := b.left i blanked
    rw [List.getElem?_eq_getElem inside, List.getElem?_eq_getElem inside', Option.some.injEq] at same
    rw [same]
    exact .left _

theorem linesAbove_succ {n : Nat} {line : Text} (held : lines[n]? = some line) :
    linesAbove lines (n + 1) = line :: linesAbove lines n := by
  rw [linesAbove, List.take_add_one, held, List.reverse_append]
  rfl

theorem Nearest.first {has : Text → Bool} {n : Nat} {line : Text} (held : lines[n]? = some line) (here : has line = true) :
    Nearest has lines (n + 1) n :=
  ⟨Nat.lt_succ_self n, ⟨line, held, here⟩, fun _ _ below above _ => absurd below (by omega)⟩

/-- A line without the property may be passed over. -/
theorem Nearest.next {has : Text → Bool} {n i : Nat} (nearest : Nearest has lines n i)
    (bare : ∀ line, lines[n]? = some line → has line = false) : Nearest has lines (n + 1) i := by
  refine ⟨Nat.lt_succ_of_lt nearest.above, nearest.found, fun j line below above held => ?_⟩
  rcases Nat.lt_succ_iff_lt_or_eq.mp above with upper | rfl
  · exact nearest.nearest j line below upper held
  · exact bare line held

/-- A line of the document, before and after blanking. -/
inductive Blanking.Line (gone : Nat → Prop) (lines lines' : List Text) (n : Nat) : Prop where
  | left {line : Text} (held : lines[n]? = some line) (held' : lines'[n]? = some line)
  | blanked {line line' : Text} (blanked : gone n) (held : lines[n]? = some line) (held' : lines'[n]? = some line')
      (blank : Text.IsBlank line')

theorem Blanking.line (b : Blanking gone lines lines') {n : Nat} (inside : n < lines.length) :
    Blanking.Line gone lines lines' n := by
  by_cases blanked : gone n
  · obtain ⟨line, line', held, held', _, blank⟩ := b.blanked n blanked
    exact .blanked blanked held held' blank
  · have held := List.getElem?_eq_getElem inside
    exact .left held ((b.left n blanked).trans held)

/-- A search upward for the nearest line that gives something finds the same, if the nearest such line
    is left. -/
theorem findSome?_blanked {α : Type} {give : Text → Option α} (b : Blanking gone lines lines')
    (nothing : ∀ line, Text.IsBlank line → give line = none) {n k : Nat} (inside : n ≤ lines.length)
    (kept : ∀ i, Nearest (fun line => (give line).isSome) lines n i → n ≤ i + k → ¬gone i) :
    ((linesAbove lines' n).take k).findSome? give = ((linesAbove lines n).take k).findSome? give := by
  induction n generalizing k with
  | zero => rfl
  | succ n ih =>
    cases k with
    | zero => rw [List.take_zero, List.take_zero]
    | succ k =>
      have above {line : Text} (held : lines[n]? = some line) (bare : give line = none) :
          ((linesAbove lines' n).take k).findSome? give = ((linesAbove lines n).take k).findSome? give := by
        refine ih (Nat.le_of_succ_le inside) fun i nearest near => kept i (nearest.next fun other here => ?_) (by omega)
        rw [← Option.some.inj (held.symm.trans here), bare, Option.isSome_none]
      cases b.line inside with
      | left held held' =>
        rw [linesAbove_succ held, linesAbove_succ held', List.take_succ_cons, List.take_succ_cons, List.findSome?_cons,
          List.findSome?_cons]
        cases given : give _ with
        | some a => rfl
        | none => exact above held given
      | @blanked line line' blanked held held' blank =>
        have bare : give line = none := by
          by_contra given
          exact kept n (.first held (Option.isSome_iff_ne_none.mpr given)) (by omega) blanked
        rw [linesAbove_succ held, linesAbove_succ held', List.take_succ_cons, List.take_succ_cons, List.findSome?_cons,
          List.findSome?_cons, bare, nothing line' blank]
        exact above held bare

theorem controllerClass?_blank {line : Text} (blank : Text.IsBlank line) : controllerClass? line = none := by
  rw [← controllerClass?_trim, trim_of_blank blank]
  decide

theorem routeAttribute?_blank {line : Text} (blank : Text.IsBlank line) : routeAttribute? (Text.trim line) = none := by
  rw [trim_of_blank blank]
  decide

theorem not_declares {n : Nat} {line : Text} (held : lines[n]? = some line) (undeclared : controllerClass? line = none)
    (other : Text) (here : lines[n]? = some other) : declaresController other = false := by
  rw [declaresController, ← Option.some.inj (held.symm.trans here), undeclared, Option.isSome_none]

/-- A blanked line right above declares no class if the class is left. -/
theorem undeclared_of_gone {n : Nat} {line : Text} (class_kept : ∀ i, Nearest declaresController lines (n + 1) i → ¬gone i)
    (held : lines[n]? = some line) (blanked : gone n) : controllerClass? line = none := by
  by_contra declared
  exact class_kept n (.first held (Option.isSome_iff_ne_none.mpr declared)) blanked

/-- The search for a class, and for its route, finds the same. -/
theorem controllerIn?_blanked (b : Blanking gone lines lines') {n : Nat} (inside : n ≤ lines.length)
    (class_kept : ∀ i, Nearest declaresController lines n i → ¬gone i)
    (route_kept : ∀ j i, Nearest declaresController lines n j → Nearest givesRoute lines j i →
      j ≤ i + controllerRouteLookback → ¬gone i) :
    controllerIn? (linesAbove lines' n) = controllerIn? (linesAbove lines n) := by
  induction n with
  | zero => rfl
  | succ n ih =>
    have above {line : Text} (held : lines[n]? = some line) (undeclared : controllerClass? line = none) :
        controllerIn? (linesAbove lines' n) = controllerIn? (linesAbove lines n) := by
      have bare := not_declares held undeclared
      exact ih (Nat.le_of_succ_le inside) (fun i nearest => class_kept i (nearest.next bare))
        fun j i nearest => route_kept j i (nearest.next bare)
    cases b.line inside with
    | @left line held held' =>
      rw [linesAbove_succ held, linesAbove_succ held', controllerIn?, controllerIn?]
      cases declared : controllerClass? line with
      | none => exact above held declared
      | some name =>
        have here : Nearest declaresController lines (n + 1) n := .first held (by rw [declaresController, declared]; rfl)
        have routes := findSome?_blanked b (fun line blank => routeAttribute?_blank blank) (Nat.le_of_succ_le inside)
          fun i nearest near => route_kept n i here nearest near
        simp only [routes]
    | @blanked line line' blanked held held' blank =>
      have undeclared := undeclared_of_gone class_kept held blanked
      rw [linesAbove_succ held, linesAbove_succ held', controllerIn?, controllerIn?, undeclared,
        controllerClass?_blank blank]
      exact above held undeclared

/-- The search for a version starts from the same class. -/
theorem versionOfClass?_blanked (b : Blanking gone lines lines') {n k : Nat} (inside : n ≤ lines.length)
    (class_kept : ∀ i, Nearest declaresController lines n i → ¬gone i) :
    Route.versionOfClass? ((linesAbove lines' n).take k) (linesAbove lines' n) =
      Route.versionOfClass? ((linesAbove lines n).take k) (linesAbove lines n) := by
  induction n generalizing k with
  | zero => rfl
  | succ n ih =>
    have above {line : Text} (held : lines[n]? = some line) (undeclared : controllerClass? line = none) (k : Nat) :
        Route.versionOfClass? ((linesAbove lines' n).take k) (linesAbove lines' n) =
          Route.versionOfClass? ((linesAbove lines n).take k) (linesAbove lines n) := by
      exact ih (Nat.le_of_succ_le inside) fun i nearest => class_kept i (nearest.next (not_declares held undeclared))
    cases k with
    | zero => rw [List.take_zero, List.take_zero, Route.versionOfClass?, Route.versionOfClass?]
    | succ k =>
      cases b.line inside with
      | @left line held held' =>
        rw [linesAbove_succ held, linesAbove_succ held', List.take_succ_cons, List.take_succ_cons,
          Route.versionOfClass?, Route.versionOfClass?, controllerClass?_trim]
        cases declared : controllerClass? line with
        | none => exact above held declared k
        | some name =>
          have upper := linesAbove_blanked b.related n
          exact Route.versionIn?_blanked (List.forall₂_take _ upper) upper
      | @blanked line line' blanked held held' blank =>
        have undeclared := undeclared_of_gone class_kept held blanked
        rw [linesAbove_succ held, linesAbove_succ held', List.take_succ_cons, List.take_succ_cons,
          Route.versionOfClass?, Route.versionOfClass?, controllerClass?_trim, controllerClass?_trim, undeclared,
          controllerClass?_blank blank]
        exact above held undeclared k

theorem window_left (b : Blanking gone lines lines') {m w : Nat} (left : ∀ i, m ≤ i → i < m + w → ¬gone i) :
    (lines'.drop m).take w = (lines.drop m).take w := by
  refine List.ext_getElem? fun j => ?_
  by_cases inside : j < w
  · rw [List.getElem?_take_of_lt inside, List.getElem?_take_of_lt inside, List.getElem?_drop, List.getElem?_drop,
      b.left (m + j) (left (m + j) (by omega) (by omega))]
  · rw [List.getElem?_take_eq_none (by omega), List.getElem?_take_eq_none (by omega)]

theorem listFrom_append {joined list : Text} {first : List Text} (complete : Parameter.listFrom joined first = some list)
    (later : List Text) : Parameter.listFrom joined (first ++ later) = some list := by
  induction first generalizing joined with
  | nil => cases complete
  | cons line rest ih =>
    simp only [List.cons_append, Parameter.listFrom] at complete ⊢
    cases balanced : Parameter.balanced? (Parameter.gather joined line) with
    | some found =>
      rw [balanced] at complete
      exact complete
    | none =>
      rw [balanced] at complete
      exact ih complete

/-- A parameter list that is complete above every blanked line is found as before. -/
theorem listAt?_blanked (b : Blanking gone lines lines') {m : Nat} (left : ¬gone m)
    (complete : ∀ i, gone i → m < i → i < m + Parameter.listLookahead → Parameter.listAt? (lines.take i) m ≠ none) :
    Parameter.listAt? lines' m = Parameter.listAt? lines m := by
  classical
  by_cases blanked : ∃ i, gone i ∧ m < i ∧ i < m + Parameter.listLookahead
  · -- the first blanked line: nothing above it has changed, and the list ends there
    obtain ⟨here, below, near⟩ := Nat.find_spec blanked
    have first : ∀ i, m ≤ i → i < m + (Nat.find blanked - m) → ¬gone i := by
      intro i from_method upper is_gone
      rcases Nat.eq_or_lt_of_le from_method with rfl | later
      · exact left is_gone
      · exact Nat.find_min blanked (show i < Nat.find blanked by omega) ⟨is_gone, later, by omega⟩
    obtain ⟨list, found⟩ := Option.ne_none_iff_exists'.mp (complete (Nat.find blanked) here below near)
    have within : Parameter.listFrom [] ((lines.drop m).take (Nat.find blanked - m)) = some list := by
      rw [Parameter.listAt?, List.drop_take, List.take_take, Nat.min_eq_right (by omega)] at found
      exact found
    have whole : Parameter.listLookahead =
        (Nat.find blanked - m) + (Parameter.listLookahead - (Nat.find blanked - m)) := by omega
    rw [Parameter.listAt?, Parameter.listAt?, whole, List.take_add, List.take_add, window_left b first,
      listFrom_append within, listFrom_append within]
  · rw [Parameter.listAt?, Parameter.listAt?, window_left b]
    intro i from_method near is_gone
    rcases Nat.eq_or_lt_of_le from_method with rfl | later
    · exact left is_gone
    · exact blanked ⟨i, is_gone, later, near⟩

/-! ### Blanked comments -/

theorem ofLine?_blank {line : Text} (blank : Text.IsBlank line) : Signature.ofLine? line = none := by
  have nothing : Signature.ofLine? [] = none := by decide +kernel
  have around := Signature.ofLine?_margins blank Text.isBlank_nil []
  rwa [List.append_nil, List.append_nil, nothing] at around

/-- A method that is left, and reads no blanked line, is read as before. -/
theorem readAlike_of_unread (b : Blanking gone lines lines') {m : Nat} (inside : m < lines.length) (left : ¬gone m)
    (unread : ∀ i, gone i → ¬Reads lines m i) : ReadAlike (fun _ => 0) lines lines' m where
  signature := by
    rw [b.left m left]
    cases (lines[m]?).bind Signature.ofLine? with
    | none => exact .none
    | some signature => exact .some ⟨rfl, rfl⟩
  controller := controllerIn?_blanked b inside (fun i nearest is_gone => unread i is_gone (.controller nearest))
    fun _ i class_line nearest near is_gone => unread i is_gone (.route class_line nearest near)
  action route := actionOf?_blanked b.related m route
  version := versionOfClass?_blanked b inside fun i nearest is_gone => unread i is_gone (.controller nearest)
  list := listAt?_blanked b left fun i is_gone below near incomplete => unread i is_gone (.parameters below near incomplete)

end Detect

namespace Source

/-- A line in place of which a blank one may be given: a comment gives way. -/
def blankedLine (blank : Option Margin) (line : Text) : Text :=
  match blank with
  | some blank => if isLineComment line then blank.text else line
  | none => line

/-- The document with some lines blanked, as far as they are comments. -/
def Document.blanked (d : Document) (blanks : Nat → Option Margin) : Document :=
  { d with text := Text.joinWith ['\n'] (d.lines.mapIdx fun i line => blankedLine (blanks i) line) }

/-- Whether a line of the document is a comment that is blanked. -/
def Document.IsBlanked (d : Document) (blanks : Nat → Option Margin) (i : Nat) : Prop :=
  ∃ line, d.lines[i]? = some line ∧ isLineComment line = true ∧ (blanks i).isSome = true

theorem newline_not_mem_blankedLine {blank : Option Margin} {line : Text} (absent : '\n' ∉ line) :
    '\n' ∉ blankedLine blank line := by
  unfold blankedLine
  split
  · next blank =>
    split
    · exact fun among => (blank.blank _ among).2 rfl
    · exact absent
  · exact absent

theorem Document.lines_blanked (d : Document) (blanks : Nat → Option Margin) :
    (d.blanked blanks).lines = d.lines.mapIdx fun i line => blankedLine (blanks i) line := by
  have some_line : d.lines ≠ [] := Text.splitOn_ne_nil '\n' d.text
  apply Text.splitOn_joinWith
  · exact fun none_left => some_line (List.mapIdx_eq_nil_iff.mp none_left)
  · intro line among
    obtain ⟨i, inside, rfl⟩ := List.mem_mapIdx.mp among
    exact newline_not_mem_blankedLine (Text.not_mem_of_mem_splitOn (List.getElem_mem inside))

end Source

namespace Detect
open Source
open Route (Composer)

theorem blanking_blanked (d : Document) (blanks : Nat → Option Margin) :
    Blanking (d.IsBlanked blanks) d.lines (d.blanked blanks).lines := by
  rw [d.lines_blanked]
  refine ⟨List.length_mapIdx, fun i left => ?_, ?_⟩
  · rw [List.getElem?_mapIdx]
    cases held : d.lines[i]? with
    | none => rfl
    | some line =>
      rw [Option.map_some]
      unfold blankedLine
      split
      · next blank given =>
        rw [if_neg fun comment => left ⟨line, held, comment, by rw [given]; rfl⟩]
      · rfl
  · rintro i ⟨line, held, comment, given⟩
    obtain ⟨blank, given⟩ := Option.isSome_iff_exists.mp given
    refine ⟨line, blank.text, held, ?_, comment, blank.isBlank⟩
    simp only [List.getElem?_mapIdx, held, given, Option.map_some, blankedLine, if_pos comment]

section
variable {d : Document} {blanks : Nat → Option Margin}

/-- A blanked line has no site. -/
theorem site?_blanked {i : Nat} (blanked : d.IsBlanked blanks i) :
    site? (d.blanked blanks).lines (d.blanked blanks).file i = none := by
  obtain ⟨line, line', _, held', _, blank⟩ := (blanking_blanked d blanks).blanked i blanked
  rw [site?, held', Option.bind_some, ofLine?_blank blank]

/-- If no method that is left reads a blanked comment, each line has a site like the one before, unless
    an endpoint was reported on a blanked comment. -/
theorem site?_of_unread (unread : ∀ m, isSignature (d.lines[m]?.getD []) = true → ¬d.IsBlanked blanks m →
      ∀ i, d.IsBlanked blanks i → ¬Reads d.lines m i)
    {m : Nat} (inside : m < d.lines.length)
    (unreported : d.IsBlanked blanks m → ∀ h, handler? d.lines m d.file ≠ .ok h) :
    Option.Rel (Site.Alike fun _ => 0) (site? d.lines d.file m)
      (site? (d.blanked blanks).lines (d.blanked blanks).file m) := by
  have b := blanking_blanked d blanks
  by_cases blanked : d.IsBlanked blanks m
  · rw [site?_eq_none.mpr (unreported blanked), site?_blanked blanked]
    exact .none
  · cases signed : Signature.ofLine? d.lines[m] with
    | none =>
      rw [site?, site?, b.left m blanked, List.getElem?_eq_getElem inside, Option.bind_some, signed]
      exact .none
    | some signature =>
      have method : isSignature (d.lines[m]?.getD []) = true := by
        rw [List.getElem?_eq_getElem inside, Option.getD_some, isSignature, signed]
        rfl
      exact (readAlike_of_unread b inside blanked (unread m method blanked)).site d.file

/-- If no method that is left reads a blanked comment, blanking changes nothing just if no endpoint was
    reported on a blanked comment. -/
theorem scan_blanked_iff (v : Text) (unread : ∀ m, isSignature (d.lines[m]?.getD []) = true →
      ¬d.IsBlanked blanks m → ∀ i, d.IsBlanked blanks i → ¬Reads d.lines m i) :
    (scan (Composer.fresh v) (d.blanked blanks)).1 = (scan (Composer.fresh v) d).1 ↔
      ∀ i, d.IsBlanked blanks i → ∀ h, handler? d.lines i d.file ≠ .ok h := by
  constructor
  · intro same i blanked
    by_contra reported
    obtain ⟨s, held⟩ := Option.ne_none_iff_exists'.mp (mt site?_eq_none.mp reported)
    have line : i ∈ (scan (Composer.fresh v) d).1.map Found.line := by
      obtain ⟨line, here, _⟩ := blanked
      rw [scan_eq, lines_foundAfter, List.mem_map]
      exact ⟨s, List.mem_filterMap.mpr ⟨i, List.mem_range.mpr (List.getElem?_eq_some_iff.mp here).1, held⟩,
        line_of_site? held⟩
    rw [← same, scan_eq, lines_foundAfter, List.mem_map] at line
    obtain ⟨t, inside, here⟩ := line
    obtain ⟨m, _, found⟩ := List.mem_filterMap.mp inside
    rw [line_of_site? found] at here
    rw [here, site?_blanked blanked] at found
    cases found
  · intro unreported
    rw [scan_alike (blanking_blanked d blanks).length fun m inside =>
      site?_of_unread unread inside (unreported m)]
    exact List.map_id _

end

/-- A commented-out verb between a method and its class is read by no search. -/
theorem scan_blanked_verb :
    let file := "UsersController.cs".toList
    let d : Document := {
      uri := file
      file
      text := "[Route(\"api\")]\nclass UsersController\n// [HttpPost(\"old\")]\n[HttpGet]\npublic string Get()".toList }
    let blanks : Nat → Option Margin := fun _ => some .empty
    (d.IsBlanked blanks 2 ∧ ∀ m, isSignature (d.lines[m]?.getD []) = true → ¬d.IsBlanked blanks m →
        ∀ i, d.IsBlanked blanks i → ¬Reads d.lines m i) ∧
      ((scan (Composer.fresh []) (d.blanked blanks)).1 = (scan (Composer.fresh []) d).1 ↔
        ∀ i, d.IsBlanked blanks i → ∀ h, handler? d.lines i d.file ≠ .ok h) := by
  intro file d blanks
  have comment : ∀ i, d.IsBlanked blanks i → i = 2 := by
    rintro i ⟨line, held, comment, _⟩
    have only : ∀ j < d.lines.length, isLineComment (d.lines[j]?.getD []) = true → j = 2 := by decide +kernel
    refine only i (List.getElem?_eq_some_iff.mp held).1 ?_
    rwa [held]
  have method : ∀ m, isSignature (d.lines[m]?.getD []) = true → m = 4 := by
    intro m signed
    by_cases inside : m < d.lines.length
    · have only : ∀ j < d.lines.length, isSignature (d.lines[j]?.getD []) = true → j = 4 := by decide +kernel
      exact only m inside signed
    · rw [List.getElem?_eq_none (Nat.le_of_not_lt inside)] at signed
      exact absurd signed (by decide)
  have unread : ∀ m, isSignature (d.lines[m]?.getD []) = true → ¬d.IsBlanked blanks m →
      ∀ i, d.IsBlanked blanks i → ¬Reads d.lines m i := by
    intro m signed _ i blanked reads
    obtain rfl := comment i blanked
    obtain rfl := method m signed
    have undeclared : (d.lines[2]?.any declaresController) = false := by decide +kernel
    have routeless : (d.lines[2]?.any givesRoute) = false := by decide +kernel
    cases reads with
    | controller nearest =>
      obtain ⟨line, held, declared⟩ := nearest.found
      rw [held, Option.any_some, declared] at undeclared
      cases undeclared
    | route _ nearest _ =>
      obtain ⟨line, held, given⟩ := nearest.found
      rw [held, Option.any_some, given] at routeless
      cases routeless
    | parameters below _ _ => omega
  exact ⟨⟨⟨_, rfl, by decide +kernel, rfl⟩, unread⟩, scan_blanked_iff [] unread⟩

/-- A commented-out method is reported, a commented-out class and a commented-out route of the class are
    taken for real ones, and a comment among parameters is read as one of them. -/
theorem comments_read :
    let endpoints (d : Document) := (scan (Composer.fresh []) d).1
    let changed (text : Text) : Prop :=
      let d : Document := { uri := [], file := [], text }
      endpoints (d.blanked fun _ => some .empty) ≠ endpoints d
    changed "class AController\n[HttpGet]\n// public string Get()".toList ∧
      changed "class AController\n// class BController\n[HttpGet(\"[controller]\")]\npublic string Get()".toList ∧
      changed "[Route(\"api\")]\n// [Route(\"old\")]\nclass AController\n[HttpGet]\npublic string Get()".toList ∧
      changed "class AController\n[HttpGet]\npublic string Get(\n// from 1\nint page)".toList := by
  decide +kernel

end Detect

end EndpointConsole
