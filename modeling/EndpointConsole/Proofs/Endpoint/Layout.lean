import EndpointConsole.Proofs.Endpoint.Sites
import EndpointConsole.Proofs.Source.Margins

/-!
The layout of a document. Every search that a scan makes gives the same on trimmed
lines (`controllerOf?_trim`, `actionOf?_trim`, `versionAbove?_trim`, `listAt?_trim`).
So white space at the beginning or end of lines, with which a carriage return before
each line feed is counted, changes nothing but the columns (`scan_spaced`).
-/
namespace EndpointConsole

namespace Source

/-- White space within a line. -/
structure Margin where
  text : Text
  blank : ∀ c ∈ text, Text.isBlank c = true ∧ c ≠ '\n'

namespace Margin

def empty : Margin := ⟨[], nofun⟩

def carriageReturn : Margin := ⟨['\r'], by simp; decide⟩

theorem isBlank (m : Margin) : Text.IsBlank m.text := fun c among => (m.blank c among).1

/-- A line between margins. -/
def around (margins : Margin × Margin) (line : Text) : Text := margins.1.text ++ line ++ margins.2.text

theorem newline_not_mem_around {margins : Margin × Margin} {line : Text} (absent : '\n' ∉ line) :
    '\n' ∉ around margins line := by
  rw [around, List.mem_append, List.mem_append, not_or, not_or]
  exact ⟨⟨fun among => (margins.1.blank _ among).2 rfl, absent⟩, fun among => (margins.2.blank _ among).2 rfl⟩

theorem trim_around (margins : Margin × Margin) (line : Text) : Text.trim (around margins line) = Text.trim line :=
  Text.trim_margins margins.1.isBlank margins.2.isBlank line

end Margin

namespace Document

/-- The document with white space added at the beginning and end of its lines. -/
def spaced (d : Document) (margins : Nat → Margin × Margin) : Document :=
  { d with text := Text.joinWith ['\n'] (d.lines.mapIdx fun i line => Margin.around (margins i) line) }

theorem lines_spaced (d : Document) (margins : Nat → Margin × Margin) :
    (d.spaced margins).lines = d.lines.mapIdx fun i line => Margin.around (margins i) line := by
  have some_line : d.lines ≠ [] := Text.splitOn_ne_nil '\n' d.text
  apply Text.splitOn_joinWith
  · exact fun none_left => some_line (List.mapIdx_eq_nil_iff.mp none_left)
  · intro line among
    obtain ⟨i, inside, rfl⟩ := List.mem_mapIdx.mp among
    exact Margin.newline_not_mem_around (Text.not_mem_of_mem_splitOn (List.getElem_mem inside))

/-- The document with a carriage return before each line feed. -/
def withCarriageReturns (d : Document) : Document :=
  { d with text := d.text.flatMap fun c => if c = '\n' then ['\r', '\n'] else [c] }

/-- A carriage return at the end of each line but the last. -/
def carriageReturns (lines : Nat) (i : Nat) : Margin × Margin :=
  (.empty, if i + 1 < lines then .carriageReturn else .empty)

theorem splitOn_withCarriageReturns (text : Text) :
    Text.splitOn '\n' (text.flatMap fun c => if c = '\n' then ['\r', '\n'] else [c]) =
      (Text.splitOn '\n' text).mapIdx fun i line =>
        Margin.around (carriageReturns (Text.splitOn '\n' text).length i) line := by
  induction text with
  | nil => rfl
  | cons c rest ih =>
    obtain ⟨first, later, cut⟩ := List.exists_cons_of_ne_nil (Text.splitOn_ne_nil '\n' rest)
    by_cases feed : c = '\n'
    · subst feed
      have split : Text.splitOn '\n' ('\n' :: rest) = [] :: Text.splitOn '\n' rest := rfl
      have split' (s : Text) : Text.splitOn '\n' (['\r', '\n'] ++ s) = ['\r'] :: Text.splitOn '\n' s :=
        Text.splitOn_append (by decide : '\n' ∉ ['\r']) s
      have ended : carriageReturns ((Text.splitOn '\n' rest).length + 1) 0 = (.empty, .carriageReturn) := by
        rw [carriageReturns, cut, List.length_cons, if_pos (by omega)]
      rw [List.flatMap_cons, if_pos rfl, split', ih, split, List.mapIdx_cons, List.length_cons, ended]
      simp only [carriageReturns, Nat.add_lt_add_iff_right]
      rfl
    · rw [List.flatMap_cons, if_neg feed, List.singleton_append, Text.splitOn_cons feed, Text.splitOn_cons feed, ih,
        cut]
      simp only [List.mapIdx_cons, List.modify_zero_cons, List.length_cons]
      rfl

theorem lines_withCarriageReturns (d : Document) :
    d.withCarriageReturns.lines = (d.spaced (carriageReturns d.lines.length)).lines := by
  rw [lines_spaced]
  exact splitOn_withCarriageReturns d.text

end Document

end Source

namespace Route
open Source

theorem insideBlock_trim (lines : List Text) : insideBlock (lines.map Text.trim) = insideBlock lines := by
  induction lines with
  | nil => rfl
  | cons line above ih => rw [List.map_cons, insideBlock, insideBlock, blockAfter_trim, ih]

theorem isCommentedOut_trim (line : Text) (above : List Text) :
    isCommentedOut (Text.trim line) (above.map Text.trim) = isCommentedOut line above := by
  rw [isCommentedOut, isCommentedOut, Text.trim_trim, ← List.map_take, ← List.map_cons, insideBlock_trim]

theorem versionIn?_trim (window above : List Text) :
    versionIn? (window.map Text.trim) (above.map Text.trim) = versionIn? window above := by
  fun_induction versionIn? window above with
  | case1 => rfl
  | case2 window some_line => exact versionIn?.eq_2 _ fun none_left => some_line (List.map_eq_nil_iff.mp none_left)
  | case3 line window head above commented ih =>
    rw [List.map_cons, List.map_cons, versionIn?, isCommentedOut_trim, if_pos commented, ih]
  | case4 line window head above uncommented version found =>
    rw [List.map_cons, List.map_cons, versionIn?, isCommentedOut_trim, if_neg uncommented, Text.trim_trim, found]
  | case5 line window head above uncommented found keyword =>
    rw [List.map_cons, List.map_cons, versionIn?, isCommentedOut_trim, if_neg uncommented, Text.trim_trim, found]
    exact if_pos keyword
  | case6 line window head above uncommented found keyword ih =>
    rw [List.map_cons, List.map_cons, versionIn?, isCommentedOut_trim, if_neg uncommented, Text.trim_trim, found, ih]
    exact if_neg keyword

theorem versionOfClass?_trim (window above : List Text) :
    versionOfClass? (window.map Text.trim) (above.map Text.trim) = versionOfClass? window above := by
  fun_induction versionOfClass? window above with
  | case1 => rfl
  | case2 window some_line => exact versionOfClass?.eq_2 _ fun none_left => some_line (List.map_eq_nil_iff.mp none_left)
  | case3 line window head above declared =>
    rw [List.map_cons, List.map_cons, versionOfClass?, Text.trim_trim, if_pos declared, ← List.map_take,
      versionIn?_trim]
  | case4 line window head above undeclared ih =>
    rw [List.map_cons, List.map_cons, versionOfClass?, Text.trim_trim, if_neg undeclared, ih]

theorem versionAbove?_trim (lines : List Text) (m : Nat) :
    versionAbove? (lines.map Text.trim) m = versionAbove? lines m := by
  simp only [versionAbove?, ← List.map_take, ← List.map_reverse, versionOfClass?_trim]

end Route

namespace Parameter

theorem gather_trim (joined line : Text) : gather joined (Text.trim line) = gather joined line := by
  rw [gather, gather, Text.trim_trim]

theorem listFrom_trim (joined : Text) (lines : List Text) : listFrom joined (lines.map Text.trim) = listFrom joined lines := by
  induction lines generalizing joined with
  | nil => rfl
  | cons line rest ih => simp only [List.map_cons, listFrom, gather_trim, ih]

theorem listAt?_trim (lines : List Text) (m : Nat) : listAt? (lines.map Text.trim) m = listAt? lines m := by
  rw [listAt?, listAt?, ← List.map_drop, ← List.map_take, listFrom_trim]

end Parameter

namespace Detect
open Route (Composer)
open Source (Document Margin)

theorem linesAbove_map (f : Text → Text) (lines : List Text) (n : Nat) :
    linesAbove (lines.map f) n = (linesAbove lines n).map f := by
  rw [linesAbove, linesAbove, ← List.map_take, List.map_reverse]

theorem controllerIn?_trim (above : List Text) : controllerIn? (above.map Text.trim) = controllerIn? above := by
  induction above with
  | nil => rfl
  | cons line above ih =>
    rw [List.map_cons, controllerIn?, controllerIn?, Source.controllerClass?_trim, ih, ← List.map_take,
      List.findSome?_map]
    simp only [Function.comp_def, Text.trim_trim]

theorem controllerOf?_trim (lines : List Text) (m : Nat) : controllerOf? (lines.map Text.trim) m = controllerOf? lines m := by
  rw [controllerOf?, controllerOf?, linesAbove_map, controllerIn?_trim]

theorem actionOf?_trim (lines : List Text) (m : Nat) (route : Option Text) :
    actionOf? (lines.map Text.trim) m route = actionOf? lines m route := by
  have trimmed (above : List Text) : (above.map Text.trim).map Text.trim = above.map Text.trim := by
    rw [List.map_map]
    exact List.map_congr_left fun line _ => Text.trim_trim line
  rw [actionOf?, actionOf?, linesAbove_map, ← List.map_take, trimmed]

/-- Lines with the same text between their margins are read alike. -/
theorem readAlike_of_trim {shift : Nat → Nat} {lines lines' : List Text} {m : Nat}
    (trimmed : lines'.map Text.trim = lines.map Text.trim)
    (signature : Option.Rel (fun s t : Source.Signature => t.name = s.name ∧ t.column = s.column + shift m)
      ((lines[m]?).bind Source.Signature.ofLine?) ((lines'[m]?).bind Source.Signature.ofLine?)) :
    ReadAlike shift lines lines' m where
  signature := signature
  controller := by rw [← controllerOf?_trim lines', trimmed, controllerOf?_trim]
  action route := by rw [← actionOf?_trim lines', trimmed, actionOf?_trim]
  version := by rw [← Route.versionAbove?_trim lines', trimmed, Route.versionAbove?_trim]
  list := by rw [← Parameter.listAt?_trim lines', trimmed, Parameter.listAt?_trim]

/-- How far the margins move the lines. -/
def shiftOf (margins : Nat → Margin × Margin) (m : Nat) : Nat := (margins m).1.text.length

theorem scan_between (v : Text) (d : Document) (margins : Nat → Margin × Margin) :
    (scan (Composer.fresh v) (d.spaced margins)).1 =
      (scan (Composer.fresh v) d).1.map (Found.moved (shiftOf margins)) := by
  have lines := d.lines_spaced margins
  have trimmed : (d.spaced margins).lines.map Text.trim = d.lines.map Text.trim := by
    rw [lines]
    refine List.ext_getElem (by simp) fun i _ _ => ?_
    simp only [List.getElem_map, List.getElem_mapIdx, Margin.trim_around]
  apply scan_alike
  · rw [lines, List.length_mapIdx]
  · intro m _
    refine (readAlike_of_trim trimmed ?_).site d.file
    rw [lines, List.getElem?_mapIdx]
    cases d.lines[m]? with
    | none => exact .none
    | some line =>
      rw [Option.map_some, Option.bind_some, Option.bind_some, Margin.around,
        Source.Signature.ofLine?_margins (margins m).1.isBlank (margins m).2.isBlank]
      cases Source.Signature.ofLine? line with
      | none => exact .none
      | some signature => exact .some ⟨rfl, rfl⟩

/-- White space at the beginning and end of lines leaves every endpoint as it is and moves its column
    by what was added before it; carriage returns before the line feeds change nothing at all. -/
theorem scan_spaced (v : Text) (d : Document) (margins : Nat → Margin × Margin) :
    (scan (Composer.fresh v) (d.spaced margins)).1 =
        (scan (Composer.fresh v) d).1.map (fun f => { f with column := f.column + (margins f.line).1.text.length }) ∧
      (scan (Composer.fresh v) d.withCarriageReturns).1 = (scan (Composer.fresh v) d).1 := by
  constructor
  · exact scan_between v d margins
  · have same : scan (Composer.fresh v) d.withCarriageReturns =
        scan (Composer.fresh v) (d.spaced (Document.carriageReturns d.lines.length)) := by
      rw [scan, scan, d.lines_withCarriageReturns]
      rfl
    rw [same, scan_between]
    exact List.map_id _

end Detect

end EndpointConsole
