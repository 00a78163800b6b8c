import EndpointConsole.Proofs.Endpoint.Sites

/-!
The beginning of a document. What is found on a line depends on the lines up to it
and on the lines that its parameter list may extend over (`readAlike_of_take`), and
so does what the composer remembers when the scan gets there. Two documents with the
same first lines therefore have the same endpoints well above the first difference
(`scan_beginning`).
-/
namespace EndpointConsole.Detect
open Route (Composer Parts lookups)

section
variable {lines lines' : List Text} {k m : Nat}

theorem take_of_le (first : lines'.take k = lines.take k) (inside : m ≤ k) : lines'.take m = lines.take m := by
  have cut := congrArg (List.take m) first
  rwa [List.take_take, List.take_take, Nat.min_eq_left inside] at cut

theorem window_of_le {w : Nat} (first : lines'.take k = lines.take k) (inside : m + w ≤ k) :
    (lines'.drop m).take w = (lines.drop m).take w := by
  rw [List.take_drop, List.take_drop, take_of_le first inside]

/-- Above the first difference all searches of a line give the same. -/
theorem readAlike_of_take (first : lines'.take k = lines.take k) (above : m + Parameter.listLookahead ≤ k) :
    ReadAlike (fun _ => 0) lines lines' m := by
  have upTo : lines'.take (m + 1) = lines.take (m + 1) := by
    apply take_of_le first
    rw [Parameter.listLookahead] at above
    omega
  have before : lines'.take m = lines.take m := take_of_le upTo (Nat.le_succ m)
  have here : lines'[m]? = lines[m]? := by
    have held := congrArg (fun upper => upper[m]?) upTo
    simpa only [List.getElem?_take_of_succ] using held
  constructor
  case signature =>
    rw [here]
    cases (lines[m]?).bind Source.Signature.ofLine? with
    | none => exact .none
    | some signature => exact .some ⟨rfl, rfl⟩
  case controller => rw [controllerOf?, controllerOf?, linesAbove, linesAbove, upTo]
  case action =>
    intro route
    rw [actionOf?, actionOf?, linesAbove, linesAbove, before]
  case version => rw [Route.versionAbove?, Route.versionAbove?, upTo]
  case list => rw [Parameter.listAt?, Parameter.listAt?, window_of_le first above]

end

theorem foundAfter_append {v : Text} {before : List Parts} (first second : List Site) :
    foundAfter v before (first ++ second) =
      foundAfter v before first ++
        foundAfter v (before ++ lookups (first.map fun s => s.handler.parts)) second := by
  induction first generalizing before with
  | nil =>
    change _ = foundAfter v (before ++ []) second
    rw [List.append_nil]
    rfl
  | cons s rest ih =>
    have looked : lookups ((s :: rest).map fun s => s.handler.parts) =
        lookups [s.handler.parts] ++ lookups (rest.map fun s => s.handler.parts) :=
      List.filter_append [s.handler.parts] _
    rw [List.cons_append, foundAfter, ih, foundAfter, looked, List.append_assoc, List.cons_append]

theorem line_of_foundAfter {v : Text} {before : List Parts} {all : List Site} {f : Found}
    (among : f ∈ foundAfter v before all) : ∃ s ∈ all, f.line = s.handler.parts.methodLine := by
  have line := List.mem_map_of_mem (f := Found.line) among
  rw [lines_foundAfter] at line
  obtain ⟨s, inside, same⟩ := List.mem_map.mp line
  exact ⟨s, inside, same.symm⟩

/-- The sites on the lines before a given one. -/
def sitesBefore (lines : List Text) (file : Text) (n : Nat) : List Site :=
  (List.range (min n lines.length)).filterMap (site? lines file)

/-- What a fresh scan finds before a line is what the sites there give. -/
theorem scan_before (v : Text) (d : Source.Document) (n : Nat) :
    (scan (Composer.fresh v) d).1.filter (fun f => f.line < n) = foundAfter v [] (sitesBefore d.lines d.file n) := by
  obtain ⟨later, all⟩ : ∃ later, d.lines.length = min n d.lines.length + later :=
    ⟨d.lines.length - min n d.lines.length, by omega⟩
  have split : sites d.lines d.file = sitesBefore d.lines d.file n ++
      ((List.range later).map (min n d.lines.length + ·)).filterMap (site? d.lines d.file) := by
    rw [sites, sitesBefore, ← List.filterMap_append, ← List.range_add, ← all]
  rw [scan_eq, split, foundAfter_append, List.filter_append]
  have kept : ∀ f ∈ foundAfter v [] (sitesBefore d.lines d.file n), decide (f.line < n) = true := by
    intro f among
    obtain ⟨s, inside, line⟩ := line_of_foundAfter among
    obtain ⟨m, counted, held⟩ := List.mem_filterMap.mp inside
    have bound := List.mem_range.mp counted
    rw [line, line_of_site? held, decide_eq_true_eq]
    omega
  rw [List.filter_eq_self.mpr kept, List.filter_eq_nil_iff.mpr, List.append_nil]
  intro f among
  obtain ⟨s, inside, line⟩ := line_of_foundAfter among
  obtain ⟨m, counted, held⟩ := List.mem_filterMap.mp inside
  obtain ⟨i, within, rfl⟩ := List.mem_map.mp counted
  have bound := List.mem_range.mp within
  rw [line, line_of_site? held, decide_eq_true_eq]
  omega

/-- Documents of the same file with the same first `k` lines have the same endpoints on every line
    whose parameter list must end within these lines. -/
theorem scan_beginning (v : Text) {d d' : Source.Document} {k : Nat} (file : d'.file = d.file)
    (first : d'.lines.take k = d.lines.take k) :
    (scan (Composer.fresh v) d').1.filter (fun f => f.line + 20 ≤ k) =
      (scan (Composer.fresh v) d).1.filter (fun f => f.line + 20 ≤ k) := by
  have early (f : Found) : decide (f.line + 20 ≤ k) = decide (f.line < k - 19) :=
    decide_eq_decide.mpr (by omega)
  have length : min (k - 19) d'.lines.length = min (k - 19) d.lines.length := by
    have cut := congrArg List.length (take_of_le first (Nat.sub_le k 19))
    rwa [List.length_take, List.length_take] at cut
  have alike : ∀ m ∈ List.range (min (k - 19) d.lines.length),
      Option.Rel (Site.Alike fun _ => 0) (site? d.lines d.file m) (site? d'.lines d'.file m) := by
    intro m counted
    have bound := List.mem_range.mp counted
    have above : m + Parameter.listLookahead ≤ k := by
      rw [Parameter.listLookahead]
      omega
    rw [file]
    exact (readAlike_of_take first above).site d.file
  simp only [early]
  rw [scan_before, scan_before, sitesBefore, sitesBefore, length, foundAfter_alike .nil (filterMap_alike alike)]
  exact List.map_id _

/-- Text that is written far below a method, a class included, leaves its endpoint as it is. -/
theorem scan_beginning_class_below :
    let upper := "public class UsersController\n[HttpGet(\"users\")]\npublic string Get(\nint id)".toList
    let lower := List.replicate 19 '\n'
    let file := "UsersController.cs".toList
    let d : Source.Document := { uri := file, file, text := upper ++ lower }
    let d' : Source.Document := { uri := file, file, text := upper ++ lower ++ "class OtherController".toList }
    (d'.file = d.file ∧ d'.lines.take 22 = d.lines.take 22) ∧
      (scan (Composer.fresh []) d').1.filter (fun f => f.line + 20 ≤ 22) =
        (scan (Composer.fresh []) d).1.filter (fun f => f.line + 20 ≤ 22) ∧
      ((scan (Composer.fresh []) d).1.filter fun f => f.line + 20 ≤ 22).map (fun f => f.endpoint.route) =
        ["/users".toList] := by
  intro upper lower file d d'
  have first : d'.lines.take 22 = d.lines.take 22 := by decide +kernel
  exact ⟨⟨rfl, first⟩, scan_beginning [] rfl first, by decide +kernel⟩

end EndpointConsole.Detect
