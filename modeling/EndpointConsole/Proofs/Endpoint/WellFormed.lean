import EndpointConsole.Proofs.Endpoint.OwnRoutes
import EndpointConsole.Proofs.Endpoint.Progress
import EndpointConsole.Proofs.Source.Names

/-!
What a scan lists. Whatever the composer remembers, a line is listed just if an endpoint is
detected on it, and it is listed once, in its place (`mem_lines_scan`, `lines_scan_sorted`). What
is listed says of its lines what they are: where its name stands, what follows the name, and
which class it belongs to (`Found.WellFormed`, `scan_wellFormed`).
-/
namespace EndpointConsole

namespace Route

theorem head?_ensureLeadingSlash (route : Text) : (ensureLeadingSlash route).head? = some '/' := by
  rw [ensureLeadingSlash]
  split
  · assumption
  · rfl

theorem Composer.head?_compose (c : Composer) (p : Parts) : (c.compose p).1.head? = some '/' := by
  rw [compose]
  split <;> exact head?_ensureLeadingSlash _

end Route

namespace Detect
open Route (Composer)
open Source

variable {lines : List Text} {file : Text} {n : Nat} {s : Site} {all : List Site} {f : Found} {d : Document}

/-- The lines with sites, in their order. -/
theorem lines_sites (lines : List Text) (file : Text) :
    (sites lines file).map (fun s => s.handler.parts.methodLine) =
      (List.range lines.length).filter fun m => (site? lines file m).isSome := by
  rw [sites, List.map_filterMap, ← List.filterMap_eq_filter]
  refine List.filterMap_congr fun m _ => ?_
  cases held : site? lines file m with
  | none => simp [Option.guard, held]
  | some s => simp [Option.guard, held, line_of_site? held]

theorem lines_findAll (c : Composer) (all : List Site) :
    (findAll c all).1.map Found.line = all.map fun s => s.handler.parts.methodLine := by
  induction all generalizing c with
  | nil => rfl
  | cons s rest ih => exact congrArg (s.handler.parts.methodLine :: ·) (ih _)

/-- What is found is the endpoint of a site, with a route that some composer gives for it. -/
theorem exists_of_mem_findAll {c : Composer} (among : f ∈ (findAll c all).1) :
    ∃ s ∈ all, ∃ c' : Composer, f = s.found (c'.compose s.handler.parts).1 := by
  induction all generalizing c with
  | nil => cases among
  | cons s rest ih =>
    rcases List.mem_cons.mp among with rfl | later
    · exact ⟨s, List.mem_cons_self, c, rfl⟩
    · obtain ⟨t, inside, given⟩ := ih later
      exact ⟨t, List.mem_cons_of_mem s inside, given⟩

/-- The lines listed are those with sites, whatever the composer remembers. -/
theorem lines_scan (c : Composer) (d : Document) :
    (scan c d).1.map Found.line = (List.range d.lines.length).filter fun m => (site? d.lines d.file m).isSome := by
  rw [scan_eq_findAll, lines_findAll, lines_sites]

theorem lines_scan_sorted (c : Composer) (d : Document) : ((scan c d).1.map Found.line).Pairwise (· < ·) := by
  rw [lines_scan]
  exact List.pairwise_lt_range.filter _

/-- An endpoint is detected on a line just if there is a site, whatever the composer remembers. -/
theorem exists_detect_iff (c : Composer) (lines : List Text) (n : Nat) (file : Text) :
    (∃ e, (detect c lines n file).1 = .ok e) ↔ (site? lines file n).isSome := by
  rw [Option.isSome_iff_ne_none, ne_eq, site?_eq_none, not_forall_not, detect]
  cases handler? lines n file with
  | error miss =>
    constructor
    · rintro ⟨e, given⟩
      cases given
    · rintro ⟨h, given⟩
      cases given
  | ok h => exact ⟨fun _ => ⟨h, rfl⟩, fun _ => ⟨_, rfl⟩⟩

/-- A line is listed just if an endpoint is detected on it, by an analyzer in the same state or in any other. -/
theorem mem_lines_scan (c c' : Composer) (d : Document) (n : Nat) :
    n ∈ (scan c d).1.map Found.line ↔ ∃ e, (detect c' d.lines n d.file).1 = .ok e := by
  rw [exists_detect_iff, lines_scan, List.mem_filter, List.mem_range, and_iff_right_iff_imp]
  intro held
  obtain ⟨s, held⟩ := Option.isSome_iff_exists.mp held
  obtain ⟨signature, _, _, signed, _⟩ := exists_of_site? held
  exact lt_of_signature signed

/-- What a listed endpoint says is so in the document. -/
structure Found.WellFormed (d : Document) (f : Found) : Prop where
  number : f.endpoint.line = f.line + 1
  route : f.endpoint.route.head? = some '/'
  /-- From its column on the line reads as the name, white space and a parenthesis. -/
  action : f.endpoint.action ≠ [] ∧ ∃ line gap rest, d.lines[f.line]? = some line ∧
    line.drop f.column = f.endpoint.action ++ gap ++ '(' :: rest ∧ Text.IsBlank gap
  /-- The class is that of the nearest line, this one included, that declares a controller. -/
  controller : ∃ i header, Nearest declaresController d.lines (f.line + 1) i ∧ d.lines[i]? = some header ∧
    controllerClass? header = some f.endpoint.controller
  autoQuery : f.endpoint.autoQuery ≠ some []

theorem Handler.autoQuery_endpoint (h : Handler) (route : Text) : (h.endpoint route).autoQuery ≠ some [] := by
  simp only [Handler.endpoint]
  split
  · intro none_listed
    cases none_listed
  · next listed => exact fun none_listed => listed (by rw [Option.some.inj none_listed]; rfl)

theorem Site.wellFormed (held : site? d.lines d.file n = some s) {route : Text} (slash : route.head? = some '/') :
    (s.found route).WellFormed d := by
  obtain ⟨signature, controller, action, signed, controlled, _, rfl⟩ := exists_of_site? held
  obtain ⟨line, here, read⟩ := Option.bind_eq_some_iff.mp signed
  obtain ⟨before, gap, rest, around⟩ := Signature.ofLine?_around read
  obtain ⟨i, header, nearest, above, declared, _⟩ :=
    (controllerOf?_eq_some_iff (lt_of_signature signed)).mp controlled
  have from_name : line.drop signature.column = signature.name ++ gap ++ '(' :: rest := by
    rw [around.whole, ← around.column, List.append_assoc, List.append_assoc, List.drop_left, List.append_assoc]
  exact {
    number := rfl
    route := slash
    action := ⟨around.nonempty, line, gap, rest, here, from_name, around.gap⟩
    controller := ⟨i, header, nearest, above, declared⟩
    autoQuery := Handler.autoQuery_endpoint _ _ }

/-- Whatever the analyzer remembers, a scan lists the lines on which an endpoint is detected and no others,
    each once and in their order, and what it lists is well formed. -/
theorem scan_wellFormed (c : Composer) (d : Document) :
    ((scan c d).1.map Found.line).Pairwise (· < ·) ∧
      (∀ (c' : Composer) (n : Nat),
        n ∈ (scan c d).1.map Found.line ↔ ∃ e, (detect c' d.lines n d.file).1 = .ok e) ∧
      ∀ f ∈ (scan c d).1, f.WellFormed d := by
  refine ⟨lines_scan_sorted c d, fun c' n => mem_lines_scan c c' d n, fun f among => ?_⟩
  rw [scan_eq_findAll] at among
  obtain ⟨s, inside, c', rfl⟩ := exists_of_mem_findAll among
  obtain ⟨n, _, held⟩ := List.mem_filterMap.mp inside
  exact Site.wellFormed held (c'.head?_compose s.handler.parts)

end Detect

end EndpointConsole
