import EndpointConsole.Proofs.Endpoint.OwnRoutes
import EndpointConsole.Proofs.Source.Names

/-!
What is reported on the line of a class. Where a scan finds an endpoint, and of what
name, does not depend on what the composer remembers (`scan_places`). A class is
listed as one of its own actions just if a signature on its line has its name and the
lines above give the signature a verb, or the class a route with a place for the action
(`scan_lists_class_iff`). A class header with a parameter list is read as such a
signature, whose type is the class keyword (`class_listed`).
-/
namespace EndpointConsole.Detect
open Route (Composer)
open Source

variable {lines : List Text} {n : Nat}

/-- The line and the name of an endpoint. -/
def Found.place (f : Found) : Nat × Text := (f.line, f.endpoint.action)

def Site.place (s : Site) : Nat × Text := (s.handler.parts.methodLine, s.handler.parts.action)

theorem scanFrom_places (c : Composer) (lines : List Text) (file : Text) (number : Nat) (rest : List Text) :
    (scanFrom c lines file number rest).1.map Found.place = (sitesFrom lines file number rest).map Site.place := by
  induction rest generalizing c number with
  | nil => rfl
  | cons line rest ih =>
    rw [scanFrom, sitesFrom]
    cases Signature.ofLine? line with
    | none => exact ih c (number + 1)
    | some signature =>
      cases handled : handler? lines number file with
      | error miss =>
        simp only [detect_missed handled]
        exact ih c (number + 1)
      | ok h =>
        have line := handler?_line handled
        simp only [detect, handled, List.map_cons, ih]
        rw [Site.place, line]
        rfl

/-- Whatever the composer remembers, the endpoints of a document have the lines and names of its sites. -/
theorem scan_places (c : Composer) (d : Document) :
    (scan c d).1.map Found.place = (sites d.lines d.file).map Site.place := by
  have all := sitesFrom_append [] d.lines d.file
  rw [List.nil_append, List.length_nil] at all
  rw [scan, scanFrom_places, all, sites, List.range_eq_range']

/-- There is a site on a line just if it has a signature, a controller and an action. -/
theorem exists_site_iff (lines : List Text) (file : Text) (n : Nat) (name : Text) :
    (∃ s, site? lines file n = some s ∧ s.place = (n, name)) ↔
      ∃ signature controller, (lines[n]?).bind Signature.ofLine? = some signature ∧ signature.name = name ∧
        controllerOf? lines n = some controller ∧ actionOf? lines n controller.route ≠ none := by
  constructor
  · rintro ⟨s, held, place⟩
    obtain ⟨signature, controller, action, signed, controlled, acted, rfl⟩ := exists_of_site? held
    rw [Site.place, Prod.mk.injEq] at place
    exact ⟨signature, controller, signed, place.2, controlled, by rw [acted]; exact Option.some_ne_none action⟩
  · rintro ⟨signature, controller, signed, rfl, controlled, acts⟩
    obtain ⟨action, acted⟩ := Option.ne_none_iff_exists'.mp acts
    exact ⟨_, by simp only [site?, handler?, signed, controlled, acted]; rfl, rfl⟩

theorem mem_places_iff {c : Composer} {d : Document} {name : Text} :
    (∃ f ∈ (scan c d).1, f.line = n ∧ f.endpoint.action = name) ↔
      ∃ signature controller, (d.lines[n]?).bind Signature.ofLine? = some signature ∧ signature.name = name ∧
        controllerOf? d.lines n = some controller ∧ actionOf? d.lines n controller.route ≠ none := by
  have reported : (∃ f ∈ (scan c d).1, f.line = n ∧ f.endpoint.action = name) ↔
      (n, name) ∈ (scan c d).1.map Found.place := by simp [Found.place]
  rw [reported, scan_places, ← exists_site_iff d.lines d.file, sites, List.mem_map]
  constructor
  · rintro ⟨s, among, place⟩
    obtain ⟨m, _, held⟩ := List.mem_filterMap.mp among
    obtain rfl : m = n := (line_of_site? held).symm.trans (congrArg Prod.fst place)
    exact ⟨s, held, place⟩
  · rintro ⟨s, held, place⟩
    refine ⟨s, List.mem_filterMap.mpr ⟨n, List.mem_range.mpr ?_, held⟩, place⟩
    by_contra beyond
    rw [site?, List.getElem?_eq_none (Nat.le_of_not_lt beyond), Option.bind_none] at held
    cases held

/-- The route that the class on line `n` takes has a place for the action. -/
def ClassRouteHasPlace (lines : List Text) (n : Nat) : Prop :=
  ∃ j above, TakesRoute lines n j ∧ lines[j]? = some above ∧ HasActionPlace (routeAttribute? (Text.trim above))

theorem hasActionPlace_routeAbove? (inside : n ≤ lines.length) :
    HasActionPlace (routeAbove? lines n) ↔ ClassRouteHasPlace lines n := by
  constructor
  · rintro ⟨route, found, place⟩
    obtain ⟨j, above, takes, held, given⟩ := (routeAbove?_eq_some_iff inside).mp found
    exact ⟨j, above, takes, held, route, given, place⟩
  · rintro ⟨j, above, takes, held, route, given, place⟩
    exact ⟨route, (routeAbove?_eq_some_iff inside).mpr ⟨j, above, takes, held, given⟩, place⟩

/-- Whatever the composer remembers, the class found on a line is reported as an action there just if a
    signature on the line has its name (`NamesClass`) and there is a verb right above the line, or a place
    for the action in the route of the class. -/
theorem scan_lists_class_iff (c : Composer) (d : Document) (n : Nat) :
    (∃ f ∈ (scan c d).1, f.line = n ∧ (d.lines[n]?).bind controllerClass? = some f.endpoint.action) ↔
      ∃ line signature before gap rest, d.lines[n]? = some line ∧ Signature.ofLine? line = some signature ∧
        signature.Around line before gap rest ∧ NamesClass before signature.name (gap ++ '(' :: rest) ∧
        ((∃ l ∈ walked d.lines n, (verbAttribute? l).isSome = true) ∨ ClassRouteHasPlace d.lines n) := by
  have inside {line : Text} (held : d.lines[n]? = some line) : n ≤ d.lines.length :=
    Nat.le_of_lt (List.getElem?_eq_some_iff.mp held).1
  constructor
  · rintro ⟨f, among, at_line, declared⟩
    obtain ⟨signature, controller, signed, same, controlled, acts⟩ := mem_places_iff.mp ⟨f, among, at_line, rfl⟩
    obtain ⟨line, held, signed⟩ := Option.bind_eq_some_iff.mp signed
    rw [held, Option.bind_some, ← same] at declared
    obtain ⟨before, gap, rest, around⟩ := Signature.ofLine?_around signed
    rw [controllerOf?_of_class held declared, Option.some.injEq] at controlled
    rw [← controlled, actionOf?_ne_none_iff (inside held), hasActionPlace_routeAbove? (inside held)] at acts
    exact ⟨line, signature, before, gap, rest, held, signed, around, (controllerClass?_around around).mp declared, acts⟩
  · rintro ⟨line, signature, before, gap, rest, held, signed, around, names, acts⟩
    have declared := (controllerClass?_around around).mpr names
    rw [← hasActionPlace_routeAbove? (inside held), ← actionOf?_ne_none_iff (inside held)] at acts
    obtain ⟨f, among, at_line, same⟩ := mem_places_iff (c := c) |>.mpr
      ⟨signature, _, by rw [held, Option.bind_some, signed], rfl, controllerOf?_of_class held declared, acts⟩
    exact ⟨f, among, at_line, by rw [held, Option.bind_some, declared, same]⟩

/-- A class with a parameter list below a route with a place for the action: the class is reported as
    an action of its own. -/
theorem class_listed :
    let d : Document := { uri := [], file := "UsersController.cs".toList, text :=
      "[Route(\"[controller]/[action]\")]\npublic class UsersController(IUsers users)".toList }
    ∃ f ∈ (scan (Composer.fresh "1".toList) d).1, f.line = 1 ∧
      (d.lines[1]?).bind controllerClass? = some f.endpoint.action := by
  decide +kernel

end EndpointConsole.Detect
