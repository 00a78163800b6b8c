import EndpointConsole.Proofs.Endpoint.CommentLines
import EndpointConsole.Proofs.Endpoint.Walk

/-!
Whose route a controller gets. The class of a method is the nearest one at or above it,
and its route is on the nearest line of the ten above the class that has a route
attribute, whatever lies in between (`controllerOf?_eq_some_iff`,
`routeAbove?_eq_some_iff`). The walk up to the attributes of an action ends at a line
that bars it, this search does not: a class that has a route of its own gets it, but one
that has none gets that of an earlier member or class (`controllerOf?_own_iff`,
`route_of_earlier`).
-/
namespace EndpointConsole.Detect
open Source

section
variable {has : Text → Bool} {lines : List Text} {n i j : Nat}

theorem Nearest.unique (first : Nearest has lines n i) (second : Nearest has lines n j) : i = j := by
  obtain ⟨line, held, found⟩ := first.found
  obtain ⟨line', held', found'⟩ := second.found
  rcases Nat.lt_trichotomy i j with below | same | below
  · rw [first.nearest j line' below second.above held'] at found'
    cases found'
  · exact same
  · rw [second.nearest i line below first.above held] at found
    cases found

instance : Decidable (Nearest has lines n i) :=
  decidable_of_iff (i < n ∧ lines[i]?.any has = true ∧ ∀ j < n, i < j → lines[j]?.any has = false) <| by
    constructor
    · rintro ⟨above, found, nearest⟩
      refine ⟨above, by simpa [Option.any_eq_true] using found, fun j line below upper held => ?_⟩
      have none_nearer := nearest j upper below
      rwa [held, Option.any_some] at none_nearer
    · rintro ⟨above, ⟨line, held, found⟩, nearest⟩
      refine ⟨above, by rw [held, Option.any_some, found], fun j upper below => ?_⟩
      cases here : lines[j]? with
      | none => rfl
      | some line => exact nearest j line below upper here

/-- The nearest line is the one right above, or it is the nearest of those further up. -/
theorem nearest_succ {line : Text} (held : lines[n]? = some line) :
    Nearest has lines (n + 1) i ↔ if has line = true then i = n else Nearest has lines n i := by
  by_cases here : has line = true
  · rw [if_pos here]
    constructor
    · exact fun nearest => nearest.unique (.first held here)
    · rintro rfl
      exact .first held here
  · rw [if_neg here]
    constructor
    · intro nearest
      obtain ⟨line', held', found⟩ := nearest.found
      have below : i ≠ n := by
        rintro rfl
        rw [held, Option.some.injEq] at held'
        exact here (held' ▸ found)
      have above := nearest.above
      exact ⟨by omega, nearest.found, fun j line lower upper => nearest.nearest j line lower (by omega)⟩
    · intro nearest
      refine nearest.next fun other held' => ?_
      rw [held, Option.some.injEq] at held'
      rw [← held', Bool.eq_false_iff]
      exact here

/-- A search for something in the `k` lines above a line gives what the nearest line that has it gives. -/
theorem findSome?_above_eq_some_iff {α : Type} {give : Text → Option α} {k : Nat} {a : α} (inside : n ≤ lines.length) :
    ((linesAbove lines n).take k).findSome? give = some a ↔
      ∃ j line, Nearest (fun line => (give line).isSome) lines n j ∧ n ≤ j + k ∧ lines[j]? = some line ∧
        give line = some a := by
  induction n generalizing k with
  | zero =>
    refine iff_of_false (by simp [linesAbove]) ?_
    rintro ⟨j, _, nearest, _⟩
    exact absurd nearest.above (Nat.not_lt_zero j)
  | succ n ih =>
    have held := List.getElem?_eq_getElem (show n < lines.length from inside)
    cases k with
    | zero =>
      refine iff_of_false (by simp) ?_
      rintro ⟨j, _, nearest, near, _⟩
      exact absurd nearest.above (by omega)
    | succ k =>
      simp only [linesAbove_succ held, List.take_succ_cons, List.findSome?_cons, nearest_succ held]
      cases given : give lines[n] with
      | some b =>
        simp only [Option.isSome_some, if_true, Option.some.injEq]
        constructor
        · rintro rfl
          exact ⟨n, _, rfl, by omega, held, given⟩
        · rintro ⟨_, line, rfl, _, held', given'⟩
          rw [held, Option.some.injEq] at held'
          rw [← held', given, Option.some.injEq] at given'
          exact given'
      | none =>
        simp only [Option.isSome_none, Bool.false_eq_true, if_false, ih (Nat.le_of_succ_le inside),
          Nat.add_le_add_iff_right, ← Nat.add_assoc]

end

variable {lines : List Text} {m i j : Nat} {c : Controller}

/-- The first route that is met on the ten lines above a class. -/
def routeAbove? (lines : List Text) (i : Nat) : Option Text :=
  ((linesAbove lines i).take controllerRouteLookback).findSome? fun l => routeAttribute? (Text.trim l)

/-- The controller of a method on the line of a class is that class. -/
theorem controllerOf?_of_class {line name : Text} (held : lines[m]? = some line)
    (declared : controllerClass? line = some name) : controllerOf? lines m = some ⟨name, routeAbove? lines m⟩ := by
  rw [controllerOf?, linesAbove_succ held, controllerIn?, declared]
  rfl

theorem controllerOf?_of_undeclared {line : Text} (held : lines[m]? = some line)
    (undeclared : controllerClass? line = none) : controllerOf? lines m = controllerIn? (linesAbove lines m) := by
  rw [controllerOf?, linesAbove_succ held, controllerIn?, undeclared]

/-- The controller of a method is the class on the nearest line at or above it that declares one, with
    the route that is met above the class. -/
theorem controllerOf?_eq_some_iff (inside : m < lines.length) :
    controllerOf? lines m = some c ↔
      ∃ i line, Nearest declaresController lines (m + 1) i ∧ lines[i]? = some line ∧
        controllerClass? line = some c.name ∧ c.route = routeAbove? lines i := by
  change controllerIn? (linesAbove lines (m + 1)) = some c ↔ _
  have bound : m + 1 ≤ lines.length := inside
  generalize m + 1 = n at bound
  induction n with
  | zero =>
    refine iff_of_false (by simp [linesAbove, controllerIn?]) ?_
    rintro ⟨i, _, nearest, _⟩
    exact absurd nearest.above (Nat.not_lt_zero i)
  | succ n ih =>
    have held := List.getElem?_eq_getElem (show n < lines.length from bound)
    change controllerOf? lines n = some c ↔ _
    simp only [nearest_succ held]
    cases declared : controllerClass? lines[n] with
    | some name =>
      have declares : declaresController lines[n] = true := by rw [declaresController, declared, Option.isSome_some]
      simp only [controllerOf?_of_class held declared, if_pos declares, Option.some.injEq]
      constructor
      · rintro rfl
        exact ⟨n, _, rfl, held, declared, rfl⟩
      · rintro ⟨_, line, rfl, held', declared', route⟩
        rw [held, Option.some.injEq] at held'
        rw [← held', declared, Option.some.injEq] at declared'
        rw [declared', ← route]
    | none =>
      have bare : ¬declaresController lines[n] = true := by simp [declaresController, declared]
      simp only [controllerOf?_of_undeclared held declared, if_neg bare, ih (Nat.le_of_succ_le bound)]

/-- The class on line `i` takes its route from line `j`. -/
structure TakesRoute (lines : List Text) (i j : Nat) : Prop where
  nearest : Nearest givesRoute lines i j
  near : i ≤ j + controllerRouteLookback

theorem routeAbove?_eq_some_iff (inside : i ≤ lines.length) {route : Text} :
    routeAbove? lines i = some route ↔
      ∃ j above, TakesRoute lines i j ∧ lines[j]? = some above ∧ routeAttribute? (Text.trim above) = some route := by
  rw [routeAbove?, findSome?_above_eq_some_iff inside]
  constructor
  · rintro ⟨j, above, gives, near, held, given⟩
    exact ⟨j, above, ⟨gives, near⟩, held, given⟩
  · rintro ⟨j, above, takes, held, given⟩
    exact ⟨j, above, takes.nearest, takes.near, held, given⟩

/-- The class on line `i` has a route of its own on line `j`: no line in between bars the way up. -/
structure HasOwnRoute (lines : List Text) (i j : Nat) : Prop where
  above : j < i
  near : i ≤ j + controllerRouteLookback
  given : ∃ line, lines[j]? = some line ∧ givesRoute line = true
  open_way : ∀ k line, j < k → k < i → lines[k]? = some line → ¬Bars (Text.trim line)

/-- No line that bars the way up lies between the class on line `i` and the route that it takes. -/
def RouteIsOwn (lines : List Text) (i : Nat) : Prop :=
  ∀ j, TakesRoute lines i j → ∀ k between, j < k → k < i → lines[k]? = some between → ¬Bars (Text.trim between)

/-- None of the ten lines above line `i` has a route. -/
def NoRouteAbove (lines : List Text) (i : Nat) : Prop :=
  ∀ j above, j < i → i ≤ j + 10 → lines[j]? = some above → routeAttribute? (Text.trim above) = none

/-- The controller of the method on line `m` is the class on line `i`, with the route that this takes. -/
structure ControllerAt (lines : List Text) (m : Nat) (c : Controller) (i : Nat) : Prop where
  nearest : Nearest declaresController lines (m + 1) i
  named : ∃ line, lines[i]? = some line ∧ controllerClass? line = some c.name
  route (route : Text) : c.route = some route ↔
    ∃ j above, TakesRoute lines i j ∧ lines[j]? = some above ∧ routeAttribute? (Text.trim above) = some route

/-- There is a line from which a route is taken if any of the ten lines above has one. -/
theorem exists_takesRoute (inside : i ≤ lines.length) (above : j < i) (near : i ≤ j + controllerRouteLookback)
    {line : Text} (held : lines[j]? = some line) (given : givesRoute line = true) :
    ∃ k, TakesRoute lines i k ∧ j ≤ k := by
  induction i with
  | zero => cases above
  | succ i ih =>
    have here := List.getElem?_eq_getElem (show i < lines.length from inside)
    by_cases gives : givesRoute lines[i] = true
    · exact ⟨i, ⟨.first here gives, by omega⟩, by omega⟩
    · have lower : j ≠ i := by
        rintro rfl
        rw [here, Option.some.injEq] at held
        exact gives (held ▸ given)
      obtain ⟨k, takes, behind⟩ := ih (by omega) (by omega) (by omega)
      have nearest : Nearest givesRoute lines (i + 1) k := (nearest_succ here).mpr ((if_neg gives).mpr takes.nearest)
      exact ⟨k, ⟨nearest, by omega⟩, behind⟩

/-- The controller of a method is a class at or above it with the route that this class takes. The route
    is its own just if the class has a route of its own, or none of the ten lines above it has one. -/
theorem controllerOf?_own_iff (inside : m < lines.length) (found : controllerOf? lines m = some c) :
    ∃ i, ControllerAt lines m c i ∧
      (RouteIsOwn lines i ↔ (∃ j, HasOwnRoute lines i j) ∨ NoRouteAbove lines i) := by
  obtain ⟨i, line, nearest, held, declared, route⟩ := (controllerOf?_eq_some_iff inside).mp found
  have upTo : i ≤ lines.length := Nat.le_of_lt (List.getElem?_eq_some_iff.mp held).1
  refine ⟨i, ⟨nearest, ⟨line, held, declared⟩, fun taken => ?_⟩, ?_, ?_⟩
  · rw [route, routeAbove?_eq_some_iff upTo]
  · intro own
    by_cases routes : ∃ j, TakesRoute lines i j
    · obtain ⟨j, takes⟩ := routes
      exact .inl ⟨j, takes.nearest.above, takes.near, takes.nearest.found, own j takes⟩
    · refine .inr fun j above upper near held' => ?_
      by_contra given
      obtain ⟨k, takes, _⟩ := exists_takesRoute upTo upper near held' (Option.isSome_iff_ne_none.mpr given)
      exact routes ⟨k, takes⟩
  · rintro (⟨own, ⟨above, near, ⟨line', held', given⟩, open_way⟩⟩ | none_given)
    · -- the route that is taken is this one or lies below it
      obtain ⟨k, takes, behind⟩ := exists_takesRoute upTo above near held' given
      intro j taken l between lower upper
      have same := taken.nearest.unique takes.nearest
      exact open_way l between (by omega) upper
    · intro j taken
      obtain ⟨above, held', given⟩ := taken.nearest.found
      rw [givesRoute, none_given j above taken.nearest.above taken.near held'] at given
      cases given

/-- A class with a route of its own below the end of another class. -/
theorem controllerOf?_own_second_class :
    let lines := ["[Route(\"old\")]".toList, "public class OldController".toList, "\x7d".toList,
      "[Route(\"api\")]".toList, "public class UsersController".toList, "public string Get()".toList]
    let c : Controller := ⟨"UsersController".toList, some "api".toList⟩
    (5 < lines.length ∧ controllerOf? lines 5 = some c) ∧
      ∃ i, ControllerAt lines 5 c i ∧
        (RouteIsOwn lines i ↔ (∃ j, HasOwnRoute lines i j) ∨ NoRouteAbove lines i) := by
  intro lines c
  have inside : 5 < lines.length := by decide
  have found : controllerOf? lines 5 = some c := by decide +kernel
  exact ⟨⟨inside, found⟩, controllerOf?_own_iff inside found⟩

/-- A class without a route gets that of the class above it, and that of a member of the class above it. -/
theorem route_of_earlier :
    let ofClass := ["[Route(\"old\")]".toList, "public class OldController".toList, "\x7d".toList,
      "public class UsersController".toList, "public string Get()".toList]
    let ofMember := ["public class OldController".toList, "[Route(\"import\")]".toList,
      "public string Import()".toList, "\x7d".toList, "public class UsersController".toList,
      "public string Get()".toList]
    (controllerOf? ofClass 4 = some ⟨"UsersController".toList, some "old".toList⟩ ∧
        Nearest declaresController ofClass 5 3 ∧ ¬RouteIsOwn ofClass 3) ∧
      controllerOf? ofMember 5 = some ⟨"UsersController".toList, some "import".toList⟩ ∧
        Nearest declaresController ofMember 6 4 ∧ ¬RouteIsOwn ofMember 4 := by
  intro ofClass ofMember
  have takesClass : TakesRoute ofClass 3 0 := ⟨by decide +kernel, by decide⟩
  have takesMember : TakesRoute ofMember 4 1 := ⟨by decide +kernel, by decide⟩
  refine ⟨⟨by decide +kernel, by decide +kernel, fun own => ?_⟩, by decide +kernel, by decide +kernel, fun own => ?_⟩
  · exact own 0 takesClass 1 _ (by decide) (by decide) rfl (by decide +kernel)
  · exact own 1 takesMember 2 _ (by decide) (by decide) rfl (by decide +kernel)

end EndpointConsole.Detect
