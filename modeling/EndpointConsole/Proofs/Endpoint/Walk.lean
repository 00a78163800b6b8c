import EndpointConsole.Endpoint.Detect
import EndpointConsole.Proofs.Text.Cutting

/-!
The attributes of an action in closed form. The way up from a method takes in the lines
right above it as far as none of them bars it, blank lines and comments left out
(`walked`). On the way a verb counts for more the higher it stands, and so does a route
that a verb gives, while of the other route attributes the lowest one counts
(`actionOf?_walked`): the two accumulators of the search are two searches in opposite
directions over the same lines.
-/
namespace EndpointConsole.Detect
open Source

/-- A line that is neither blank nor a comment. -/
def Counts (line : Text) : Prop := line ≠ [] ∧ isCommentLine line = false

/-- Attributes do not lie above a line that counts and declares a method, names a class or closes a
    block. -/
def Bars (line : Text) : Prop :=
  Counts line ∧ (isSignature line = true ∨ hasClassKeyword line = true ∨ line.head? = some '\x7d')

instance : DecidablePred Counts := fun _ => inferInstanceAs (Decidable (_ ∧ _))

instance : DecidablePred Bars := fun _ => inferInstanceAs (Decidable (_ ∧ _))

/-- Lines `m - 1`, `m - 2` and so on, ten of them or down to the first line of all, each without the
    blanks around it. -/
def window (lines : List Text) (m : Nat) : List Text :=
  (List.range (min m 10)).map fun k => Text.trim (lines[m - 1 - k]?.getD [])

/-- The lines that the attributes of a method on line `m` are taken from, nearest first. -/
def walked (lines : List Text) (m : Nat) : List Text :=
  ((window lines m).takeWhile fun line => ¬Bars line).filter fun line => Counts line

theorem counts_iff {line : Text} : Counts line ↔ ¬isSkipped line = true := by
  cases line <;> simp [Counts, isSkipped]

theorem bars_iff {line : Text} : Bars line ↔ Counts line ∧ isBarrier line = true := by
  have brace : Text.startsWith ['\x7d'] line = true ↔ line.head? = some '\x7d' := by
    cases line with
    | nil => simp [Text.startsWith]
    | cons c rest =>
      simp only [Text.startsWith, List.isPrefixOf, Bool.and_true, beq_iff_eq, List.head?_cons, Option.some.injEq]
      exact eq_comm
  rw [Bars, isBarrier, Bool.or_eq_true, Bool.or_eq_true, brace, or_assoc]

theorem linesAbove_window {lines : List Text} {m : Nat} (inside : m ≤ lines.length) :
    ((linesAbove lines m).take attributeLookback).map Text.trim = window lines m := by
  refine List.ext_getElem ?_ fun k near near' => ?_
  · simp [linesAbove, window, attributeLookback]
    omega
  · have above : k < m := by
      rw [window, List.length_map, List.length_range] at near'
      omega
    have held : m - 1 - k < lines.length := by omega
    simp only [linesAbove, window, List.getElem_map, List.getElem_take, List.getElem_reverse, List.getElem_range,
      List.getElem?_eq_getElem held, Option.getD_some, List.length_take, Nat.min_eq_left inside]

/-- The way up is the walked lines, taken in one after another. -/
theorem collect_eq (a : Action) (lines : List Text) :
    a.collect lines =
      ((lines.takeWhile fun line => ¬Bars line).filter fun line => Counts line).foldl Action.takeIn a := by
  induction lines generalizing a with
  | nil => rfl
  | cons line above ih =>
    rw [Action.collect, List.takeWhile_cons]
    by_cases counts : Counts line
    · rw [if_neg (counts_iff.mp counts)]
      by_cases barrier : isBarrier line = true
      · have bars : Bars line := bars_iff.mpr ⟨counts, barrier⟩
        rw [if_pos barrier, if_neg (by simpa using bars)]
        rfl
      · have free : ¬Bars line := fun bars => barrier (bars_iff.mp bars).2
        rw [if_neg barrier, if_pos (decide_eq_true free), List.filter_cons, if_pos (decide_eq_true counts),
          List.foldl_cons, ih]
    · have skipped : isSkipped line = true := not_not.mp (mt counts_iff.mpr counts)
      have free : ¬Bars line := fun bars => counts bars.1
      rw [if_pos skipped, if_pos (decide_eq_true free), List.filter_cons_of_neg (by simpa using counts), ih]

/-- The route that the verb on a line gives. -/
def verbRoute? (line : Text) : Option Text := (verbAttribute? line).bind Verb.route

theorem takeIn_method (a : Action) (line : Text) :
    (a.takeIn line).method = ((verbAttribute? line).map Verb.method).or a.method := by
  rw [Action.takeIn]
  cases verbAttribute? line <;> rfl

theorem takeIn_route (a : Action) (line : Text) :
    (a.takeIn line).route = ((verbRoute? line).or a.route).or (routeAttribute? line) := by
  rw [Action.takeIn, verbRoute?]
  cases verbAttribute? line with
  | none => exact Option.or_eq_orElse.symm
  | some verb => simp only [Option.bind_some, Option.orElse_eq_orElse, Option.orElse_eq_or]

/-- The highest verb counts. -/
theorem foldl_takeIn_method (a : Action) (lines : List Text) :
    (lines.foldl Action.takeIn a).method =
      ((lines.reverse.findSome? verbAttribute?).map Verb.method).or a.method := by
  induction lines generalizing a with
  | nil => rfl
  | cons line above ih =>
    rw [List.foldl_cons, ih, takeIn_method, List.reverse_cons, List.findSome?_append, List.findSome?_singleton,
      Option.map_or, Option.or_assoc]

/-- The highest route of a verb counts, then what was known, then the lowest route attribute. -/
theorem foldl_takeIn_route (a : Action) (lines : List Text) :
    (lines.foldl Action.takeIn a).route =
      (lines.reverse.findSome? verbRoute?).or (a.route.or (lines.findSome? routeAttribute?)) := by
  induction lines generalizing a with
  | nil => simp
  | cons line above ih =>
    rw [List.foldl_cons, ih, takeIn_route, List.reverse_cons, List.findSome?_append, List.findSome?_singleton,
      List.findSome?_cons]
    cases routeAttribute? line <;> simp [Option.or_assoc]

/-- What comes after the first element that ends a search does not matter. -/
theorem takeWhile_congr {α : Type} {p : α → Bool} {first second : List α} {n : Nat} {a : α}
    (same : ∀ k ≤ n, second[k]? = first[k]?) (ends : first[n]? = some a) (stops : p a = false) :
    second.takeWhile p = first.takeWhile p := by
  induction n generalizing first second with
  | zero =>
    obtain ⟨rest, rfl⟩ := List.head?_eq_some_iff.mp (List.head?_eq_getElem?.trans ends)
    obtain ⟨rest', rfl⟩ := List.head?_eq_some_iff.mp (List.head?_eq_getElem?.trans ((same 0 le_rfl).trans ends))
    rw [List.takeWhile_cons_of_neg (by simp [stops]), List.takeWhile_cons_of_neg (by simp [stops])]
  | succ n ih =>
    cases first with
    | nil => cases ends
    | cons b first =>
      obtain ⟨second, rfl⟩ := List.head?_eq_some_iff.mp (List.head?_eq_getElem?.trans (same 0 (Nat.zero_le _)))
      have tails := ih (fun k near => same (k + 1) (by omega)) ends
      rw [List.takeWhile_cons, List.takeWhile_cons, tails]

section
variable {lines lines' : List Text} {m b : Nat}

theorem window_congr {k : Nat} (same : ∀ i, b ≤ i → i < m → lines'[i]? = lines[i]?) (near : b + k < m) :
    (window lines' m)[k]? = (window lines m)[k]? := by
  simp only [window, List.getElem?_map]
  by_cases inside : k < min m 10
  · rw [List.getElem?_range inside, Option.map_some, Option.map_some, same (m - 1 - k) (by omega) (by omega)]
  · rw [List.getElem?_eq_none (by rw [List.length_range]; omega), Option.map_none, Option.map_none]

/-- The walk does not go beyond a barrier. -/
theorem walked_congr (same : ∀ i, b ≤ i → i < m → lines'[i]? = lines[i]?) (above : b < m) {line : Text}
    (held : lines[b]? = some line) (bars : Bars (Text.trim line)) : walked lines' m = walked lines m := by
  rw [walked, walked]
  congr 1
  by_cases near : m - 1 - b < min m 10
  · refine takeWhile_congr (n := m - 1 - b) (a := Text.trim line) (fun k below => ?_) ?_ (by simpa using bars)
    · exact window_congr same (by omega)
    · have here : m - 1 - (m - 1 - b) = b := by omega
      simp only [window, List.getElem?_map, List.getElem?_range near, Option.map_some, here, held, Option.getD_some]
  · have all : window lines' m = window lines m := by
      refine List.map_congr_left fun k among => ?_
      have inside := List.mem_range.mp among
      rw [same (m - 1 - k) (by omega) (by omega)]
    rw [all]

end

/-- The route of a controller has a place for the name of the action, written in any case. -/
def HasActionPlace (route : Option Text) : Prop :=
  ∃ template ∈ route, ∃ before place after, template = before ++ place ++ after ∧
    Text.sameLetters place "[action]".toList = true

theorem namesAction_iff (route : Option Text) : namesAction route = true ↔ HasActionPlace route := by
  have lower : Text.asciiLower "[action]".toList = Route.actionToken := by decide
  cases route with
  | none => simp [namesAction, HasActionPlace]
  | some template =>
    simp only [namesAction, HasActionPlace, Option.any_some, Option.mem_some_iff, exists_eq_left', Text.contains_iff,
      Text.asciiLower, List.infix_map_iff, Text.sameLetters, beq_iff_eq]
    constructor
    · rintro ⟨place, ⟨before, after, rfl⟩, same⟩
      exact ⟨before, place, after, rfl, same.symm.trans lower.symm⟩
    · rintro ⟨before, place, after, rfl, same⟩
      exact ⟨place, ⟨before, after, rfl⟩, (same.trans lower).symm⟩

theorem actionOf?_eq {lines : List Text} {m : Nat} (inside : m ≤ lines.length) (controllerRoute : Option Text) :
    actionOf? lines m controllerRoute =
      ((((walked lines m).reverse.findSome? verbAttribute?).map Verb.method).or
          (if namesAction controllerRoute then some .any else none)).map
        (·, ((walked lines m).reverse.findSome? verbRoute?).or ((walked lines m).findSome? routeAttribute?)) := by
  have collected : Action.collect {} (((linesAbove lines m).take attributeLookback).map Text.trim) =
      (walked lines m).foldl Action.takeIn {} := by rw [linesAbove_window inside, collect_eq, walked]
  have method := foldl_takeIn_method {} (walked lines m)
  have route := foldl_takeIn_route {} (walked lines m)
  rw [Option.or_none] at method
  rw [Option.none_or] at route
  simp only [actionOf?, collected, method, route]
  cases (walked lines m).reverse.findSome? verbAttribute? with
  | some verb => rfl
  | none => cases namesAction controllerRoute <;> rfl

/-- An action is found if a walked line has a verb or the controller's route has a place for it. -/
theorem actionOf?_ne_none_iff {lines : List Text} {m : Nat} (inside : m ≤ lines.length)
    {controllerRoute : Option Text} :
    actionOf? lines m controllerRoute ≠ none ↔
      (∃ line ∈ walked lines m, (verbAttribute? line).isSome = true) ∨ HasActionPlace controllerRoute := by
  have verbs : (∃ line ∈ walked lines m, (verbAttribute? line).isSome = true) ↔
      ((walked lines m).reverse.findSome? verbAttribute?).isSome = true := by simp
  rw [actionOf?_eq inside, verbs, ← namesAction_iff]
  cases (walked lines m).reverse.findSome? verbAttribute? with
  | some verb => simp
  | none => cases namesAction controllerRoute <;> simp

/-- No action is found just if no walked line has a verb and the controller's route has no place for the
    action. Else its method is that of the highest walked line with a verb, or any; and its route is that
    of the highest verb that gives one, else the lowest route attribute. What stands above a barrier never
    counts. -/
theorem actionOf?_walked {lines : List Text} {m : Nat} (inside : m ≤ lines.length) (controllerRoute : Option Text) :
    (actionOf? lines m controllerRoute = none ↔
        (∀ line ∈ walked lines m, verbAttribute? line = none) ∧ ¬HasActionPlace controllerRoute) ∧
      (∀ method route, actionOf? lines m controllerRoute = some (method, route) →
        method = (((walked lines m).reverse.findSome? verbAttribute?).map Verb.method).getD .any ∧
          route = ((walked lines m).reverse.findSome? verbRoute?).or ((walked lines m).findSome? routeAttribute?)) ∧
      ∀ b line, b < m → lines[b]? = some line → Bars (Text.trim line) → ∀ lines' : List Text,
        (∀ i, b ≤ i → i < m → lines'[i]? = lines[i]?) →
          actionOf? lines' m controllerRoute = actionOf? lines m controllerRoute := by
  refine ⟨?_, ?_, ?_⟩
  · rw [← not_iff_not, ← ne_eq, actionOf?_ne_none_iff inside, not_and_or, not_not]
    simp [Option.isSome_iff_ne_none]
  · intro method route found
    rw [actionOf?_eq inside] at found
    cases highest : (walked lines m).reverse.findSome? verbAttribute? with
    | some verb =>
      simp only [highest, Option.map_some, Option.some_or, Option.some.injEq, Prod.mk.injEq] at found
      exact ⟨found.1.symm, found.2.symm⟩
    | none =>
      simp only [highest, Option.map_none, Option.none_or, Option.map_eq_some_iff, Prod.mk.injEq] at found
      obtain ⟨_, named, rfl, rfl⟩ := found
      cases names : namesAction controllerRoute with
      | false => simp [names] at named
      | true =>
        simp only [names, if_true, Option.some.injEq] at named
        exact ⟨named.symm, rfl⟩
  · intro b line above held bars lines' same
    have inside' : m ≤ lines'.length := by
      have last := same (m - 1) (by omega) (by omega)
      rw [List.getElem?_eq_getElem (show m - 1 < lines.length by omega)] at last
      have := (List.getElem?_eq_some_iff.mp last).1
      omega
    rw [actionOf?_eq inside', actionOf?_eq inside, walked_congr same above held bars]

/-- Two verbs and a route attribute between a comment and another member: the upper verb counts with its
    route, and what stands above the member may be anything. -/
theorem actionOf?_walked_upper_verb :
    let member := ["public void Other()".toList, "[HttpPut(\"first\")]".toList, "// [HttpGet]".toList,
      "[Route(\"ignored\")]".toList, " [HttpPost(\"second\")]".toList, "public string Save()".toList]
    let lines := "[HttpDelete]".toList :: member
    let lines' := "[HttpGet(\"other\")]".toList :: member
    let w := walked lines 6
    (6 ≤ lines.length ∧ 1 < 6 ∧ lines[1]? = some "public void Other()".toList ∧
        Bars (Text.trim "public void Other()".toList) ∧ ∀ i, 1 ≤ i → i < 6 → lines'[i]? = lines[i]?) ∧
      w = ["[HttpPost(\"second\")]".toList, "[Route(\"ignored\")]".toList, "[HttpPut(\"first\")]".toList] ∧
      (HttpMethod.put = ((w.reverse.findSome? verbAttribute?).map Verb.method).getD .any ∧
        some "first".toList = (w.reverse.findSome? verbRoute?).or (w.findSome? routeAttribute?)) ∧
      actionOf? lines' 6 none = actionOf? lines 6 none := by
  intro member lines lines' w
  have inside : 6 ≤ lines.length := by decide
  have bars : Bars (Text.trim "public void Other()".toList) := by decide +kernel
  have same : ∀ i, 1 ≤ i → i < 6 → lines'[i]? = lines[i]? := by
    intro i from_member above
    obtain ⟨k, rfl⟩ := Nat.exists_eq_add_of_le' from_member
    rfl
  have found : actionOf? lines 6 none = some (.put, some "first".toList) := by decide +kernel
  obtain ⟨_, values, above⟩ := actionOf?_walked inside none
  exact ⟨⟨inside, by decide, rfl, bars, same⟩, by decide +kernel, values _ _ found,
    above 1 _ (by decide) rfl bars lines' same⟩

end EndpointConsole.Detect
