import EndpointConsole.Proofs.Endpoint.OwnRoutes
import EndpointConsole.Proofs.Endpoint.Sites
import EndpointConsole.Proofs.Parameter.Breaks
import EndpointConsole.Proofs.Source.Insertion

/-!
An attribute on the line of a method. It changes neither the method nor the route of the endpoint
(`handler?_annotated`), but the list of parameters is looked for from the first parenthesis of the line on,
which is that of the attribute. So the arguments of the attribute are taken for the parameters of the method
unless a parenthesis stands before the attribute, and the endpoint stays the same only then or where the arguments
happen to declare the same (`detect_annotated`).
-/
namespace EndpointConsole

namespace Parameter

variable {args before list : Text}

/-- Arguments in which parentheses match outside of literals. -/
inductive Arguments : Text → Prop where
  | nil : Arguments []
  | char {c : Char} {s : Text} (plain : c ∉ ['"', '(', ')']) (rest : Arguments s) : Arguments (c :: s)
  | literal {body s : Text} (closes : Closes body) (rest : Arguments s) : Arguments (quoted body ++ s)
  | group {inner s : Text} (inside : Arguments inner) (rest : Arguments s) : Arguments ('(' :: (inner ++ ')' :: s))

theorem balancedFrom_arguments (arguments : Arguments args) {depth : Nat} (opened : 1 ≤ depth) (p : Char)
    (rest : Text) : balancedFrom depth false p (args ++ rest) = (balancedFrom depth false p rest).map (args ++ ·) := by
  induction arguments generalizing depth rest with
  | nil => exact Option.map_id_apply.symm
  | @char c s plain _ ih =>
    simp only [List.mem_cons, List.not_mem_nil, or_false, not_or] at plain
    have step : balancedFrom depth false p (c :: (s ++ rest)) =
        (balancedFrom depth false p (s ++ rest)).map (c :: ·) := by
      simp [balancedFrom, plain, balancedFrom_outside c p]
    rw [List.cons_append, step, ih opened, Option.map_map]
    rfl
  | @literal body s closes _ ih =>
    rw [List.append_assoc, balancedFrom_quoted closes, balancedFrom_outside '"' p, ih opened, Option.map_map]
    simp [Function.comp_def]
  | @group inner s _ _ inside ih =>
    have closes : balancedFrom (depth + 1) false p (')' :: (s ++ rest)) =
        (balancedFrom depth false p (s ++ rest)).map (')' :: ·) := by
      have deeper : ¬depth + 1 ≤ 1 := by omega
      simp [balancedFrom, deeper, balancedFrom_outside ')' p]
    have step : balancedFrom depth false p ('(' :: (inner ++ ')' :: (s ++ rest))) =
        (balancedFrom (depth + 1) false p (inner ++ ')' :: (s ++ rest))).map ('(' :: ·) := by
      simp [balancedFrom, balancedFrom_outside '(' p]
    rw [List.cons_append, List.append_assoc, List.cons_append, step, inside (Nat.le_add_left 1 depth), closes, ih opened]
    simp [Function.comp_def]

/-- The arguments that follow the first parenthesis of a line are taken for its list. -/
theorem balanced?_arguments (absent : '(' ∉ before) (arguments : Arguments args) (rest : Text) :
    balanced? (before ++ '(' :: (args ++ ')' :: rest)) = some args := by
  have ends : balancedFrom 1 false '(' (')' :: rest) = some [] := by simp [balancedFrom]
  have found := balancedFrom_arguments arguments (Nat.le_refl 1) '(' (')' :: rest)
  rw [ends, Option.map_some, List.append_nil] at found
  rw [balanced?, Text.cutAt?_append absent]
  exact found

theorem balanced?_trim (s : Text) : balanced? (Text.trim s) = balanced? s := by
  obtain ⟨before, after, blank, blank', whole⟩ := Text.exists_margins s
  conv_rhs => rw [whole]
  rw [balanced?_append_blank blank', ← balanced?_trimStart (before ++ _), Text.trimStart_blank_append blank,
    balanced?_trimStart]

/-- A list that is closed on the line of the method is not looked for on other lines. -/
theorem listAt?_of_line {lines : List Text} {n : Nat} {line : Text} (held : lines[n]? = some line)
    (closed : balanced? line = some list) : listAt? lines n = some list := by
  obtain ⟨inside, same⟩ := List.getElem?_eq_some_iff.mp held
  have gathered : gather [] line = Text.trim line := rfl
  rw [listAt?, List.drop_eq_getElem_cons inside, same, listLookahead, List.take_succ_cons, listFrom]
  simp only [gathered, balanced?_trim, closed]

end Parameter

namespace Source.Insertion
open Parameter (Arguments balanced? balanced?_arguments balanced?_append_of_closed)

variable (i : Insertion) {list : Text}

theorem balanced?_annotated (absent : '(' ∉ i.start) (arguments : Arguments i.args) :
    balanced? i.annotated = some i.args := by
  have before : '(' ∉ i.start ++ '[' :: i.name :=
    List.mem_append.not.mpr (not_or.mpr ⟨absent, i.parenthesis_not_mem_name⟩)
  have split : i.annotated = i.start ++ '[' :: i.name ++ '(' :: (i.args ++ ')' :: (']' :: ' ' :: i.declared)) := by
    simp [annotated, attributeText]
  rw [split, balanced?_arguments before arguments]

theorem balanced?_start (closed : balanced? i.start = some list) :
    balanced? i.line = some list ∧ balanced? i.annotated = some list :=
  ⟨balanced?_append_of_closed closed _, balanced?_append_of_closed closed _⟩

end Source.Insertion

/-- An endpoint with other parameters. -/
def Endpoint.withSummary (e : Endpoint) (s : Parameter.Summary) : Endpoint :=
  { e with
    autoQuery := if s.autoQuery.isEmpty then none else some s.autoQuery
    parameters := s.parameters
    preferredBody := s.preferredBody }

theorem Endpoint.withSummary_injective (e : Endpoint) {s t : Parameter.Summary}
    (same : e.withSummary s = e.withSummary t) : s = t := by
  obtain ⟨parameters, autoQuery, body⟩ := s
  obtain ⟨parameters', autoQuery', body'⟩ := t
  simp only [withSummary, Endpoint.mk.injEq, true_and] at same
  obtain ⟨query, rfl, rfl⟩ := same
  cases autoQuery <;> cases autoQuery' <;> simp_all

namespace Detect
open Source
open Route (Composer Parts)
open Parameter (Arguments balanced? classify declarations listAt?_of_line summarize)

variable (i : Insertion) {lines : List Text} {n : Nat}

theorem linesAbove_set (line : Text) : linesAbove (lines.set n line) n = linesAbove lines n := by
  rw [linesAbove, linesAbove, List.take_set_of_le (Nat.le_refl n)]

section
variable (held : lines[n]? = some i.line)
include held

theorem getElem?_annotated : (lines.set n i.annotated)[n]? = some i.annotated := by
  obtain ⟨inside, -⟩ := List.getElem?_eq_some_iff.mp held
  exact List.getElem?_set_self inside

theorem controllerOf?_annotated : controllerOf? (lines.set n i.annotated) n = controllerOf? lines n := by
  rw [controllerOf?, controllerOf?, linesAbove_succ held, linesAbove_succ (getElem?_annotated i held), linesAbove_set,
    controllerIn?, controllerIn?, i.controllerClass?_annotated]

theorem versionAbove?_annotated : Route.versionAbove? (lines.set n i.annotated) n = Route.versionAbove? lines n := by
  have above := linesAbove_succ held
  have above' := linesAbove_succ (getElem?_annotated i held)
  rw [linesAbove_set] at above'
  simp only [linesAbove] at above above'
  rw [Route.versionAbove?, Route.versionAbove?]
  simp only [above, above', List.take_succ_cons, Route.versionOfClass?, controllerClass?_trim,
    i.controllerClass?_annotated]

theorem handler?_annotated (file : Text) : handler? (lines.set n i.annotated) n file =
    (handler? lines n file).map fun h => { h with parts := { h.parts with lines := lines.set n i.annotated } } := by
  have action (route : Option Text) : actionOf? (lines.set n i.annotated) n route = actionOf? lines n route := by
    rw [actionOf?, actionOf?, linesAbove_set]
  rw [handler?, handler?, held, getElem?_annotated i held, Option.bind_some, Option.bind_some, i.ofLine?_line,
    i.ofLine?_annotated, controllerOf?_annotated i held]
  cases controllerOf? lines n with
  | none => rfl
  | some controller =>
    simp only [action]
    cases actionOf? lines n controller.route with
    | none => rfl
    | some found => rfl

theorem classify_annotated (closed : '(' ∈ i.start → balanced? i.start ≠ none) (arguments : Arguments i.args)
    (method : HttpMethod) (names : List Text) : classify (lines.set n i.annotated) n method names =
      if '(' ∈ i.start then classify lines n method names else summarize method names (declarations i.args) := by
  have held' := getElem?_annotated i held
  split
  · next opens =>
    obtain ⟨list, found⟩ := Option.ne_none_iff_exists'.mp (closed opens)
    obtain ⟨first, second⟩ := i.balanced?_start found
    rw [classify, classify, listAt?_of_line held first, listAt?_of_line held' second]
  · next absent => rw [classify, listAt?_of_line held' (i.balanced?_annotated absent arguments)]

end

theorem handler?_lines {file : Text} {h : Handler} (handled : handler? lines n file = .ok h) :
    h.parts.lines = lines := by
  unfold handler? at handled
  split at handled
  · cases handled
  · split at handled
    · cases handled
    · split at handled
      · cases handled
      · cases handled
        rfl

/-- On other lines a handler has an endpoint with other parameters. -/
theorem Handler.endpoint_lines (h : Handler) (lines : List Text) (route : Text) :
    Handler.endpoint { h with parts := { h.parts with lines } } route = (h.endpoint route).withSummary
      (classify lines h.parts.methodLine h.method (Route.placeholderNames route)) := rfl

theorem Handler.endpointAfter_summary (h : Handler) (v : Text) : h.endpointAfter v [] =
    (h.endpointAfter v []).withSummary (classify h.parts.lines h.parts.methodLine h.method
      (Route.placeholderNames (h.endpointAfter v []).route)) := rfl

/-- The endpoint of a handler whose line has the attribute: the route is the same, and the list may be another. -/
theorem Handler.endpointAfter_annotated {h : Handler} (held : h.parts.lines[h.parts.methodLine]? = some i.line)
    (closed : '(' ∈ i.start → balanced? i.start ≠ none) (arguments : Arguments i.args) (v : Text) :
    Handler.endpointAfter v []
        { h with parts := { h.parts with lines := h.parts.lines.set h.parts.methodLine i.annotated } } =
      if '(' ∈ i.start then h.endpointAfter v [] else (h.endpointAfter v []).withSummary
        (summarize h.method (Route.placeholderNames (h.endpointAfter v []).route) (declarations i.args)) := by
  have inside := (List.getElem?_eq_some_iff.mp held).1
  have alike : h.parts.Alike { h.parts with lines := h.parts.lines.set h.parts.methodLine i.annotated } := by
    refine ⟨rfl, rfl, rfl, rfl, rfl, ?_⟩
    rw [version?_of_lt inside, version?_of_lt (by simpa using inside)]
    exact versionAbove?_annotated i held
  rw [Handler.endpointAfter, Route.routeAfter_alike .nil alike, Handler.endpoint_lines,
    classify_annotated i held closed arguments]
  split
  · exact (h.endpointAfter_summary v).symm
  · rfl

/-- Where a method is detected, it is detected with the attribute too, with the arguments of the attribute for its
    parameters unless a parenthesis stands before the attribute. -/
theorem detect_annotated (held : lines[n]? = some i.line) (closed : '(' ∈ i.start → balanced? i.start ≠ none)
    (arguments : Arguments i.args) {v file : Text} {e : Endpoint}
    (detected : (detect (Composer.fresh v) lines n file).1 = .ok e) :
    (detect (Composer.fresh v) (lines.set n i.annotated) n file).1 = .ok (if '(' ∈ i.start then e else
      e.withSummary (summarize e.method (Route.placeholderNames e.route) (declarations i.args))) ∧
    ((detect (Composer.fresh v) (lines.set n i.annotated) n file).1 = .ok e ↔ '(' ∈ i.start ∨
      summarize e.method (Route.placeholderNames e.route) (declarations i.args) =
        classify lines n e.method (Route.placeholderNames e.route)) := by
  cases handled : handler? lines n file with
  | error miss =>
    rw [detect_missed handled] at detected
    cases detected
  | ok h =>
    have handled' := handler?_annotated i held file
    rw [handled] at handled'
    have answer := (detect_found (Composer.remembers_fresh v) handled).1
    have answer' := (detect_found (Composer.remembers_fresh v) handled').1
    obtain rfl : h.endpointAfter v [] = e := Except.ok.inj (answer.symm.trans detected)
    obtain rfl := handler?_lines handled
    obtain rfl := handler?_line handled
    have before := h.endpointAfter_summary v
    rw [answer', Handler.endpointAfter_annotated i held closed arguments]
    refine ⟨rfl, ?_⟩
    split
    · next opens => exact iff_of_true rfl (.inl opens)
    · next absent =>
      constructor
      · intro same
        exact .inr (Endpoint.withSummary_injective _ ((Except.ok.inj same).trans before))
      · rintro (opens | same)
        · exact absurd opens absent
        · exact congrArg Except.ok ((congrArg _ same).trans before.symm)

def usersLines : List Text :=
  ["public class UsersController".toList, "[HttpGet(\"users\")]".toList, "public string Get(int page)".toList]

def usersEndpoint : Endpoint where
  method := .get
  route := "/users".toList
  controller := "UsersController".toList
  action := "Get".toList
  file := "UsersController.cs".toList
  line := 3
  autoQuery := some ["page".toList]
  parameters := [{ name := "page".toList, type := "int".toList, source := .query, required := true }]

/-- A policy for the method of `usersLines`. -/
def policy : Insertion where
  start := []
  declared := "public string Get(int page)".toList
  name := "Authorize".toList
  args := "\"admin\"".toList
  found := ("Get".toList, 14)
  signed := by decide +kernel
  boundary := rfl
  nameChars := by
    have plain : ("Authorize".toList.all fun c => !Text.isBlank c && c != '(') = true := by decide
    simpa using plain
  unsigned := by decide +kernel
  unclassed := by decide +kernel

theorem arguments_policy : Arguments policy.args := by
  have closes : Parameter.Closes "admin".toList := ⟨.of_absent (by decide) (by decide), by decide⟩
  exact .literal closes .nil

/-- The method has no parameters any more. -/
theorem detect_policy : usersLines[2]? = some policy.line ∧ Arguments policy.args ∧
    (detect (Composer.fresh []) usersLines 2 "UsersController.cs".toList).1 = .ok usersEndpoint ∧
    (detect (Composer.fresh []) (usersLines.set 2 policy.annotated) 2 "UsersController.cs".toList).1 =
      .ok (usersEndpoint.withSummary {}) := by
  have detected : (detect (Composer.fresh []) usersLines 2 "UsersController.cs".toList).1 = .ok usersEndpoint := by
    decide +kernel
  have bare : summarize .get (Route.placeholderNames usersEndpoint.route) (declarations policy.args) = {} := by
    decide +kernel
  have annotated := (detect_annotated policy rfl (by decide) arguments_policy detected).1
  rw [if_neg (by decide)] at annotated
  exact ⟨rfl, arguments_policy, detected, annotated.trans (congrArg _ (congrArg usersEndpoint.withSummary bare))⟩

theorem parameters_lost : ¬∀ (i : Insertion) (lines : List Text) (n : Nat) (v file : Text) (e : Endpoint),
    lines[n]? = some i.line → Arguments i.args → (detect (Composer.fresh v) lines n file).1 = .ok e →
      ∃ e', (detect (Composer.fresh v) (lines.set n i.annotated) n file).1 = .ok e' ∧ e'.parameters = e.parameters ∧
        e'.autoQuery = e.autoQuery ∧ e'.preferredBody = e.preferredBody := by
  intro kept
  obtain ⟨e, detected, same, -⟩ := kept policy usersLines 2 [] "UsersController.cs".toList usersEndpoint rfl
    arguments_policy (by decide +kernel)
  have lost : (detect (Composer.fresh []) (usersLines.set 2 policy.annotated) 2 "UsersController.cs".toList).1 =
      .ok (usersEndpoint.withSummary {}) := by decide +kernel
  obtain rfl := Except.ok.inj (detected.symm.trans lost)
  exact absurd same (by decide)

end Detect

end EndpointConsole
