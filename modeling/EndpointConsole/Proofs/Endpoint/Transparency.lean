import EndpointConsole.Endpoint.Detect
import EndpointConsole.Proofs.Route.Remembered

/-!
What an analyzer that has answered other calls answers to a call, compared with a
fresh one. Both answers are made of the same handlers with their routes
(`detect_found`, `scanFrom_found`), and a route depends on earlier calls only through the
version that is remembered for its file and controller. So the answers are equal
just if the versions remembered give the same routes (`answer_eq_fresh_iff`).
-/
namespace EndpointConsole.Detect
open Route (Composer Parts lookups routeAfter firstVersion)

/-- A handler with the column of its name. -/
structure Site where
  handler : Handler
  column : Nat

/-- The handlers on some lines of a document, whose numbers begin at `number`. -/
def sitesFrom (lines : List Text) (file : Text) (number : Nat) : List Text → List Site
  | [] => []
  | line :: rest =>
    match Source.Signature.ofLine? line, handler? lines number file with
    | some signature, .ok h => ⟨h, signature.column⟩ :: sitesFrom lines file (number + 1) rest
    | _, _ => sitesFrom lines file (number + 1) rest

/-- The endpoint of a handler whose route is composed after some lookups. -/
def Handler.endpointAfter (d : Text) (before : List Parts) (h : Handler) : Endpoint :=
  h.endpoint (routeAfter d before h.parts)

/-- The endpoints of handlers one after the other. -/
def foundAfter (d : Text) (before : List Parts) : List Site → List Found
  | [] => []
  | s :: rest =>
    ⟨s.handler.endpointAfter d before, s.handler.parts.methodLine, s.column⟩ ::
      foundAfter d (before ++ lookups [s.handler.parts]) rest

theorem handler?_line {lines : List Text} {line : Nat} {file : Text} {h : Handler}
    (handled : handler? lines line file = .ok h) : h.parts.methodLine = line := by
  unfold handler? at handled
  split at handled
  · cases handled
  · split at handled
    · cases handled
    · split at handled
      · cases handled
      · cases handled
        rfl

variable {c : Composer} {d : Text} {before : List Parts}

theorem detect_found (remembers : c.Remembers d before) {lines : List Text} {line : Nat} {file : Text} {h : Handler}
    (handled : handler? lines line file = .ok h) :
    (detect c lines line file).1 = .ok (h.endpointAfter d before) ∧
      (detect c lines line file).2.Remembers d (before ++ lookups [h.parts]) := by
  obtain ⟨route, after⟩ := Composer.compose_route remembers h.parts
  rw [detect, handled, Handler.endpointAfter, ← route]
  exact ⟨rfl, after⟩

theorem detect_missed {lines : List Text} {line : Nat} {file : Text} {miss : Miss}
    (missed : handler? lines line file = .error miss) : detect c lines line file = (.error miss, c) := by
  rw [detect, missed]

/-- A scan finds the handlers of its lines, with routes that are composed in their order. -/
theorem scanFrom_found (remembers : c.Remembers d before) (lines : List Text) (file : Text) (number : Nat)
    (rest : List Text) :
    (scanFrom c lines file number rest).1 = foundAfter d before (sitesFrom lines file number rest) ∧
      (scanFrom c lines file number rest).2.Remembers d
        (before ++ lookups ((sitesFrom lines file number rest).map fun s => s.handler.parts)) := by
  induction rest generalizing c before number with
  | nil =>
    refine ⟨rfl, ?_⟩
    change c.Remembers d (before ++ [])
    rw [List.append_nil]
    exact remembers
  | cons line rest ih =>
    rw [scanFrom, sitesFrom]
    cases signed : Source.Signature.ofLine? line with
    | none => exact ih remembers (number + 1)
    | some signature =>
      cases handled : handler? lines number file with
      | error miss =>
        simp only [detect_missed handled]
        exact ih remembers (number + 1)
      | ok h =>
        obtain ⟨endpoint, after⟩ := detect_found remembers handled
        obtain ⟨more, last⟩ := ih after (number + 1)
        have looked (sites : List Site) : lookups (h.parts :: sites.map fun s => s.handler.parts) =
            lookups [h.parts] ++ lookups (sites.map fun s => s.handler.parts) := List.filter_append [h.parts] _
        simp only [endpoint, List.map_cons, looked, ← List.append_assoc]
        refine ⟨?_, last⟩
        rw [foundAfter, more, handler?_line handled]

inductive Call where
  | detect (lines : List Text) (line : Nat) (file : Text)
  | scan (document : Source.Document)
  deriving Repr

instance decidableEqOutcome : DecidableEq (Except Miss Endpoint)
  | .ok a, .ok b => decidable_of_iff (a = b) ⟨congrArg Except.ok, Except.ok.inj⟩
  | .error a, .error b => decidable_of_iff (a = b) ⟨congrArg Except.error, Except.error.inj⟩
  | .ok _, .error _ => isFalse nofun
  | .error _, .ok _ => isFalse nofun

inductive Answer where
  | outcome (outcome : Except Miss Endpoint)
  | found (found : List Found)
  deriving DecidableEq

/-- The answer to a call, and the composer after it. -/
def perform (c : Composer) : Call → Answer × Composer
  | .detect lines line file =>
    let (outcome, c) := detect c lines line file
    (.outcome outcome, c)
  | .scan document =>
    let (found, c) := scan c document
    (.found found, c)

/-- The composer after some calls. -/
def after (d : Text) (calls : List Call) : Composer :=
  calls.foldl (fun c k => (perform c k).2) (Composer.fresh d)

/-- What a call composes routes from, in order. -/
def Call.parts : Call → List Parts
  | detect lines line file =>
    match handler? lines line file with
    | .ok h => [h.parts]
    | .error _ => []
  | scan document => (sitesFrom document.lines document.file 0 document.lines).map fun s => s.handler.parts

/-- The answer to a call after some lookups. -/
def Call.answer (d : Text) (before : List Parts) : Call → Answer
  | detect lines line file => .outcome ((handler? lines line file).map (Handler.endpointAfter d before))
  | scan document => .found (foundAfter d before (sitesFrom document.lines document.file 0 document.lines))

/-- An analyzer answers by the lookups that it has made, and makes those of the call. -/
theorem perform_answer (remembers : c.Remembers d before) (k : Call) :
    (perform c k).1 = k.answer d before ∧ (perform c k).2.Remembers d (before ++ lookups k.parts) := by
  cases k with
  | scan document =>
    obtain ⟨found, last⟩ := scanFrom_found remembers document.lines document.file 0 document.lines
    exact ⟨congrArg Answer.found found, last⟩
  | detect lines line file =>
    rw [Call.answer, Call.parts]
    cases handled : handler? lines line file with
    | ok h =>
      obtain ⟨endpoint, last⟩ := detect_found remembers handled
      exact ⟨congrArg Answer.outcome endpoint, last⟩
    | error miss =>
      rw [perform, detect_missed handled]
      refine ⟨rfl, ?_⟩
      change c.Remembers d (before ++ [])
      rw [List.append_nil]
      exact remembers

/-- After some calls, what is remembered is what they have looked up. -/
theorem after_remembers (d : Text) (calls : List Call) :
    (after d calls).Remembers d (calls.flatMap fun k => lookups k.parts) := by
  have onto (c : Composer) (before : List Parts) (remembers : c.Remembers d before) :
      (calls.foldl (fun c k => (perform c k).2) c).Remembers d
        (before ++ calls.flatMap fun k => lookups k.parts) := by
    induction calls generalizing c before with
    | nil =>
      rw [List.flatMap_nil, List.append_nil]
      exact remembers
    | cons k rest ih =>
      rw [List.foldl_cons, List.flatMap_cons, ← List.append_assoc]
      exact ih _ _ (perform_answer remembers k).2
  exact onto (Composer.fresh d) [] (Composer.remembers_fresh d)

/-- Whether parts have the same routes after some lookups as after others, one after the other. -/
def SameRoutes (d : Text) (first second : List Parts) : List Parts → Prop
  | [] => True
  | p :: rest =>
    routeAfter d first p = routeAfter d second p ∧ SameRoutes d (first ++ lookups [p]) (second ++ lookups [p]) rest

theorem Handler.endpointAfter_inj {first second : List Parts} {h : Handler} :
    h.endpointAfter d first = h.endpointAfter d second ↔ routeAfter d first h.parts = routeAfter d second h.parts :=
  ⟨congrArg Endpoint.route, congrArg h.endpoint⟩

theorem foundAfter_inj {first second : List Parts} {sites : List Site} :
    foundAfter d first sites = foundAfter d second sites ↔
      SameRoutes d first second (sites.map fun s => s.handler.parts) := by
  induction sites generalizing first second with
  | nil => exact ⟨fun _ => trivial, fun _ => rfl⟩
  | cons s rest ih =>
    rw [foundAfter, foundAfter, List.map_cons, SameRoutes, List.cons.injEq, ih, ← Handler.endpointAfter_inj]
    constructor
    · rintro ⟨head, tail⟩
      exact ⟨congrArg Found.endpoint head, tail⟩
    · rintro ⟨head, tail⟩
      exact ⟨by rw [head], tail⟩

/-- A call is answered alike after some lookups and after others just if it composes the same routes. -/
theorem answer_inj {first second : List Parts} {k : Call} :
    k.answer d first = k.answer d second ↔ SameRoutes d first second k.parts := by
  cases k with
  | scan document => rw [Call.answer, Call.answer, Answer.found.injEq, foundAfter_inj, Call.parts]
  | detect lines line file =>
    rw [Call.answer, Call.answer, Answer.outcome.injEq, Call.parts]
    cases handler? lines line file with
    | error miss => exact ⟨fun _ => trivial, fun _ => rfl⟩
    | ok h =>
      change Except.ok (h.endpointAfter d first) = Except.ok (h.endpointAfter d second) ↔ _
      rw [Except.ok.injEq, Handler.endpointAfter_inj]
      exact ⟨fun same => ⟨same, trivial⟩, And.left⟩

/-- The routes are the same just if those with a place for a version are, filled with the version
    first looked up for their file and controller. -/
theorem sameRoutes_iff {first second parts : List Parts} :
    SameRoutes d first second parts ↔ ∀ (i : Nat) (p : Parts), (lookups parts)[i]? = some p →
      p.routeWith d (firstVersion (first ++ (lookups parts).take i) p) =
        p.routeWith d (firstVersion (second ++ (lookups parts).take i) p) := by
  induction parts generalizing first second with
  | nil =>
    constructor
    · intro _ i p held
      cases held
    · exact fun _ => trivial
  | cons p rest ih =>
    rw [SameRoutes, ih, routeAfter, routeAfter]
    by_cases place : p.hasPlace = true
    · have looked : lookups (p :: rest) = p :: lookups rest := List.filter_cons_of_pos place
      have alone : lookups [p] = [p] := List.filter_cons_of_pos place
      rw [if_pos place, if_pos place, looked, alone]
      simp only [List.append_assoc, List.singleton_append]
      constructor
      · rintro ⟨head, tail⟩ i q held
        cases i with
        | zero =>
          cases held
          rw [List.take_zero, List.append_nil, List.append_nil]
          exact head
        | succ i => exact tail i q held
      · intro all
        have head := all 0 p rfl
        rw [List.take_zero, List.append_nil, List.append_nil] at head
        exact ⟨head, fun i q held => all (i + 1) q held⟩
    · have looked : lookups (p :: rest) = lookups rest := List.filter_cons_of_neg place
      have alone : lookups [p] = [] := List.filter_cons_of_neg place
      rw [if_neg place, if_neg place, looked, alone, List.append_nil, List.append_nil]
      exact ⟨And.right, fun all => ⟨rfl, all⟩⟩

/-- After any calls a call is answered as by a fresh analyzer just if each route with a place for a
    version is the same with the version that was first looked up for its file and controller, in the
    earlier calls or in this one, as with the version that this call by itself would look up first. -/
theorem answer_eq_fresh_iff (d : Text) (earlier : List Call) (k : Call) :
    (perform (after d earlier) k).1 = (perform (Composer.fresh d) k).1 ↔
      ∀ (i : Nat) (p : Parts), (lookups k.parts)[i]? = some p →
        p.routeWith d (firstVersion ((earlier.flatMap fun k => lookups k.parts) ++ (lookups k.parts).take i) p) =
          p.routeWith d (firstVersion ((lookups k.parts).take i) p) := by
  rw [(perform_answer (after_remembers d earlier) k).1, (perform_answer (Composer.remembers_fresh d) k).1,
    answer_inj, sameRoutes_iff]
  rfl

/-- A version that is edited after it was looked up does not reach the routes of its controller. -/
theorem answer_after_edit :
    let lines (version : Char) : List Text :=
      ["[ApiVersion(\"".toList ++ version :: "\")]".toList, "[Route(\"v\x7bv:apiVersion\x7d/users\")]".toList,
        "public class UsersController".toList, "    [HttpGet]".toList, "    public string Get()".toList]
    let file := "UsersController.cs".toList
    (perform (after "1".toList [.detect (lines '2') 4 file]) (.detect (lines '3') 4 file)).1 ≠
      (perform (Composer.fresh "1".toList) (.detect (lines '3') 4 file)).1 := by
  decide +kernel

end EndpointConsole.Detect
