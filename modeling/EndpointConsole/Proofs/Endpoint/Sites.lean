import EndpointConsole.Proofs.Endpoint.Transparency
import Mathlib.Data.List.Forall2

/-!
A scan line by line. The endpoints of a document come from its sites, at most one
for each line (`scan_eq`). Sites of two documents are alike if everything that an
endpoint is made of is the same, the lines themselves and the column of the name
apart (`Site.Alike`). If each line of a document has a site like that of the same
line in another one, both scans find the same endpoints (`scan_alike`): the versions
that the composer remembers on the way are then the same too.
-/
namespace EndpointConsole

namespace Route

/-- Parts of the same fragments, for the same file, whose lines give the same version. -/
structure Parts.Alike (p q : Parts) : Prop where
  controllerRoute : q.controllerRoute = p.controllerRoute
  actionRoute : q.actionRoute = p.actionRoute
  controller : q.controller = p.controller
  action : q.action = p.action
  file : q.file = p.file
  version : q.version? = p.version?

variable {d : Text} {p q : Parts} {before before' : List Parts}

namespace Parts.Alike

theorem key (alike : p.Alike q) : q.key = p.key := by rw [Parts.key, Parts.key, alike.file, alike.controller]

theorem substituted (alike : p.Alike q) : Route.substituted q = Route.substituted p := by
  rw [Route.substituted, Route.substituted, alike.controllerRoute, alike.actionRoute, alike.controller, alike.action]

theorem hasPlace (alike : p.Alike q) : q.hasPlace = p.hasPlace := by
  rw [Parts.hasPlace, Parts.hasPlace, alike.substituted]

end Parts.Alike

theorem lookups_alike {parts parts' : List Parts} (alike : List.Forall₂ Parts.Alike parts parts') :
    List.Forall₂ Parts.Alike (lookups parts) (lookups parts') := by
  induction alike with
  | nil => exact .nil
  | @cons p q _ _ head _ ih =>
    by_cases place : p.hasPlace = true
    · have other : q.hasPlace = true := head.hasPlace.trans place
      simp only [lookups, List.filter_cons_of_pos place, List.filter_cons_of_pos other]
      exact .cons head ih
    · have other : ¬q.hasPlace = true := fun has => place (head.hasPlace.symm.trans has)
      simp only [lookups, List.filter_cons_of_neg place, List.filter_cons_of_neg other]
      exact ih

/-- The version first looked up is that of like parts, before or here. -/
theorem firstVersion_alike (earlier : List.Forall₂ Parts.Alike before before') (alike : p.Alike q) :
    firstVersion before' q = firstVersion before p := by
  induction earlier with
  | nil => exact alike.version
  | @cons a b _ _ head _ ih =>
    simp only [firstVersion, List.find?_cons, head.key, alike.key] at ih ⊢
    cases same : decide (a.key = p.key) with
    | true => exact head.version
    | false => exact ih

theorem routeAfter_alike (earlier : List.Forall₂ Parts.Alike before before') (alike : p.Alike q) :
    routeAfter d before' q = routeAfter d before p := by
  rw [routeAfter, routeAfter, Parts.routeWith, Parts.routeWith, alike.hasPlace, alike.substituted,
    firstVersion_alike earlier alike]

end Route

namespace Detect
open Route (Composer Parts lookups routeAfter)

/-- Handlers of the same method on the same line, with like parts and the same parameter list. -/
structure Handler.Alike (h k : Handler) : Prop where
  method : k.method = h.method
  parts : h.parts.Alike k.parts
  methodLine : k.parts.methodLine = h.parts.methodLine
  list : Parameter.listAt? k.parts.lines k.parts.methodLine = Parameter.listAt? h.parts.lines h.parts.methodLine

theorem Handler.Alike.endpoint {h k : Handler} (alike : h.Alike k) (route : Text) :
    k.endpoint route = h.endpoint route := by
  have summary (names : List Text) : Parameter.classify k.parts.lines k.parts.methodLine k.method names =
      Parameter.classify h.parts.lines h.parts.methodLine h.method names := by
    rw [Parameter.classify, Parameter.classify, alike.list, alike.method]
  simp only [Handler.endpoint, summary]
  rw [alike.method, alike.methodLine, alike.parts.controller, alike.parts.action, alike.parts.file]

/-- The site on a line of a document. -/
def site? (lines : List Text) (file : Text) (line : Nat) : Option Site :=
  match (lines[line]?).bind Source.Signature.ofLine?, handler? lines line file with
  | some signature, .ok h => some ⟨h, signature.column⟩
  | _, _ => none

/-- The sites of a document. -/
def sites (lines : List Text) (file : Text) : List Site :=
  (List.range lines.length).filterMap (site? lines file)

theorem sitesFrom_append (above rest : List Text) (file : Text) :
    sitesFrom (above ++ rest) file above.length rest =
      (List.range' above.length rest.length).filterMap (site? (above ++ rest) file) := by
  induction rest generalizing above with
  | nil => rfl
  | cons line rest ih =>
    have next := ih (above ++ [line])
    rw [List.append_assoc, List.singleton_append, List.length_append, List.length_singleton] at next
    have here : (above ++ line :: rest)[above.length]? = some line := by simp
    rw [sitesFrom, List.length_cons, List.range'_succ, List.filterMap_cons, site?, here, Option.bind_some, ← next]
    cases Source.Signature.ofLine? line with
    | none => rfl
    | some signature =>
      cases handler? (above ++ line :: rest) above.length file with
      | error miss => rfl
      | ok h => rfl

/-- A fresh scan finds the endpoints of the sites of the document. -/
theorem scan_eq (v : Text) (d : Source.Document) :
    (scan (Composer.fresh v) d).1 = foundAfter v [] (sites d.lines d.file) := by
  have all := sitesFrom_append [] d.lines d.file
  rw [List.nil_append, List.length_nil] at all
  rw [scan, (scanFrom_found (Composer.remembers_fresh v) d.lines d.file 0 d.lines).1, all, sites,
    List.range_eq_range']

theorem lines_foundAfter {v : Text} {before : List Parts} (all : List Site) :
    (foundAfter v before all).map Found.line = all.map fun s => s.handler.parts.methodLine := by
  induction all generalizing before with
  | nil => rfl
  | cons s rest ih => rw [foundAfter, List.map_cons, List.map_cons, ih]

theorem line_of_site? {lines : List Text} {file : Text} {m : Nat} {s : Site} (held : site? lines file m = some s) :
    s.handler.parts.methodLine = m := by
  rw [site?] at held
  split at held
  · next handled =>
    cases held
    exact handler?_line handled
  · cases held

/-- A site is made of the signature, the controller and the action that the lines have for it. -/
theorem exists_of_site? {lines : List Text} {file : Text} {n : Nat} {s : Site} (held : site? lines file n = some s) :
    ∃ signature controller action, (lines[n]?).bind Source.Signature.ofLine? = some signature ∧
      controllerOf? lines n = some controller ∧ actionOf? lines n controller.route = some action ∧
      s = { handler := { method := action.1, parts := {
              controllerRoute := controller.route, actionRoute := action.2, controller := controller.name,
              action := signature.name, lines, methodLine := n, file } },
            column := signature.column } := by
  rw [site?] at held
  split at held
  · next signature h signed handled =>
    rw [handler?, signed] at handled
    cases controlled : controllerOf? lines n with
    | none => simp [controlled] at handled
    | some controller =>
      cases acted : actionOf? lines n controller.route with
      | none => simp [controlled, acted] at handled
      | some action =>
        simp only [controlled, acted, Except.ok.injEq] at handled
        cases held
        exact ⟨signature, controller, action, signed, rfl, acted, by rw [← handled]⟩
  · cases held

/-- There is a site on a line just if there is a handler. -/
theorem site?_eq_none {lines : List Text} {file : Text} {m : Nat} :
    site? lines file m = none ↔ ∀ h, handler? lines m file ≠ .ok h := by
  rw [site?]
  cases signed : (lines[m]?).bind Source.Signature.ofLine? with
  | none =>
    have missed : handler? lines m file = .error .notAMethod := by rw [handler?, signed]
    rw [missed]
    exact ⟨fun _ _ => nofun, fun _ => rfl⟩
  | some signature =>
    cases handler? lines m file with
    | error miss => exact ⟨fun _ _ => nofun, fun _ => rfl⟩
    | ok h => exact ⟨nofun, fun missed => absurd rfl (missed h)⟩

/-- Sites with like handlers, of which the second stands some characters further to the right. -/
structure Site.Alike (shift : Nat → Nat) (s t : Site) : Prop where
  handler : s.handler.Alike t.handler
  column : t.column = s.column + shift s.handler.parts.methodLine

/-- What a site is made of is the same in two documents on a line. -/
structure ReadAlike (shift : Nat → Nat) (lines lines' : List Text) (m : Nat) : Prop where
  signature : Option.Rel (fun s t : Source.Signature => t.name = s.name ∧ t.column = s.column + shift m)
    ((lines[m]?).bind Source.Signature.ofLine?) ((lines'[m]?).bind Source.Signature.ofLine?)
  controller : controllerOf? lines' m = controllerOf? lines m
  action (route : Option Text) : actionOf? lines' m route = actionOf? lines m route
  version : Route.versionAbove? lines' m = Route.versionAbove? lines m
  list : Parameter.listAt? lines' m = Parameter.listAt? lines m

theorem lt_of_signature {lines : List Text} {m : Nat} {s : Source.Signature}
    (signed : (lines[m]?).bind Source.Signature.ofLine? = some s) : m < lines.length := by
  obtain ⟨line, held, _⟩ := Option.bind_eq_some_iff.mp signed
  exact (List.getElem?_eq_some_iff.mp held).1

/-- On a line of the document the version is looked up from that line on. -/
theorem version?_of_lt {p : Parts} (inside : p.methodLine < p.lines.length) :
    p.version? = Route.versionAbove? p.lines p.methodLine := by
  rw [Parts.version?, Nat.min_eq_left (by omega)]

theorem ReadAlike.site {shift : Nat → Nat} {lines lines' : List Text} {m : Nat}
    (alike : ReadAlike shift lines lines' m) (file : Text) :
    Option.Rel (Site.Alike shift) (site? lines file m) (site? lines' file m) := by
  have signature := alike.signature
  rw [site?, site?, handler?, handler?]
  generalize signed : (lines[m]?).bind Source.Signature.ofLine? = here,
    signed' : (lines'[m]?).bind Source.Signature.ofLine? = there at signature
  cases signature with
  | none => exact .none
  | @some s t same =>
    have inside := lt_of_signature signed
    have inside' := lt_of_signature signed'
    simp only [alike.controller, alike.action]
    cases controllerOf? lines m with
    | none => exact .none
    | some controller =>
      simp only
      cases actionOf? lines m controller.route with
      | none => exact .none
      | some action =>
        refine .some ⟨⟨rfl, ⟨rfl, rfl, rfl, same.1, rfl, ?_⟩, rfl, alike.list⟩, same.2⟩
        rw [version?_of_lt inside', version?_of_lt inside]
        exact alike.version

/-- What was found, moved to the right by a number of characters that depends on the line. -/
def Found.moved (shift : Nat → Nat) (f : Found) : Found := { f with column := f.column + shift f.line }

variable {v : Text} {shift : Nat → Nat} {before before' : List Parts}

theorem foundAfter_alike {first second : List Site} (earlier : List.Forall₂ Parts.Alike before before')
    (alike : List.Forall₂ (Site.Alike shift) first second) :
    foundAfter v before' second = (foundAfter v before first).map (Found.moved shift) := by
  induction alike generalizing before before' with
  | nil => rfl
  | @cons s t _ _ head _ ih =>
    have looked : List.Forall₂ Parts.Alike (lookups [s.handler.parts]) (lookups [t.handler.parts]) :=
      Route.lookups_alike (.cons head.handler.parts .nil)
    rw [foundAfter, foundAfter, List.map_cons, ← ih (List.rel_append earlier looked), Handler.endpointAfter,
      Handler.endpointAfter, Route.routeAfter_alike earlier head.handler.parts, head.handler.endpoint,
      head.handler.methodLine, head.column]
    rfl

theorem filterMap_alike {α β γ : Type} {R : β → γ → Prop} {f : α → Option β} {g : α → Option γ} {l : List α}
    (alike : ∀ a ∈ l, Option.Rel R (f a) (g a)) : List.Forall₂ R (l.filterMap f) (l.filterMap g) := by
  induction l with
  | nil => exact .nil
  | cons a rest ih =>
    have tail := ih fun b among => alike b (List.mem_cons_of_mem a among)
    have head := alike a List.mem_cons_self
    rw [List.filterMap_cons, List.filterMap_cons]
    generalize f a = here, g a = there at head
    cases head with
    | none => exact tail
    | some related => exact .cons related tail

/-- Documents of as many lines, with like sites on each line, have the same endpoints. -/
theorem scan_alike {d d' : Source.Document} (lines : d'.lines.length = d.lines.length)
    (alike : ∀ m < d.lines.length,
      Option.Rel (Site.Alike shift) (site? d.lines d.file m) (site? d'.lines d'.file m)) :
    (scan (Composer.fresh v) d').1 = (scan (Composer.fresh v) d).1.map (Found.moved shift) := by
  rw [scan_eq, scan_eq, sites, sites, lines]
  exact foundAfter_alike .nil (filterMap_alike fun m inside => alike m (List.mem_range.mp inside))

end Detect

end EndpointConsole
