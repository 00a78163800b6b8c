import EndpointConsole.Parameter.Binding
import EndpointConsole.Proofs.Parameter.Scanners
import Mathlib.Data.List.Forall2

/-!
What a classification says of the sources of parameters. The first binding attribute of a parameter
counts, whatever section it stands in (`explicit_of_ofText?`). The parameters, the names for the query
editor and the form of the body are put together in one go, and agree with each other and with the
attributes that are written (`Consistent`, `classify_consistent`).
-/
namespace EndpointConsole.Parameter
open Text (trim trimStart)

/-- The bodies of the attribute sections that a text begins with, up to one that does not close. -/
def sectionBodies (s : Text) : List Text :=
  match s with
  | [] => []
  | c :: rest =>
    if c = '[' then
      match h : cutAtBracket? 1 rest with
      | none => []
      | some (body, after) =>
        have : (trimStart after).length < rest.length + 1 :=
          Nat.lt_succ_of_le (Nat.le_of_lt (Nat.lt_of_le_of_lt (List.dropWhile_sublist _).length_le
            (cutAtBracket?_length h)))
        body :: sectionBodies (trimStart after)
    else []
termination_by s.length

/-- The attributes of a parameter, in the order in which they are written. -/
def attributesOf (raw : Text) : List Text := (sectionBodies (trim (beforeEquals 0 false raw).1)).flatMap splitTopLevel

/-- The source that an attribute names, if it is one that binds. -/
def sourceNamed? (written : Text) : Option ParameterSource := Json.lookup? (attributeName written) bindingNames

/-- The source that the first binding attribute of a parameter names. -/
def firstBinding? (raw : Text) : Option ParameterSource := (attributesOf raw).findSome? sourceNamed?

variable {raw : Text} {d : Declaration}

theorem readAttributes?_eq_some {explicit found : Option ParameterSource} {s rest : Text}
    (read : readAttributes? explicit s = some (found, rest)) :
    found = explicit.or (((sectionBodies s).flatMap splitTopLevel).findSome? sourceNamed?) := by
  fun_induction readAttributes? explicit s with
  | case1 explicit =>
    cases read
    rw [sectionBodies, List.flatMap_nil, List.findSome?_nil, Option.or_none]
  | case2 explicit rest unclosed => cases read
  | case3 explicit rest body after cut shorter ih =>
    have bodies : sectionBodies ('[' :: rest) = body :: sectionBodies (trimStart after) := by
      rw [sectionBodies, if_pos rfl]
      split
      · next unclosed => cases unclosed.symm.trans cut
      · next closed => cases closed.symm.trans cut; rfl
    rw [ih read, bodies, List.flatMap_cons, List.findSome?_append, Option.orElse_eq_orElse, Option.orElse_eq_or,
      Option.or_assoc]
    rfl
  | case4 explicit c rest other =>
    cases read
    rw [sectionBodies, if_neg other, List.flatMap_nil, List.findSome?_nil, Option.or_none]

/-- What is read as the source of a parameter is what its first binding attribute names. -/
theorem explicit_of_ofText? (read : Declaration.ofText? raw = some d) : d.explicit = firstBinding? raw := by
  obtain ⟨⟨explicit, rest⟩, attributes, named⟩ := Option.bind_eq_some_iff.mp read
  have first := readAttributes?_eq_some attributes
  rw [Option.none_or] at first
  dsimp only at named
  split at named
  · cases named
    exact first
  · cases named

/-- The texts of the parameters that a list reports: those that can be read, but for cancellation tokens. -/
def reportedTexts (list : Text) : List Text :=
  (splitTopLevel list).filter fun raw => (Declaration.ofText? raw).any fun d => !isCancellationToken d.type

/-- The texts of the parameters that are reported for the method declared on a line. -/
def textsAt (lines : List Text) (methodLine : Nat) : List Text := (listAt? lines methodLine).elim [] reportedTexts

theorem forall₂_filterMap {α β : Type} (read : α → Option β) (keep : β → Bool) (l : List α) :
    List.Forall₂ (fun a b => read a = some b ∧ keep b = true) (l.filter fun a => (read a).any keep)
      ((l.filterMap read).filter keep) := by
  induction l with
  | nil => exact .nil
  | cons a rest ih =>
    rw [List.filter_cons, List.filterMap_cons]
    cases given : read a with
    | none => exact ih
    | some b =>
      simp only [Option.any_some, List.filter_cons]
      split
      · next kept => exact .cons ⟨given, kept⟩ ih
      · exact ih

/-- Each declaration is read from its text. -/
theorem reportedTexts_declarations (list : Text) :
    List.Forall₂ (fun raw d => Declaration.ofText? raw = some d ∧ (!isCancellationToken d.type) = true)
      (reportedTexts list) (declarations list) :=
  forall₂_filterMap Declaration.ofText? _ (splitTopLevel list)

/-- Whether a placeholder of the route has the name of a parameter, up to the case of ASCII letters. -/
def hasPlaceholder (routeNames : List Text) (p : Parameter) : Bool :=
  routeNames.any fun name => Text.sameLetters name p.name

/-- A parameter is what its text declares, and takes its source from there. -/
structure Sourced (routeNames : List Text) (raw : Text) (p : Parameter) : Prop where
  declared : ∃ d, Declaration.ofText? raw = some d ∧ d.name = p.name ∧ d.type = p.type
  bound : ∀ source, firstBinding? raw = some source → p.source = source
  unbound : firstBinding? raw = none → (p.source = .route ↔ hasPlaceholder routeNames p = true)
  sent : Text.afterLast '.' (baseType p.type) ≠ "CancellationToken".toList

/-- Whether the query editor lists a parameter: a primitive one, which its first binding attribute puts into
    the query, or without a binding attribute neither a placeholder nor a form file. -/
def isListed (routeNames : List Text) (raw : Text) (p : Parameter) : Bool :=
  isPrimitive p.type && (firstBinding? raw == some .query ||
    (firstBinding? raw).isNone && !hasPlaceholder routeNames p && !isFormFile p.type)

/-- The outputs for parameters with these texts agree. -/
structure Consistent (method : HttpMethod) (routeNames texts : List Text) (s : Summary) : Prop where
  parameters : List.Forall₂ (Sourced routeNames) texts s.parameters
  autoQuery : s.autoQuery =
    ((texts.zip s.parameters).filter fun (raw, p) => isListed routeNames raw p).map fun (_, p) => p.name
  /-- Without a body these are the primitive parameters whose source is the query. -/
  inQuery : method = .get ∨ method = .delete →
    s.autoQuery = (s.parameters.filter fun p => isPrimitive p.type && p.source == .query).map Parameter.name
  preferredBody : s.preferredBody = some .formData ↔ ∃ p ∈ s.parameters, p.source = .form ∨ isFormFile p.type = true

section
variable {method : HttpMethod} {routeNames : List Text}

theorem place_sourced (read : Declaration.ofText? raw = some d) (sent : (!isCancellationToken d.type) = true) :
    Sourced routeNames raw (place method routeNames d) where
  declared := ⟨d, read, rfl, rfl⟩
  bound source bound := by
    rw [← explicit_of_ofText? read] at bound
    simp only [place, sourceOf, bound]
  unbound unbound := by
    rw [← explicit_of_ofText? read] at unbound
    have same : hasPlaceholder routeNames (place method routeNames d) = inRoute routeNames d := rfl
    have source : (place method routeNames d).source = sourceOf method routeNames d := rfl
    rw [same, source, sourceOf, unbound]
    cases inRoute routeNames d with
    | true => exact iff_of_true rfl rfl
    | false =>
      -- a form file, what the query gives or the body
      refine iff_of_false ?_ Bool.false_ne_true
      dsimp only
      rw [if_neg Bool.false_ne_true]
      split_ifs <;> exact nofun
  sent := by
    rw [isCancellationToken, Bool.not_eq_true', beq_eq_false_iff_ne] at sent
    exact sent

theorem isListed_place (read : Declaration.ofText? raw = some d) :
    isListed routeNames raw (place method routeNames d) = isAutoQuery routeNames d := by
  rw [isListed, isAutoQuery, ← explicit_of_ofText? read]
  cases d.explicit with
  | none => rfl
  | some source => simp [place]

theorem isAutoQuery_of_bindsFromQuery (binds : method.bindsFromQuery = true) (d : Declaration) :
    isAutoQuery routeNames d = (isPrimitive d.type && sourceOf method routeNames d == .query) := by
  rw [isAutoQuery, sourceOf]
  cases d.explicit with
  | some source => rfl
  | none =>
    cases inRoute routeNames d <;> cases isFormFile d.type <;> simp [binds]

theorem wantsForm_iff (d : Declaration) :
    wantsForm d = true ↔ sourceOf method routeNames d = .form ∨ isFormFile d.type = true := by
  rw [wantsForm, sourceOf]
  cases d.explicit with
  | some source => simp
  | none =>
    by_cases file : isFormFile d.type = true
    · simp [file]
    · rw [if_neg file]
      split_ifs <;> simp [file]

/-- The declarations that are read from texts give outputs that agree. -/
theorem summarize_consistent {texts : List Text} {declared : List Declaration}
    (read : List.Forall₂ (fun raw d => Declaration.ofText? raw = some d ∧ (!isCancellationToken d.type) = true)
      texts declared) : Consistent method routeNames texts (summarize method routeNames declared) where
  parameters := by
    rw [summarize, List.forall₂_map_right_iff]
    exact read.imp fun raw d here => place_sourced here.1 here.2
  autoQuery := by
    simp only [summarize]
    induction read with
    | nil => rfl
    | cons here _ ih =>
      simp only [List.map_cons, List.zip_cons_cons, List.filter_cons, isListed_place here.1]
      split
      · rw [List.map_cons, List.map_cons, ih]
        rfl
      · exact ih
  inQuery without := by
    have binds : method.bindsFromQuery = true := by rcases without with rfl | rfl <;> rfl
    have listed : isAutoQuery routeNames = fun d => isPrimitive d.type && sourceOf method routeNames d == .query :=
      funext (isAutoQuery_of_bindsFromQuery binds)
    simp only [summarize, List.filter_map, List.map_map, listed]
    rfl
  preferredBody := by
    have wanted : declared.any wantsForm = true ↔
        ∃ p ∈ declared.map (place method routeNames), p.source = .form ∨ isFormFile p.type = true := by
      rw [List.any_eq_true]
      constructor
      · rintro ⟨d, among, wants⟩
        exact ⟨place method routeNames d, List.mem_map_of_mem among, wantsForm_iff d |>.mp wants⟩
      · rintro ⟨p, among, wants⟩
        obtain ⟨d, inside, rfl⟩ := List.mem_map.mp among
        exact ⟨d, inside, wantsForm_iff d |>.mpr wants⟩
    rw [summarize, ← wanted]
    dsimp only
    cases declared.any wantsForm with
    | true => exact iff_of_true rfl rfl
    | false => exact iff_of_false nofun Bool.false_ne_true

end

/-- For all lines, methods and routes the outputs agree with each other and with what is written. -/
theorem classify_consistent (lines : List Text) (methodLine : Nat) (method : HttpMethod) (routeNames : List Text) :
    Consistent method routeNames (textsAt lines methodLine) (classify lines methodLine method routeNames) := by
  rw [textsAt, classify]
  cases listAt? lines methodLine with
  | none => exact summarize_consistent .nil
  | some list => exact summarize_consistent (reportedTexts_declarations list)

end EndpointConsole.Parameter
