import EndpointConsole.Route.Compose

/-!
A composer without its memory. What a composer knows is the list of parts whose
version it has looked up (`Remembers`): for a file and controller it goes by the
first of them. So a composed route is a function of the parts and of the parts
looked up before (`compose_route`).
-/
namespace EndpointConsole.Route

namespace Parts

/-- Whether the route has a place for a version, so that one is looked up. -/
def hasPlace (p : Parts) : Bool := hasVersionPlaceholder (substituted p)

/-- The route with a version, or with the default version in place of none. -/
def routeWith (defaultVersion : Text) (version : Option Text) (p : Parts) : Text :=
  ensureLeadingSlash (withVersion defaultVersion version (substituted p))

end Parts

/-- The parts among some whose version is looked up. -/
def lookups (parts : List Parts) : List Parts := parts.filter Parts.hasPlace

/-- The version of the first lookup for a file and controller, which is one of those made before or
    else the one for these parts. -/
def firstVersion (before : List Parts) (p : Parts) : Option Text :=
  ((before.find? fun q => q.key = p.key).getD p).version?

/-- The route of parts after some lookups. -/
def routeAfter (defaultVersion : Text) (before : List Parts) (p : Parts) : Text :=
  if p.hasPlace then p.routeWith defaultVersion (firstVersion before p) else ensureLeadingSlash (substituted p)

namespace Composer

/-- A composer that has made some lookups. -/
structure Remembers (c : Composer) (defaultVersion : Text) (before : List Parts) : Prop where
  default : c.defaultVersion = defaultVersion
  known : ∀ key, remembered? key c.known = (before.find? fun q => q.key = key).map Parts.version?

/-- A composer that has composed nothing yet. -/
def fresh (defaultVersion : Text) : Composer := { defaultVersion }

theorem remembers_fresh (defaultVersion : Text) : (fresh defaultVersion).Remembers defaultVersion [] :=
  ⟨rfl, fun _ => rfl⟩

variable {c : Composer} {d : Text} {before : List Parts}

/-- Looking a version up gives the first one for the file and controller, and is remembered. -/
theorem Remembers.version (remembers : c.Remembers d before) (p : Parts) :
    (c.version p).1 = firstVersion before p ∧ (c.version p).2.Remembers d (before ++ [p]) := by
  have known := remembers.known p.key
  rw [Composer.version, firstVersion]
  cases found : before.find? fun q => q.key = p.key with
  | some q =>
    rw [found, Option.map_some] at known
    rw [known]
    refine ⟨rfl, remembers.default, ?_⟩
    intro key
    rw [List.find?_append, remembers.known key]
    by_cases same : p.key = key
    · rw [← same, found]
      rfl
    · have other : ([p].find? fun q => q.key = key) = none := by simp [same]
      rw [other, Option.or_none]
  | none =>
    rw [found, Option.map_none] at known
    rw [known]
    refine ⟨rfl, remembers.default, ?_⟩
    intro key
    rw [List.find?_append, remembered?, remembers.known key]
    by_cases same : p.key = key
    · rw [if_pos same, ← same, found]
      simp
    · have other : ([p].find? fun q => q.key = key) = none := by simp [same]
      rw [if_neg same, other, Option.or_none]

/-- The route composed is a function of the lookups made before. -/
theorem compose_route (remembers : c.Remembers d before) (p : Parts) :
    (c.compose p).1 = routeAfter d before p ∧ (c.compose p).2.Remembers d (before ++ lookups [p]) := by
  rw [compose, routeAfter]
  by_cases place : p.hasPlace = true
  · have placed : hasVersionPlaceholder (substituted p) = true := place
    obtain ⟨version, after⟩ := remembers.version p
    have looked : lookups [p] = [p] := by simp [lookups, place]
    rw [if_pos placed, if_pos place, looked]
    refine ⟨?_, after⟩
    change ensureLeadingSlash (withVersion (c.version p).2.defaultVersion (c.version p).1 (substituted p)) = _
    rw [after.default, version, Parts.routeWith]
  · have bare : ¬hasVersionPlaceholder (substituted p) = true := place
    have none_looked : lookups [p] = [] := by simp [lookups, place]
    rw [if_neg bare, if_neg place, none_looked, List.append_nil]
    exact ⟨rfl, remembers⟩

end Composer

end EndpointConsole.Route
