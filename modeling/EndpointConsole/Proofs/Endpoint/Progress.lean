import EndpointConsole.Proofs.Endpoint.Sites

/-!
A scan whose composer is shared. The composer is locked for a lookup, and once more for
what is remembered after a search, but not while the lines are searched, so that a scan is a
sequence of sections (`Section`) between which others look up and remember versions. By
itself it finds what `scan` finds (`scan_sections`). Whatever others do, each endpoint found
is that of its site, with a version that the lines of the document give, or those of another
one for the same file and controller (`Section.made`). As long as these agree, the scan finds
what a fresh one would (`Scanned.eq_scan`).
-/
namespace EndpointConsole

open Source (Document)

namespace Route

/-- The routes that may be composed from parts, given all parts whose versions may be remembered. -/
inductive Composed (v : Text) (known : List Parts) (p : Parts) : Text → Prop where
  | bare (bare : p.hasPlace = false) : Composed v known p (ensureLeadingSlash (substituted p))
  | versioned {q : Parts} (place : p.hasPlace = true) (among : q ∈ known) (same : q.key = p.key) :
      Composed v known p (p.routeWith v q.version?)

variable {v : Text} {known more : List Parts} {p : Parts} {c : Composer}

theorem Composed.mono {route : Text} (composed : Composed v known p route) (sub : known ⊆ more) :
    Composed v more p route := by
  cases composed with
  | bare bare => exact .bare bare
  | versioned place among same => exact .versioned place (sub among) same

namespace Composer

/-- Whether the lines have to be searched for the version of a route. -/
def needs (c : Composer) (p : Parts) : Bool := p.hasPlace && (remembered? p.key c.known).isNone

/-- Remembers what a search found. -/
def remember (c : Composer) (p : Parts) : Composer :=
  { c with known := (p.key, p.version?) :: c.known, searches := c.searches + 1 }

theorem compose_of_needs (needs : c.needs p = true) :
    c.compose p = (p.routeWith c.defaultVersion p.version?, c.remember p) := by
  obtain ⟨place, unknown⟩ := Bool.and_eq_true_iff.mp needs
  have placed : hasVersionPlaceholder (substituted p) = true := place
  rw [compose, if_pos placed, version, Option.isNone_iff_eq_none.mp unknown]
  rfl

theorem compose_of_not_needs (met : c.needs p = false) : (c.compose p).2 = c := by
  rw [compose]
  split
  · next place =>
    have there : (remembered? p.key c.known).isNone = false := by
      rw [needs, Parts.hasPlace, place, Bool.true_and] at met
      exact met
    rw [Option.isNone_eq_false_iff, Option.isSome_iff_exists] at there
    obtain ⟨found, held⟩ := there
    rw [version, held]
  · rfl

/-- A composer that remembers only the versions of some parts. -/
structure KnowsFrom (v : Text) (known : List Parts) (c : Composer) : Prop where
  default : c.defaultVersion = v
  known : ∀ key version, remembered? key c.known = some version → ∃ p ∈ known, p.key = key ∧ p.version? = version

theorem knowsFrom_fresh (v : Text) : (fresh v).KnowsFrom v [] := ⟨rfl, nofun⟩

theorem KnowsFrom.mono (knows : c.KnowsFrom v known) (sub : known ⊆ more) : c.KnowsFrom v more :=
  ⟨knows.default, fun key version held =>
    have ⟨p, among, same⟩ := knows.known key version held
    ⟨p, sub among, same⟩⟩

theorem KnowsFrom.remember (knows : c.KnowsFrom v known) (among : p ∈ known) : (c.remember p).KnowsFrom v known := by
  refine ⟨knows.default, fun key version held => ?_⟩
  rw [Composer.remember, remembered?] at held
  split at held
  · next same => exact ⟨p, among, same, Option.some.inj held⟩
  · exact knows.known key version held

theorem KnowsFrom.compose (knows : c.KnowsFrom v known) (among : p ∈ known) : Composed v known p (c.compose p).1 := by
  rw [Composer.compose]
  by_cases place : p.hasPlace = true
  · have placed : hasVersionPlaceholder (substituted p) = true := place
    rw [if_pos placed, version]
    cases held : remembered? p.key c.known with
    | none => exact knows.default ▸ .versioned place among rfl
    | some found =>
      obtain ⟨q, among, same, rfl⟩ := knows.known p.key found held
      exact knows.default ▸ .versioned place among same
  · have bare : ¬hasVersionPlaceholder (substituted p) = true := place
    rw [if_neg bare]
    exact .bare (Bool.eq_false_iff.mpr place)

end Composer

end Route

namespace Detect
open Route (Composer Parts Composed)

/-- What is found at a site whose route is composed. -/
def Site.found (s : Site) (route : Text) : Found := ⟨s.handler.endpoint route, s.handler.parts.methodLine, s.column⟩

/-- A scan under way: what is left of the document, and what was found in the rest. -/
structure Progress where
  left : List Site
  found : List Found := []
  /-- Whether the lines are searched for the version of the next site. -/
  searching : Bool := false

/-- A scan that begins. -/
def Progress.ofDocument (d : Document) : Progress := { left := sites d.lines d.file }

/-- One section of a scan, and what it makes of the composer. -/
inductive Section : Composer → Progress → Composer → Progress → Prop where
  /-- The route has no place for a version, or its version is remembered. -/
  | found {c : Composer} {s : Site} {left : List Site} {found : List Found} (met : c.needs s.handler.parts = false) :
      Section c ⟨s :: left, found, false⟩ c ⟨left, found ++ [s.found (c.compose s.handler.parts).1], false⟩
  | search {c : Composer} {s : Site} {left : List Site} {found : List Found} (needs : c.needs s.handler.parts = true) :
      Section c ⟨s :: left, found, false⟩ c ⟨s :: left, found, true⟩
  /-- What the search has found is remembered, in place of what others have remembered meanwhile. -/
  | remember {c : Composer} {s : Site} {left : List Site} {found : List Found} :
      Section c ⟨s :: left, found, true⟩ (c.remember s.handler.parts)
        ⟨left, found ++ [s.found (s.handler.parts.routeWith c.defaultVersion s.handler.parts.version?)], false⟩

/-- What a document's routes are composed from. -/
def partsOf (d : Document) : List Parts := (sites d.lines d.file).map fun s => s.handler.parts

/-- Something that may be found at a site, given all parts whose versions may be remembered. -/
def Site.Finds (v : Text) (known : List Parts) (s : Site) (f : Found) : Prop :=
  ∃ route, Composed v known s.handler.parts route ∧ f = s.found route

/-- What a scan of a document may find: something at each of its sites, in their order. -/
def Scanned (v : Text) (known : List Parts) (d : Document) (found : List Found) : Prop :=
  List.Forall₂ (Site.Finds v known) (sites d.lines d.file) found

/-- A scan of a document that has come so far. -/
structure Progress.Made (v : Text) (known : List Parts) (d : Document) (p : Progress) : Prop where
  done : ∃ done, sites d.lines d.file = done ++ p.left ∧ List.Forall₂ (Site.Finds v known) done p.found
  searching : p.searching = true → ∃ s left, p.left = s :: left ∧ s.handler.parts.hasPlace = true

variable {v : Text} {known more : List Parts} {d : Document} {c c' : Composer} {p p' : Progress} {found : List Found}

theorem Site.Finds.mono {s : Site} {f : Found} (finds : s.Finds v known f) (sub : known ⊆ more) : s.Finds v more f :=
  have ⟨route, composed, same⟩ := finds
  ⟨route, composed.mono sub, same⟩

theorem Scanned.mono (scanned : Scanned v known d found) (sub : known ⊆ more) : Scanned v more d found :=
  scanned.imp fun _ _ finds => finds.mono sub

namespace Progress.Made

theorem ofDocument (v : Text) (known : List Parts) (d : Document) : (Progress.ofDocument d).Made v known d :=
  ⟨⟨[], rfl, .nil⟩, nofun⟩

theorem mono (made : p.Made v known d) (sub : known ⊆ more) : p.Made v more d :=
  have ⟨done, split, found⟩ := made.done
  ⟨⟨done, split, found.imp fun _ _ finds => finds.mono sub⟩, made.searching⟩

theorem scanned (made : Progress.Made v known d ⟨[], found, false⟩) : Scanned v known d found := by
  obtain ⟨done, split, found⟩ := made.done
  rw [Scanned, split, List.append_nil]
  exact found

variable {s : Site} {left : List Site} {searching : Bool}

/-- The next site of a scan is one of its document. -/
theorem mem_partsOf (made : Progress.Made v known d ⟨s :: left, found, searching⟩) : s.handler.parts ∈ partsOf d := by
  obtain ⟨done, split, _⟩ := made.done
  exact List.mem_map.mpr ⟨s, split ▸ List.mem_append_right done List.mem_cons_self, rfl⟩

theorem next (made : Progress.Made v known d ⟨s :: left, found, searching⟩) {f : Found} (finds : s.Finds v known f) :
    Progress.Made v known d ⟨left, found ++ [f], false⟩ := by
  obtain ⟨done, split, before⟩ := made.done
  exact ⟨⟨done ++ [s], by rw [split, List.append_assoc]; rfl, List.rel_append before (.cons finds .nil)⟩, nofun⟩

end Progress.Made

/-- A section finds something at the next site or nothing yet, and others learn of no more than the document. -/
theorem Section.made (sec : Section c p c' p') (made : p.Made v known d) (knows : c.KnowsFrom v known)
    (sub : partsOf d ⊆ known) : p'.Made v known d ∧ c'.KnowsFrom v known := by
  cases sec with
  | found met => exact ⟨made.next ⟨_, knows.compose (sub made.mem_partsOf), rfl⟩, knows⟩
  | search needs => exact ⟨⟨made.done, fun _ => ⟨_, _, rfl, (Bool.and_eq_true_iff.mp needs).1⟩⟩, knows⟩
  | remember =>
    obtain ⟨s, left, same, place⟩ := made.searching rfl
    cases same
    have among := sub made.mem_partsOf
    exact ⟨made.next ⟨_, knows.default ▸ .versioned place among rfl, rfl⟩, knows.remember among⟩

/-- The sections that are left at most. -/
def Progress.rest (p : Progress) : Nat := if p.searching then 2 * p.left.length - 1 else 2 * p.left.length

/-- Each section brings a scan nearer to its end. -/
theorem Section.rest_lt (sec : Section c p c' p') : p'.rest < p.rest := by
  cases sec with
  | @found s left found met =>
    change 2 * left.length < 2 * (left.length + 1)
    omega
  | @search s left found needs =>
    change 2 * (left.length + 1) - 1 < 2 * (left.length + 1)
    omega
  | @remember s left found =>
    change 2 * left.length < 2 * (left.length + 1) - 1
    omega

/-- A scan that is not at its end can always go on. -/
theorem Progress.Made.goesOn (made : p.Made v known d) (c : Composer) :
    p = ⟨[], p.found, false⟩ ∨ ∃ c' p', Section c p c' p' := by
  obtain ⟨left, found, searching⟩ := p
  cases searching with
  | true =>
    obtain ⟨s, left, same, _⟩ := made.searching rfl
    cases same
    exact .inr ⟨_, _, .remember⟩
  | false =>
    cases left with
    | nil => exact .inl rfl
    | cons s left =>
      cases met : c.needs s.handler.parts with
      | false => exact .inr ⟨_, _, .found met⟩
      | true => exact .inr ⟨_, _, .search met⟩

/-- What a composer finds at some sites, one after the other. -/
def findAll (c : Composer) : List Site → List Found × Composer
  | [] => ([], c)
  | s :: rest =>
    let composed := c.compose s.handler.parts
    (s.found composed.1 :: (findAll composed.2 rest).1, (findAll composed.2 rest).2)

/-- Sections of a scan that nobody interrupts. -/
inductive Sections : Composer → Progress → Composer → Progress → Prop where
  | done {c : Composer} {p : Progress} : Sections c p c p
  | next {c c' c'' : Composer} {p p' p'' : Progress} (first : Section c p c' p') (rest : Sections c' p' c'' p'') :
      Sections c p c'' p''

theorem findAll_sections (c : Composer) (left : List Site) (found : List Found) :
    Sections c ⟨left, found, false⟩ (findAll c left).2 ⟨[], found ++ (findAll c left).1, false⟩ := by
  induction left generalizing c found with
  | nil =>
    rw [findAll, List.append_nil]
    exact .done
  | cons s left ih =>
    have later := ih (c.compose s.handler.parts).2 (found ++ [s.found (c.compose s.handler.parts).1])
    rw [List.append_assoc, List.singleton_append] at later
    cases met : c.needs s.handler.parts with
    | false =>
      have unchanged := Composer.compose_of_not_needs met
      rw [unchanged] at later
      rw [findAll]
      dsimp only
      rw [unchanged]
      exact .next (.found met) later
    | true =>
      rw [Composer.compose_of_needs met] at later
      rw [findAll, Composer.compose_of_needs met]
      exact .next (.search met) (.next .remember later)

theorem scanFrom_eq_findAll (c : Composer) (lines : List Text) (file : Text) (number : Nat) (rest : List Text) :
    scanFrom c lines file number rest = findAll c (sitesFrom lines file number rest) := by
  induction rest generalizing c number with
  | nil => rfl
  | cons line rest ih =>
    rw [scanFrom, sitesFrom]
    cases signed : Source.Signature.ofLine? line with
    | none => exact ih c (number + 1)
    | some signature =>
      cases handled : handler? lines number file with
      | error miss =>
        simp only [detect_missed handled]
        exact ih c (number + 1)
      | ok h =>
        simp only [detect, handled, findAll, Site.found, handler?_line handled]
        rw [ih]

theorem scan_eq_findAll (c : Composer) (d : Document) : scan c d = findAll c (sites d.lines d.file) := by
  have all := sitesFrom_append [] d.lines d.file
  rw [List.nil_append, List.length_nil] at all
  rw [scan, scanFrom_eq_findAll, all, sites, List.range_eq_range']

/-- By itself a scan finds what the document's scan finds. -/
theorem scan_sections (c : Composer) (d : Document) :
    Sections c (.ofDocument d) (scan c d).2 ⟨[], (scan c d).1, false⟩ := by
  rw [scan_eq_findAll]
  exact findAll_sections c _ []

/-- Parts for the same file and controller give the same version. -/
def Agree (known : List Parts) : Prop := ∀ p ∈ known, ∀ q ∈ known, q.key = p.key → q.version? = p.version?

theorem Site.Finds.eq_of_agree {s : Site} {f g : Found} (agree : Agree known) (among : s.handler.parts ∈ known)
    (finds : s.Finds v known f) (also : s.Finds v known g) : f = g := by
  obtain ⟨route, composed, rfl⟩ := finds
  obtain ⟨other, composed', rfl⟩ := also
  cases composed with
  | bare bare =>
    cases composed' with
    | bare bare' => rfl
    | versioned place => exact absurd (bare.symm.trans place) nofun
  | versioned place inside same =>
    cases composed' with
    | bare bare' => exact absurd (bare'.symm.trans place) nofun
    | versioned place' inside' same' => rw [agree _ among _ inside same, agree _ among _ inside' same']

theorem forall₂_finds_unique (agree : Agree known) {sites : List Site} {other : List Found}
    (sub : ∀ s ∈ sites, s.handler.parts ∈ known) (finds : List.Forall₂ (Site.Finds v known) sites found)
    (also : List.Forall₂ (Site.Finds v known) sites other) : found = other := by
  induction finds generalizing other with
  | nil => cases also; rfl
  | cons first _ ih =>
    obtain ⟨head, rest⟩ := List.forall_mem_cons.mp sub
    cases also with
    | cons first' later' => rw [first.eq_of_agree agree head first', ih rest later']

theorem scanned_scan (sub : partsOf d ⊆ known) : Scanned v known d (scan (.fresh v) d).1 := by
  have made : ∀ {c c' : Composer} {p p' : Progress}, Sections c p c' p' → p.Made v known d →
      c.KnowsFrom v known → p'.Made v known d := by
    intro c c' p p' sections made knows
    induction sections with
    | done => exact made
    | next first _ ih =>
      obtain ⟨made, knows⟩ := first.made made knows sub
      exact ih made knows
  exact (made (scan_sections _ d) (.ofDocument v known d) ((Composer.knowsFrom_fresh v).mono nofun)).scanned

/-- While the versions that may be remembered agree, a scan finds what a fresh one would. -/
theorem Scanned.eq_scan (scanned : Scanned v known d found) (agree : Agree known) (sub : partsOf d ⊆ known) :
    found = (scan (.fresh v) d).1 :=
  forall₂_finds_unique agree (fun _ among => sub (List.mem_map_of_mem among)) scanned (scanned_scan sub)

end Detect

end EndpointConsole
