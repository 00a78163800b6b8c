import EndpointConsole.Proofs.Route.Marks
import EndpointConsole.Proofs.Route.Searches

/-!
What a composed route says. The tokens for the controller and the action and the version placeholders
of a joined route are replaced one after the other, which on a flat route (`IsFlat`) is to replace them
all at once (`substituted_eq`, `routeAfter_eq`): no replacement makes a new mark of what is around it.
No token is left in any case, and no version placeholder that there is a version for
(`compose_replaced`).
-/
namespace EndpointConsole.Route
open Text (Marks)

/-- Reads a token or a version placeholder. -/
def readMark? (s : Text) : Option (Mark × Text) :=
  ((readToken? controllerToken s).map fun x => (.controller, x.2)).or <|
    ((readToken? actionToken s).map fun x => (.action, x.2)).or <|
      (readVersionPlaceholder? s).map fun x => (.version (s.take (s.length - x.2.length)), x.2)

namespace Parts

/-- The fragments of the controller and the action, joined. -/
def joined (p : Parts) : Text := join ((p.controllerRoute.map Text.trim).getD []) ((p.actionRoute.map Text.trim).getD [])

/-- What replaces a mark. Without a version, placeholders stay as they are written. -/
def value (p : Parts) (version : Option Text) : Mark → Text
  | .controller => Text.toLower (dropSuffix Source.controllerSuffix p.controller)
  | .action => Text.toLower (dropSuffix "Async".toList p.action)
  | .version written => version.getD written

/-- The joined route with all marks replaced at once. -/
def replaced (p : Parts) (version : Option Text) : Text := Text.fill (p.value version) (Text.pieces readMark? p.joined)

end Parts

/-- The version that counts: the one that was found, or else the default if it is not empty. -/
def resolvedVersion (defaultVersion : Text) (found : Option Text) : Option Text :=
  found.or (if defaultVersion.isEmpty then none else some defaultVersion)

/-- No bracket is opened within brackets or braces, and no brace within braces. -/
structure IsFlat (route : Text) : Prop where
  brackets : Marks.isNested '[' '[' ']' route = false
  braces : Marks.isNested '\x7b' '\x7b' '\x7d' route = false
  mixed : Marks.isNested '\x7b' '[' '\x7d' route = false

theorem readMark?_eq : readMark? = Marks.readAny? [controllerMarks, actionMarks, versionMarks] := by
  funext s
  rw [Marks.readAny?_cons, Marks.readAny?_cons, Marks.readAny?_singleton, controllerMarks, actionMarks,
    read?_tokenMarks (by decide), read?_tokenMarks (by decide), read?_versionMarks]
  rfl

/-- Replacing a token is writing its marks anew. -/
theorem replaceToken_eq {name : Text} (unclosed : ']' ∉ name) (mark : Mark) (write : Mark → Text) (route : Text) :
    replaceToken ('[' :: (name ++ [']'])) (write mark) route = Marks.rewrite [tokenMarks name mark] write route := by
  refine Text.fill_pieces_congr (fun s => ?_) route
  rw [Marks.readAny?_singleton, read?_tokenMarks unclosed, Option.map_map]
  rfl

theorem fillVersion_eq (p : Parts) (version route : Text) :
    fillVersion version route = Marks.rewrite [versionMarks] (p.value (some version)) route := by
  refine Text.fill_pieces_congr (fun s => ?_) route
  rw [Marks.readAny?_singleton, read?_versionMarks, Option.map_map]
  rfl

/-- Placeholders without a version stay. -/
theorem rewrite_unresolved (p : Parts) (route : Text) : Marks.rewrite [versionMarks] (p.value none) route = route := by
  refine Marks.rewrite_self (List.forall_mem_singleton.mpr fun body a means => ?_) route
  obtain ⟨-, rfl⟩ := versionMarks_meaning?.mp means
  rfl

/-- Whether or not a version is looked up, the route is that with the placeholders replaced. -/
theorem routeAfter_eq (defaultVersion : Text) (before : List Parts) (p : Parts) :
    routeAfter defaultVersion before p = ensureLeadingSlash
      (Marks.rewrite [versionMarks] (p.value (resolvedVersion defaultVersion (firstVersion before p))) (substituted p)) := by
  rw [routeAfter]
  split
  · rw [Parts.routeWith]
    cases firstVersion before p with
    | some version => rw [withVersion, fillVersion_eq p, resolvedVersion, Option.some_or]
    | none =>
      rw [withVersion, resolvedVersion, Option.none_or]
      split
      · rw [rewrite_unresolved]
      · rw [fillVersion_eq p]
  · next bare =>
    have absent := hasVersionPlaceholder_eq_false_iff.mp (Bool.eq_false_iff.mpr bare)
    rw [Marks.rewrite_of_absent absent]

/-- The version that counts is made of digits and dots if the default is. -/
theorem isVersion_of_resolved {d version : Text} {before : List Parts} {p : Parts}
    (digits : ∀ c ∈ d, (Text.isDecimal c || c == '.') = true)
    (resolved : resolvedVersion d (firstVersion before p) = some version) : IsVersion version := by
  rw [resolvedVersion] at resolved
  cases found : firstVersion before p with
  | some v =>
    rw [found, Option.some_or] at resolved
    cases resolved
    exact isVersion_of_version? found
  | none =>
    rw [found, Option.none_or] at resolved
    split at resolved
    · cases resolved
    · next nonempty =>
      cases resolved
      exact ⟨fun empty => nonempty (List.isEmpty_iff.mpr empty), digits⟩

theorem toLower_of_digit {c : Char} (digit : (Text.isDecimal c || c == '.') = true) : c.toLower = c := by
  refine dif_neg fun upper => ?_
  have low : 0x41 ≤ c.toNat := UInt32.le_iff_toNat_le.mp upper.1
  have high : c.toNat ≤ 0x5A := UInt32.le_iff_toNat_le.mp upper.2
  rw [Bool.or_eq_true, beq_iff_eq] at digit
  rcases digit with decimal | rfl
  · rw [Text.isDecimal, if_pos (by omega), Char.isDigit, Bool.and_eq_true, decide_eq_true_eq, decide_eq_true_eq] at decimal
    have nine : c.toNat ≤ 0x39 := UInt32.le_iff_toNat_le.mp decimal.2
    omega
  · exact absurd low (by decide)

/-- A version begins with no letter of a token. -/
theorem IsVersion.not_mem_token {version name body : Text} (isVersion : IsVersion version)
    (letters : (name.all fun c => !(Text.isDecimal c || c == '.')) = true) (token : Text.asciiLower body = name) :
    ∃ c rest, version = c :: rest ∧ c ∉ body ++ [']'] := by
  obtain ⟨c, rest, rfl⟩ := List.exists_cons_of_ne_nil isVersion.nonempty
  have digit := isVersion.chars c List.mem_cons_self
  refine ⟨c, rest, rfl, fun among => ?_⟩
  rcases List.mem_append.mp among with inside | closing
  · have letter : c.toLower ∈ name := token ▸ List.mem_map_of_mem inside
    rw [toLower_of_digit digit] at letter
    have other := List.all_eq_true.mp letters c letter
    rw [digit] at other
    cases other
  · rw [List.mem_singleton.mp closing] at digit
    exact absurd digit (by decide)

section
variable {p : Parts} {version : Option Text}

/-- What is written for some marks has no characters of marks. -/
def Plain (kinds : List (Marks Mark)) (p : Parts) (version : Option Text) : Prop :=
  Marks.Writes kinds (p.value version) fun value => ∀ c ∈ delimiters, c ∉ value

theorem plain_tokens (controller : ∀ c ∈ p.controller, Text.isWord c = true)
    (action : ∀ c ∈ p.action, Text.isWord c = true) : Plain [controllerMarks, actionMarks] p version := by
  refine List.forall_mem_cons.mpr ⟨?_, List.forall_mem_singleton.mpr ?_⟩
  · intro body a means c delimiter
    obtain ⟨-, rfl⟩ := tokenMarks_meaning?.mp means
    exact not_mem_lowered delimiter controller Source.controllerSuffix
  · intro body a means c delimiter
    obtain ⟨-, rfl⟩ := tokenMarks_meaning?.mp means
    exact not_mem_lowered delimiter action "Async".toList

theorem plain_versions {v : Text} (isVersion : IsVersion v) : Plain [versionMarks] p (some v) := by
  refine List.forall_mem_singleton.mpr fun body a means c delimiter => ?_
  obtain ⟨-, rfl⟩ := versionMarks_meaning?.mp means
  exact isVersion.not_mem delimiter

theorem Plain.append {kinds more : List (Marks Mark)} (first : Plain kinds p version) (second : Plain more p version) :
    Plain (kinds ++ more) p version := List.forall_mem_append.mpr ⟨first, second⟩

theorem Plain.untouched {kinds : List (Marks Mark)} (plain : Plain kinds p version) {n : Marks Mark}
    (opening : n.opening ∈ delimiters) (closing : n.closing ∈ delimiters) (apart : ∀ m ∈ kinds, m.opening ≠ n.closing)
    (flat : ∀ m ∈ kinds, Marks.isNested n.opening m.opening n.closing p.joined = false) :
    n.Untouched kinds (p.value version) p.joined where
  written m among body a means := ⟨plain m among body a means _ opening, plain m among body a means _ closing⟩
  apart := apart
  flat := flat

variable (flat : IsFlat p.joined) (tokens : Plain [controllerMarks, actionMarks] p version)
include flat tokens

/-- Tokens leave the tokens of either kind alone. -/
theorem untouched_token (name : Text) (mark : Mark) :
    (tokenMarks name mark).Untouched [controllerMarks, actionMarks] (p.value version) p.joined :=
  have opening : '[' ∈ delimiters := by decide
  have closing : ']' ∈ delimiters := by decide
  have apart : ∀ m ∈ [controllerMarks, actionMarks], m.opening ≠ ']' := by decide
  tokens.untouched opening closing apart
    (List.forall_mem_cons.mpr ⟨flat.brackets, List.forall_mem_singleton.mpr flat.brackets⟩)

theorem substituted_eq :
    substituted p = Marks.rewrite [controllerMarks, actionMarks] (p.value version) p.joined := by
  have alone : [controllerMarks] ⊆ [controllerMarks, actionMarks] :=
    List.cons_subset.mpr ⟨List.mem_cons_self, List.nil_subset _⟩
  have untouched := (untouched_token flat tokens "action".toList .action).subset alone
  have first : ']' ∉ "controller".toList := by decide
  have second : ']' ∉ "action".toList := by decide
  calc substituted p
      = replaceToken actionToken (p.value version .action)
          (replaceToken controllerToken (p.value version .controller) p.joined) := rfl
    _ = replaceToken actionToken (p.value version .action)
          (Marks.rewrite [controllerMarks] (p.value version) p.joined) :=
          congrArg (replaceToken actionToken (p.value version .action)) (replaceToken_eq first .controller _ p.joined)
    _ = Marks.rewrite [actionMarks] (p.value version) (Marks.rewrite [controllerMarks] (p.value version) p.joined) :=
          replaceToken_eq second .action (p.value version) _
    _ = Marks.rewrite [controllerMarks, actionMarks] (p.value version) p.joined := (Marks.rewrite_concat untouched).symm

/-- The placeholders may be replaced together with the tokens. -/
theorem replaced_eq : p.replaced version = Marks.rewrite [versionMarks] (p.value version) (substituted p) := by
  have untouched : versionMarks.Untouched [controllerMarks, actionMarks] (p.value version) p.joined :=
    tokens.untouched (by decide) (by decide) (by decide)
      (List.forall_mem_cons.mpr ⟨flat.mixed, List.forall_mem_singleton.mpr flat.mixed⟩)
  rw [Parts.replaced, readMark?_eq, substituted_eq flat tokens]
  exact Marks.rewrite_concat untouched

theorem absent_token {name : Text} {mark : Mark} (among : tokenMarks name mark ∈ [controllerMarks, actionMarks])
    (letters : (name.all fun c => !(Text.isDecimal c || c == '.')) = true)
    (isVersion : ∀ v, version = some v → IsVersion v) :
    (tokenMarks name mark).Absent (p.replaced version) := by
  have before : (tokenMarks name mark).Absent (substituted p) := by
    rw [substituted_eq flat tokens]
    exact Marks.absent_rewrite among (untouched_token flat tokens name mark)
  rw [replaced_eq flat tokens]
  cases version with
  | none => rwa [rewrite_unresolved]
  | some v =>
    have isVersion := isVersion v rfl
    refine Marks.absent_rewrite_of_absent before ?_ fun body meant => ?_
    · exact fun m kind body a means => plain_versions isVersion m kind body a means '[' (by decide)
    · obtain ⟨a, means⟩ := Option.ne_none_iff_exists'.mp meant
      obtain ⟨token, -⟩ := tokenMarks_meaning?.mp means
      refine List.forall_mem_singleton.mpr fun inner b known => ?_
      obtain ⟨-, rfl⟩ := versionMarks_meaning?.mp known
      exact isVersion.not_mem_token letters token

theorem absent_version {v : Text} (resolved : version = some v) (isVersion : IsVersion v) :
    versionMarks.Absent (p.replaced version) := by
  subst resolved
  have untouched : versionMarks.Untouched [controllerMarks, actionMarks, versionMarks] (p.value (some v)) p.joined :=
    (tokens.append (plain_versions isVersion)).untouched (by decide) (by decide) (by decide)
      (List.forall_mem_cons.mpr ⟨flat.mixed, List.forall_mem_cons.mpr ⟨flat.mixed,
        List.forall_mem_singleton.mpr flat.braces⟩⟩)
  rw [Parts.replaced, readMark?_eq]
  exact Marks.absent_rewrite (by simp) untouched

end

theorem absent_ensureLeadingSlash {m : Marks Mark} {route : Text} (other : '/' ≠ m.opening) (absent : m.Absent route) :
    m.Absent (ensureLeadingSlash route) := by
  rw [ensureLeadingSlash]
  split
  · exact absent
  · exact .cons (Marks.read?_of_ne other route) absent

/-- The route that is composed after any others is the joined route with all marks replaced at once. No token is
    left in it, and a version placeholder only if there is neither a version nor a default. -/
theorem compose_replaced (d : Text) (earlier : List Parts) (p : Parts)
    (digits : ∀ c ∈ d, (Text.isDecimal c || c == '.') = true) (controller : ∀ c ∈ p.controller, Text.isWord c = true)
    (action : ∀ c ∈ p.action, Text.isWord c = true) (flat : IsFlat p.joined) :
    let found := firstVersion (lookups earlier) p
    let route := (((Composer.fresh d).after earlier).compose p).1
    route = ensureLeadingSlash (p.replaced (resolvedVersion d found)) ∧
      Text.contains controllerToken (Text.asciiLower route) = false ∧
      Text.contains actionToken (Text.asciiLower route) = false ∧
      (hasVersionPlaceholder route = true → found = none ∧ d = []) := by
  intro found route
  have tokens : Plain [controllerMarks, actionMarks] p (resolvedVersion d found) := plain_tokens controller action
  have isVersion (v : Text) (resolved : resolvedVersion d found = some v) : IsVersion v :=
    isVersion_of_resolved digits resolved
  have composed : route = ensureLeadingSlash (p.replaced (resolvedVersion d found)) := by
    have counts := (Composer.counts_fresh d).after earlier
    rw [List.nil_append] at counts
    rw [replaced_eq flat tokens, ← routeAfter_eq]
    exact (Composer.compose_route counts.toRemembers p).1
  refine ⟨composed, ?_, ?_, fun place => ?_⟩
  · have absent := absent_token flat tokens (List.mem_cons_self : controllerMarks ∈ _) (by decide) isVersion
    rw [composed]
    exact contains_token_eq_false (by decide) (absent_ensureLeadingSlash (by decide) absent)
  · have absent := absent_token flat tokens (List.mem_cons_of_mem _ List.mem_cons_self : actionMarks ∈ _) (by decide)
      isVersion
    rw [composed]
    exact contains_token_eq_false (by decide) (absent_ensureLeadingSlash (by decide) absent)
  · cases resolved : resolvedVersion d found with
    | none =>
      obtain ⟨nothing, default⟩ := Option.or_eq_none_iff.mp resolved
      refine ⟨nothing, ?_⟩
      by_contra nonempty
      rw [if_neg fun empty => nonempty (List.isEmpty_iff.mp empty)] at default
      cases default
    | some v =>
      have absent := absent_version flat tokens resolved (isVersion v resolved)
      rw [composed, hasVersionPlaceholder_eq_false_iff.mpr (absent_ensureLeadingSlash (by decide) absent)] at place
      cases place

/-- A handler with its version above the class. -/
def versionedParts : Parts where
  controllerRoute := some "api/v\x7bversion:apiVersion\x7d/[Controller]".toList
  actionRoute := some "[action]/\x7bid:int\x7d".toList
  controller := "UsersController".toList
  action := "FindAsync".toList
  lines := ["[ApiVersion(\"2.1\")]".toList, "public class UsersController".toList]
  methodLine := 1
  file := "Users.cs".toList

theorem compose_versionedParts :
    let route := (((Composer.fresh "1.0".toList).after []).compose versionedParts).1
    IsFlat versionedParts.joined ∧ route = "/api/v2.1/users/find/\x7bid:int\x7d".toList ∧
      Text.contains controllerToken (Text.asciiLower route) = false := by
  intro route
  have flat : IsFlat versionedParts.joined := ⟨by decide, by decide, by decide⟩
  have composed := compose_replaced "1.0".toList [] versionedParts (List.all_eq_true.mp (by decide))
    (List.all_eq_true.mp (by decide)) (List.all_eq_true.mp (by decide)) flat
  exact ⟨flat, by decide +kernel, composed.2.1⟩

end EndpointConsole.Route
