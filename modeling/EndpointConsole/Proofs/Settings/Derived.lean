import EndpointConsole.Proofs.Json.Words
import EndpointConsole.Proofs.Settings.Layers
import Mathlib.Algebra.Group.Nat.Defs

/-!
Times and sizes that follow from the settings. Whatever layers are put over the defaults, each is the
value of the last layer that gives one, in smaller units: in full if a word holds it, or else the
largest word (`layered_derives`). The size of a body in the history is the one exception: from
2 ^ 54 kilobytes on it is not the largest word, but an overflow.
-/
namespace EndpointConsole

theorem checkedWord_eq_ok_iff {n m : Nat} : checkedWord n = .ok m ↔ m = n ∧ n ≤ maxWord := by
  rw [checkedWord]
  split
  · next fits => rw [Except.ok.injEq, eq_comm, and_iff_left fits]
  · next beyond => exact ⟨nofun, fun both => absurd both.2 beyond⟩

theorem checkedWord_eq_error_iff {n : Nat} {o : Overflow} : checkedWord n = .error o ↔ maxWord < n := by
  rw [checkedWord, ← Nat.not_le]
  split
  · next fits => exact ⟨nofun, fun beyond => absurd fits beyond⟩
  · next beyond => exact ⟨fun _ => beyond, fun _ => rfl⟩

theorem map_eq_ok_iff {α β : Type} {f : α → β} {x : Checked α} {b : β} :
    x.map f = .ok b ↔ ∃ a, x = .ok a ∧ f a = b := by
  cases x with
  | error o => exact ⟨nofun, nofun⟩
  | ok a =>
    refine ⟨fun same => ⟨a, rfl, Except.ok.inj same⟩, fun ⟨_, held, same⟩ => ?_⟩
    cases held
    exact congrArg _ same

theorem map_eq_error_iff {α β : Type} {f : α → β} {x : Checked α} {o : Overflow} :
    x.map f = .error o ↔ x = .error o := by
  cases x <;> simp [Except.map]

namespace Settings

/-- A number of units as a word: in full if a word holds it, or else the largest word. -/
inductive Scaled (n unit : Nat) : Nat → Prop where
  | full (fits : n * unit ≤ maxWord) : Scaled n unit (n * unit)
  | largest (beyond : maxWord < n * unit) : Scaled n unit maxWord

/-- A limit in smaller units; zero is no limit. -/
inductive Limit (n unit : Nat) : Option Nat → Prop where
  | unlimited (zero : n = 0) : Limit n unit none
  | scaled {m : Nat} (positive : 0 < n) (scaled : Scaled n unit m) : Limit n unit (some m)

theorem scaled_saturatedWord (n unit : Nat) : Scaled n unit (saturatedWord (n * unit)) := by
  by_cases fits : n * unit ≤ maxWord
  · have whole : saturatedWord (n * unit) = n * unit := Nat.min_eq_left fits
    rw [whole]
    exact .full fits
  · have beyond := Nat.lt_of_not_le fits
    have largest : saturatedWord (n * unit) = maxWord := Nat.min_eq_right beyond.le
    rw [largest]
    exact .largest beyond

theorem scaled_one {n : Nat} (word : n ≤ maxWord) : Scaled n 1 n := by
  have scaled : Scaled n 1 (n * 1) := .full (by omega)
  rwa [Nat.mul_one] at scaled

/-- Units that are not too many come to something, so that a limit stays one. -/
theorem limit_of_scaled {n unit m : Nat} (some_unit : 0 < unit) (scaled : Scaled n unit m) :
    Limit n unit (if 0 < m then some m else none) := by
  by_cases zero : n = 0
  · subst zero
    cases scaled with
    | full => simpa using .unlimited rfl
    | largest beyond => omega
  · have positive : 0 < n := Nat.pos_of_ne_zero zero
    have product : 0 < n * unit := Nat.mul_pos positive some_unit
    have counted : 0 < m := by
      cases scaled with
      | full => exact product
      | largest => decide
    rw [if_pos counted]
    exact .scaled positive scaled

/-- Whether the longest body that is kept does not fit a word when counted in bytes. -/
def BodyOverflows (s : Settings) : Prop := maxWord < s.historyBodyKb * 1024

theorem historyBodyBytes?_eq_error_iff {s : Settings} {o : Overflow} :
    s.historyBodyBytes? = .error o ↔ s.BodyOverflows := by
  rw [historyBodyBytes?, BodyOverflows]
  split
  · rw [map_eq_error_iff, checkedWord_eq_error_iff]
  · next unlimited => exact ⟨nofun, fun beyond => by omega⟩

/-- A layer whose numbers are those of a document that was read, or of variables. -/
inductive Layer.OfWords : Layer → Prop where
  | file {document : Json} (words : document.OfWords) : OfWords (.file document)
  | environment (value? : Text → Option Text) : OfWords (.environment value?)

theorem Says.ofWords {document v : Json} {name : Text} (said : Says document name v) (words : document.OfWords) :
    v.OfWords := by
  cases said with
  | flat found => exact words.member? found
  | nested _ grouped found => exact (words.member? grouped).member? found

theorem IsNumeral.le_maxWord {s : Text} {n : Nat} (numeral : IsNumeral s n) : n ≤ maxWord := by
  cases numeral with
  | bare _ _ fits => exact fits
  | signed _ _ fits => exact fits

/-- The layers of a workspace. -/
def layersOf (fs : Files) (environment : Text → Option Text) (workspace : Text) : List Layer :=
  (document? fs workspace).toList.map Layer.file ++ [.environment environment]

theorem load_eq_layered (fs : Files) (environment : Text → Option Text) (workspace : Text) :
    load fs environment workspace = layered (layersOf fs environment workspace) := rfl

theorem ofWords_of_parseCommented? {s : Text} {document : Json} (read : Json.parseCommented? s = some document) :
    (Layer.file document).OfWords := .file (Json.ofWords_of_parse? read)

theorem ofWords_layersOf {fs : Files} {environment : Text → Option Text} {workspace : Text} :
    ∀ layer ∈ layersOf fs environment workspace, layer.OfWords := by
  intro layer among
  rcases List.mem_append.mp among with file | last
  · obtain ⟨document, read, rfl⟩ := List.mem_map.mp file
    rw [Option.mem_toList, document?.eq_def] at read
    split at read
    · exact ofWords_of_parseCommented? read
    · cases read
  · rw [List.mem_singleton] at last
    exact last ▸ .environment environment

namespace Kind

variable {α β : Type} {p : α → Prop} {q : β → Prop}

/-- Whatever gives a value of a kind, the value has a property. -/
structure Only (k : Kind α) (p : α → Prop) : Prop where
  inFile : ∀ {v : Json} {a : α}, v.OfWords → k.inFile v a → p a
  inVariable : ∀ {s : Text} {a : α}, k.inVariable s a → p a

theorem amount_only : amount.Only (· ≤ maxWord) where
  inFile words given := by
    cases given with
    | whole =>
      have fits := words _ .self
      exact Int.ofNat_le.mp fits.2
    | real => exact Nat.min_le_right _ _
  inVariable := IsNumeral.le_maxWord

theorem Only.map {k : Kind α} {make : α → β} (only : k.Only p) (made : ∀ a, p a → q (make a)) :
    (k.map make).Only q where
  inFile words given := by
    obtain ⟨a, given, rfl⟩ := given
    exact made a (only.inFile words given)
  inVariable given := by
    obtain ⟨a, given, rfl⟩ := given
    exact made a (only.inVariable given)

end Kind

/-- What is true of the default and of whatever layers give is true of the last value. -/
theorem Setting.Last.of_only {α : Type} {f : Setting α} {layers : List Layer} {p : α → Prop} {a : α}
    (last : f.Last layers a) (only : f.kind.Only p) (default : p (f.value {}))
    (words : ∀ layer ∈ layers, layer.OfWords) : p a := by
  cases last with
  | @given before after layer a split gives silent =>
    have word : layer.OfWords := by
      apply words
      simp [split]
    cases gives with
    | file said valid =>
      cases word with
      | file words => exact only.inFile (said.ofWords words) valid
    | environment set valid => exact only.inVariable valid
  | default silent => exact default

/-- How long requests are kept: for so many days, or else for so many seconds, or else for ever. -/
inductive Retention : Option Nat → Option Nat → Option Nat → Prop where
  | days {days : Nat} {limit : Option Nat} (seconds : Option Nat) (scaled : Limit days secondsPerDay limit) :
      Retention (some days) seconds limit
  | seconds {seconds : Nat} {limit : Option Nat} (scaled : Limit seconds 1 limit) : Retention none (some seconds) limit
  | forEver : Retention none none none

theorem retention_historySeconds? {s : Settings} (word : ∀ n, s.historySeconds = some n → n ≤ maxWord) :
    Retention s.historyDays s.historySeconds s.historySeconds? := by
  unfold historySeconds?
  cases s.historyDays with
  | some days =>
    refine .days s.historySeconds (limit_of_scaled ?_ (scaled_saturatedWord days secondsPerDay))
    decide
  | none =>
    cases given : s.historySeconds with
    | some seconds =>
      refine .seconds (limit_of_scaled (by decide) ?_)
      exact scaled_one (word seconds given)
    | none => exact .forEver

/-- A body of less than 2 ^ 54 kilobytes has its size in bytes in full. -/
theorem historyBodyBytes?_of_lt {s : Settings} (small : s.historyBodyKb < 2 ^ 54) :
    ∃ limit, s.historyBodyBytes? = .ok limit ∧ Limit s.historyBodyKb 1024 limit := by
  have fits : s.historyBodyKb * 1024 ≤ maxWord := by
    simp only [maxWord]
    omega
  unfold historyBodyBytes?
  by_cases positive : 0 < s.historyBodyKb
  · rw [if_pos positive, checkedWord_eq_ok_iff.mpr ⟨rfl, fits⟩]
    exact ⟨_, rfl, .scaled positive (.full fits)⟩
  · rw [if_neg positive]
    exact ⟨none, rfl, .unlimited (by omega)⟩

theorem historyBodyBytes?_of_le {s : Settings} (large : 2 ^ 54 ≤ s.historyBodyKb) :
    s.historyBodyBytes? = .error .overflow := by
  rw [historyBodyBytes?_eq_error_iff]
  simp only [BodyOverflows, maxWord]
  omega

/-- What follows from layers that are put over the defaults. -/
structure Derives (layers : List Layer) : Prop where
  /-- A request may take one second at least. -/
  requestSeconds : ∃ n, Setting.requestTimeoutSeconds.Last layers n ∧
    Scaled (max n 1) 1 (layered layers).requestSeconds
  lensSeconds : ∃ n, Setting.lensIdleSeconds.Last layers n ∧ Limit n 1 (layered layers).lensSeconds?
  historySeconds : ∃ days seconds, Setting.historyDays.Last layers days ∧ Setting.historySeconds.Last layers seconds ∧
    Retention days seconds (layered layers).historySeconds?
  largeResponseBytes : ∃ n, Setting.largeResponseKb.Last layers n ∧
    Scaled n 1024 (layered layers).largeResponseBytes
  /-- The size of a body is not cut down to the largest word. -/
  historyBodyBytes : ∃ n, Setting.historyBodyKb.Last layers n ∧
    (n < 2 ^ 54 → ∃ limit, (layered layers).historyBodyBytes? = .ok limit ∧ Limit n 1024 limit) ∧
    (2 ^ 54 ≤ n → (layered layers).historyBodyBytes? = .error .overflow)

theorem layered_derives {layers : List Layer} (words : ∀ layer ∈ layers, layer.OfWords) : Derives layers where
  requestSeconds := by
    have last := Setting.requestTimeoutSeconds.last_layered layers
    have word : (layered layers).requestTimeoutSeconds ≤ maxWord := last.of_only Kind.amount_only (by decide) words
    refine ⟨_, last, scaled_one ?_⟩
    exact Nat.max_le.mpr ⟨word, by decide⟩
  lensSeconds := by
    have last := Setting.lensIdleSeconds.last_layered layers
    have word : (layered layers).lensIdleSeconds ≤ maxWord := last.of_only Kind.amount_only (by decide) words
    exact ⟨_, last, limit_of_scaled (by decide) (scaled_one word)⟩
  historySeconds := by
    have last := Setting.historySeconds.last_layered layers
    have only : (Kind.amount.map some).Only fun given => ∀ n, given = some n → n ≤ maxWord :=
      Kind.amount_only.map (by simp)
    have word : ∀ n, (layered layers).historySeconds = some n → n ≤ maxWord :=
      last.of_only only (by simp [Setting.value]) words
    exact ⟨_, _, Setting.historyDays.last_layered layers, last, retention_historySeconds? word⟩
  largeResponseBytes := ⟨_, Setting.largeResponseKb.last_layered layers, scaled_saturatedWord _ _⟩
  historyBodyBytes :=
    ⟨_, Setting.historyBodyKb.last_layered layers, historyBodyBytes?_of_lt, historyBodyBytes?_of_le⟩

/-- The environment with one variable. -/
def variableOnly (name value : String) (asked : Text) : Option Text :=
  if asked = Overrides.variableStart ++ name.toList then some value.toList else none

/-- Requests are kept for the most days there are, with the longest bodies whose size is a word. -/
def longestKept : List Layer :=
  [.file (.object [("csharpApiConsole.historyTtlDays".toList, .ofNat maxWord)]),
    .environment (variableOnly "HISTORY_MAX_BODY_SIZE_KB" "18014398509481983")]

theorem longestKept_ofWords : ∀ layer ∈ longestKept, layer.OfWords := by
  have document : (Json.object [("csharpApiConsole.historyTtlDays".toList, .ofNat maxWord)]).OfWords := by
    intro n inside
    cases inside with
    | member among inside =>
      rw [List.mem_singleton] at among
      subst among
      cases inside
      exact ⟨by decide, Int.le_refl _⟩
  simpa [longestKept] using ⟨.file document, .environment _⟩

theorem layered_derives_longest : (∀ layer ∈ longestKept, layer.OfWords) ∧ Derives longestKept ∧
    (layered longestKept).historySeconds? = some maxWord ∧
    (layered longestKept).historyBodyBytes? = .ok (some 18446744073709550592) :=
  ⟨longestKept_ofWords, layered_derives longestKept_ofWords, by decide +kernel, by decide +kernel⟩

/-- The size of a body overflows where the size of a response is the largest word. -/
theorem historyBodyBytes?_overflow :
    (layered [.environment (variableOnly "HISTORY_MAX_BODY_SIZE_KB" "18014398509481984")]).historyBodyBytes? =
        .error .overflow ∧
      (layered [.environment (variableOnly "LARGE_RESPONSE_THRESHOLD_KB" "18014398509481984")]).largeResponseBytes =
        maxWord := by
  decide +kernel

end Settings

end EndpointConsole
