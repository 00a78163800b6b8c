import EndpointConsole.Proofs.Text.Cutting
import EndpointConsole.Settings
import Mathlib.Data.List.Induction

/-!
Settings in layers. A setting has a name in settings files and one among the variables, and a kind,
which says what gives it a value in either (`Setting.Gives`). Whatever layers are put over the defaults,
each setting ends with the value of the last layer that gives it one, or else with its default
(`Setting.last_layered`), and what layers say of other settings, rightly or wrongly, is nothing to it.
-/
namespace EndpointConsole.Settings

/-- What gives a value in a file, what gives one in a variable, and functions that find it. -/
structure Kind (α : Type) where
  inFile : Json → α → Prop
  inVariable : Text → α → Prop
  ofFile? : Json → Option α
  ofVariable? : Text → Option α
  ofFile?_iff : ∀ {v : Json} {a : α}, ofFile? v = some a ↔ inFile v a
  ofVariable?_iff : ∀ {s : Text} {a : α}, ofVariable? s = some a ↔ inVariable s a

/-- A number in a file: a natural number as it is. Of others that are not negative the fraction is cut
    off, and the largest word stands for what is beyond it. -/
inductive IsAmount : Json → Nat → Prop where
  | whole (n : Nat) : IsAmount (.number (.int n)) n
  | real {x : Binary64} (unsigned : x.negative = true → x.isZero = true) :
      IsAmount (.number (.real x)) (min x.floor maxWord)

/-- Decimal digits after an optional plus sign that fit a machine word. -/
inductive IsNumeral : Text → Nat → Prop where
  | bare {digits : Text} (written : digits ≠ []) (decimal : ∀ c ∈ digits, c.isDigit = true)
      (fits : Json.natOfDigits digits ≤ maxWord) : IsNumeral digits (Json.natOfDigits digits)
  | signed {digits : Text} (written : digits ≠ []) (decimal : ∀ c ∈ digits, c.isDigit = true)
      (fits : Json.natOfDigits digits ≤ maxWord) : IsNumeral ('+' :: digits) (Json.natOfDigits digits)

theorem text?_eq_some_iff {v : Json} {s : Text} : v.text? = some s ↔ v = .string s := by
  cases v <;> simp [Json.text?]

theorem bool?_eq_some_iff {v : Json} {b : Bool} : v.bool? = some b ↔ v = .bool b := by
  cases v <;> simp [Json.bool?]

theorem bool?_eq_some_iff_word {s : Text} {b : Bool} :
    Overrides.bool? s = some b ↔ s = (if b then "true" else "false").toList := by
  unfold Overrides.bool?
  split
  · next positive =>
    rw [positive]
    revert b
    decide
  split
  · next negative =>
    rw [negative]
    revert b
    decide
  · next positive negative => cases b with
    | false => exact iff_of_false nofun negative
    | true => exact iff_of_false nofun positive

theorem amount?_eq_some_iff {v : Json} {n : Nat} : v.amount? = some n ↔ IsAmount v n := by
  constructor
  · intro read
    unfold Json.amount? at read
    split at read
    · next m =>
      split at read
      · next natural =>
        cases read
        have whole := IsAmount.whole m.toNat
        rwa [Int.toNat_of_nonneg natural] at whole
      · cases read
    · next x =>
      split at read
      · cases read
      · next unsigned =>
        cases read
        exact .real (by simpa using unsigned)
    · cases read
  · rintro (_ | unsigned)
    · simp [Json.amount?]
    · rw [Json.amount?, if_neg (by simpa using unsigned)]
      rfl

/-- What is read of a numeral is what its digits say. -/
theorem wordOf?_eq_some_iff_digits {s digits : Text} (cut : (Text.stripStart? ['+'] s).getD s = digits) {n : Nat} :
    wordOf? s = some n ↔
      digits ≠ [] ∧ (∀ c ∈ digits, c.isDigit = true) ∧ Json.natOfDigits digits ≤ maxWord ∧
        Json.natOfDigits digits = n := by
  subst cut
  simp only [wordOf?, Option.ite_none_left_eq_some, Option.ite_none_right_eq_some, Option.some.injEq,
    Bool.or_eq_true, List.isEmpty_iff, Bool.not_eq_true', List.all_eq_false, not_or, not_exists, not_and,
    Decidable.not_not, and_assoc]

theorem wordOf?_eq_some_iff {s : Text} {n : Nat} : wordOf? s = some n ↔ IsNumeral s n := by
  constructor
  · intro read
    cases cut : Text.stripStart? ['+'] s with
    | none =>
      obtain ⟨written, decimal, fits, rfl⟩ := (wordOf?_eq_some_iff_digits (congrArg (Option.getD · s) cut)).1 read
      exact .bare written decimal fits
    | some digits =>
      obtain ⟨written, decimal, fits, rfl⟩ := (wordOf?_eq_some_iff_digits (congrArg (Option.getD · s) cut)).1 read
      rw [Text.eq_cons_of_stripStart? cut]
      exact .signed written decimal fits
  · rintro (⟨written, decimal, fits⟩ | ⟨written, decimal, fits⟩)
    · have unsigned : '+' ∉ s := fun sign => absurd (decimal _ sign) (by decide)
      have cut : (Text.stripStart? ['+'] s).getD s = s := by rw [Text.stripStart?_of_not_mem unsigned]; rfl
      exact (wordOf?_eq_some_iff_digits cut).2 ⟨written, decimal, fits, rfl⟩
    · exact (wordOf?_eq_some_iff_digits rfl).2 ⟨written, decimal, fits, rfl⟩

namespace Kind

/-- A variable gives the text as it is. -/
def text : Kind Text where
  inFile v s := v = .string s
  inVariable t s := t = s
  ofFile? := Json.text?
  ofVariable? := some
  ofFile?_iff := text?_eq_some_iff
  ofVariable?_iff := Option.some_inj

def flag : Kind Bool where
  inFile v b := v = .bool b
  inVariable t b := Text.trim t = (if b then "true" else "false").toList
  ofFile? := Json.bool?
  ofVariable? t := Overrides.bool? (Text.trim t)
  ofFile?_iff := bool?_eq_some_iff
  ofVariable?_iff := bool?_eq_some_iff_word

def amount : Kind Nat where
  inFile := IsAmount
  inVariable t n := IsNumeral (Text.trim t) n
  ofFile? := Json.amount?
  ofVariable? t := wordOf? (Text.trim t)
  ofFile?_iff := amount?_eq_some_iff
  ofVariable?_iff := wordOf?_eq_some_iff

/-- Not a blank text. -/
def language : Kind (Option Text) where
  inFile v l := ∃ s, v = .string s ∧ Text.trim s ≠ [] ∧ some (Text.trim s) = l
  inVariable s l := Text.trim s ≠ [] ∧ some (Text.trim s) = l
  ofFile? v := (v.text?.bind languageOf?).map some
  ofVariable? s := (languageOf? s).map some
  ofFile?_iff := by
    simp [Option.map_eq_some_iff, Option.bind_eq_some_iff, text?_eq_some_iff, languageOf?, and_assoc]
  ofVariable?_iff := by
    simp [Option.map_eq_some_iff, languageOf?, and_assoc]

/-- What is made of the values of a kind. -/
def map {α β : Type} (make : α → β) (k : Kind α) : Kind β where
  inFile v b := ∃ a, k.inFile v a ∧ make a = b
  inVariable s b := ∃ a, k.inVariable s a ∧ make a = b
  ofFile? v := (k.ofFile? v).map make
  ofVariable? s := (k.ofVariable? s).map make
  ofFile?_iff := by simp [Option.map_eq_some_iff, k.ofFile?_iff]
  ofVariable?_iff := by simp [Option.map_eq_some_iff, k.ofVariable?_iff]

end Kind

inductive Setting : Type → Type where
  | defaultApiVersion : Setting Text
  | historyEnabled : Setting Bool
  | historyLimit : Setting Nat
  | requestTimeoutSeconds : Setting Nat
  | largeResponseKb : Setting Nat
  | renderedLineNumbers : Setting Nat
  | historyBodyKb : Setting Nat
  | historyDays : Setting (Option Nat)
  | historySeconds : Setting (Option Nat)
  | lensDelayMs : Setting Nat
  | lensIdleSeconds : Setting Nat
  | lensCapacity : Setting Nat
  | language : Setting (Option Text)

namespace Setting

variable {α : Type}

def value : Setting α → Settings → α
  | defaultApiVersion => Settings.defaultApiVersion
  | historyEnabled => Settings.historyEnabled
  | historyLimit => Settings.historyLimit
  | requestTimeoutSeconds => Settings.requestTimeoutSeconds
  | largeResponseKb => Settings.largeResponseKb
  | renderedLineNumbers => Settings.renderedLineNumbers
  | historyBodyKb => Settings.historyBodyKb
  | historyDays => Settings.historyDays
  | historySeconds => Settings.historySeconds
  | lensDelayMs => Settings.lensDelayMs
  | lensIdleSeconds => Settings.lensIdleSeconds
  | lensCapacity => Settings.lensCapacity
  | language => Settings.language

def fileName : Setting α → Text
  | defaultApiVersion => "defaultApiVersion".toList
  | historyEnabled => "requestHistoryEnabled".toList
  | historyLimit => "requestHistoryLimit".toList
  | requestTimeoutSeconds => "requestTimeoutSeconds".toList
  | largeResponseKb => "largeResponseThresholdKb".toList
  | renderedLineNumbers => "maxRenderedLineNumbers".toList
  | historyBodyKb => "historyMaxBodySizeKb".toList
  | historyDays => "historyTtlDays".toList
  | historySeconds => "historyTtlSeconds".toList
  | lensDelayMs => "codeLensDebounceDelay".toList
  | lensIdleSeconds => "codeLensCacheTtlSeconds".toList
  | lensCapacity => "codeLensCacheMaxEntries".toList
  | language => "language".toList

/-- The name without its beginning. -/
def variableName : Setting α → Text
  | defaultApiVersion => "DEFAULT_API_VERSION".toList
  | historyEnabled => "REQUEST_HISTORY_ENABLED".toList
  | historyLimit => "REQUEST_HISTORY_LIMIT".toList
  | requestTimeoutSeconds => "REQUEST_TIMEOUT_SECS".toList
  | largeResponseKb => "LARGE_RESPONSE_THRESHOLD_KB".toList
  | renderedLineNumbers => "MAX_RENDERED_LINE_NUMBERS".toList
  | historyBodyKb => "HISTORY_MAX_BODY_SIZE_KB".toList
  | historyDays => "HISTORY_TTL_DAYS".toList
  | historySeconds => "HISTORY_TTL_SECONDS".toList
  | lensDelayMs => "CODELENS_DEBOUNCE_MS".toList
  | lensIdleSeconds => "CODELENS_CACHE_TTL_SECS".toList
  | lensCapacity => "CODELENS_CACHE_MAX_ENTRIES".toList
  | language => "LANGUAGE".toList

def kind : Setting α → Kind α
  | defaultApiVersion => .text
  | historyEnabled => .flag
  | historyLimit => Kind.amount.map clampHistoryLimit
  | historyDays | historySeconds => Kind.amount.map some
  | requestTimeoutSeconds | largeResponseKb | renderedLineNumbers | historyBodyKb | lensDelayMs | lensIdleSeconds
  | lensCapacity => .amount
  | language => .language

end Setting

/-! ### What a layer says -/

/-- What a document says under a name: what stands under the full name, right or wrong, or else what
    stands under the name in the group. -/
inductive Says (document : Json) (name : Text) (v : Json) : Prop where
  | flat (found : document.member? (Overrides.group ++ '.' :: name) = some v)
  | nested {inner : Json} (absent : document.member? (Overrides.group ++ '.' :: name) = none)
      (grouped : document.member? Overrides.group = some inner) (found : inner.member? name = some v)

theorem given?_eq_some_iff {document v : Json} {name : Text} :
    Overrides.given? document name = some v ↔ Says document name v := by
  rw [Overrides.given?, Option.orElse_eq_orElse, Option.orElse_eq_or, Option.or_eq_some_iff, Option.bind_eq_some_iff]
  constructor
  · rintro (found | ⟨absent, inner, grouped, found⟩)
    · exact .flat found
    · exact .nested absent grouped found
  · rintro (found | ⟨absent, grouped, found⟩)
    · exact .inl found
    · exact .inr ⟨absent, _, grouped, found⟩

namespace Setting

variable {α : Type} (f : Setting α)

/-- A layer gives a setting a value: it says something that is valid for it. -/
inductive Gives : Layer → α → Prop where
  | file {document v : Json} {a : α} (said : Says document f.fileName v) (valid : f.kind.inFile v a) :
      Gives (.file document) a
  | environment {value? : Text → Option Text} {s : Text} {a : α}
      (set : value? (Overrides.variableStart ++ f.variableName) = some s)
      (valid : f.kind.inVariable s a) : Gives (.environment value?) a

/-- Two layers that say the same of a setting, whatever they say of others. -/
inductive Alike : Layer → Layer → Prop where
  | file {document other : Json} (same : ∀ v, Says document f.fileName v ↔ Says other f.fileName v) :
      Alike (.file document) (.file other)
  | environment {value? other? : Text → Option Text}
      (same : value? (Overrides.variableStart ++ f.variableName) = other? (Overrides.variableStart ++ f.variableName)) :
      Alike (.environment value?) (.environment other?)

/-- The value that the last of the layers that give one gives, or else the default. -/
inductive Last (layers : List Layer) : α → Prop where
  | given {before after : List Layer} {layer : Layer} {a : α} (split : layers = before ++ layer :: after)
      (gives : f.Gives layer a) (silent : ∀ later ∈ after, ∀ b, ¬f.Gives later b) : Last layers a
  | default (silent : ∀ layer ∈ layers, ∀ b, ¬f.Gives layer b) : Last layers (f.value {})

/-- The value that a layer gives. -/
def given? : Layer → Option α
  | .file document => (Overrides.given? document f.fileName).bind f.kind.ofFile?
  | .environment value? => (value? (Overrides.variableStart ++ f.variableName)).bind f.kind.ofVariable?

variable {f}

theorem given?_eq_some_iff_gives {layer : Layer} {a : α} : f.given? layer = some a ↔ f.Gives layer a := by
  cases layer with
  | file document =>
    rw [given?, Option.bind_eq_some_iff]
    constructor
    · rintro ⟨v, said, valid⟩
      exact .file (given?_eq_some_iff.1 said) (f.kind.ofFile?_iff.1 valid)
    · rintro (⟨said, valid⟩ | _)
      exact ⟨_, given?_eq_some_iff.2 said, f.kind.ofFile?_iff.2 valid⟩
  | environment value? =>
    rw [given?, Option.bind_eq_some_iff]
    constructor
    · rintro ⟨s, set, valid⟩
      exact .environment set (f.kind.ofVariable?_iff.1 valid)
    · rintro (_ | ⟨set, valid⟩)
      exact ⟨_, set, f.kind.ofVariable?_iff.2 valid⟩

theorem given?_eq_none_iff {layer : Layer} : f.given? layer = none ↔ ∀ a, ¬f.Gives layer a := by
  simp only [Option.eq_none_iff_forall_ne_some, ← given?_eq_some_iff_gives, ne_eq]

theorem Alike.given?_eq {layer other : Layer} (alike : f.Alike layer other) : f.given? layer = f.given? other := by
  cases alike with
  | @file document other same =>
    have told : Overrides.given? document f.fileName = Overrides.given? other f.fileName :=
      Option.ext fun v => by rw [given?_eq_some_iff, given?_eq_some_iff, same v]
    rw [given?, given?, told]
  | environment same => rw [given?, given?, same]

end Setting

/-! ### One layer -/

theorem clampHistoryLimit_eq {n : Nat} (within : 1 ≤ n ∧ n ≤ 20) : clampHistoryLimit n = n := by
  unfold clampHistoryLimit
  omega

theorem clampHistoryLimit_within (n : Nat) : 1 ≤ clampHistoryLimit n ∧ clampHistoryLimit n ≤ 20 := by
  unfold clampHistoryLimit
  omega

theorem clampHistoryLimit_getD {n : Nat} (given? : Option Nat) (within : 1 ≤ n ∧ n ≤ 20) :
    clampHistoryLimit ((given?.map clampHistoryLimit).getD n) = (given?.map clampHistoryLimit).getD n := by
  cases given? with
  | none => exact clampHistoryLimit_eq within
  | some given => exact clampHistoryLimit_eq (clampHistoryLimit_within given)

theorem clampHistoryLimit_getD_within {n : Nat} (given? : Option Nat) (within : 1 ≤ n ∧ n ≤ 20) :
    1 ≤ (given?.map clampHistoryLimit).getD n ∧ (given?.map clampHistoryLimit).getD n ≤ 20 := by
  rw [← clampHistoryLimit_getD given? within]
  exact clampHistoryLimit_within _

theorem orElse_eq_getD {α : Type} (given? s : Option α) : (given? <|> s) = (given?.map some).getD s := by
  cases given? <;> rfl

namespace Setting

/-- The value of a setting that is given among others. -/
def overriding {α : Type} : Setting α → Overrides → Option α
  | defaultApiVersion => Overrides.defaultApiVersion
  | historyEnabled => Overrides.historyEnabled
  | historyLimit => Overrides.historyLimit
  | requestTimeoutSeconds => Overrides.requestTimeoutSeconds
  | largeResponseKb => Overrides.largeResponseKb
  | renderedLineNumbers => Overrides.renderedLineNumbers
  | historyBodyKb => Overrides.historyBodyKb
  | historyDays => fun o => o.historyDays.map some
  | historySeconds => fun o => o.historySeconds.map some
  | lensDelayMs => Overrides.lensDelayMs
  | lensIdleSeconds => Overrides.lensIdleSeconds
  | lensCapacity => Overrides.lensCapacity
  | language => fun o => o.language.map some

variable {α : Type} {f : Setting α} {s : Settings}

theorem value_override (o : Overrides) : f.value (s.override o) = (f.overriding o).getD (f.value s) := by
  cases f
  case historyDays | historySeconds | language => exact orElse_eq_getD _ _
  all_goals rfl

theorem overriding_ofDocument (document : Json) :
    f.overriding (.ofDocument document) = f.given? (.file document) := by
  cases f
  case historyLimit | historyDays | historySeconds => exact Option.map_bind
  case language => exact (congrArg _ (Option.bind_assoc ..)).trans Option.map_bind
  all_goals rfl

theorem overriding_ofEnvironment (value? : Text → Option Text) :
    f.overriding (.ofEnvironment value?) = f.given? (.environment value?) := by
  cases f
  case defaultApiVersion => exact (Option.bind_fun_some _).symm
  case historyLimit | historyDays | historySeconds => exact (congrArg _ Option.bind_map).trans Option.map_bind
  case language => exact Option.map_bind
  all_goals exact Option.bind_map

/-- A setting takes the value that a layer gives it and keeps its own if there is none. -/
theorem value_put (layer : Layer) (within : 1 ≤ s.historyLimit ∧ s.historyLimit ≤ 20) :
    f.value (s.put layer) = (f.given? layer).getD (f.value s) := by
  cases layer with
  | file document => rw [put, value_override, overriding_ofDocument]
  | environment value? =>
    rw [← overriding_ofEnvironment, ← value_override]
    cases f
    case historyLimit => exact clampHistoryLimit_getD _ within
    all_goals rfl

theorem Last.append_silent {layers : List Layer} {layer : Layer} {a : α} (last : f.Last layers a)
    (silent : ∀ b, ¬f.Gives layer b) : f.Last (layers ++ [layer]) a := by
  cases last with
  | @given before after giving _ split gives silent' =>
    have split' : layers ++ [layer] = before ++ giving :: (after ++ [layer]) := by rw [split]; simp
    exact .given split' gives (by simpa [or_imp, forall_and] using ⟨silent', silent⟩)
  | default silent' => exact .default (by simpa [or_imp, forall_and] using ⟨silent', silent⟩)

end Setting

theorem historyLimit_put {s : Settings} (layer : Layer) (within : 1 ≤ s.historyLimit ∧ s.historyLimit ≤ 20) :
    1 ≤ (s.put layer).historyLimit ∧ (s.put layer).historyLimit ≤ 20 := by
  cases layer with
  | file document => exact clampHistoryLimit_getD_within _ within
  | environment value? => exact clampHistoryLimit_within _

/-! ### Any layers -/

theorem layered_append (layers : List Layer) (layer : Layer) :
    layered (layers ++ [layer]) = (layered layers).put layer :=
  List.foldl_append

theorem historyLimit_layered (layers : List Layer) :
    1 ≤ (layered layers).historyLimit ∧ (layered layers).historyLimit ≤ 20 := by
  induction layers using List.reverseRecOn with
  | nil => decide
  | append_singleton layers layer within =>
    rw [layered_append]
    exact historyLimit_put layer within

namespace Setting

variable {α : Type} {f : Setting α} {layers : List Layer}

variable (f layers) in
theorem last_layered : f.Last layers (f.value (layered layers)) := by
  induction layers using List.reverseRecOn with
  | nil => exact .default nofun
  | append_singleton layers layer last =>
    rw [layered_append, value_put layer (historyLimit_layered layers)]
    cases given : f.given? layer with
    | none => exact last.append_silent (given?_eq_none_iff.1 given)
    | some a => exact .given rfl (given?_eq_some_iff_gives.1 given) nofun

/-- Layers that give no value leave the one there is. -/
theorem foldl_given?_of_silent (silent : ∀ layer ∈ layers, ∀ b, ¬f.Gives layer b) (a : α) :
    (layers.map f.given?).foldl (fun a given => given.getD a) a = a := by
  induction layers with
  | nil => rfl
  | cons layer layers ih =>
    obtain ⟨silent, later⟩ := List.forall_mem_cons.1 silent
    rw [List.map_cons, List.foldl_cons, given?_eq_none_iff.2 silent]
    exact ih later

theorem Last.eq_foldl {a : α} (last : f.Last layers a) :
    a = (layers.map f.given?).foldl (fun a given => given.getD a) (f.value {}) := by
  cases last with
  | given split gives silent =>
    rw [split, List.map_append, List.map_cons, List.foldl_append, List.foldl_cons, given?_eq_some_iff_gives.2 gives]
    exact (foldl_given?_of_silent silent a).symm
  | default silent => exact (foldl_given?_of_silent silent _).symm

theorem value_layered_congr {others : List Layer} (alike : List.Forall₂ f.Alike layers others) :
    f.value (layered layers) = f.value (layered others) := by
  have given : layers.map f.given? = others.map f.given? := by
    induction alike with
    | nil => rfl
    | cons alike _ ih => rw [List.map_cons, List.map_cons, alike.given?_eq, ih]
  rw [(f.last_layered layers).eq_foldl, (f.last_layered others).eq_foldl, given]

end Setting

/-- Settings are what their thirteen values are. -/
theorem eq_of_values {s t : Settings} (same : ∀ {α : Type} (f : Setting α), f.value s = f.value t) : s = t := by
  cases s
  cases t
  rw [Settings.mk.injEq]
  exact ⟨same .defaultApiVersion, same .historyEnabled, same .historyLimit, same .requestTimeoutSeconds,
    same .largeResponseKb, same .renderedLineNumbers, same .historyBodyKb, same .historyDays, same .historySeconds,
    same .lensDelayMs, same .lensIdleSeconds, same .lensCapacity, same .language⟩

/-- What becomes of layers that are put over the defaults. -/
structure Layered (layers : List Layer) : Prop where
  /-- Every setting ends with the value of the last layer that gives it one, or else with its default. -/
  last : ∀ {α : Type} (f : Setting α), f.Last layers (f.value (layered layers))
  /-- There are no other settings of which this holds. -/
  only : ∀ {s : Settings}, (∀ {α : Type} (f : Setting α), f.Last layers (f.value s)) → s = layered layers
  /-- What layers say of other settings, right or wrong, does not change a setting. -/
  apart : ∀ {α : Type} (f : Setting α) {others : List Layer}, List.Forall₂ f.Alike layers others →
    f.value (layered layers) = f.value (layered others)
  limit : 1 ≤ (layered layers).historyLimit ∧ (layered layers).historyLimit ≤ 20

theorem layered_lasts (layers : List Layer) : Layered layers where
  last f := f.last_layered layers
  only lasts := eq_of_values fun f => (lasts f).eq_foldl.trans (f.last_layered layers).eq_foldl.symm
  apart _ _ alike := Setting.value_layered_congr alike
  limit := historyLimit_layered layers

end EndpointConsole.Settings
