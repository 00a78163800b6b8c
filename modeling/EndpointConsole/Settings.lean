import EndpointConsole.Files
import EndpointConsole.Json.Commented
import EndpointConsole.Message
import EndpointConsole.Number.Checked
import EndpointConsole.Number.Word

/-!
The settings of the console. They start from defaults, over which layers are put
one after the other: settings files and environment variables. A layer gives a
value to some of the settings (`Overrides`); what it says wrongly it does not
give. Times and sizes follow from the settings (`requestSeconds`, `historySeconds?`,
`historyBodyBytes?` and others).
-/
namespace EndpointConsole

structure Settings where
  /-- Fills version placeholders when no attribute does; empty, it leaves them. -/
  defaultApiVersion : Text := "1.0".toList
  historyEnabled : Bool := true
  /-- The requests kept for an endpoint. -/
  historyLimit : Nat := 10
  requestTimeoutSeconds : Nat := 30
  largeResponseKb : Nat := 512
  renderedLineNumbers : Nat := 2000
  /-- Longer bodies are not kept; zero is no limit. -/
  historyBodyKb : Nat := 64
  historyDays : Option Nat := none
  /-- Counts only while there are no days. -/
  historySeconds : Option Nat := none
  lensDelayMs : Nat := 300
  /-- The idle time after which lenses expire; zero is never. -/
  lensIdleSeconds : Nat := 300
  /-- The documents whose lenses are kept; zero is no limit. -/
  lensCapacity : Nat := 100
  language : Option Text := none
  deriving Repr, DecidableEq, Inhabited

/-- The settings that a layer gives. -/
structure Overrides where
  defaultApiVersion : Option Text := none
  historyEnabled : Option Bool := none
  historyLimit : Option Nat := none
  requestTimeoutSeconds : Option Nat := none
  largeResponseKb : Option Nat := none
  renderedLineNumbers : Option Nat := none
  historyBodyKb : Option Nat := none
  historyDays : Option Nat := none
  historySeconds : Option Nat := none
  lensDelayMs : Option Nat := none
  lensIdleSeconds : Option Nat := none
  lensCapacity : Option Nat := none
  language : Option Text := none
  deriving Repr, DecidableEq

namespace Settings

/-- Puts a layer over the settings. -/
def override (s : Settings) (o : Overrides) : Settings where
  defaultApiVersion := o.defaultApiVersion.getD s.defaultApiVersion
  historyEnabled := o.historyEnabled.getD s.historyEnabled
  historyLimit := o.historyLimit.getD s.historyLimit
  requestTimeoutSeconds := o.requestTimeoutSeconds.getD s.requestTimeoutSeconds
  largeResponseKb := o.largeResponseKb.getD s.largeResponseKb
  renderedLineNumbers := o.renderedLineNumbers.getD s.renderedLineNumbers
  historyBodyKb := o.historyBodyKb.getD s.historyBodyKb
  historyDays := o.historyDays <|> s.historyDays
  historySeconds := o.historySeconds <|> s.historySeconds
  lensDelayMs := o.lensDelayMs.getD s.lensDelayMs
  lensIdleSeconds := o.lensIdleSeconds.getD s.lensIdleSeconds
  lensCapacity := o.lensCapacity.getD s.lensCapacity
  language := o.language <|> s.language

end Settings

/-- The number of kept requests lies between one and twenty. -/
def clampHistoryLimit (n : Nat) : Nat := min (max n 1) 20

/-- A language that is not blank, without white space around it. -/
def languageOf? (s : Text) : Option Text := if (Text.trim s).isEmpty then none else some (Text.trim s)

/-- A natural number as a settings file gives it: a fraction is cut off, and what is too large is
    the largest word. -/
def Json.amount? : Json → Option Nat
  | .number (.int n) => if 0 ≤ n then some n.toNat else none
  | .number (.real x) => if x.negative ∧ ¬x.isZero then none else some (saturatedWord x.floor)
  | _ => none

namespace Overrides

def group : Text := "csharpApiConsole".toList

/-- What a settings document says under a name: by its full name, even if wrongly, or else within
    the group. -/
def given? (document : Json) (name : Text) : Option Json :=
  document.member? (group ++ '.' :: name) <|> (document.member? group).bind (Json.member? name)

/-- The layer of a settings document. -/
def ofDocument (document : Json) : Overrides where
  defaultApiVersion := (given? document "defaultApiVersion".toList).bind Json.text?
  historyEnabled := (given? document "requestHistoryEnabled".toList).bind Json.bool?
  historyLimit := ((given? document "requestHistoryLimit".toList).bind Json.amount?).map clampHistoryLimit
  requestTimeoutSeconds := (given? document "requestTimeoutSeconds".toList).bind Json.amount?
  largeResponseKb := (given? document "largeResponseThresholdKb".toList).bind Json.amount?
  renderedLineNumbers := (given? document "maxRenderedLineNumbers".toList).bind Json.amount?
  historyBodyKb := (given? document "historyMaxBodySizeKb".toList).bind Json.amount?
  historyDays := (given? document "historyTtlDays".toList).bind Json.amount?
  historySeconds := (given? document "historyTtlSeconds".toList).bind Json.amount?
  lensDelayMs := (given? document "codeLensDebounceDelay".toList).bind Json.amount?
  lensIdleSeconds := (given? document "codeLensCacheTtlSeconds".toList).bind Json.amount?
  lensCapacity := (given? document "codeLensCacheMaxEntries".toList).bind Json.amount?
  language := ((given? document "language".toList).bind Json.text?).bind languageOf?

def bool? (s : Text) : Option Bool :=
  if s = "true".toList then some true else if s = "false".toList then some false else none

/-- The beginning of the names of variables. -/
def variableStart : Text := "API_CONSOLE_".toList

/-- The names of variables, without their beginning. -/
def variableNames : List Text :=
  ["DEFAULT_API_VERSION", "REQUEST_HISTORY_ENABLED", "REQUEST_HISTORY_LIMIT", "REQUEST_TIMEOUT_SECS",
    "LARGE_RESPONSE_THRESHOLD_KB", "MAX_RENDERED_LINE_NUMBERS", "HISTORY_MAX_BODY_SIZE_KB", "HISTORY_TTL_DAYS",
    "HISTORY_TTL_SECONDS", "CODELENS_DEBOUNCE_MS", "CODELENS_CACHE_TTL_SECS", "CODELENS_CACHE_MAX_ENTRIES",
    "LANGUAGE"].map String.toList

/-- The layer of environment variables. Numbers and flags may have white space around them. -/
def ofEnvironment (value? : Text → Option Text) : Overrides :=
  let named? (name : String) : Option Text := value? (variableStart ++ name.toList)
  let trimmed? (name : String) : Option Text := (named? name).map Text.trim
  { defaultApiVersion := named? "DEFAULT_API_VERSION"
    historyEnabled := (trimmed? "REQUEST_HISTORY_ENABLED").bind bool?
    historyLimit := ((trimmed? "REQUEST_HISTORY_LIMIT").bind wordOf?).map clampHistoryLimit
    requestTimeoutSeconds := (trimmed? "REQUEST_TIMEOUT_SECS").bind wordOf?
    largeResponseKb := (trimmed? "LARGE_RESPONSE_THRESHOLD_KB").bind wordOf?
    renderedLineNumbers := (trimmed? "MAX_RENDERED_LINE_NUMBERS").bind wordOf?
    historyBodyKb := (trimmed? "HISTORY_MAX_BODY_SIZE_KB").bind wordOf?
    historyDays := (trimmed? "HISTORY_TTL_DAYS").bind wordOf?
    historySeconds := (trimmed? "HISTORY_TTL_SECONDS").bind wordOf?
    lensDelayMs := (trimmed? "CODELENS_DEBOUNCE_MS").bind wordOf?
    lensIdleSeconds := (trimmed? "CODELENS_CACHE_TTL_SECS").bind wordOf?
    lensCapacity := (trimmed? "CODELENS_CACHE_MAX_ENTRIES").bind wordOf?
    language := (named? "LANGUAGE").bind languageOf? }

end Overrides

namespace Settings

/-- The settings file of a workspace. -/
def filePath (workspace : Text) : Text := Path.join (Path.join workspace ".vscode".toList) "settings.json".toList

/-- The settings document of a workspace, if there is one that can be read. -/
def document? (fs : Files) (workspace : Text) : Option Json :=
  match fs.readText (filePath workspace) with
  | .ok s => Json.parseCommented? s
  | .error _ => none

/-- What is put over the settings. -/
inductive Layer where
  | file (document : Json)
  /-- Variables by their whole names. -/
  | environment (value? : Text → Option Text)

/-- Puts a layer over the settings. The environment brings the number of kept requests within its
    bounds even if it says nothing of it. -/
def put (s : Settings) : Layer → Settings
  | .file document => s.override (.ofDocument document)
  | .environment value? =>
    let s := s.override (.ofEnvironment value?)
    { s with historyLimit := clampHistoryLimit s.historyLimit }

/-- The defaults with some layers put over them, the first one lowest. -/
def layered (layers : List Layer) : Settings := layers.foldl put {}

/-- The settings of a workspace: its settings file, then the environment. -/
def load (fs : Files) (environment : Text → Option Text) (workspace : Text) : Settings :=
  layered ((document? fs workspace).toList.map .file ++ [.environment environment])

/-- A request may take one second at least. -/
def requestSeconds (s : Settings) : Nat := max s.requestTimeoutSeconds 1

/-- The idle time of lenses, unless they never expire. -/
def lensSeconds? (s : Settings) : Option Nat := if 0 < s.lensIdleSeconds then some s.lensIdleSeconds else none

def secondsPerDay : Nat := 86400

/-- How long requests are kept, unless for ever. -/
def historySeconds? (s : Settings) : Option Nat :=
  let seconds :=
    match s.historyDays with
    | some days => saturatedWord (days * secondsPerDay)
    | none => s.historySeconds.getD 0
  if 0 < seconds then some seconds else none

/-- The longest body that is kept, unless there is no limit. -/
def historyBodyBytes? (s : Settings) : Checked (Option Nat) :=
  if 0 < s.historyBodyKb then (checkedWord (s.historyBodyKb * 1024)).map some else .ok none

def largeResponseBytes (s : Settings) : Nat := saturatedWord (s.largeResponseKb * 1024)

/-- The language of the user interface: the setting, or else the locale of the environment. -/
def uiLanguage (s : Settings) (locale : Option Text) : Language :=
  Language.ofTag (s.language.getD (locale.getD []))

end Settings

end EndpointConsole
