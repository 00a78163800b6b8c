import EndpointConsole.Number.Word
import EndpointConsole.Watch

/-!
The command line. A command comes first and its options follow in any order, each
at most once; an option has its value behind an equals sign or in the next
argument. `Command.parse` reads the arguments from left to right, so what it
meets first decides whether they are wrong or ask for information.
-/
namespace EndpointConsole

inductive Command where
  /-- Lists every endpoint of a workspace. -/
  | scan (workspace : Text) (everything : Bool)
  /-- Classifies the line of a file, counted from one. -/
  | detect (file : Text) (line : Nat) (workspace : Text)
  /-- Tells the base URL of a file's project. -/
  | baseUrl (file : Text)
  /-- Serves a host on a workspace. -/
  | serve (workspace : Text) (watch : WatchMode) (keepsState : Bool)
  deriving Repr, DecidableEq

namespace Command

/-- Why there is no command to run. -/
inductive Stop where
  | misused
  | help
  | version
  deriving Repr, DecidableEq

inductive OptionKind where
  /-- Stands alone. -/
  | flag
  /-- A path that is not empty. -/
  | path
  /-- A machine word. -/
  | word
  | watchMode
  deriving Repr, DecidableEq

def OptionKind.accepts : OptionKind → Text → Bool
  | .flag, _ => false
  | .path, s => !s.isEmpty
  | .word, s => (wordOf? s).isSome
  | .watchMode, s => (Json.lookup? s WatchMode.names).isSome

/-- The options of a command by their names. -/
abbrev OptionKinds := List (Text × OptionKind)

/-- The options that were given, with the values of those that take one. -/
abbrev Options := List (Text × Text)

/-- Whether an argument looks like an option and so is not a value. -/
def isDashed (arg : Text) : Bool := arg.head? = some '-' && 1 < arg.length

/-- Adds an option with its value, which must be right and given once. -/
def add (given : Options) (name : Text) (kind : OptionKind) (value : Text) : Except Stop Options :=
  if (Json.lookup? name given).isSome || !kind.accepts value then .error .misused
  else .ok (given ++ [(name, value)])

def addFlag (given : Options) (name : Text) : Except Stop Options :=
  if (Json.lookup? name given).isSome then .error .misused else .ok (given ++ [(name, [])])

/-- The name of an option that begins with two dashes, and the value behind its equals sign. -/
def splitValue (s : Text) : Text × Option Text :=
  match Text.cutAt? '=' s with
  | none => (s, none)
  | some (name, value) => (name, some value)

/-- What an argument is that takes no other one for its value. -/
inductive Argument where
  | separator
  | long (name : Text) (value : Option Text)
  | short (letter : Char)
  | plain
  deriving Repr, DecidableEq

def Argument.ofText (arg : Text) : Argument :=
  match Text.stripStart? "--".toList arg with
  | some [] => .separator
  | some rest => .long (splitValue rest).1 (splitValue rest).2
  | none =>
    match arg with
    | '-' :: letter :: _ => .short letter
    | _ => .plain

/-- Reads options after those that were given. Nothing may follow a separator. -/
def readOptions (kinds : OptionKinds) (given : Options) : List Text → Except Stop Options
  | [] => .ok given
  | arg :: rest =>
    match Argument.ofText arg with
    | .separator => if rest.isEmpty then .ok given else .error .misused
    | .short letter => .error (if letter = 'h' then .help else .misused)
    | .plain => .error .misused
    | .long name value =>
      if name = "help".toList ∧ value = none then .error .help
      else
        match Json.lookup? name kinds, value with
        | none, _ => .error .misused
        | some .flag, some _ => .error .misused
        | some .flag, none => (addFlag given name).bind fun given => readOptions kinds given rest
        | some kind, some value => (add given name kind value).bind fun given => readOptions kinds given rest
        | some kind, none =>
          match rest with
          | [] => .error .misused
          | value :: rest =>
            if isDashed value then .error .misused
            else (add given name kind value).bind fun given => readOptions kinds given rest

def workspaceName : Text := "workspace".toList

def fileName : Text := "file".toList

/-- A value that must be given. -/
def needed (given : Options) (name : Text) : Except Stop Text :=
  match Json.lookup? name given with
  | some value => .ok value
  | none => .error .misused

/-- The workspace, which is the working folder unless another is given. -/
def workspaceOf (given : Options) : Text := (Json.lookup? workspaceName given).getD ['.']

def has (given : Options) (name : String) : Bool := (Json.lookup? name.toList given).isSome

def parseScan (args : List Text) : Except Stop Command := do
  let given ← readOptions [(workspaceName, .path), ("no-ignore".toList, .flag)] [] args
  pure (.scan (workspaceOf given) (has given "no-ignore"))

def parseDetect (args : List Text) : Except Stop Command := do
  let given ← readOptions [(fileName, .path), ("line".toList, .word), (workspaceName, .path)] [] args
  let file ← needed given fileName
  let line ← needed given "line".toList
  pure (.detect file ((wordOf? line).getD 0) (workspaceOf given))

def parseBaseUrl (args : List Text) : Except Stop Command := do
  let given ← readOptions [(fileName, .path)] [] args
  let file ← needed given fileName
  pure (.baseUrl file)

def parseServe (args : List Text) : Except Stop Command := do
  let given ← readOptions
    [(workspaceName, .path), ("watch".toList, .watchMode), ("no-state".toList, .flag)] [] args
  let mode := (Json.lookup? "watch".toList given).bind fun value => Json.lookup? value WatchMode.names
  pure (.serve (workspaceOf given) (mode.getD .auto) (!has given "no-state"))

/-- The commands by their names. -/
def parsers : List (Text × (List Text → Except Stop Command)) :=
  [("scan".toList, parseScan), ("detect".toList, parseDetect), ("base-url".toList, parseBaseUrl),
    ("serve".toList, parseServe)]

/-- Whether help is there for what is asked about. -/
def helpFor : List Text → Stop
  | [] => .help
  | [topic] => if topic = "help".toList ∨ (Json.lookup? topic parsers).isSome then .help else .misused
  | _ => .misused

/-- The command that some arguments give. -/
def parse : List Text → Except Stop Command
  | [] => .error .misused
  | arg :: rest =>
    match Json.lookup? arg parsers with
    | some parser => parser rest
    | none =>
      if arg = "help".toList then .error (helpFor rest)
      else
        match Argument.ofText arg with
        | .long name none =>
          .error (if name = "version".toList then .version else if name = "help".toList then .help else .misused)
        | .short letter => .error (if letter = 'V' then .version else if letter = 'h' then .help else .misused)
        | _ => .error .misused

end Command

end EndpointConsole
