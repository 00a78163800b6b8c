import EndpointConsole.Files
import EndpointConsole.Json.Commented
import EndpointConsole.Json.Printer
import EndpointConsole.Sorted
import EndpointConsole.Url

/-!
Launch settings of a project: its base URL and the environment variables it
starts with, both from the first profile that starts the project itself. What
cannot be read counts as absent. A base URL has a host that this machine
answers to: `localhost` or an IPv4 address that is not unspecified.
-/
namespace EndpointConsole.LaunchProfile

def settingsFolder : Text := "Properties".toList

def settingsFile : Text := "launchSettings.json".toList

/-- The launch settings file that belongs to a project file. -/
def settingsPath? (projectFile : Text) : Option Text :=
  (Path.parent? projectFile).map fun folder => Path.join (Path.join folder settingsFolder) settingsFile

/-- Whether a path names the launch settings of some project. -/
def isSettingsPath (path : Text) : Bool :=
  Path.fileName? path == some settingsFile && (Path.parent? path).bind Path.fileName? == some settingsFolder

/-- Whether a profile starts the project itself. -/
def startsProject (profile : Json) : Bool :=
  (profile.member? "commandName".toList).bind Json.text? == some "Project".toList

/-- The first profile of a launch settings document that starts the project. -/
def ofDocument? (document : Json) : Option Json := do
  let profiles ← document.member? "profiles".toList
  let members ← profiles.members?
  (members.map (·.2)).find? startsProject

/-- The profile of a project file. -/
def ofProject? (fs : Files) (projectFile : Text) : Option Json := do
  let path ← settingsPath? projectFile
  let content ← (fs.readText path).toOption
  let document ← Json.parseCommented? content
  ofDocument? document

def localhost : Text := "localhost".toList

/-- The entry of a list between semicolons that is used: the first plain one, or else the first
    secure one. -/
def chosenUrl? (entries : Text) : Option Text :=
  let entries := (Text.splitOn ';' entries).map Text.trim
  entries.find? (Text.startsWith "http://".toList) <|> entries.find? (Text.startsWith "https://".toList)

/-- A host that stands for every address is not a host of the URL Standard. -/
def nameWildcard (authority : Text) : Text :=
  match authority with
  | [] => []
  | c :: rest => if c = '*' ∨ c = '+' then localhost ++ rest else authority

/-- Whether a host is reached from this machine as it is written. -/
def isKept : Url.Host → Bool
  | .domain name => name == localhost
  | .ipv4 address => address != 0
  | .ipv6 => false

/-- The URL of an entry with a host that this machine answers to, without slashes at its end. -/
def localUrl? (toAscii? : Text → Option Text) (entry : Text) : Option Text := do
  let (scheme, rest) ← Text.cutAround? "://".toList entry
  let authority := Text.before '/' rest
  let url ← Url.parse? toAscii? (scheme ++ "://".toList ++ nameWildcard authority ++ rest.drop authority.length)
  let url := if isKept url.host then url else { url with host := .domain localhost }
  pure (Text.dropEndWhile (· == '/') url.text)

/-- The base URL that a list of application URLs gives, with domains brought into ASCII in a given way. -/
def chooseUrlBy? (toAscii? : Text → Option Text) (entries : Text) : Option Text :=
  (chosenUrl? entries).bind (localUrl? toAscii?)

/-- The base URL that a list of application URLs gives. -/
def chooseUrl? (entries : Text) : Option Text := chooseUrlBy? Url.toAscii? entries

def baseUrlOf? (profile : Json) : Option Text := do
  let urls ← profile.member? "applicationUrl".toList
  let urls ← urls.text?
  chooseUrl? urls

/-- The base URL of a project file. -/
def baseUrl? (fs : Files) (projectFile : Text) : Option Text := (ofProject? fs projectFile).bind baseUrlOf?

/-- The value of a variable; null is none, and what is no text is written as JSON. -/
def variableText? : Json → Option Text
  | .null => none
  | .string s => some s
  | v => some v.compact

def environmentOf (profile : Json) : List (Text × Text) :=
  let members := ((profile.member? "environmentVariables".toList).bind Json.members?).getD []
  Sorted.ofList (members.filterMap fun (name, v) =>
    if name.isEmpty then none else (variableText? v).map (name, ·))

/-- The environment variables of a project file, by name. -/
def environment (fs : Files) (projectFile : Text) : List (Text × Text) :=
  match ofProject? fs projectFile with
  | some profile => environmentOf profile
  | none => []

end EndpointConsole.LaunchProfile
