import EndpointConsole.Endpoint
import EndpointConsole.Text.Search

/-!
Attributes on a line: a route (`routeAttribute?`), an HTTP verb with or without
a route of its own (`verbAttribute?`), and an API version
(`apiVersionAttribute?`). Each takes the leftmost one, wherever on the line it is.
-/
namespace EndpointConsole.Source

/-- Reads white space, an opening parenthesis, white space and a string literal: its content and
    what follows it. -/
def readStringArgument? (s : Text) : Option (Text × Text) := do
  let rest ← Text.expect? '(' s
  let rest ← Text.expect? '"' rest
  Text.cutAt? '"' rest

/-- Reads a route attribute that begins here; its template is not empty and a comma or the closing
    parenthesis follows. -/
def readRoute? (left : Option Char) (s : Text) : Option Text :=
  if left.any Text.isWord then none
  else do
    let rest ← Text.stripStart? "Route".toList s
    let (template, rest) ← readStringArgument? rest
    let next := (Text.trimStart rest).head?
    if template ≠ [] ∧ (next = some ',' ∨ next = some ')') then pure template else none

/-- The template of the first route attribute on a line. -/
def routeAttribute? (line : Text) : Option Text := Text.find? readRoute? line

/-- An HTTP verb attribute, and its route if it gives one that is not empty. -/
structure Verb where
  method : HttpMethod
  route : Option Text
  deriving Repr, DecidableEq

def verbNames : List (Text × HttpMethod) :=
  [("HttpGet".toList, .get), ("HttpPost".toList, .post), ("HttpPut".toList, .put), ("HttpDelete".toList, .delete)]

/-- Reads the name of a verb attribute, which ends where the word ends. -/
def readVerbName? (s : Text) : List (Text × HttpMethod) → Option (HttpMethod × Text)
  | [] => none
  | (name, method) :: more =>
    match Text.stripStart? name s with
    | some rest => if rest.head?.any Text.isWord then none else some (method, rest)
    | none => readVerbName? s more

/-- Reads a verb attribute that begins here. -/
def readVerb? (left : Option Char) (s : Text) : Option Verb :=
  if left.any Text.isWord then none
  else do
    let (method, rest) ← readVerbName? s verbNames
    let route := ((readStringArgument? rest).map (·.1)).filter fun route => !route.isEmpty
    pure ⟨method, route⟩

/-- The first verb attribute on a line. -/
def verbAttribute? (line : Text) : Option Verb := Text.find? readVerb? line

/-- Whether a character opens or closes the version literal. -/
def isVersionQuote (c : Char) : Bool := c.toNat == 0x22 || c.toNat == 0x27

/-- Reads a version attribute that begins here with its bracket: a literal of digits and points, in
    quotes of either kind. The name is read in any case. -/
def readApiVersion? (s : Text) : Option Text := do
  let rest ← Text.stripStart? ['['] s
  let rest ← Text.stripFolded? "apiversion".toList (Text.trimStart rest)
  let rest ← Text.expect? '(' rest
  match Text.trimStart rest with
  | [] => none
  | quote :: rest =>
    let version := rest.takeWhile fun c => Text.isDecimal c || c == '.'
    let next := (rest.drop version.length).head?
    if isVersionQuote quote ∧ version ≠ [] ∧ next.any isVersionQuote then pure version else none

/-- The version of the first version attribute on a line. -/
def apiVersionAttribute? (line : Text) : Option Text := Text.find? (fun _ s => readApiVersion? s) line

end EndpointConsole.Source
