import EndpointConsole.Json
import EndpointConsole.Url.Host

/-!
Web URLs by the URL Standard, for the schemes `http` and `https`: user
information, host, port, path, query and fragment, each normalised and
percent-encoded by its own set of characters (`Url.parse?`, `Url.text`).
-/
namespace EndpointConsole

structure Url where
  scheme : Text
  username : Text
  password : Text
  host : Url.Host
  /-- The port unless it is the scheme's own. -/
  port : Option Nat
  path : List Text
  query : Option Text
  fragment : Option Text
  deriving Repr

namespace Url

def isControl (c : Char) : Bool := c.toNat < 0x20 || 0x7F ≤ c.toNat

def inFragmentSet (c : Char) : Bool := isControl c || " \"<>".toList.contains c || c.toNat == 0x60

def inPathSet (c : Char) : Bool := inFragmentSet c || c == '#' || c == '?' || c == '\x7b' || c == '\x7d'

def inUserSet (c : Char) : Bool := inPathSet c || "/:;=@[\\]^|".toList.contains c

def inQuerySet (c : Char) : Bool := isControl c || " \"#<>".toList.contains c || c.toNat == 0x27

/-- Writes the characters of a set as `%XX`. -/
def encode (inSet : Char → Bool) (s : Text) : Text :=
  s.flatMap fun c => if inSet c then (String.utf8EncodeChar c).flatMap fun b => '%' :: Hex.upperByte b else [c]

/-- A forward or a backward slash. -/
def isSlash (c : Char) : Bool := c == '/' || c == '\\'

/-- Whether a character ends the part that names user, host and port. -/
def endsAuthority (c : Char) : Bool := isSlash c || c == '?' || c == '#'

def defaultPort (scheme : Text) : Nat := if scheme = "https".toList then 443 else 80

/-- Cuts at the last at sign. -/
def splitUser (authority : Text) : Text × Text :=
  match Text.cutAt? '@' authority.reverse with
  | none => ([], authority)
  | some (after, before) => (before.reverse, after.reverse)

/-- Cuts off the host, which ends at a colon outside brackets. -/
def splitHost (bracketed : Bool) : Text → Text × Option Text
  | [] => ([], none)
  | c :: rest =>
    if c = ':' ∧ !bracketed then ([], some rest)
    else
      let (host, port) := splitHost (if c = '[' then true else if c = ']' then false else bracketed) rest
      (c :: host, port)

/-- A port of digits up to 65535; no digits are no port. -/
def port? (scheme : Text) : Option Text → Option (Option Nat)
  | none => some none
  | some digits =>
    if digits.isEmpty then some none
    else if digits.all Char.isDigit then
      match digitsValue? 10 0 digits with
      | none => none
      | some n => if 65535 < n then none else some (if n = defaultPort scheme then none else some n)
    else none

/-- Whether a segment is a dot, plain or encoded. -/
def isDot (segment : Text) : Bool := Text.asciiLower segment == ".".toList || Text.asciiLower segment == "%2e".toList

/-- Whether a segment is two dots, plain or encoded. -/
def isDoubleDot (segment : Text) : Bool :=
  ["..".toList, ".%2e".toList, "%2e.".toList, "%2e%2e".toList].contains (Text.asciiLower segment)

/-- The segments of a path without dots, where `done` holds the finished ones backwards. A dot at
    the end leaves an empty segment. -/
def resolve (done : List Text) : List Text → List Text
  | [] => done.reverse
  | segment :: rest =>
    if isDoubleDot segment then resolve (if rest.isEmpty then [] :: done.drop 1 else done.drop 1) rest
    else if isDot segment then resolve (if rest.isEmpty then [] :: done else done) rest
    else resolve (segment :: done) rest

/-- The path before query and fragment, after its first slash. -/
def pathOf (s : Text) : List Text :=
  resolve [] ((Text.splitOn '/' (s.map fun c => if c = '\\' then '/' else c)).map (encode inPathSet))

def fragmentOf (s : Text) : Text × Option Text :=
  match Text.cutAt? '#' s with
  | none => (s, none)
  | some (before, fragment) => (before, some (encode inFragmentSet fragment))

def queryOf (s : Text) : Text × Option Text :=
  match Text.cutAt? '?' s with
  | none => (s, none)
  | some (before, query) => (before, some (encode inQuerySet query))

/-- Drops control characters and spaces at the ends, and tabs and line ends everywhere. -/
def clean (s : Text) : Text :=
  (Text.dropEndWhile (·.toNat ≤ 0x20) (s.dropWhile (·.toNat ≤ 0x20))).filter fun c =>
    c ≠ '\t' ∧ c ≠ '\n' ∧ c ≠ '\r'

/-- Reads what follows the scheme and its colon. -/
def afterScheme? (toAscii? : Text → Option Text) (scheme rest : Text) : Option Url := do
  let rest := rest.dropWhile isSlash
  let authority := rest.takeWhile fun c => !endsAuthority c
  let rest := rest.drop authority.length
  let (user, hostAndPort) := splitUser authority
  let (hostText, portText) := splitHost false hostAndPort
  let host ← host? toAscii? hostText
  let port ← port? scheme portText
  let (username, password) :=
    match Text.cutAt? ':' user with
    | none => (user, [])
    | some (name, secret) => (name, secret)
  let (rest, fragment) := fragmentOf rest
  let (path, query) := queryOf rest
  pure {
    scheme
    username := encode inUserSet username
    password := encode inUserSet password
    host
    port
    path := pathOf (path.drop 1)
    query
    fragment }

/-- Reads an absolute web URL. -/
def parse? (toAscii? : Text → Option Text) (s : Text) : Option Url :=
  let s := clean s
  match Text.stripStart? "https:".toList s, Text.stripStart? "http:".toList s with
  | some rest, _ => afterScheme? toAscii? "https".toList rest
  | none, some rest => afterScheme? toAscii? "http".toList rest
  | none, none => none

def hostText : Host → Text
  | .domain name => name
  | .ipv4 address => ipv4Text address
  | .ipv6 => []

def userText (u : Url) : Text :=
  if u.username.isEmpty && u.password.isEmpty then []
  else u.username ++ (if u.password.isEmpty then [] else ':' :: u.password) ++ ['@']

/-- The URL as it is written. -/
def text (u : Url) : Text :=
  u.scheme ++ "://".toList ++ userText u ++ hostText u.host ++
    (match u.port with
      | none => []
      | some n => ':' :: Nat.toDigits 10 n) ++
    '/' :: Text.joinWith ['/'] u.path ++
    (match u.query with
      | none => []
      | some q => '?' :: q) ++
    (match u.fragment with
      | none => []
      | some f => '#' :: f)

end Url

end EndpointConsole
