import EndpointConsole.History.Item
import EndpointConsole.Json.Printer
import EndpointConsole.Json.Written
import EndpointConsole.Text.Search

/-!
Masking of credentials before a request is kept. In a query the values of four
keys are masked; in a JSON body the values of all keys that contain `token`; in
any other body what follows such a name and a colon or an equals sign. A body
that has nothing to mask stays as it is written.
-/
namespace EndpointConsole.History

def maskText : Text := "***".toList

def sensitiveKeys : List Text :=
  ["authorization".toList, "cookie".toList, "set-cookie".toList, "token".toList]

def isSensitiveKey (key : Text) : Bool := sensitiveKeys.contains (Text.asciiLower (Text.trim key))

/-- Masks the value of one pair of a query, whose key is taken as it is written. -/
def maskPair (pair : Text) : Text :=
  let key := Text.before '=' pair
  if isSensitiveKey key then key ++ '=' :: maskText else pair

def maskPairs (s : Text) : Text := Text.joinWith ['&'] ((Text.splitOn '&' s).map maskPair)

/-- Masks a query string, which may begin with a question mark. -/
def maskQuery (query : Text) : Text :=
  match Text.stripStart? ['?'] query with
  | some rest => '?' :: maskPairs rest
  | none => maskPairs query

def tokenWord : Text := "token".toList

def isTokenKey (key : Text) : Bool := Text.contains tokenWord (Text.asciiLower key)

mutual

/-- A value with the values of all token keys masked. -/
def maskValue : Json → Json
  | .array items => .array (maskItems items)
  | .object members => .object (maskMembers members)
  | .null => .null
  | .bool b => .bool b
  | .number n => .number n
  | .string s => .string s

def maskItems : List Json → List Json
  | [] => []
  | v :: rest => maskValue v :: maskItems rest

def maskMembers : List (Text × Json) → List (Text × Json)
  | [] => []
  | (key, v) :: rest =>
    (key, if isTokenKey key then .string maskText else maskValue v) :: maskMembers rest

end

mutual

/-- Whether a token key stands anywhere in a value. -/
def hasTokenKey : Json → Bool
  | .array items => anyTokenKey items
  | .object members => anyTokenMember members
  | _ => false

def anyTokenKey : List Json → Bool
  | [] => false
  | v :: rest => hasTokenKey v || anyTokenKey rest

def anyTokenMember : List (Text × Json) → Bool
  | [] => false
  | (key, v) :: rest => isTokenKey key || hasTokenKey v || anyTokenMember rest

end

/-- Masks a JSON body. It is written on one line unless it was on several. -/
def maskDocument (body : Text) (v : Json) : Text :=
  if hasTokenKey v then
    if '\n' ∈ body then (maskValue v).pretty else (maskValue v).compact
  else body

/-- A character of a name. -/
def isNameChar (c : Char) : Bool := Text.isWord c || c == '-'

/-- Whether `token` stands somewhere in a name, in any case. -/
def namesToken : Text → Bool
  | [] => false
  | c :: rest => (Text.stripFolded? tokenWord (c :: rest)).isSome || namesToken rest

/-- Takes a quote if there is one. -/
def takeQuote : Text → Text × Text
  | [] => ([], [])
  | c :: rest => if c = '"' then (['"'], rest) else ([], c :: rest)

/-- Takes white space. -/
def takeBlanks (s : Text) : Text × Text := (s.takeWhile Text.isBlank, s.dropWhile Text.isBlank)

/-- A character of a value without quotes. -/
def isValueChar (c : Char) : Bool := !(c == '&' || c == ',' || c == ';' || Text.isBlank c)

/-- Passes over a value without quotes. -/
def skipBare? (s : Text) : Option Text :=
  if (s.takeWhile isValueChar).isEmpty then none else some (s.dropWhile isValueChar)

/-- Passes over a value: what stands between quotes, or else a run of value characters. -/
def skipValue? (s : Text) : Option Text :=
  match s with
  | [] => none
  | c :: rest =>
    if c = '"' then
      match Text.cutAt? '"' rest with
      | some (_, after) => some after
      | none => skipBare? s
    else skipBare? s

/-- Reads a pair whose name contains `token`: what comes before the value, and the text after it. -/
def readTokenPair? (s : Text) : Option (Text × Text) :=
  let (quote, rest) := takeQuote s
  let name := rest.takeWhile isNameChar
  if !namesToken name then none
  else
    let (endQuote, rest) := takeQuote (rest.dropWhile isNameChar)
    let (blanks, rest) := takeBlanks rest
    match rest with
    | [] => none
    | c :: rest =>
      if c = ':' ∨ c = '=' then
        let (moreBlanks, rest) := takeBlanks rest
        (skipValue? rest).map fun after => (quote ++ name ++ endQuote ++ blanks ++ c :: moreBlanks, after)
      else none

/-- Masks the pairs in a text. -/
def maskPlain (body : Text) : Text := Text.fill (· ++ maskText) (Text.pieces readTokenPair? body)

def maskBody (body : Text) : Text :=
  if (Text.trim body).isEmpty then body
  else
    match Json.parse? body with
    | some v => maskDocument body v
    | none => maskPlain body

/-- An item with its credentials masked; a body that is longer than allowed after that is left
    empty. -/
def Item.masked (i : Item) (limit : Option Nat) : Item :=
  let body := maskBody i.body
  { i with
    query := maskQuery i.query
    body := if limit.any (· < Text.byteLength body) then [] else body }

end EndpointConsole.History
