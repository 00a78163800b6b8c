import EndpointConsole.Encoding.Percent
import EndpointConsole.Route.Placeholder

/-!
URLs of requests put together from a base URL, a route and query entries. Each
placeholder of the route takes the first entry of its name that is still there,
in any ASCII case; the entries that are left make up the query.
-/
namespace EndpointConsole.Request

structure Entry where
  key : Text
  value : Text
  deriving Repr, DecidableEq, Inhabited

/-- The entries of a query string, which may begin with a question mark. -/
def parseQuery (s : Text) : List Entry :=
  let s := Text.trim s
  (Form.parse ((Text.stripStart? ['?'] s).getD s)).map fun (key, value) => ⟨key, value⟩

def Entry.encoded (e : Entry) : Text := Percent.encodeComponent e.key ++ '=' :: Percent.encodeComponent e.value

/-- An entry with its place among all entries. -/
abbrev Numbered := Nat × Entry

/-- Takes the first entry of a name out of the entries. -/
def takeNamed? (name : Text) : List Numbered → Option (Text × List Numbered)
  | [] => none
  | (n, e) :: rest =>
    if Text.sameLetters e.key name then some (e.value, rest)
    else (takeNamed? name rest).map fun (value, left) => (value, (n, e) :: left)

/-- Fills the placeholders among the parts of a route, from left to right. A placeholder without a
    name or an entry stays. -/
def fillPieces : List (Text.Piece Text) → List Numbered → Text × List Numbered
  | [], entries => ([], entries)
  | .char c :: rest, entries =>
    let (path, left) := fillPieces rest entries
    (c :: path, left)
  | .found content :: rest, entries =>
    let name := Route.placeholderName content
    match if name.isEmpty then none else takeNamed? name entries with
    | some (value, entries) =>
      let (path, left) := fillPieces rest entries
      (Percent.encodeComponent value ++ path, left)
    | none =>
      let (path, left) := fillPieces rest entries
      (Route.placeholderText content ++ path, left)

/-- Numbers the entries from zero. -/
def numbered (entries : List Entry) : List Numbered := entries.zipIdx.map fun (e, n) => (n, e)

/-- The route with its placeholders filled, and the entries that are left. -/
def fillRoute (route : Text) (entries : List Entry) : Text × List Numbered :=
  fillPieces (Route.placeholderPieces route) (numbered entries)

/-- The places of the entries that filled a placeholder. -/
def consumed (entries : List Entry) (left : List Numbered) : List Nat :=
  (List.range entries.length).filter fun n => !(left.map (·.1)).contains n

structure Target where
  url : Text
  /-- The route with its placeholders filled. -/
  path : Text
  /-- The encoded query without a question mark. -/
  query : Text
  deriving Repr, DecidableEq

/-- The URL of a request. The query is set off by a question mark, or by an ampersand where one is
    there already. -/
def Target.build (base route : Text) (entries : List Entry) : Target :=
  let (path, left) := fillRoute route entries
  let query := Text.joinWith ['&'] (left.map fun (_, e) => e.encoded)
  let url := base ++ path
  let url := if query.isEmpty then url else url ++ (if '?' ∈ url then '&' else '?') :: query
  { url, path, query }

end EndpointConsole.Request
