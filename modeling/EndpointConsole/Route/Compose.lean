import EndpointConsole.Route.Version
import EndpointConsole.Text.LowerCase

/-!
Route templates put together from a controller's and an action's fragment: the
two are joined, `[controller]` and `[action]` are replaced, version placeholders
are filled, and a leading slash is added. A `Composer` remembers the version it
found for a file and controller, and counts its searches.
-/
namespace EndpointConsole.Route

/-- What one route is composed from. -/
structure Parts where
  controllerRoute : Option Text
  actionRoute : Option Text
  controller : Text
  action : Text
  lines : List Text
  methodLine : Nat
  file : Text
  deriving Repr

/-- The file and controller, which a version is remembered for. -/
def Parts.key (p : Parts) : Text × Text := (p.file, p.controller)

/-- The version that the lines give. -/
def Parts.version? (p : Parts) : Option Text := versionAbove? p.lines (min p.methodLine (p.lines.length - 1))

/-- Joins two fragments. An action that begins with a slash, or a tilde and a slash, stands alone. -/
def join (controllerRoute actionRoute : Text) : Text :=
  match actionRoute with
  | '~' :: '/' :: rest => '/' :: rest
  | '/' :: rest => '/' :: rest
  | _ =>
    if controllerRoute.isEmpty then actionRoute
    else if actionRoute.isEmpty then controllerRoute
    else Text.dropEndWhile (· == '/') controllerRoute ++ '/' :: actionRoute

def ensureLeadingSlash (route : Text) : Text :=
  if route.head? = some '/' then route else '/' :: route

/-- Drops an ending in any case, unless nothing would be left. -/
def dropSuffix (suffix name : Text) : Text :=
  let kept := name.length - suffix.length
  if 0 < kept && Text.sameLetters (name.drop kept) suffix then name.take kept else name

/-- Reads a token of lower-case ASCII letters and brackets in any case. -/
def readToken? (token s : Text) : Option (Unit × Text) :=
  if Text.asciiLower (s.take token.length) = token then some ((), s.drop token.length) else none

/-- Replaces a bracketed token, in any case, by a value. -/
def replaceToken (token value route : Text) : Text :=
  Text.fill (fun () => value) (Text.pieces (readToken? token) route)

def controllerToken : Text := "[controller]".toList

def actionToken : Text := "[action]".toList

/-- The joined route with its tokens replaced, before versions. -/
def substituted (p : Parts) : Text :=
  let joined := join ((p.controllerRoute.map Text.trim).getD []) ((p.actionRoute.map Text.trim).getD [])
  let controller := Text.toLower (dropSuffix Source.controllerSuffix p.controller)
  let action := Text.toLower (dropSuffix "Async".toList p.action)
  replaceToken actionToken action (replaceToken controllerToken controller joined)

/-- Fills the version placeholders with a version, or else the default; without either they stay. -/
def withVersion (defaultVersion : Text) (version : Option Text) (route : Text) : Text :=
  match version with
  | some version => fillVersion version route
  | none => if defaultVersion.isEmpty then route else fillVersion defaultVersion route

/-- Composes routes, remembering what was found for each file and controller. -/
structure Composer where
  defaultVersion : Text
  /-- The version of each file and controller, or its absence, newest first. -/
  known : List ((Text × Text) × Option Text) := []
  /-- How often the lines were searched. -/
  searches : Nat := 0
  deriving Repr

namespace Composer

/-- What is remembered under a key. -/
def remembered? (key : Text × Text) : List ((Text × Text) × Option Text) → Option (Option Text)
  | [] => none
  | (k, version) :: rest => if k = key then some version else remembered? key rest

/-- The version of a file and controller: what is remembered, or else what the lines say, which is
    remembered from now on. -/
def version (c : Composer) (p : Parts) : Option Text × Composer :=
  match remembered? p.key c.known with
  | some found => (found, c)
  | none => (p.version?, { c with known := (p.key, p.version?) :: c.known, searches := c.searches + 1 })

/-- The route of a handler. Versions are looked up only if the route has a place for one. -/
def compose (c : Composer) (p : Parts) : Text × Composer :=
  let route := substituted p
  if hasVersionPlaceholder route then
    let (version, c) := c.version p
    (ensureLeadingSlash (withVersion c.defaultVersion version route), c)
  else (ensureLeadingSlash route, c)

end Composer

end EndpointConsole.Route
