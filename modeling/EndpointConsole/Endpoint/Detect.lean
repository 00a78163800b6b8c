import EndpointConsole.Parameter.Binding
import EndpointConsole.Route.Compose
import EndpointConsole.Route.Placeholder
import EndpointConsole.Source.Document
import EndpointConsole.Source.Signature

/-!
Detection of endpoints. A line that declares a method is an endpoint if a
controller class stands at or above it and the lines right above it carry an
HTTP verb, or the controller's route names the action. `detect` classifies one
line and says why it is none (`Miss`); `scan` goes through a document.
-/
namespace EndpointConsole.Detect
open Source

/-- Why a line is no endpoint. -/
inductive Miss where
  | notAMethod
  | noController
  | notAnApiMethod
  deriving Repr, DecidableEq

namespace Miss

def name : Miss → Text
  | notAMethod => "NotAMethod".toList
  | noController => "NoController".toList
  | notAnApiMethod => "NotAnApiMethod".toList

def message : Miss → Text
  | notAMethod => "line is not a method signature".toList
  | noController => "no enclosing controller class".toList
  | notAnApiMethod => "method has no HTTP verb attribute".toList

end Miss

/-- The lines above a controller class that are searched for its route. -/
def controllerRouteLookback : Nat := 10

structure Controller where
  name : Text
  route : Option Text
  deriving Repr, DecidableEq

/-- The nearest controller class among some lines, nearest first, with the nearest route attribute
    above it. -/
def controllerIn? : List Text → Option Controller
  | [] => none
  | line :: above =>
    match controllerClass? line with
    | some name =>
      some ⟨name, (above.take controllerRouteLookback).findSome? fun l => routeAttribute? (Text.trim l)⟩
    | none => controllerIn? above

/-- The lines above a line, nearest first. -/
def linesAbove (lines : List Text) (line : Nat) : List Text := (lines.take line).reverse

/-- The controller that a method belongs to. -/
def controllerOf? (lines : List Text) (methodLine : Nat) : Option Controller :=
  controllerIn? (linesAbove lines (methodLine + 1))

/-- The lines above a method that are searched for its attributes. -/
def attributeLookback : Nat := 10

/-- Whether the attributes of a method cannot lie above a line: another member, a class, or the end
    of a block. -/
def isBarrier (line : Text) : Bool := isSignature line || hasClassKeyword line || Text.startsWith ['\x7d'] line

/-- Whether a line is passed over on the way up. -/
def isSkipped (line : Text) : Bool := line.isEmpty || isCommentLine line

/-- What is known of an action on the way up. -/
structure Action where
  method : Option HttpMethod := none
  route : Option Text := none
  deriving Repr, DecidableEq

/-- Takes in a line: a verb replaces what is known, and so does its own route; a route attribute
    counts only while no route is known. -/
def Action.takeIn (a : Action) (line : Text) : Action :=
  let a :=
    match verbAttribute? line with
    | none => a
    | some verb => { method := some verb.method, route := verb.route <|> a.route }
  { a with route := a.route <|> routeAttribute? line }

/-- Goes up through trimmed lines, nearest first. -/
def Action.collect (a : Action) : List Text → Action
  | [] => a
  | line :: above =>
    if isSkipped line then a.collect above
    else if isBarrier line then a
    else (a.takeIn line).collect above

/-- Whether a controller's route names the action, so that its methods need no verb. -/
def namesAction (controllerRoute : Option Text) : Bool :=
  controllerRoute.any fun route => Text.contains Route.actionToken (Text.asciiLower route)

/-- The method and route of the action declared on a line, if it is one. -/
def actionOf? (lines : List Text) (methodLine : Nat) (controllerRoute : Option Text) :
    Option (HttpMethod × Option Text) :=
  let a := Action.collect {} (((linesAbove lines methodLine).take attributeLookback).map Text.trim)
  match a.method with
  | some method => some (method, a.route)
  | none => if namesAction controllerRoute then some (.any, a.route) else none

/-- What the lines say of an endpoint: its method, and what its route is composed from. -/
structure Handler where
  method : HttpMethod
  parts : Route.Parts
  deriving Repr

/-- The handler declared on a line, or why there is none. -/
def handler? (lines : List Text) (line : Nat) (file : Text) : Except Miss Handler :=
  match (lines[line]?).bind Signature.ofLine? with
  | none => .error .notAMethod
  | some signature =>
    match controllerOf? lines line with
    | none => .error .noController
    | some controller =>
      match actionOf? lines line controller.route with
      | none => .error .notAnApiMethod
      | some (method, actionRoute) =>
        .ok {
          method
          parts := {
            controllerRoute := controller.route
            actionRoute
            controller := controller.name
            action := signature.name
            lines
            methodLine := line
            file } }

/-- The endpoint of a handler with a composed route. -/
def Handler.endpoint (h : Handler) (route : Text) : Endpoint :=
  let summary := Parameter.classify h.parts.lines h.parts.methodLine h.method (Route.placeholderNames route)
  { method := h.method
    route
    controller := h.parts.controller
    action := h.parts.action
    file := h.parts.file
    line := h.parts.methodLine + 1
    autoQuery := if summary.autoQuery.isEmpty then none else some summary.autoQuery
    parameters := summary.parameters
    preferredBody := summary.preferredBody }

/-- The endpoint declared on a line, or why there is none. -/
def detect (composer : Route.Composer) (lines : List Text) (line : Nat) (file : Text) :
    Except Miss Endpoint × Route.Composer :=
  match handler? lines line file with
  | .error miss => (.error miss, composer)
  | .ok h =>
    let (route, composer) := composer.compose h.parts
    (.ok (h.endpoint route), composer)

/-- An endpoint with the place of its method's name: the line counted from zero, and the column. -/
structure Found where
  endpoint : Endpoint
  line : Nat
  column : Nat
  deriving Repr, DecidableEq

/-- The endpoints on some lines of a document, whose numbers begin at `number`. -/
def scanFrom (composer : Route.Composer) (lines : List Text) (file : Text) (number : Nat) :
    List Text → List Found × Route.Composer
  | [] => ([], composer)
  | line :: rest =>
    match Signature.ofLine? line with
    | none => scanFrom composer lines file (number + 1) rest
    | some signature =>
      let (outcome, composer) := detect composer lines number file
      let (more, composer) := scanFrom composer lines file (number + 1) rest
      match outcome with
      | .ok endpoint => (⟨endpoint, number, signature.column⟩ :: more, composer)
      | .error _ => (more, composer)

/-- Every endpoint of a document, in the order of lines. -/
def scan (composer : Route.Composer) (d : Document) : List Found × Route.Composer :=
  scanFrom composer d.lines d.file 0 d.lines

end EndpointConsole.Detect
