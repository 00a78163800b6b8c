import EndpointConsole.Parameter.Declaration

/-!
The parameters of a method with their sources. An attribute decides first, then
the route's placeholders, then a file type, then the method: without a body the
rest comes from the query string, otherwise from the body (`classify`).
-/
namespace EndpointConsole.Parameter

/-- The outcome for one parameter list. -/
structure Summary where
  parameters : List Parameter := []
  /-- Primitive parameters that the query editor lists by itself. -/
  autoQuery : List Text := []
  preferredBody : Option BodyMode := none
  deriving Repr, DecidableEq

/-- Whether a parameter is filled by a placeholder of the route. -/
def inRoute (routeNames : List Text) (d : Declaration) : Bool := routeNames.any fun name => Text.sameLetters name d.name

/-- The source of a parameter. -/
def sourceOf (method : HttpMethod) (routeNames : List Text) (d : Declaration) : ParameterSource :=
  match d.explicit with
  | some source => source
  | none =>
    if inRoute routeNames d then .route
    else if isFormFile d.type then .form
    else if method.bindsFromQuery then .query
    else .body

/-- Whether a parameter is listed by the query editor: a primitive one from the query by attribute,
    or one that nothing but the method places. -/
def isAutoQuery (routeNames : List Text) (d : Declaration) : Bool :=
  isPrimitive d.type &&
    match d.explicit with
    | some source => source == .query
    | none => !inRoute routeNames d && !isFormFile d.type

/-- Whether a parameter calls for a form. -/
def wantsForm (d : Declaration) : Bool := d.explicit == some .form || isFormFile d.type

/-- A declared parameter with its source. -/
def place (method : HttpMethod) (routeNames : List Text) (d : Declaration) : Parameter :=
  { name := d.name
    type := d.type
    source := sourceOf method routeNames d
    required := !d.hasDefault && !isNullable d.type }

/-- The parameters of a list that a caller sends. -/
def declarations (list : Text) : List Declaration :=
  ((splitTopLevel list).filterMap Declaration.ofText?).filter fun d => !isCancellationToken d.type

/-- The outcome for the parameters of a list. -/
def summarize (method : HttpMethod) (routeNames : List Text) (declared : List Declaration) : Summary :=
  { parameters := declared.map (place method routeNames)
    autoQuery := (declared.filter (isAutoQuery routeNames)).map (·.name)
    preferredBody := if declared.any wantsForm then some .formData else none }

/-- The outcome for the method declared on a line; without a parameter list there are none. -/
def classify (lines : List Text) (methodLine : Nat) (method : HttpMethod) (routeNames : List Text) : Summary :=
  match listAt? lines methodLine with
  | none => {}
  | some list => summarize method routeNames (declarations list)

end EndpointConsole.Parameter
