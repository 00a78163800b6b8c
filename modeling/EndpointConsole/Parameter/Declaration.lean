import EndpointConsole.Endpoint
import EndpointConsole.Parameter.List

/-!
One declared parameter: attribute sections, modifiers, a type, a name and
perhaps a default (`Declaration.ofText?`), and what its type says: whether it is
primitive, nullable, a form file or a cancellation token.
-/
namespace EndpointConsole.Parameter

structure Declaration where
  name : Text
  type : Text
  /-- The source that a binding attribute names. -/
  explicit : Option ParameterSource
  hasDefault : Bool
  deriving Repr, DecidableEq

/-- The text before the first equals sign outside brackets and literals, and whether there is one. -/
def beforeEquals (depth : Int) (inLiteral : Bool) : Text → Text × Bool
  | [] => ([], false)
  | c :: rest =>
    let keep (depth : Int) (inLiteral : Bool) : Text × Bool :=
      let (kept, found) := beforeEquals depth inLiteral rest
      (c :: kept, found)
    if inLiteral then keep depth (c != '"')
    else if opensBracket c then keep (depth + 1) false
    else if closesBracket c then keep (depth - 1) false
    else if c = '"' then keep depth true
    else if c = '=' ∧ depth ≤ 0 then ([], true)
    else keep depth false

/-- Cuts at the square bracket that balances `depth` open ones. -/
def cutAtBracket? (depth : Int) : Text → Option (Text × Text)
  | [] => none
  | c :: rest =>
    if c = '[' then (cutAtBracket? (depth + 1) rest).map fun (a, b) => (c :: a, b)
    else if c = ']' ∧ depth = 1 then some ([], rest)
    else if c = ']' then (cutAtBracket? (depth - 1) rest).map fun (a, b) => (c :: a, b)
    else (cutAtBracket? depth rest).map fun (a, b) => (c :: a, b)

/-- The sources that binding attributes name. -/
def bindingNames : List (Text × ParameterSource) :=
  [("FromQuery".toList, .query), ("FromBody".toList, .body), ("FromRoute".toList, .route),
    ("FromHeader".toList, .header), ("FromForm".toList, .form), ("FromServices".toList, .services),
    ("FromKeyedServices".toList, .services)]

/-- The bare name of an attribute: without arguments, namespace and the ending `Attribute`. -/
def attributeName (written : Text) : Text :=
  let name := Text.afterLast '.' (Text.trim (Text.before '(' written))
  (Text.stripEnd? "Attribute".toList name).getD name

/-- The source that the first binding attribute of a section names. -/
def bindingOf? (body : Text) : Option ParameterSource :=
  (splitTopLevel body).findSome? fun written => Json.lookup? (attributeName written) bindingNames

theorem cutAtBracket?_length {depth : Int} {s a b : Text} (h : cutAtBracket? depth s = some (a, b)) :
    b.length < s.length := by
  fun_induction cutAtBracket? depth s generalizing a b with
  | case1 => simp at h
  | case2 | case4 | case5 =>
    rename_i ih
    simp only [Option.map_eq_some_iff, Prod.mk.injEq] at h
    obtain ⟨⟨a', b'⟩, found, _, rfl⟩ := h
    exact Nat.lt_succ_of_lt (ih found)
  | case3 =>
    simp only [Option.some.injEq, Prod.mk.injEq] at h
    obtain ⟨_, rfl⟩ := h
    exact Nat.lt_succ_self _

/-- Reads the attribute sections at the beginning: the source that the first binding attribute
    names, and what follows. A section that does not close makes the whole unreadable. -/
def readAttributes? (explicit : Option ParameterSource) (s : Text) : Option (Option ParameterSource × Text) :=
  match s with
  | [] => some (explicit, [])
  | c :: rest =>
    if c = '[' then
      match h : cutAtBracket? 1 rest with
      | none => none
      | some (body, after) =>
        have : (Text.trimStart after).length < rest.length + 1 :=
          Nat.lt_succ_of_le (Nat.le_of_lt (Nat.lt_of_le_of_lt (List.dropWhile_sublist _).length_le
            (cutAtBracket?_length h)))
        readAttributes? (explicit <|> bindingOf? body) (Text.trimStart after)
    else some (explicit, c :: rest)
termination_by s.length

def modifiers : List Text :=
  ["this".toList, "ref".toList, "out".toList, "in".toList, "params".toList, "scoped".toList]

/-- Reads a parameter; without a type and a name there is none. -/
def Declaration.ofText? (raw : Text) : Option Declaration := do
  let (declared, hasDefault) := beforeEquals 0 false raw
  let (explicit, rest) ← readAttributes? none (Text.trim declared)
  match ((Text.words rest).dropWhile modifiers.contains).reverse with
  | name :: lastOfType :: restOfType =>
    pure {
      name := name.dropWhile (· == '@')
      type := Text.joinWith [' '] (lastOfType :: restOfType).reverse
      explicit
      hasDefault }
  | _ => none

def systemStart : Text := "System.".toList

def nullableStarts : List Text := ["Nullable<".toList, "System.Nullable<".toList]

/-- What a nullable wrapper contains. -/
def unwrapNullable? (type : Text) : Option Text := do
  let inner ← nullableStarts.findSome? fun start => Text.stripStart? start type
  Text.stripEnd? ['>'] inner

/-- The type itself: without a nullable wrapper, question marks and the `System` namespace. -/
def baseType (type : Text) : Text :=
  let type := Text.trim type
  let type := ((unwrapNullable? type).map Text.trim).getD type
  let type := Text.dropEndWhile (· == '?') type
  (Text.stripStart? systemStart type).getD type

def primitiveTypes : List Text :=
  ["string".toList, "char".toList, "bool".toList, "byte".toList, "sbyte".toList, "short".toList, "ushort".toList,
    "int".toList, "uint".toList, "long".toList, "ulong".toList, "float".toList, "double".toList,
    "decimal".toList, "nint".toList, "nuint".toList, "guid".toList, "datetime".toList,
    "datetimeoffset".toList, "dateonly".toList, "timeonly".toList, "timespan".toList, "int16".toList,
    "uint16".toList, "int32".toList, "uint32".toList, "int64".toList, "uint64".toList, "single".toList,
    "boolean".toList]

/-- Arrays are not primitive, whatever they hold. -/
def isPrimitive (type : Text) : Bool :=
  !type.any (· == '[') && primitiveTypes.contains (Text.asciiLower (baseType type))

def isNullable (type : Text) : Bool :=
  let type := Text.trim type
  Text.endsWith ['?'] type || nullableStarts.any fun start => Text.startsWith start type

def isCancellationToken (type : Text) : Bool :=
  Text.afterLast '.' (baseType type) == "CancellationToken".toList

def isFormFile (type : Text) : Bool :=
  let name := Text.afterLast '.' (baseType type)
  name == "IFormFile".toList || name == "IFormFileCollection".toList || Text.contains "<IFormFile>".toList type

end EndpointConsole.Parameter
