import EndpointConsole.Text.Search

/-!
Method signatures on a line: an access level, modifiers, at most one `async`, a
type and a name before the first parenthesis. `Signature.ofLine?` finds the
leftmost one and the column of its name.
-/
namespace EndpointConsole.Source

/-- The name of a declared method and its column, counted in characters. -/
structure Signature where
  name : Text
  column : Nat
  deriving Repr, DecidableEq

namespace Signature

def accessLevels : List Text :=
  ["public".toList, "private".toList, "protected".toList, "internal".toList]

def modifiers : List Text :=
  ["static".toList, "virtual".toList, "override".toList, "new".toList, "sealed".toList, "abstract".toList,
    "extern".toList, "unsafe".toList]

def asyncKeyword : Text := "async".toList

/-- The characters of a type, which is written without white space. -/
def isTypeChar (c : Char) : Bool := Text.isWord c || "<>?[].,".toList.contains c

/-- Drops `async` when it comes first. -/
def dropAsync : List Text → List Text
  | [] => []
  | word :: rest => if word = asyncKeyword then rest else word :: rest

/-- The name at the end of a declaration's words, which are given backwards without the access
    level: a name, a type, then perhaps `async`, then modifiers. -/
def nameOfWords? : List Text → Option Text
  | name :: type :: before =>
    if name.all Text.isWord && type.all isTypeChar && (dropAsync before).all modifiers.contains then some name
    else none
  | _ => none

/-- Reads a signature that begins here: its name, and the number of characters before the name. -/
def read? (s : Text) : Option (Text × Nat) :=
  if accessLevels.any (Text.startsWith · s) then
    let declaration := Text.before '(' s
    if declaration.length < s.length then
      match Text.words declaration with
      | [] => none
      | access :: rest =>
        if accessLevels.contains access then
          (nameOfWords? rest.reverse).map fun name =>
            (name, (Text.trimEnd declaration).length - name.length)
        else none
    else none
  else none

/-- The leftmost signature on a line. -/
def ofLine? (line : Text) : Option Signature :=
  (Text.firstMatch? (fun _ s => read? s) none line).map fun (start, name, offset) => ⟨name, start + offset⟩

end Signature

/-- Whether a line declares a method. -/
def isSignature (line : Text) : Bool := (Signature.ofLine? line).isSome

end EndpointConsole.Source
