import EndpointConsole.Text.Search

/-!
Class headers on a line: the name of a declared class that ends in `Controller`
(`controllerClass?`), and whether the keyword stands on the line at all
(`hasClassKeyword`).
-/
namespace EndpointConsole.Source

def classKeyword : Text := "class".toList

def controllerSuffix : Text := "Controller".toList

/-- Reads the class keyword where a word begins. -/
def readClassKeyword? (left : Option Char) (s : Text) : Option Text :=
  if left.any Text.isWord then none else Text.stripStart? classKeyword s

/-- Reads a class header that begins here: the keyword, white space, and a name with something
    before its ending. -/
def readControllerClass? (left : Option Char) (s : Text) : Option Text := do
  let rest ← readClassKeyword? left s
  let named := Text.trimStart rest
  let name := named.takeWhile Text.isWord
  if named.length < rest.length ∧ Text.endsWith controllerSuffix name ∧ controllerSuffix.length < name.length
  then pure name else none

/-- The name of the first controller class that a line declares. -/
def controllerClass? (line : Text) : Option Text := Text.find? readControllerClass? line

/-- Whether the class keyword stands on a line as a word. -/
def hasClassKeyword (line : Text) : Bool :=
  (Text.find? (fun left s => do
    let rest ← readClassKeyword? left s
    if rest.head?.any Text.isWord then none else pure ()) line).isSome

end EndpointConsole.Source
