import EndpointConsole.Json.Record

/-!
Source documents as an editor hands them over: identity, file, language, version
and text. Lines end at line feeds alone, so a carriage return stays on its line.
-/
namespace EndpointConsole.Source

def csharp : Text := "csharp".toList

structure Document where
  /-- The identity that lens results are kept under. -/
  uri : Text
  file : Text
  language : Text := csharp
  version : Int := 0
  text : Text
  deriving Repr, DecidableEq, Inhabited

namespace Document

/-- The document of a file, whose identity is the path as a file URI with forward slashes. -/
def ofFile (file : Text) (version : Int) (text : Text) : Document :=
  { uri := "file://".toList ++ file.map fun c => if c = '\\' then '/' else c, file, version, text }

def lines (d : Document) : List Text := Text.splitOn '\n' d.text

/-- The part of the path after the last separator of either kind. -/
def fileName (d : Document) : Text :=
  (d.file.reverse.takeWhile fun c => c ≠ '/' ∧ c ≠ '\\').reverse

/-- Whether lenses are given for the document. -/
def isController (d : Document) : Bool :=
  d.language == csharp && Text.endsWith "Controller.cs".toList d.fileName

def fields : Json.Fields :=
  [("uri".toList, .required), ("filePath".toList, .required), ("languageId".toList, .optional),
    ("version".toList, .optional), ("text".toList, .required)]

def ofJson? (v : Json) : Option Document := do
  match ← Json.record? fields v with
  | [uri, file, language, version, text] =>
    let uri ← Json.needed Json.text? uri
    let file ← Json.needed Json.text? file
    let language ← Json.orElse csharp Json.text? language
    let version ← Json.orElse 0 Json.signed? version
    let text ← Json.needed Json.text? text
    pure { uri, file, language, version, text }
  | _ => none

end Document

end EndpointConsole.Source
