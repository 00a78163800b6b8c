import EndpointConsole.Parameter.Binding
import EndpointConsole.Proofs.Parameter.Scanners
import EndpointConsole.Proofs.Text.Words
import Mathlib.Data.List.Basic

/-!
Parameter lists as they are written: parameters with attribute sections, modifiers, a type,
a name and perhaps a default (`Written`), with white space between the parts, and what they
say by themselves (`Written.declaration`). Names and white space hold nothing that a scanner
looks for, so that what is printed is balanced, part by part (`Written.balanced_text`).
-/
namespace EndpointConsole.Parameter

namespace Written

/-- White space, or nothing. -/
structure Gap where
  text : Text
  blank : Text.IsBlank text

def Gap.none : Gap := ⟨[], nofun⟩

/-- White space. -/
structure Space extends Gap where
  nonempty : text ≠ []

def Space.single : Space := ⟨⟨[' '], by simp [Text.IsBlank]; rfl⟩, List.cons_ne_nil _ _⟩

/-- A character of a name, which may be any but white space and what the scanners look for. -/
def isNameChar (c : Char) : Bool := isPlain c && !Text.isBlank c && c != ',' && c != '='

structure Name where
  text : Text
  nonempty : text ≠ []
  chars : ∀ c ∈ text, isNameChar c = true

/-- The name of a parameter. -/
structure Identifier extends Name where
  bare : text.head? ≠ some '@'

/-- Balanced text, with none of the separators outside brackets and literals. -/
structure Code (separators : List Char) where
  text : Text
  balanced : Balanced separators text

/-- An attribute, perhaps with arguments. -/
structure Attribute where
  before : Gap
  name : Name
  between : Gap
  arguments : Option (Code [])
  after : Gap

/-- Attributes in square brackets. -/
structure Section where
  attributes : List Attribute
  after : Gap

structure Modifier where
  word : Text
  known : word ∈ modifiers
  after : Space

/-- A type, with no comma and no equals sign outside brackets, that does not begin like a section or a modifier. -/
structure TypeText extends Code [',', '='] where
  solid : Text.Solid text
  no_section : text.head? ≠ some '['
  no_modifier : ∀ word ∈ (Text.words text).head?, word ∉ modifiers

end Written

open Written

/-- A parameter as it is written. -/
structure Written where
  before : Gap
  sections : List Section
  modifiers : List Modifier
  type : TypeText
  between : Space
  /-- Whether the name is marked with `@`, as a keyword has to be. -/
  verbatim : Bool
  name : Identifier
  after : Gap
  default : Option (Code [','])

namespace Written

def Attribute.argumentsText (a : Attribute) : Text :=
  match a.arguments with
  | none => []
  | some list => '(' :: list.text ++ [')']

def Attribute.text (a : Attribute) : Text :=
  a.before.text ++ (a.name.text ++ a.between.text ++ a.argumentsText) ++ a.after.text

def Section.body (s : Section) : Text := Text.joinWith [','] (s.attributes.map Attribute.text)

def Section.text (s : Section) : Text := '[' :: s.body ++ ']' :: s.after.text

def Modifier.text (m : Modifier) : Text := m.word ++ m.after.text

def nameText (p : Written) : Text := if p.verbatim then '@' :: p.name.text else p.name.text

/-- Modifiers, type and name. -/
def body (p : Written) : Text := p.modifiers.flatMap Modifier.text ++ (p.type.text ++ p.between.text ++ p.nameText)

/-- What is declared, without the margins and without the default. -/
def core (p : Written) : Text := p.sections.flatMap Section.text ++ p.body

def defaultText (p : Written) : Text :=
  match p.default with
  | none => []
  | some value => '=' :: value.text

def text (p : Written) : Text := p.before.text ++ (p.core ++ p.after.text ++ p.defaultText)

/-- The parameters between the parentheses. -/
def listText (params : List Written) : Text := Text.joinWith [','] (params.map text)

/-- The source that an attribute names. -/
def Attribute.source? (a : Attribute) : Option ParameterSource :=
  Json.lookup? (attributeName a.name.text) bindingNames

/-- The source that the first binding attribute names, whatever section it stands in. -/
def binding? (p : Written) : Option ParameterSource :=
  (p.sections.flatMap Section.attributes).findSome? Attribute.source?

/-- The type with single blanks for white space. -/
def TypeText.collapsed (t : TypeText) : Text := Text.joinWith [' '] (Text.words t.text)

def declaration (p : Written) : Declaration :=
  { name := p.name.text
    type := p.type.collapsed
    explicit := p.binding?
    hasDefault := p.default.isSome }

theorem isNameChar_iff {c : Char} :
    isNameChar c = true ↔ isPlain c = true ∧ Text.isBlank c = false ∧ c ≠ ',' ∧ c ≠ '=' := by
  simp [isNameChar, and_assoc]

theorem plain_of_blank {c : Char} (blank : Text.isBlank c = true) : isPlain c = true := by
  have opens : opensBracket c = false := by
    simp [opensBracket, Text.ne_of_blank blank (d := '<') rfl, Text.ne_of_blank blank (d := '(') rfl,
      Text.ne_of_blank blank (d := '[') rfl, Text.ne_of_blank blank (d := '\x7b') rfl]
  have closes : closesBracket c = false := by
    simp [closesBracket, Text.ne_of_blank blank (d := '>') rfl, Text.ne_of_blank blank (d := ')') rfl,
      Text.ne_of_blank blank (d := ']') rfl, Text.ne_of_blank blank (d := '\x7d') rfl]
  exact plain_iff.mpr ⟨opens, closes, Text.ne_of_blank blank rfl⟩

theorem name_of_modifier {word : Text} (known : word ∈ Parameter.modifiers) :
    word ≠ [] ∧ ∀ c ∈ word, isNameChar c = true := by
  have each : (Parameter.modifiers.all fun word => !word.isEmpty && word.all isNameChar) = true := by decide
  have here := List.all_eq_true.mp each word known
  simpa using here

theorem Gap.balanced (g : Gap) : Balanced [',', '='] g.text :=
  .of_plain fun c among => by
    have blank := g.blank c among
    exact ⟨plain_of_blank blank, by simp [Text.ne_of_blank blank (d := ',') rfl, Text.ne_of_blank blank (d := '=') rfl]⟩

theorem balanced_name {name : Text} (chars : ∀ c ∈ name, isNameChar c = true) : Balanced [',', '='] name :=
  .of_plain fun c among => by
    obtain ⟨plain, _, comma, equals⟩ := isNameChar_iff.mp (chars c among)
    exact ⟨plain, by simp [comma, equals]⟩

theorem Name.solid (n : Name) : ∀ c ∈ n.text, Text.isBlank c = false :=
  fun c among => (isNameChar_iff.mp (n.chars c among)).2.1

theorem Modifier.nonempty (m : Modifier) : m.word ≠ [] := (name_of_modifier m.known).1

theorem Modifier.chars (m : Modifier) : ∀ c ∈ m.word, isNameChar c = true := (name_of_modifier m.known).2

theorem Modifier.solid (m : Modifier) : ∀ c ∈ m.word, Text.isBlank c = false :=
  fun c among => (isNameChar_iff.mp (m.chars c among)).2.1

theorem Name.no_list (n : Name) : '(' ∉ n.text := fun among => by
  cases n.chars '(' among

theorem Attribute.balanced (a : Attribute) : Balanced [',', '='] a.text := by
  have arguments : Balanced [',', '='] a.argumentsText := by
    rw [argumentsText]
    cases a.arguments with
    | none => exact .nil
    | some list => exact .group .round list.balanced .nil
  exact (a.before.balanced.append (((balanced_name a.name.chars).append a.between.balanced).append arguments)).append
    a.after.balanced

theorem Section.balanced_body (s : Section) : Balanced [] s.body :=
  .joinWith rfl List.not_mem_nil (List.forall_mem_map.mpr fun a _ => a.balanced.fewer_separators (List.nil_subset _))

theorem Section.balanced (s : Section) : Balanced [',', '='] s.text :=
  .group .square s.balanced_body s.after.balanced

theorem Modifier.balanced (m : Modifier) : Balanced [',', '='] m.text :=
  (balanced_name m.chars).append m.after.balanced

theorem nameText_chars (p : Written) : ∀ c ∈ p.nameText, isNameChar c = true := by
  rw [nameText]
  split
  · rw [List.forall_mem_cons]
    exact ⟨rfl, p.name.chars⟩
  · exact p.name.chars

theorem nameText_ne_nil (p : Written) : p.nameText ≠ [] := by
  rw [nameText]
  split
  · exact List.cons_ne_nil _ _
  · exact p.name.nonempty

theorem nameText_solid (p : Written) : ∀ c ∈ p.nameText, Text.isBlank c = false :=
  fun c among => (isNameChar_iff.mp (p.nameText_chars c among)).2.1

theorem balanced_core (p : Written) : Balanced [',', '='] p.core :=
  (Balanced.flatMap fun s _ => s.balanced).append ((Balanced.flatMap fun m _ => m.balanced).append
    ((p.type.balanced.append p.between.balanced).append (balanced_name p.nameText_chars)))

theorem balanced_text (p : Written) : Balanced [','] p.text := by
  have value : Balanced [','] p.defaultText := by
    rw [defaultText]
    cases p.default with
    | none => exact .nil
    | some value => exact .char rfl (by decide) value.balanced
  have declared : Balanced [','] (p.core ++ p.after.text) :=
    (p.balanced_core.append p.after.balanced).fewer_separators (by simp)
  exact (p.before.balanced.fewer_separators (by simp)).append (declared.append value)

end Written

end EndpointConsole.Parameter
