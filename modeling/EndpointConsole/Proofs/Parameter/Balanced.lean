import EndpointConsole.Parameter.Declaration

/-!
Bracket-balanced text and the scanners that read it. Four of them go through the text of
a parameter list, each counting the brackets it minds and each with its own idea of a
literal: for the parenthesis that ends the list, for commas, for the equals sign of a
default and for the bracket that ends an attribute section. What they share is said once
(`Scanner`): one character is passed over at a time, a bracket changes the context of
open brackets, and outside brackets and literals the scanner stops at its separators.
It follows that none of them stops within balanced text (`Scanner.scan_balanced`).
-/
namespace EndpointConsole.Parameter

inductive Bracket where
  | angle
  | round
  | square
  | curly
  deriving DecidableEq

namespace Bracket

def opening : Bracket → Char
  | angle => '<'
  | round => '('
  | square => '['
  | curly => '\x7b'

def closing : Bracket → Char
  | angle => '>'
  | round => ')'
  | square => ']'
  | curly => '\x7d'

@[simp] theorem opening_ne_quote (b : Bracket) : b.opening ≠ '"' := by cases b <;> decide

@[simp] theorem closing_ne_quote (b : Bracket) : b.closing ≠ '"' := by cases b <;> decide

@[simp] theorem opensBracket_opening (b : Bracket) : opensBracket b.opening = true := by cases b <;> rfl

@[simp] theorem opensBracket_closing (b : Bracket) : opensBracket b.closing = false := by cases b <;> rfl

@[simp] theorem closesBracket_closing (b : Bracket) : closesBracket b.closing = true := by cases b <;> rfl

end Bracket

/-- Neither a bracket nor a quote. -/
def isPlain (c : Char) : Bool := !opensBracket c && !closesBracket c && c != '"'

/-- A character that a literal may hold: no bracket, no quote and no backslash. -/
def isLiteralChar (c : Char) : Bool := isPlain c && c != '\\'

/-- Text in which brackets match and literals are closed, with none of the separators outside of them. -/
inductive Balanced : List Char → Text → Prop
  | nil {separators} : Balanced separators []
  | char {separators c s} (plain : isPlain c = true) (kept : c ∉ separators) (rest : Balanced separators s) :
      Balanced separators (c :: s)
  | literal {separators body s} (inside : ∀ c ∈ body, isLiteralChar c = true) (rest : Balanced separators s) :
      Balanced separators ('"' :: body ++ '"' :: s)
  | group {separators inner s} (b : Bracket) (inside : Balanced [] inner) (rest : Balanced separators s) :
      Balanced separators (b.opening :: inner ++ b.closing :: s)

namespace Balanced

variable {separators fewer : List Char} {a b s : Text}

theorem append (first : Balanced separators a) (second : Balanced separators b) : Balanced separators (a ++ b) := by
  induction first with
  | nil => exact second
  | char plain kept _ ih => exact .char plain kept (ih second)
  | literal inside _ ih =>
    rw [List.append_assoc, List.cons_append]
    exact .literal inside (ih second)
  | group bracket inside _ _ ih =>
    rw [List.append_assoc, List.cons_append]
    exact .group bracket inside (ih second)

theorem fewer_separators (balanced : Balanced separators s) (subset : fewer ⊆ separators) : Balanced fewer s := by
  induction balanced with
  | nil => exact .nil
  | char plain kept _ ih => exact .char plain (fun among => kept (subset among)) (ih subset)
  | literal inside _ ih => exact .literal inside (ih subset)
  | group bracket inside _ _ ih => exact .group bracket inside (ih subset)

theorem of_plain (plain : ∀ c ∈ s, isPlain c = true ∧ c ∉ separators) : Balanced separators s := by
  induction s with
  | nil => exact .nil
  | cons c rest ih =>
    obtain ⟨here, kept⟩ := plain c List.mem_cons_self
    exact .char here kept (ih fun d among => plain d (List.mem_cons_of_mem c among))

theorem of_all (plain : (s.all fun c => isPlain c && !separators.contains c) = true) : Balanced separators s :=
  of_plain fun c among => by simpa using List.all_eq_true.mp plain c among

theorem joinWith {pieces : List Text} {separator : Char} (plain : isPlain separator = true)
    (kept : separator ∉ separators) (each : ∀ piece ∈ pieces, Balanced separators piece) :
    Balanced separators (Text.joinWith [separator] pieces) := by
  fun_induction Text.joinWith [separator] pieces with
  | case1 => exact .nil
  | case2 s => exact each s List.mem_cons_self
  | case3 s t rest ih =>
    rw [List.append_assoc]
    exact (each s List.mem_cons_self).append
      (.char plain kept (ih fun piece among => each piece (List.mem_cons_of_mem s among)))

theorem flatMap {ι : Type} {parts : List ι} {f : ι → Text} (each : ∀ part ∈ parts, Balanced separators (f part)) :
    Balanced separators (parts.flatMap f) := by
  induction parts with
  | nil => exact .nil
  | cons part rest ih =>
    rw [List.flatMap_cons]
    exact (each part List.mem_cons_self).append (ih fun other among => each other (List.mem_cons_of_mem part among))

end Balanced

/-- A scanner, in a context of open brackets. -/
structure Scanner (α : Type) where
  /-- What it gives for a text. -/
  scan : List Bracket → Text → α
  /-- What it gives for a text that begins inside a literal. -/
  literal : List Bracket → Text → α
  /-- A character that was passed over, in what is given. -/
  keep : Char → α → α
  /-- Where it stops outside brackets and literals. -/
  separators : List Char
  scan_char {c : Char} {context : List Bracket} (plain : isPlain c = true) (kept : context = [] → c ∉ separators)
    (rest : Text) : scan context (c :: rest) = keep c (scan context rest)
  scan_opening (b : Bracket) (context : List Bracket) (rest : Text) :
    scan context (b.opening :: rest) = keep b.opening (scan (b :: context) rest)
  scan_closing (b : Bracket) (context : List Bracket) (rest : Text) :
    scan (b :: context) (b.closing :: rest) = keep b.closing (scan context rest)
  scan_quote (context : List Bracket) (rest : Text) : scan context ('"' :: rest) = keep '"' (literal context rest)
  literal_char {c : Char} (inside : isLiteralChar c = true) (context : List Bracket) (rest : Text) :
    literal context (c :: rest) = keep c (literal context rest)
  literal_quote (context : List Bracket) (rest : Text) : literal context ('"' :: rest) = keep '"' (scan context rest)

namespace Scanner

variable {α : Type} (S : Scanner α)

theorem scan_literal {body : Text} (inside : ∀ c ∈ body, isLiteralChar c = true) (context : List Bracket)
    (rest : Text) : S.literal context (body ++ rest) = body.foldr S.keep (S.literal context rest) := by
  induction body with
  | nil => rfl
  | cons c more ih =>
    rw [List.cons_append, S.literal_char (inside c List.mem_cons_self), List.foldr_cons,
      ih fun d among => inside d (List.mem_cons_of_mem c among)]

/-- Balanced text is passed over: what follows it is read in the same context. -/
theorem scan_balanced {separators : List Char} {s : Text} (balanced : Balanced separators s) (context : List Bracket)
    (kept : context = [] → S.separators ⊆ separators) (rest : Text) :
    S.scan context (s ++ rest) = s.foldr S.keep (S.scan context rest) := by
  induction balanced generalizing context rest with
  | nil => rfl
  | char plain outside _ ih =>
    rw [List.cons_append, S.scan_char plain fun top among => outside (kept top among), ih _ kept, List.foldr_cons]
  | literal inside _ ih =>
    rw [List.append_assoc, List.cons_append, List.cons_append, S.scan_quote, S.scan_literal inside, S.literal_quote,
      ih _ kept, List.cons_append, List.foldr_cons, List.foldr_append, List.foldr_cons]
  | group b _ _ inside_ih ih =>
    rw [List.append_assoc, List.cons_append, List.cons_append, S.scan_opening,
      inside_ih _ (fun top => absurd top (List.cons_ne_nil b context)), S.scan_closing, ih _ kept, List.cons_append,
      List.foldr_cons, List.foldr_append, List.foldr_cons]

end Scanner

end EndpointConsole.Parameter
