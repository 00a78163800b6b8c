import EndpointConsole.Text

/-!
Parameter lists in source text. `balanced?` gives the text between the first
parenthesis and the one that balances it, string literals left aside;
`splitTopLevel` cuts such a text at the commas outside brackets and literals;
`listAt?` looks for the list from a line of a document on.
-/
namespace EndpointConsole.Parameter

/-- Whether a character closes the literal it stands in: a quote without a backslash before it. -/
def closesLiteral (previous c : Char) : Bool := c == '"' && previous != '\\'

/-- The text up to the parenthesis that balances `depth` open ones. -/
def balancedFrom (depth : Nat) (inLiteral : Bool) (previous : Char) : Text → Option Text
  | [] => none
  | c :: rest =>
    if inLiteral then (balancedFrom depth (!closesLiteral previous c) c rest).map (c :: ·)
    else if c = '"' then (balancedFrom depth true c rest).map (c :: ·)
    else if c = '(' then (balancedFrom (depth + 1) false c rest).map (c :: ·)
    else if c = ')' then
      if depth ≤ 1 then some [] else (balancedFrom (depth - 1) false c rest).map (c :: ·)
    else (balancedFrom depth false c rest).map (c :: ·)

/-- The text between the first parenthesis and its partner. -/
def balanced? (s : Text) : Option Text :=
  match Text.cutAt? '(' s with
  | none => none
  | some (_, rest) => balancedFrom 1 false '(' rest

/-- Whether a character opens a bracket that shields commas. -/
def opensBracket (c : Char) : Bool := c == '<' || c == '(' || c == '[' || c == '\x7b'

def closesBracket (c : Char) : Bool := c == '>' || c == ')' || c == ']' || c == '\x7d'

/-- The pieces between top-level commas, where `current` holds the open piece backwards. Closing
    brackets may outnumber the opening ones. -/
def splitFrom (current : Text) (depth : Int) (inLiteral : Bool) (previous : Char) : Text → List Text
  | [] => [current.reverse]
  | c :: rest =>
    if inLiteral then splitFrom (c :: current) depth (!closesLiteral previous c) c rest
    else if c = '"' then splitFrom (c :: current) depth true c rest
    else if opensBracket c then splitFrom (c :: current) (depth + 1) false c rest
    else if closesBracket c then splitFrom (c :: current) (depth - 1) false c rest
    else if c = ',' ∧ depth ≤ 0 then current.reverse :: splitFrom [] depth false c rest
    else splitFrom (c :: current) depth false c rest

/-- The parts of a list between its top-level commas, trimmed, without the blank ones. -/
def splitTopLevel (s : Text) : List Text :=
  ((splitFrom [] 0 false (Char.ofNat 0) s).map Text.trim).filter fun part => !part.isEmpty

/-- The lines that a parameter list may extend over. -/
def listLookahead : Nat := 20

/-- Adds a line to the text gathered so far. -/
def gather (joined line : Text) : Text :=
  if joined.isEmpty then Text.trim line else joined ++ ' ' :: Text.trim line

/-- The list in the lines gathered so far, or with more lines added one by one. -/
def listFrom (joined : Text) : List Text → Option Text
  | [] => none
  | line :: rest =>
    let joined := gather joined line
    match balanced? joined with
    | some list => some list
    | none => listFrom joined rest

/-- The parameter list of the method declared on a line. -/
def listAt? (lines : List Text) (methodLine : Nat) : Option Text :=
  listFrom [] ((lines.drop methodLine).take listLookahead)

end EndpointConsole.Parameter
