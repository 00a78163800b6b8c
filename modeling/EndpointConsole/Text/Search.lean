import EndpointConsole.Text.Word

/-!
Searching a text with a recogniser. `firstMatch?` gives the leftmost position at
which a recogniser succeeds, which may look at the character before it; `pieces`
cuts a text into what a recogniser finds, from left to right and none
overlapping, and the characters in between.
-/
namespace EndpointConsole.Text

/-- The leftmost success of a recogniser, with the number of characters before it. -/
def firstMatch? {α : Type} (read : Option Char → Text → Option α) : Option Char → Text → Option (Nat × α)
  | left, [] => (read left []).map (0, ·)
  | left, c :: rest =>
    match read left (c :: rest) with
    | some a => some (0, a)
    | none => (firstMatch? read (some c) rest).map fun (n, a) => (n + 1, a)

/-- A search from the beginning of a line. -/
def find? {α : Type} (read : Option Char → Text → Option α) (s : Text) : Option α :=
  (firstMatch? read none s).map (·.2)

/-- A part of a text: a character by itself, or something found. -/
inductive Piece (α : Type) where
  | char (c : Char)
  | found (a : α)
  deriving Repr, DecidableEq

/-- The parts of a text by a recogniser that gives what it found and the text after it; a success
    that passes over nothing does not count. -/
def pieces {α : Type} (read : Text → Option (α × Text)) (s : Text) : List (Piece α) :=
  match s with
  | [] => []
  | c :: rest =>
    match read (c :: rest) with
    | none => .char c :: pieces read rest
    | some (a, after) =>
      if after.length < (c :: rest).length then .found a :: pieces read after
      else .char c :: pieces read rest
termination_by s.length
decreasing_by all_goals simp only [List.length_cons] at *; omega

/-- What was found, in order. -/
def found {α : Type} : List (Piece α) → List α
  | [] => []
  | .char _ :: rest => found rest
  | .found a :: rest => a :: found rest

/-- Puts the parts together again, writing what was found anew. -/
def fill {α : Type} (write : α → Text) : List (Piece α) → Text
  | [] => []
  | .char c :: rest => c :: fill write rest
  | .found a :: rest => write a ++ fill write rest

/-- Skips white space and then reads a given character. -/
def expect? (c : Char) (s : Text) : Option Text :=
  match trimStart s with
  | [] => none
  | d :: rest => if d = c then some rest else none

/-- Simple case folding onto ASCII letters, which the long s and the Kelvin sign fold onto too. -/
def foldChar (c : Char) : Char :=
  if c.toNat = 0x17F then 's' else if c.toNat = 0x212A then 'k' else c.toLower

/-- What follows a beginning of lower-case letters, in any case. -/
def stripFolded? : Text → Text → Option Text
  | [], s => some s
  | _ :: _, [] => none
  | a :: start, c :: s => if a = foldChar c then stripFolded? start s else none

end EndpointConsole.Text
