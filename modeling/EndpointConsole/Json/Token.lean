import EndpointConsole.Encoding.Hex
import EndpointConsole.Json

/-!
The tokens of JSON text. A string or a number of the right form is a token even
if it stands for nothing: a lone surrogate escape, or a number beyond the
largest; its content is then `none`, and whoever needs the content refuses it.
White space between tokens is the four characters of the JSON grammar.
-/
namespace EndpointConsole.Json

inductive Token where
  | openArray
  | closeArray
  | openObject
  | closeObject
  | comma
  | colon
  | null
  | bool (b : Bool)
  | number (n : Option Number)
  | string (s : Option Text)
  deriving Repr, DecidableEq

/-- White space of the JSON grammar. -/
def isSpace (c : Char) : Bool := c == ' ' || c == '\n' || c == '\t' || c == '\r'

/-! ### Numbers -/

/-- Digits gathered into a significand that fits a machine word, and the power of ten that the
    digits left out stand for. -/
structure Gathered where
  significand : Nat
  exponent : Int
  full : Bool
  deriving Repr, DecidableEq

/-- Whether another digit would leave the range of machine words. -/
def Gathered.overflows (g : Gathered) (digit : Nat) : Bool := maxWord < g.significand * 10 + digit

/-- Gathers a digit before the point: once the word is full, each digit left out is a factor of ten. -/
def Gathered.whole (g : Gathered) (digit : Nat) : Gathered :=
  if g.full || g.overflows digit then { g with exponent := g.exponent + 1, full := true }
  else { g with significand := g.significand * 10 + digit }

/-- Gathers a digit after the point: once one does not fit, the rest is dropped. -/
def Gathered.fraction (g : Gathered) (digit : Nat) : Gathered :=
  if g.full || g.overflows digit then { g with full := true }
  else { g with significand := g.significand * 10 + digit, exponent := g.exponent - 1 }

def digitValue (c : Char) : Nat := c.toNat - 48

/-- The written parts of a number. -/
structure NumberText where
  negative : Bool
  whole : Text
  fraction : Option Text
  exponent : Option Int
  deriving Repr

/-- An integer keeps its value as long as it fits a word, signed if negative; minus zero and all
    other numbers are floating-point. -/
def NumberText.value? (t : NumberText) : Option Number :=
  let g : Gathered := t.whole.foldl (fun g c => g.whole (digitValue c)) ⟨0, 0, false⟩
  match t.fraction, t.exponent with
  | none, none =>
    if g.full then (Binary64.ofDecimal t.negative g.significand g.exponent).map .real
    else if !t.negative then some (.int g.significand)
    else if 0 < g.significand ∧ minSigned ≤ -(g.significand : Int) then some (.int (-g.significand))
    else (Binary64.ofRatio true g.significand 1).map .real
  | fraction, exponent =>
    let g : Gathered := (fraction.getD []).foldl (fun g c => g.fraction (digitValue c)) { g with full := false }
    (Binary64.ofDecimal t.negative g.significand (g.exponent + exponent.getD 0)).map .real

def natOfDigits (s : Text) : Nat := s.foldl (fun n c => n * 10 + digitValue c) 0

/-- Reads the digits at the beginning, of which there must be one. -/
def readDigits (s : Text) : Option (Text × Text) :=
  match s.takeWhile Char.isDigit with
  | [] => none
  | first :: more => some (first :: more, s.dropWhile Char.isDigit)

/-- Reads the fraction of a number, if a point follows. -/
def readFraction : Text → Option (Option Text × Text)
  | '.' :: rest => (readDigits rest).map fun (digits, after) => (some digits, after)
  | rest => some (none, rest)

/-- Takes a sign off the beginning. -/
def takeSign : Text → Bool × Text
  | '-' :: rest => (true, rest)
  | '+' :: rest => (false, rest)
  | rest => (false, rest)

/-- Reads the exponent of a number, if its letter follows. -/
def readExponent : Text → Option (Option Int × Text)
  | [] => some (none, [])
  | c :: rest =>
    if c = 'e' ∨ c = 'E' then
      (readDigits (takeSign rest).2).map fun (digits, after) =>
        (some (if (takeSign rest).1 then -(natOfDigits digits : Int) else natOfDigits digits), after)
    else some (none, c :: rest)

/-- Reads a number without its sign. A leading zero stands alone. -/
def readUnsigned (negative : Bool) (s : Text) : Option (Option Number × Text) := do
  let (whole, rest) ← readDigits s
  let (fraction, rest) ← readFraction rest
  let (exponent, rest) ← readExponent rest
  if whole.head? = some '0' ∧ whole.length ≠ 1 then none
  else pure (NumberText.value? ⟨negative, whole, fraction, exponent⟩, rest)

/-! ### Strings -/

/-- The number that four hexadecimal digits write. -/
def fourDigits? (a b c d : Char) : Option Nat := do
  let i ← Hex.digit? a
  let j ← Hex.digit? b
  let k ← Hex.digit? c
  let l ← Hex.digit? d
  pure (((i * 16 + j) * 16 + k) * 16 + l)

def isHighSurrogate (n : Nat) : Bool := 0xD800 ≤ n && n ≤ 0xDBFF

def isLowSurrogate (n : Nat) : Bool := 0xDC00 ≤ n && n ≤ 0xDFFF

/-- The character of a surrogate pair. -/
def joinSurrogates (high low : Nat) : Char := Char.ofNat ((high - 0xD800) * 0x400 + (low - 0xDC00) + 0x10000)

/-- The character that a single-letter escape stands for. -/
def escapedChar? (c : Char) : Option Char :=
  if c = '"' ∨ c = '\\' ∨ c = '/' then some c
  else if c = 'b' then some (Char.ofNat 8)
  else if c = 'f' then some (Char.ofNat 12)
  else if c = 'n' then some '\n'
  else if c = 'r' then some '\r'
  else if c = 't' then some '\t'
  else none

/-- The escape of a UTF-16 unit at the beginning: the unit and what follows. -/
def takeUnit? : Text → Option (Nat × Text)
  | '\\' :: 'u' :: a :: b :: c :: d :: rest => (fourDigits? a b c d).map (·, rest)
  | _ => none

/-- What comes next in a string. -/
inductive Piece where
  | close
  /-- A character, or an escape that stands for none. -/
  | char (c : Option Char)
  deriving Repr, DecidableEq

/-- Reads one character, one escape, one pair of surrogate escapes or the closing quote. Control
    characters must be escaped. -/
def readPiece : Text → Option (Piece × Text)
  | [] => none
  | '"' :: rest => some (.close, rest)
  | '\\' :: 'u' :: rest => do
    let (n, rest) ← takeUnit? ('\\' :: 'u' :: rest)
    if isHighSurrogate n then
      match takeUnit? rest with
      | some (low, after) =>
        if isLowSurrogate low then pure (.char (some (joinSurrogates n low)), after) else pure (.char none, rest)
      | none => pure (.char none, rest)
    else if isLowSurrogate n then pure (.char none, rest)
    else pure (.char (some (Char.ofNat n)), rest)
  | '\\' :: c :: rest => (escapedChar? c).map fun c => (.char (some c), rest)
  | c :: rest => if c.toNat < 0x20 || c == '\\' then none else some (.char (some c), rest)

theorem takeUnit?_length {s rest : Text} {n : Nat} (h : takeUnit? s = some (n, rest)) : rest.length < s.length := by
  unfold takeUnit? at h
  split at h
  · simp only [Option.map_eq_some_iff, Prod.mk.injEq] at h
    obtain ⟨_, _, _, rfl⟩ := h
    simp only [List.length_cons]; omega
  · simp at h

theorem readPiece_length {s rest : Text} {p : Piece} (h : readPiece s = some (p, rest)) : rest.length < s.length := by
  unfold readPiece at h
  split at h
  · simp at h
  · simp only [Option.some.injEq, Prod.mk.injEq] at h
    obtain ⟨_, rfl⟩ := h
    simp
  · simp only [Option.bind_eq_bind, Option.bind_eq_some_iff] at h
    obtain ⟨⟨n, first⟩, unit, h⟩ := h
    have shorter := takeUnit?_length unit
    simp only at h
    split at h
    · split at h
      · next low after second =>
        have shorterStill := takeUnit?_length second
        split at h <;>
          simp only [Option.pure_def, Option.some.injEq, Prod.mk.injEq] at h <;> obtain ⟨_, rfl⟩ := h <;> omega
      · simp only [Option.pure_def, Option.some.injEq, Prod.mk.injEq] at h
        obtain ⟨_, rfl⟩ := h
        exact shorter
    · split at h <;>
        simp only [Option.pure_def, Option.some.injEq, Prod.mk.injEq] at h <;> obtain ⟨_, rfl⟩ := h <;>
        exact shorter
  · simp only [Option.map_eq_some_iff, Prod.mk.injEq] at h
    obtain ⟨_, _, _, rfl⟩ := h
    simp only [List.length_cons]; omega
  · split at h
    · simp at h
    · simp only [Option.some.injEq, Prod.mk.injEq] at h
      obtain ⟨_, rfl⟩ := h
      simp

/-- Reads a string after its opening quote. -/
def readString (s : Text) : Option (Option Text × Text) :=
  match h : readPiece s with
  | none => none
  | some (.close, rest) => some (some [], rest)
  | some (.char c, rest) =>
    have := readPiece_length h
    (readString rest).map fun (content, after) => (content.bind fun t => c.map (· :: t), after)
termination_by s.length

/-! ### Tokens -/

/-- The tokens of one character. -/
def punctuation? (c : Char) : Option Token :=
  if c = '[' then some .openArray
  else if c = ']' then some .closeArray
  else if c = '\x7b' then some .openObject
  else if c = '\x7d' then some .closeObject
  else if c = ',' then some .comma
  else if c = ':' then some .colon
  else none

/-- The tokens that are words. -/
def wordTokens : List (Text × Token) :=
  [("null".toList, .null), ("true".toList, .bool true), ("false".toList, .bool false)]

/-- Reads the first of some words that the text begins with. -/
def readWord (s : Text) : List (Text × Token) → Option (Token × Text)
  | [] => none
  | (word, t) :: more =>
    match Text.stripStart? word s with
    | some rest => some (t, rest)
    | none => readWord s more

/-- Reads the token at the beginning of a text that does not begin with white space. -/
def readToken : Text → Option (Token × Text)
  | [] => none
  | c :: rest =>
    match punctuation? c with
    | some t => some (t, rest)
    | none =>
      if c = '"' then (readString rest).map fun (s, after) => (.string s, after)
      else if c = '-' then (readUnsigned true rest).map fun (n, after) => (.number n, after)
      else if c.isDigit then (readUnsigned false (c :: rest)).map fun (n, after) => (.number n, after)
      else readWord (c :: rest) wordTokens

theorem readString_length {s rest : Text} {content : Option Text} (h : readString s = some (content, rest)) :
    rest.length < s.length := by
  fun_induction readString s generalizing content rest with
  | case1 => simp at h
  | case2 s after piece =>
    simp only [Option.some.injEq, Prod.mk.injEq] at h
    obtain ⟨_, rfl⟩ := h
    exact readPiece_length piece
  | case3 s c after piece shorter ih =>
    simp only [Option.map_eq_some_iff, Prod.mk.injEq] at h
    obtain ⟨⟨t, after'⟩, read, _, rfl⟩ := h
    exact Nat.lt_trans (ih read) shorter

theorem stripStart?_length {start s rest : Text} (h : Text.stripStart? start s = some rest) :
    rest.length ≤ s.length := by
  fun_induction Text.stripStart? start s with
  | case1 s => simp only [Option.some.injEq] at h; subst h; exact Nat.le_refl _
  | case2 => simp at h
  | case3 _ _ _ ih => exact Nat.le_succ_of_le (ih h)
  | case4 => simp at h

theorem stripStart?_lt {start s rest : Text} (nonempty : start ≠ []) (h : Text.stripStart? start s = some rest) :
    rest.length < s.length := by
  unfold Text.stripStart? at h
  split at h
  · exact absurd rfl nonempty
  · simp at h
  · split at h
    · exact Nat.lt_succ_of_le (stripStart?_length h)
    · simp at h

theorem readDigits_length {s digits rest : Text} (h : readDigits s = some (digits, rest)) :
    rest.length < s.length := by
  unfold readDigits at h
  have parts : (s.takeWhile Char.isDigit).length + (s.dropWhile Char.isDigit).length = s.length := by
    rw [← List.length_append, List.takeWhile_append_dropWhile]
  split at h
  · simp at h
  · next first more found =>
    simp only [Option.some.injEq, Prod.mk.injEq] at h
    obtain ⟨_, rfl⟩ := h
    simp only [found, List.length_cons] at parts
    omega

theorem readFraction_length {s rest : Text} {f : Option Text} (h : readFraction s = some (f, rest)) :
    rest.length ≤ s.length := by
  unfold readFraction at h
  split at h
  · simp only [Option.map_eq_some_iff, Prod.mk.injEq] at h
    obtain ⟨⟨_, _⟩, digits, _, rfl⟩ := h
    exact Nat.le_of_lt (Nat.lt_succ_of_lt (readDigits_length digits))
  · simp only [Option.some.injEq, Prod.mk.injEq] at h
    obtain ⟨_, rfl⟩ := h
    exact Nat.le_refl _

theorem takeSign_length (s : Text) : (takeSign s).2.length ≤ s.length := by
  unfold takeSign
  split <;> simp

theorem readExponent_length {s rest : Text} {e : Option Int} (h : readExponent s = some (e, rest)) :
    rest.length ≤ s.length := by
  unfold readExponent at h
  split at h
  · simp only [Option.some.injEq, Prod.mk.injEq] at h
    obtain ⟨_, rfl⟩ := h
    exact Nat.le_refl _
  · next c tail =>
    split at h
    · simp only [Option.map_eq_some_iff, Prod.mk.injEq] at h
      obtain ⟨⟨_, _⟩, digits, _, rfl⟩ := h
      exact Nat.le_succ_of_le (Nat.le_of_lt (Nat.lt_of_lt_of_le (readDigits_length digits) (takeSign_length tail)))
    · simp only [Option.some.injEq, Prod.mk.injEq] at h
      obtain ⟨_, rfl⟩ := h
      exact Nat.le_refl _

theorem readUnsigned_length {negative : Bool} {s rest : Text} {n : Option Number}
    (h : readUnsigned negative s = some (n, rest)) : rest.length < s.length := by
  simp only [readUnsigned, Option.bind_eq_bind, Option.bind_eq_some_iff] at h
  obtain ⟨⟨_, _⟩, whole, ⟨_, _⟩, fraction, ⟨_, _⟩, exponent, h⟩ := h
  split at h
  · simp at h
  · simp only [Option.pure_def, Option.some.injEq, Prod.mk.injEq] at h
    obtain ⟨_, rfl⟩ := h
    have first := readDigits_length whole
    have second := readFraction_length fraction
    have third := readExponent_length exponent
    exact Nat.lt_of_le_of_lt (Nat.le_trans third second) first

theorem map_length {α β : Type} {r : Option (α × Text)} {f : α → β} {bound : Nat} {t : β} {rest : Text}
    (shorter : ∀ a after, r = some (a, after) → after.length < bound)
    (h : r.map (fun (a, after) => (f a, after)) = some (t, rest)) : rest.length < bound := by
  simp only [Option.map_eq_some_iff, Prod.mk.injEq] at h
  obtain ⟨⟨a, after⟩, read, _, rfl⟩ := h
  exact shorter a after read

theorem readWord_length {s rest : Text} {t : Token} {words : List (Text × Token)}
    (nonempty : ∀ w ∈ words, w.1 ≠ []) (h : readWord s words = some (t, rest)) : rest.length < s.length := by
  fun_induction readWord s words with
  | case1 => simp at h
  | case2 word u more after found =>
    simp only [Option.some.injEq, Prod.mk.injEq] at h
    obtain ⟨_, rfl⟩ := h
    exact stripStart?_lt (nonempty _ (List.mem_cons_self ..)) found
  | case3 word u more _ ih => exact ih (fun w inMore => nonempty w (List.mem_cons_of_mem _ inMore)) h

theorem wordTokens_nonempty : ∀ w ∈ wordTokens, w.1 ≠ [] := by decide

theorem readToken_length {s rest : Text} {t : Token} (h : readToken s = some (t, rest)) :
    rest.length < s.length := by
  unfold readToken at h
  split at h
  · simp at h
  · next c tail =>
    split at h
    · simp only [Option.some.injEq, Prod.mk.injEq] at h
      rw [← h.2]
      exact Nat.lt_succ_self _
    · by_cases quote : c = '"'
      · rw [if_pos quote] at h
        exact map_length (fun _ _ read => Nat.lt_succ_of_lt (readString_length read)) h
      rw [if_neg quote] at h
      by_cases minus : c = '-'
      · rw [if_pos minus] at h
        exact map_length (fun _ _ read => Nat.lt_succ_of_lt (readUnsigned_length read)) h
      rw [if_neg minus] at h
      by_cases digit : c.isDigit
      · rw [if_pos digit] at h
        exact map_length (fun _ _ read => readUnsigned_length read) h
      rw [if_neg digit] at h
      exact readWord_length wordTokens_nonempty h

/-- The tokens of a text, or `none` if some part of it is no token. -/
def tokens? (s : Text) : Option (List Token) :=
  match s with
  | [] => some []
  | c :: rest =>
    if isSpace c then tokens? rest
    else
      match h : readToken (c :: rest) with
      | none => none
      | some (t, after) =>
        have := readToken_length h
        (tokens? after).map (t :: ·)
termination_by s.length
decreasing_by all_goals simp only [List.length_cons] at *; omega

end EndpointConsole.Json
