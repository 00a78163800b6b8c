import EndpointConsole.Proofs.Source.Margins
import EndpointConsole.Route.Version

/-!
The marks of block comments. The search for comments goes by the last mark on the nearest line that has one
(`insideBlock_iff`), wherever on the line it stands. Read as source text, marks in string literals and behind
the marks of line comments mean nothing (`Hides`), so that lines without other marks leave no comment open
(`inBlock_of_hides`). The search takes what follows them for commented out all the same if the nearest of
their marks opens a comment, and a version attribute there does not count (`isCommentedOut_of_hides`).
-/
namespace EndpointConsole

namespace Source
open Text

variable {s line : Text} {lines above : List Text} {opens : Bool} {c : Char}

/-- The mark that opens a block comment, or the one that closes it. -/
def mark (opens : Bool) : Text := if opens then "/*".toList else "*/".toList

def Unmarked (s : Text) : Prop := ∀ opens, ¬mark opens <:+: s

/-- Whether the last mark on a line opens a comment or closes one: no mark begins behind its first character. -/
def LastMark (opens : Bool) (line : Text) : Prop :=
  ∃ before after, line = before ++ (mark opens ++ after) ∧ Unmarked ((mark opens).tail ++ after)

/-- Whether the last mark on the nearest line with a mark opens a comment or closes one. -/
inductive NearestMark (opens : Bool) : List Text → Prop where
  | here {line : Text} {above : List Text} (last : LastMark opens line) : NearestMark opens (line :: above)
  | above {line : Text} {above : List Text} (unmarked : Unmarked line) (nearest : NearestMark opens above) :
      NearestMark opens (line :: above)

theorem markAt_eq_some_iff : markAt c s.head? = some opens ↔ mark opens <+: c :: s := by
  constructor
  · intro marked
    unfold markAt at marked
    split at marked
    · next star =>
      cases marked
      obtain ⟨more, rfl⟩ := List.head?_eq_some_iff.mp star
      exact ⟨more, rfl⟩
    · next slash =>
      cases marked
      obtain ⟨more, rfl⟩ := List.head?_eq_some_iff.mp slash
      exact ⟨more, rfl⟩
    · cases marked
  · rintro ⟨more, whole⟩
    cases opens with
    | true =>
      obtain ⟨rfl, rfl⟩ := List.cons.inj whole
      rfl
    | false =>
      obtain ⟨rfl, rfl⟩ := List.cons.inj whole
      rfl

theorem unmarked_cons : Unmarked (c :: s) ↔ markAt c s.head? = none ∧ Unmarked s := by
  simp only [Unmarked, List.infix_cons_iff, not_or, forall_and, ← markAt_eq_some_iff]
  rw [Option.eq_none_iff_forall_ne_some]

theorem blockAfter_eq_none_iff : blockAfter s = none ↔ Unmarked s := by
  induction s with
  | nil =>
    refine iff_of_true rfl fun opens inside => ?_
    cases opens <;> cases List.infix_nil.mp inside
  | cons c rest ih => rw [blockAfter_cons, Option.or_eq_none_iff, ih, unmarked_cons, and_comm]

theorem blockAfter_eq_some_iff : blockAfter s = some opens ↔ LastMark opens s := by
  induction s with
  | nil =>
    refine iff_of_false (by simp [blockAfter]) ?_
    rintro ⟨before, after, whole, -⟩
    cases opens <;> simp [mark] at whole
  | cons c rest ih =>
    rw [blockAfter_cons, Option.or_eq_some_iff, ih, blockAfter_eq_none_iff, markAt_eq_some_iff]
    constructor
    · rintro (⟨before, after, rfl, last⟩ | ⟨unmarked, after, whole⟩)
      · exact ⟨c :: before, after, rfl, last⟩
      · refine ⟨[], after, whole.symm, ?_⟩
        have behind : (mark opens).tail ++ after = rest := by
          cases opens <;> exact (List.cons.inj whole).2
        rwa [behind]
    · rintro ⟨before, after, whole, last⟩
      cases before with
      | nil =>
        refine .inr ⟨?_, after, whole.symm⟩
        have behind : rest = (mark opens).tail ++ after := by
          cases opens <;> exact (List.cons.inj whole).2
        rwa [behind]
      | cons b before =>
        obtain ⟨rfl, rfl⟩ := List.cons.inj whole
        exact .inl ⟨before, after, rfl, last⟩

theorem not_unmarked_of_lastMark (last : LastMark opens line) : ¬Unmarked line := by
  rw [← blockAfter_eq_none_iff, blockAfter_eq_some_iff.mpr last]
  exact Option.some_ne_none opens

theorem insideBlock_iff : insideBlock lines = true ↔ NearestMark true lines := by
  induction lines with
  | nil => exact iff_of_false Bool.false_ne_true nofun
  | cons line above ih =>
    rw [insideBlock]
    cases held : blockAfter line with
    | none =>
      have unmarked := blockAfter_eq_none_iff.mp held
      refine ih.trans ⟨.above unmarked, fun nearest => ?_⟩
      cases nearest with
      | here last => exact absurd unmarked (not_unmarked_of_lastMark last)
      | above _ nearest => exact nearest
    | some opens =>
      have last := blockAfter_eq_some_iff.mp held
      cases opens with
      | true => exact iff_of_true rfl (.here last)
      | false =>
        refine iff_of_false Bool.false_ne_true fun nearest => ?_
        cases nearest with
        | here other =>
          rw [blockAfter_eq_some_iff.mpr other] at held
          cases held
        | above unmarked => exact not_unmarked_of_lastMark last unmarked

/-- Where a reader of the language is on a line: behind a slash or a backslash, behind the star that may end a block
    comment, or within something. Nothing but a block comment goes on over the end of a line. -/
inductive Place where
  | code
  | slash
  | literal
  | literalEscape
  | character
  | characterEscape
  | lineComment
  | block
  | star
  deriving DecidableEq

namespace Place

/-- Where a reader is who has read one more character. The quote of characters is given by its code point. -/
def next (p : Place) (c : Char) : Place :=
  match p with
  | .code => if c = '/' then .slash else if c = '"' then .literal else if c.toNat = 39 then .character else .code
  | .slash =>
    if c = '/' then .lineComment else if c = '*' then .block else if c = '"' then .literal
    else if c.toNat = 39 then .character else .code
  | .literal => if c = '"' then .code else if c = '\\' then .literalEscape else .literal
  | .literalEscape => .literal
  | .character => if c.toNat = 39 then .code else if c = '\\' then .characterEscape else .character
  | .characterEscape => .character
  | .lineComment => .lineComment
  | .block => if c = '*' then .star else .block
  | .star => if c = '/' then .code else if c = '*' then .star else .block

/-- Within a block comment. -/
def inBlock (p : Place) : Bool := p == .block || p == .star

/-- Within a string literal, or behind the mark of a line comment. -/
def Sheltered (p : Place) : Prop := p = .literal ∨ p = .literalEscape ∨ p = .lineComment

instance : DecidablePred Sheltered := fun _ => inferInstanceAs (Decidable (_ ∨ _))

end Place

/-- Whether a block comment is open at the end of the first of some lines, nearest first. -/
def inBlock : List Text → Bool
  | [] => false
  | line :: above => (line.foldl Place.next (if inBlock above then .block else .code)).inBlock

/-- Whether all marks that are left to read of a line begin in a literal or a line comment. -/
def Hides : Place → Text → Prop
  | _, [] => True
  | p, c :: rest => ((∃ opens, mark opens <+: c :: rest) → (p.next c).Sheltered) ∧ Hides (p.next c) rest

instance decidableHides : (p : Place) → (s : Text) → Decidable (Hides p s)
  | _, [] => .isTrue trivial
  | p, c :: rest =>
    have := decidableHides (p.next c) rest
    inferInstanceAs (Decidable (((∃ opens, mark opens <+: c :: rest) → (p.next c).Sheltered) ∧ Hides (p.next c) rest))

/-- A block comment is opened by a star behind a slash. -/
theorem next_inBlock {p : Place} (outside : p.inBlock = false) (unopened : p = .slash → c ≠ '*') :
    (p.next c).inBlock = false := by
  cases p with
  | block => cases outside
  | star => cases outside
  | slash =>
    simp only [Place.next, if_neg (unopened rfl)]
    repeat' split
    all_goals rfl
  | _ =>
    simp only [Place.next]
    repeat' split
    all_goals rfl

theorem eq_of_next_slash {p : Place} (slash : p.next c = .slash) : c = '/' := by
  by_contra other
  cases p with
  | code =>
    simp only [Place.next, if_neg other] at slash
    repeat' split at slash
    all_goals cases slash
  | _ =>
    simp only [Place.next] at slash
    repeat' split at slash
    all_goals cases slash

/-- Marks that a reader passes over open no block comment. -/
theorem foldl_inBlock_of_hides {p : Place} (hides : Hides p s) (outside : p.inBlock = false)
    (unopened : p = .slash → s.head? ≠ some '*') : (s.foldl Place.next p).inBlock = false := by
  induction s generalizing p with
  | nil => exact outside
  | cons c rest ih =>
    obtain ⟨sheltered, later⟩ := hides
    refine ih later (next_inBlock outside fun slash star => unopened slash (congrArg some star)) fun slash star => ?_
    -- a slash that a star follows is a mark, and it was not read in shelter
    obtain rfl := eq_of_next_slash slash
    have marked := sheltered ⟨true, markAt_eq_some_iff.mp (by rw [star]; rfl)⟩
    rw [slash] at marked
    exact absurd marked (by decide)

theorem inBlock_of_hides (hidden : ∀ line ∈ lines, Hides .code line) : inBlock lines = false := by
  induction lines with
  | nil => rfl
  | cons line above ih =>
    rw [List.forall_mem_cons] at hidden
    rw [inBlock, ih hidden.2]
    exact foldl_inBlock_of_hides hidden.1 rfl nofun

theorem isCommentedOut_iff (uncommented : ∀ start ∈ ["//".toList, "/*".toList], startsWith start (trim line) = false) :
    isCommentedOut line above = true ↔ NearestMark true (line :: above.take commentLookback) := by
  simp only [List.forall_mem_cons, List.not_mem_nil, false_implies, forall_const, and_true] at uncommented
  rw [isCommentedOut, uncommented.1, uncommented.2, Bool.false_or, Bool.false_or, insideBlock_iff]

/-- A line that opens no comment, with no marks on it and on the lines above it but in literals and line comments, is
    in no block comment. It is taken for commented out just if the nearest of those marks opens a comment, and the
    version that it gives counts just if it is not. -/
theorem isCommentedOut_of_hides
    (uncommented : ∀ start ∈ ["//".toList, "/*".toList], startsWith start (trim line) = false)
    (hidden : ∀ l ∈ line :: above.take commentLookback, Hides .code l) :
    inBlock (line :: above.take commentLookback) = false ∧
      (isCommentedOut line above = true ↔ NearestMark true (line :: above.take commentLookback)) ∧
      ∀ version window, apiVersionAttribute? (trim line) = some version →
        (¬NearestMark true (line :: above.take commentLookback) →
          Route.versionIn? (line :: window) (line :: above) = some version) ∧
        (NearestMark true (line :: above.take commentLookback) →
          Route.versionIn? (line :: window) (line :: above) = Route.versionIn? window above) := by
  have commented : isCommentedOut line above = true ↔ NearestMark true (line :: above.take commentLookback) :=
    isCommentedOut_iff uncommented
  refine ⟨inBlock_of_hides hidden, commented, fun version window given => ⟨fun unmarked => ?_, fun nearest => ?_⟩⟩
  · rw [Route.versionIn?, if_neg (mt commented.mp unmarked), given]
  · rw [Route.versionIn?, if_pos (commented.mpr nearest)]

def versionLine : Text := "[ApiVersion(\"2.0\")]".toList

def mediaTypeLine : Text := "[Produces(\"*/*\")]".toList

/-- Any media type above a version hides it. -/
theorem versionIn?_below_media_type :
    (∀ start ∈ ["//".toList, "/*".toList], startsWith start (trim versionLine) = false) ∧
    (∀ l ∈ versionLine :: [mediaTypeLine].take commentLookback, Hides .code l) ∧
    inBlock [versionLine, mediaTypeLine] = false ∧ NearestMark true [versionLine, mediaTypeLine] ∧
    Route.versionIn? [versionLine, mediaTypeLine] [versionLine, mediaTypeLine] = none := by
  have uncommented : ∀ start ∈ ["//".toList, "/*".toList], startsWith start (trim versionLine) = false := by decide
  have hidden : ∀ l ∈ versionLine :: [mediaTypeLine].take commentLookback, Hides .code l := by decide
  obtain ⟨outside, commented, versions⟩ := isCommentedOut_of_hides uncommented hidden
  have nearest : NearestMark true (versionLine :: [mediaTypeLine].take commentLookback) := commented.mp (by decide)
  have given : apiVersionAttribute? (trim versionLine) = some "2.0".toList := by decide +kernel
  have passed := (versions _ [mediaTypeLine] given).2 nearest
  exact ⟨uncommented, hidden, outside, nearest, passed.trans (by decide)⟩

/-- A mark in a literal hides the line below it. -/
theorem isCommentedOut_media_type : ¬∀ (line : Text) (above : List Text),
    (∀ start ∈ ["//".toList, "/*".toList], startsWith start (trim line) = false) →
    (∀ l ∈ line :: above.take commentLookback, Hides .code l) → isCommentedOut line above = false := by
  intro never
  have shown := never versionLine [mediaTypeLine] (by decide) (by decide)
  exact absurd shown (by decide)

end Source

end EndpointConsole
