import EndpointConsole.Proofs.Parameter.Scanners

/-!
String literals among the text that the scanners of parameter lists go through. What a scanner
finds behind some text depends on that text only by where it leaves the scanner (`balancedFrom_append`,
`splitFrom_append`, `beforeEquals_append`, `cutAtBracket?_append`), and a literal leaves a scanner where
it was, each scanner on its own terms: the searches for parentheses and commas need a last character
that is no backslash (`Closes`), the search for an equals sign takes any quote for the end, and the
search for the end of an attribute section counts the square brackets in a literal as well.
-/
namespace EndpointConsole.Parameter

/-- What may stand between the quotes of a literal: a backslash makes any character a part of it. -/
inductive LiteralBody : Text → Prop
  | nil : LiteralBody []
  | char {c : Char} {s : Text} (notQuote : c ≠ '"') (notBackslash : c ≠ '\\') (rest : LiteralBody s) :
      LiteralBody (c :: s)
  | escape (c : Char) {s : Text} (rest : LiteralBody s) : LiteralBody ('\\' :: c :: s)

/-- A literal with its quotes. -/
def quoted (body : Text) : Text := '"' :: (body ++ ['"'])

theorem quoted_append (body rest : Text) : quoted body ++ rest = '"' :: (body ++ '"' :: rest) := by
  rw [quoted, List.cons_append, List.append_assoc, List.singleton_append]

/-- A literal whose closing quote no backslash stands before. -/
structure Closes (body : Text) : Prop where
  literal : LiteralBody body
  ends : body.getLast? ≠ some '\\'

theorem LiteralBody.of_absent {s : Text} (noQuote : '"' ∉ s) (noBackslash : '\\' ∉ s) : LiteralBody s := by
  induction s with
  | nil => exact .nil
  | cons c rest ih =>
    rw [List.mem_cons, not_or] at noQuote noBackslash
    exact .char (Ne.symm noQuote.1) (Ne.symm noBackslash.1) (ih noQuote.2 noBackslash.2)

/-- Whether a scanner that minds backslashes is in a literal behind a character. -/
def literalNext (inLiteral : Bool) (previous c : Char) : Bool :=
  if inLiteral then !closesLiteral previous c else c == '"'

/-- Whether it is in a literal behind a text. -/
def literalAfter (inLiteral : Bool) (previous : Char) : Text → Bool
  | [] => inLiteral
  | c :: rest => literalAfter (literalNext inLiteral previous c) c rest

theorem literalAfter_outside (p q : Char) (s : Text) : literalAfter false p s = literalAfter false q s := by
  cases s <;> rfl

/-- A scanner that minds backslashes goes over what is in a literal, and over the closing quote. -/
theorem foldr_literal {α : Type} (scan : Bool → Char → Text → α) (keep : Char → α → α)
    (inside : ∀ p c rest, scan true p (c :: rest) = keep c (scan (!closesLiteral p c) c rest)) {body : Text}
    (closes : Closes body) (rest : Text) :
    scan true '"' (body ++ '"' :: rest) = (body ++ ['"']).foldr keep (scan false '"' rest) := by
  obtain ⟨literal, ends⟩ := closes
  -- the character before the closing quote is the last of the body, or the opening quote
  suffices walked : ∀ p, p ≠ '\\' ∨ body ≠ [] →
      scan true p (body ++ '"' :: rest) = (body ++ ['"']).foldr keep (scan false '"' rest) from
    walked '"' (.inl (by decide))
  induction literal with
  | nil =>
    intro p plain
    have plain : p ≠ '\\' := plain.resolve_right (not_not.mpr rfl)
    rw [List.nil_append, inside, closesLiteral, bne_iff_ne.mpr plain]
    rfl
  | @char c s notQuote notBackslash _ ih =>
    intro p _
    have goesOn : closesLiteral p c = false := by simp [closesLiteral, notQuote]
    have tail : s.getLast? ≠ some '\\' := by
      cases s with
      | nil => simp
      | cons => rwa [List.getLast?_cons_cons] at ends
    rw [List.cons_append, inside, goesOn, Bool.not_false, ih tail c (.inl notBackslash)]
    rfl
  | @escape c s _ ih =>
    intro p _
    have first : closesLiteral p '\\' = false := rfl
    have second : closesLiteral '\\' c = false := by simp [closesLiteral]
    rw [List.cons_append, List.cons_append, inside, first, Bool.not_false, inside, second, Bool.not_false]
    cases s with
    | nil =>
      have plain : c ≠ '\\' := by simpa using ends
      rw [ih (by simp) c (.inl plain)]
      rfl
    | cons d more =>
      rw [List.getLast?_cons_cons, List.getLast?_cons_cons] at ends
      rw [ih ends c (.inr (List.cons_ne_nil d more))]
      rfl

theorem balancedFrom_cons (depth : Nat) (inLiteral : Bool) (previous c : Char) :
    (∀ rest, balancedFrom depth inLiteral previous (c :: rest) = some []) ∨
      ∃ deeper, ∀ rest, balancedFrom depth inLiteral previous (c :: rest) =
        (balancedFrom deeper (literalNext inLiteral previous c) c rest).map (c :: ·) := by
  cases inLiteral with
  | true => exact .inr ⟨depth, fun _ => rfl⟩
  | false =>
    by_cases quote : c = '"'
    · exact .inr ⟨depth, fun rest => by rw [quote]; rfl⟩
    · have outside : literalNext false previous c = false := by simpa [literalNext] using quote
      rw [outside]
      by_cases opens : c = '('
      · exact .inr ⟨depth + 1, fun rest => by rw [opens]; rfl⟩
      · by_cases closes : c = ')'
        · by_cases last : depth ≤ 1
          · exact .inl fun rest => by simp [balancedFrom, closes, last]
          · exact .inr ⟨depth - 1, fun rest => by simp [balancedFrom, closes, last]⟩
        · exact .inr ⟨depth, fun rest => by simp [balancedFrom, quote, opens, closes]⟩

/-- The list ends within some text, or whatever follows the text is read from where the text leaves the scanner. -/
theorem balancedFrom_append (depth : Nat) (inLiteral : Bool) (previous : Char) (a : Text) :
    (∃ list, ∀ rest, balancedFrom depth inLiteral previous (a ++ rest) = some list) ∨
      ∃ deeper last, ∀ rest, balancedFrom depth inLiteral previous (a ++ rest) =
        (balancedFrom deeper (literalAfter inLiteral previous a) last rest).map (a ++ ·) := by
  induction a generalizing depth inLiteral previous with
  | nil => exact .inr ⟨depth, previous, fun rest => Option.map_id_apply.symm⟩
  | cons c more ih =>
    rcases balancedFrom_cons depth inLiteral previous c with ends | ⟨deeper, next⟩
    · exact .inl ⟨[], fun rest => ends (more ++ rest)⟩
    · rcases ih deeper (literalNext inLiteral previous c) c with ⟨list, found⟩ | ⟨deeper, last, passed⟩
      · exact .inl ⟨c :: list, fun rest => by rw [List.cons_append, next, found, Option.map_some]⟩
      · refine .inr ⟨deeper, last, fun rest => ?_⟩
        rw [List.cons_append, next, passed, Option.map_map]
        rfl

theorem balancedFrom_quoted {body : Text} (closes : Closes body) (depth : Nat) (previous : Char) (rest : Text) :
    balancedFrom depth false previous (quoted body ++ rest) =
      (balancedFrom depth false '"' rest).map (quoted body ++ ·) := by
  have walked := foldr_literal (balancedFrom depth) parenthesisScanner.keep (fun _ _ _ => rfl) closes rest
  rw [foldr_parentheses] at walked
  rw [quoted_append, balancedFrom, if_neg Bool.false_ne_true, if_pos rfl, walked, Option.map_map]
  rfl

theorem splitFrom_cons (depth : Int) (inLiteral : Bool) (previous c : Char) :
    (literalNext inLiteral previous c = false ∧ ∀ current rest,
        splitFrom current depth inLiteral previous (c :: rest) = current.reverse :: splitFrom [] depth false c rest) ∨
      ∃ deeper, ∀ current rest, splitFrom current depth inLiteral previous (c :: rest) =
        splitFrom (c :: current) deeper (literalNext inLiteral previous c) c rest := by
  cases inLiteral with
  | true => exact .inr ⟨depth, fun _ _ => rfl⟩
  | false =>
    by_cases quote : c = '"'
    · exact .inr ⟨depth, fun current rest => by rw [quote]; rfl⟩
    · have outside : literalNext false previous c = false := by simpa [literalNext] using quote
      rw [outside]
      by_cases opens : opensBracket c = true
      · exact .inr ⟨depth + 1, fun current rest => by simp [splitFrom, quote, opens]⟩
      · by_cases closes : closesBracket c = true
        · exact .inr ⟨depth - 1, fun current rest => by simp [splitFrom, quote, opens, closes]⟩
        · by_cases cut : c = ',' ∧ depth ≤ 0
          · refine .inl ⟨rfl, fun current rest => ?_⟩
            rw [splitFrom, if_neg Bool.false_ne_true, if_neg quote, if_neg opens, if_neg closes, if_pos cut]
          · refine .inr ⟨depth, fun current rest => ?_⟩
            rw [splitFrom, if_neg Bool.false_ne_true, if_neg quote, if_neg opens, if_neg closes, if_neg cut]

/-- Some text gives pieces and leaves one open. -/
theorem splitFrom_append (current : Text) (depth : Int) (inLiteral : Bool) (previous : Char) (a : Text) :
    ∃ pieces piece deeper last, ∀ rest, splitFrom current depth inLiteral previous (a ++ rest) =
      pieces ++ splitFrom piece deeper (literalAfter inLiteral previous a) last rest := by
  induction a generalizing current depth inLiteral previous with
  | nil => exact ⟨[], current, depth, previous, fun rest => rfl⟩
  | cons c more ih =>
    rcases splitFrom_cons depth inLiteral previous c with ⟨outside, cut⟩ | ⟨deeper, next⟩
    · obtain ⟨pieces, piece, deeper, last, passed⟩ := ih [] depth false c
      refine ⟨current.reverse :: pieces, piece, deeper, last, fun rest => ?_⟩
      rw [List.cons_append, cut, passed, literalAfter, outside, List.cons_append]
    · obtain ⟨pieces, piece, deeper, last, passed⟩ := ih (c :: current) deeper (literalNext inLiteral previous c) c
      refine ⟨pieces, piece, deeper, last, fun rest => ?_⟩
      rw [List.cons_append, next, passed, literalAfter]

/-- The open piece goes on with the beginning of what follows. -/
theorem splitFrom_current (depth : Int) (inLiteral : Bool) (previous : Char) (s : Text) :
    ∃ first more, ∀ current, splitFrom current depth inLiteral previous s = (current.reverse ++ first) :: more := by
  induction s generalizing depth inLiteral previous with
  | nil => exact ⟨[], [], fun current => by rw [splitFrom, List.append_nil]⟩
  | cons c rest ih =>
    rcases splitFrom_cons depth inLiteral previous c with ⟨_, cut⟩ | ⟨deeper, next⟩
    · exact ⟨[], splitFrom [] depth false c rest, fun current => by rw [cut, List.append_nil]⟩
    · obtain ⟨first, more, passed⟩ := ih deeper (literalNext inLiteral previous c) c
      refine ⟨c :: first, more, fun current => ?_⟩
      rw [next, passed, List.reverse_cons, List.append_assoc, List.singleton_append]

theorem splitFrom_quoted {body : Text} (closes : Closes body) (current : Text) (depth : Int) (previous : Char)
    (rest : Text) :
    splitFrom current depth false previous (quoted body ++ rest) =
      splitFrom ((quoted body).reverse ++ current) depth false '"' rest := by
  have walked := congrFun (foldr_literal (fun inLiteral p s current => splitFrom current depth inLiteral p s)
    commaScanner.keep (fun _ _ _ => rfl) closes rest) ('"' :: current)
  rw [foldr_commas] at walked
  rw [quoted_append, splitFrom, if_neg Bool.false_ne_true, if_pos rfl]
  simpa [quoted] using walked

/-- The piece that a text leaves open. -/
def openPiece (s : Text) : Text := (splitFrom [] 0 false (Char.ofNat 0) s).getLastD []

/-- A literal behind some text lies in the piece that the text leaves open, whatever its body is. -/
theorem splitFrom_literal {a : Text} (outside : literalAfter false (Char.ofNat 0) a = false) (rest : Text) :
    ∃ pieces first more, ∀ body, Closes body → splitFrom [] 0 false (Char.ofNat 0) (a ++ (quoted body ++ rest)) =
      pieces ++ (openPiece a ++ (quoted body ++ first)) :: more := by
  obtain ⟨pieces, piece, deeper, last, passed⟩ := splitFrom_append [] 0 false (Char.ofNat 0) a
  obtain ⟨first, more, goesOn⟩ := splitFrom_current deeper false '"' rest
  have left : openPiece a = piece.reverse := by
    have whole := passed []
    rw [List.append_nil, splitFrom] at whole
    rw [openPiece, whole]
    simp
  refine ⟨pieces, first, more, fun body closes => ?_⟩
  rw [passed, outside, splitFrom_quoted closes, goesOn, left]
  simp

/-- Whether the search for an equals sign is in a literal behind a text: any quote opens or closes one. -/
def quotesOpen (inLiteral : Bool) : Text → Bool
  | [] => inLiteral
  | c :: rest => quotesOpen (inLiteral != (c == '"')) rest

theorem beforeEquals_cons (depth : Int) (inLiteral : Bool) (c : Char) :
    (∀ rest, beforeEquals depth inLiteral (c :: rest) = ([], true)) ∨
      ∃ deeper, ∀ rest, beforeEquals depth inLiteral (c :: rest) =
        equalsScanner.keep c (beforeEquals deeper (inLiteral != (c == '"')) rest) := by
  cases inLiteral with
  | true =>
    rw [Bool.true_bne]
    exact .inr ⟨depth, fun _ => rfl⟩
  | false =>
    rw [Bool.false_bne]
    by_cases quote : c = '"'
    · exact .inr ⟨depth, fun rest => by rw [quote]; rfl⟩
    · rw [beq_eq_false_iff_ne.mpr quote]
      by_cases opens : opensBracket c = true
      · exact .inr ⟨depth + 1, fun rest => by rw [beforeEquals, if_neg Bool.false_ne_true, if_pos opens]; rfl⟩
      · by_cases closes : closesBracket c = true
        · refine .inr ⟨depth - 1, fun rest => ?_⟩
          rw [beforeEquals, if_neg Bool.false_ne_true, if_neg opens, if_pos closes]
          rfl
        · by_cases found : c = '=' ∧ depth ≤ 0
          · refine .inl fun rest => ?_
            rw [beforeEquals, if_neg Bool.false_ne_true, if_neg opens, if_neg closes, if_neg quote, if_pos found]
          · refine .inr ⟨depth, fun rest => ?_⟩
            rw [beforeEquals, if_neg Bool.false_ne_true, if_neg opens, if_neg closes, if_neg quote, if_neg found]
            rfl

/-- An equals sign is found within some text, or looked for from where the text leaves the scanner. -/
theorem beforeEquals_append (depth : Int) (inLiteral : Bool) (a : Text) :
    (∃ declared, ∀ rest, beforeEquals depth inLiteral (a ++ rest) = (declared, true)) ∨
      ∃ deeper, ∀ rest, beforeEquals depth inLiteral (a ++ rest) =
        a.foldr equalsScanner.keep (beforeEquals deeper (quotesOpen inLiteral a) rest) := by
  induction a generalizing depth inLiteral with
  | nil => exact .inr ⟨depth, fun rest => rfl⟩
  | cons c more ih =>
    rcases beforeEquals_cons depth inLiteral c with ends | ⟨deeper, next⟩
    · exact .inl ⟨[], fun rest => ends (more ++ rest)⟩
    · rcases ih deeper (inLiteral != (c == '"')) with ⟨declared, found⟩ | ⟨deeper, passed⟩
      · exact .inl ⟨c :: declared, fun rest => by rw [List.cons_append, next, found]; rfl⟩
      · exact .inr ⟨deeper, fun rest => by rw [List.cons_append, next, passed]; rfl⟩

theorem beforeEquals_quoted {body : Text} (noQuote : '"' ∉ body) (depth : Int) (rest : Text) :
    beforeEquals depth false (quoted body ++ rest) =
      (quoted body).foldr equalsScanner.keep (beforeEquals depth false rest) := by
  have inside : beforeEquals depth true (body ++ '"' :: rest) =
      (body ++ ['"']).foldr equalsScanner.keep (beforeEquals depth false rest) := by
    induction body with
    | nil => rfl
    | cons c more ih =>
      rw [List.mem_cons, not_or] at noQuote
      have goesOn : (c != '"') = true := bne_iff_ne.mpr (Ne.symm noQuote.1)
      rw [List.cons_append, beforeEquals, if_pos rfl, goesOn]
      exact congrArg (equalsScanner.keep c) (ih noQuote.2)
  rw [quoted_append, quoted, List.foldr_cons, ← inside]
  rfl

/-- A literal behind an equals sign does not matter. -/
theorem beforeEquals_behind {a : Text} (found : (beforeEquals 0 false a).2 = true) (rest : Text) :
    beforeEquals 0 false (a ++ rest) = beforeEquals 0 false a := by
  rcases beforeEquals_append 0 false a with ⟨declared, ends⟩ | ⟨deeper, passed⟩
  · have whole := ends []
    rw [List.append_nil] at whole
    rw [ends, whole]
  · have whole := passed []
    rw [List.append_nil, foldr_equals] at whole
    rw [whole] at found
    cases found

/-- A literal without quotes in it is passed over. -/
theorem beforeEquals_literal {a : Text} (ahead : (beforeEquals 0 false a).2 = false)
    (outside : quotesOpen false a = false) (rest : Text) :
    ∃ declared found, ∀ body, '"' ∉ body →
      beforeEquals 0 false (a ++ (quoted body ++ rest)) = (a ++ (quoted body ++ declared), found) := by
  rcases beforeEquals_append 0 false a with ⟨declared, ends⟩ | ⟨deeper, passed⟩
  · have whole := ends []
    rw [List.append_nil] at whole
    rw [whole] at ahead
    cases ahead
  · refine ⟨(beforeEquals deeper false rest).1, (beforeEquals deeper false rest).2, fun body noQuote => ?_⟩
    rw [passed, outside, beforeEquals_quoted noQuote, foldr_equals, foldr_equals]

/-- Text in which square brackets match. -/
inductive SquareBalanced : Text → Prop
  | nil : SquareBalanced []
  | char {c : Char} {s : Text} (notOpening : c ≠ '[') (notClosing : c ≠ ']') (rest : SquareBalanced s) :
      SquareBalanced (c :: s)
  | group {inner s : Text} (inside : SquareBalanced inner) (rest : SquareBalanced s) :
      SquareBalanced ('[' :: (inner ++ ']' :: s))

theorem SquareBalanced.append {a b : Text} (first : SquareBalanced a) (second : SquareBalanced b) :
    SquareBalanced (a ++ b) := by
  induction first with
  | nil => exact second
  | char notOpening notClosing _ ih => exact .char notOpening notClosing ih
  | group inside _ _ ih =>
    rw [List.cons_append, List.append_assoc, List.cons_append]
    exact .group inside ih

theorem SquareBalanced.of_absent {s : Text} (noOpening : '[' ∉ s) (noClosing : ']' ∉ s) : SquareBalanced s := by
  induction s with
  | nil => exact .nil
  | cons c rest ih =>
    rw [List.mem_cons, not_or] at noOpening noClosing
    exact .char (Ne.symm noOpening.1) (Ne.symm noClosing.1) (ih noOpening.2 noClosing.2)

theorem SquareBalanced.quoted {body : Text} (balanced : SquareBalanced body) : SquareBalanced (quoted body) :=
  .char (by decide) (by decide) (balanced.append (.char (by decide) (by decide) .nil))

theorem cutAtBracket?_cons (depth : Int) (c : Char) :
    (∀ rest, cutAtBracket? depth (c :: rest) = some ([], rest)) ∨
      ∃ deeper, (1 ≤ depth → 1 ≤ deeper) ∧
        ∀ rest, cutAtBracket? depth (c :: rest) = sectionScanner.keep c (cutAtBracket? deeper rest) := by
  by_cases opens : c = '['
  · exact .inr ⟨depth + 1, by omega, fun rest => by rw [cutAtBracket?, if_pos opens]; rfl⟩
  · by_cases closes : c = ']'
    · by_cases last : depth = 1
      · exact .inl fun rest => by rw [cutAtBracket?, if_neg opens, if_pos ⟨closes, last⟩]
      · refine .inr ⟨depth - 1, by omega, fun rest => ?_⟩
        rw [cutAtBracket?, if_neg opens, if_neg fun ends => last ends.2, if_pos closes]
        rfl
    · refine .inr ⟨depth, id, fun rest => ?_⟩
      rw [cutAtBracket?, if_neg opens, if_neg fun ends => closes ends.1, if_neg closes]
      rfl

/-- A section ends within some text, or its end is looked for from where the text leaves the scanner. -/
theorem cutAtBracket?_append (depth : Int) (a : Text) :
    (∃ body left, ∀ rest, cutAtBracket? depth (a ++ rest) = some (body, left ++ rest)) ∨
      ∃ deeper, (1 ≤ depth → 1 ≤ deeper) ∧
        ∀ rest, cutAtBracket? depth (a ++ rest) = a.foldr sectionScanner.keep (cutAtBracket? deeper rest) := by
  induction a generalizing depth with
  | nil => exact .inr ⟨depth, id, fun rest => rfl⟩
  | cons c more ih =>
    rcases cutAtBracket?_cons depth c with ends | ⟨deeper, inside, next⟩
    · exact .inl ⟨[], more, fun rest => ends (more ++ rest)⟩
    · rcases ih deeper with ⟨body, left, found⟩ | ⟨deepest, deep, passed⟩
      · exact .inl ⟨c :: body, left, fun rest => by rw [List.cons_append, next, found]; rfl⟩
      · exact .inr ⟨deepest, deep ∘ inside, fun rest => by rw [List.cons_append, next, passed]; rfl⟩

theorem cutAtBracket?_square {s : Text} (balanced : SquareBalanced s) {depth : Int} (inside : 1 ≤ depth) (rest : Text) :
    cutAtBracket? depth (s ++ rest) = s.foldr sectionScanner.keep (cutAtBracket? depth rest) := by
  induction balanced generalizing depth rest with
  | nil => rfl
  | char notOpening notClosing _ ih =>
    rw [List.cons_append, cutAtBracket?, if_neg notOpening, if_neg fun ends => notClosing ends.1, if_neg notClosing,
      ih inside]
    rfl
  | @group inner s _ _ inner_ih ih =>
    have closing : cutAtBracket? (depth + 1) (']' :: (s ++ rest)) =
        sectionScanner.keep ']' (cutAtBracket? depth (s ++ rest)) := by
      rw [cutAtBracket?, if_neg (by decide), if_neg fun ends => absurd ends.2 (by omega), if_pos rfl,
        Int.add_sub_cancel]
      rfl
    rw [List.cons_append, List.append_assoc, List.cons_append, cutAtBracket?, if_pos rfl, inner_ih (by omega), closing,
      ih inside, List.foldr_cons, List.foldr_append, List.foldr_cons]
    rfl

/-- A section that ends before a literal ends there whatever follows. -/
theorem cutAtBracket?_closed {a body left : Text} (closed : cutAtBracket? 1 a = some (body, left)) (rest : Text) :
    cutAtBracket? 1 (a ++ rest) = some (body, left ++ rest) := by
  rcases cutAtBracket?_append 1 a with ⟨body', left', found⟩ | ⟨deeper, _, passed⟩
  · have whole := found []
    rw [List.append_nil, List.append_nil, closed] at whole
    cases whole
    exact found rest
  · have whole := passed []
    rw [List.append_nil, closed, foldr_sections] at whole
    cases whole

/-- A literal in which square brackets match is passed over in a section. -/
theorem cutAtBracket?_literal {a : Text} (unclosed : cutAtBracket? 1 a = none) (rest : Text) :
    ∃ found : Option (Text × Text), ∀ body, SquareBalanced body →
      cutAtBracket? 1 (a ++ (quoted body ++ rest)) = found.map fun cut => (a ++ (quoted body ++ cut.1), cut.2) := by
  rcases cutAtBracket?_append 1 a with ⟨body', left', found⟩ | ⟨deeper, inside, passed⟩
  · have whole := found []
    rw [List.append_nil, unclosed] at whole
    cases whole
  · refine ⟨cutAtBracket? deeper rest, fun body balanced => ?_⟩
    rw [passed, cutAtBracket?_square balanced.quoted (inside (Int.le_refl 1)), foldr_sections, foldr_sections, Option.map_map]
    rfl

end EndpointConsole.Parameter
