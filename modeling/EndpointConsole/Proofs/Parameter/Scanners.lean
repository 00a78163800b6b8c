import EndpointConsole.Proofs.Parameter.Balanced
import EndpointConsole.Proofs.Text.Blank

/-!
The scanners of parameter lists, each with what it finds. The search for the closing
parenthesis counts round brackets only and gives the list between the first parenthesis
and its partner (`balanced?_list`). The search for commas counts all brackets and gives back
the pieces that were joined (`splitTopLevel_joinWith`). The search for an equals sign gives
what stands before it (`beforeEquals_balanced`). The search for the bracket that ends an
attribute section counts square brackets only and reads literals like everything else
(`cutAtBracket?_section`).
-/
namespace EndpointConsole.Parameter

theorem plain_iff {c : Char} : isPlain c = true ↔ opensBracket c = false ∧ closesBracket c = false ∧ c ≠ '"' := by
  simp [isPlain, and_assoc]

theorem ne_of_plain {c d : Char} (plain : isPlain c = true) (mark : isPlain d = false) : c ≠ d := by
  rintro rfl
  rw [plain] at mark
  cases mark

theorem literalChar_iff {c : Char} : isLiteralChar c = true ↔ isPlain c = true ∧ c ≠ '\\' := by
  simp [isLiteralChar]

theorem closesLiteral_congr {p q : Char} (plain : p ≠ '\\') (plain' : q ≠ '\\') (c : Char) :
    closesLiteral p c = closesLiteral q c := by
  rw [closesLiteral, closesLiteral, bne_iff_ne.mpr plain, bne_iff_ne.mpr plain']

theorem not_closesLiteral {c : Char} (inside : isLiteralChar c = true) (p : Char) : closesLiteral p c = false := by
  simp [closesLiteral, ne_of_plain (literalChar_iff.mp inside).1 (d := '"') rfl]

theorem not_cut {c separator : Char} {context : List Bracket} (kept : context = [] → c ∉ [separator]) :
    ¬(c = separator ∧ (context.length : Int) ≤ 0) := by
  rintro ⟨same, top⟩
  exact kept (List.eq_nil_of_length_eq_zero (by omega)) (same ▸ List.mem_singleton_self separator)

/-- Outside literals the character before does not matter. -/
theorem balancedFrom_outside (p q : Char) (depth : Nat) (s : Text) :
    balancedFrom depth false p s = balancedFrom depth false q s := by
  cases s <;> rfl

/-- Inside a literal it matters only whether it is a backslash. -/
theorem balancedFrom_inside {p : Char} (q : Char) (plain : p ≠ '\\') (plain' : q ≠ '\\') (depth : Nat) (s : Text) :
    balancedFrom depth true p s = balancedFrom depth true q s := by
  cases s with
  | nil => rfl
  | cons c rest =>
    rw [balancedFrom, balancedFrom, closesLiteral_congr plain plain']

/-- The search for the parenthesis that ends a list. -/
def parenthesisScanner : Scanner (Option Text) where
  scan context s := balancedFrom (context.count .round + 1) false ' ' s
  literal context s := balancedFrom (context.count .round + 1) true ' ' s
  keep c := Option.map (c :: ·)
  separators := []
  scan_char {c context} plain _ rest := by
    rw [balancedFrom, if_neg Bool.false_ne_true, if_neg (ne_of_plain plain rfl), if_neg (ne_of_plain plain rfl),
      if_neg (ne_of_plain plain rfl), balancedFrom_outside c ' ']
  scan_opening b context rest := by
    simp only [balancedFrom, balancedFrom_outside b.opening ' ']
    cases b <;> simp [Bracket.opening]
  scan_closing b context rest := by
    simp only [balancedFrom, balancedFrom_outside b.closing ' ']
    cases b <;> simp [Bracket.closing]
  scan_quote context rest := congrArg (Option.map ('"' :: ·)) (balancedFrom_inside ' ' (by decide) (by decide) _ rest)
  literal_char inside context rest := by
    rw [balancedFrom, if_pos rfl, not_closesLiteral inside, Bool.not_false,
      balancedFrom_inside ' ' (literalChar_iff.mp inside).2 (by decide)]
  literal_quote context rest := congrArg (Option.map ('"' :: ·)) (balancedFrom_outside '"' ' ' _ rest)

theorem foldr_parentheses (s : Text) (x : Option Text) : s.foldr parenthesisScanner.keep x = x.map (s ++ ·) := by
  induction s with
  | nil => exact Option.map_id_apply.symm
  | cons c rest ih =>
    rw [List.foldr_cons, ih]
    exact Option.map_map _ _ x

/-- Balanced text in parentheses, behind a text without any, is the list. -/
theorem balanced?_list {separators : List Char} {start list : Text} (absent : '(' ∉ start)
    (balanced : Balanced separators list) (finish : Text) :
    balanced? (start ++ '(' :: (list ++ ')' :: finish)) = some list := by
  have passed := parenthesisScanner.scan_balanced balanced [] (fun _ => List.nil_subset _) (')' :: finish)
  have ends : parenthesisScanner.scan [] (')' :: finish) = some [] := rfl
  rw [foldr_parentheses, ends, Option.map_some, List.append_nil] at passed
  rw [balanced?, Text.cutAt?_append absent]
  exact (balancedFrom_outside '(' ' ' 1 _).trans passed

theorem splitFrom_outside (p q : Char) (current : Text) (depth : Int) (s : Text) :
    splitFrom current depth false p s = splitFrom current depth false q s := by
  cases s <;> rfl

theorem splitFrom_inside {p : Char} (q : Char) (plain : p ≠ '\\') (plain' : q ≠ '\\') (current : Text) (depth : Int)
    (s : Text) : splitFrom current depth true p s = splitFrom current depth true q s := by
  cases s with
  | nil => rfl
  | cons c rest =>
    rw [splitFrom, splitFrom, closesLiteral_congr plain plain']

/-- The search for commas, for each beginning of the open piece. -/
def commaScanner : Scanner (Text → List Text) where
  scan context s current := splitFrom current context.length false ' ' s
  literal context s current := splitFrom current context.length true ' ' s
  keep c pieces current := pieces (c :: current)
  separators := [',']
  scan_char {c context} plain kept rest := by
    funext current
    obtain ⟨opens, closes, quote⟩ := plain_iff.mp plain
    rw [splitFrom, if_neg Bool.false_ne_true, if_neg quote, if_neg (Bool.eq_false_iff.mp opens),
      if_neg (Bool.eq_false_iff.mp closes), if_neg (not_cut kept), splitFrom_outside c ' ']
  scan_opening b context rest := by
    funext current
    simp [splitFrom, splitFrom_outside b.opening ' ']
  scan_closing b context rest := by
    funext current
    simp [splitFrom, splitFrom_outside b.closing ' ']
  scan_quote context rest := funext fun current => splitFrom_inside ' ' (by decide) (by decide) ('"' :: current) _ rest
  literal_char inside context rest := by
    funext current
    rw [splitFrom, if_pos rfl, not_closesLiteral inside, Bool.not_false,
      splitFrom_inside ' ' (literalChar_iff.mp inside).2 (by decide)]
  literal_quote context rest := funext fun current => splitFrom_outside '"' ' ' ('"' :: current) _ rest

theorem foldr_commas (s : Text) (pieces : Text → List Text) (current : Text) :
    s.foldr commaScanner.keep pieces current = pieces (s.reverse ++ current) := by
  induction s generalizing current with
  | nil => rfl
  | cons c rest ih =>
    rw [List.reverse_cons, List.append_assoc, List.singleton_append]
    exact ih (c :: current)

theorem splitFrom_balanced {piece : Text} (balanced : Balanced [','] piece) (current rest : Text) :
    splitFrom current 0 false ' ' (piece ++ rest) = splitFrom (piece.reverse ++ current) 0 false ' ' rest :=
  (congrFun (commaScanner.scan_balanced balanced [] (fun _ => List.Subset.refl _) rest) current).trans
    (foldr_commas piece _ current)

theorem splitFrom_joinWith {pieces : List Text} (some_piece : pieces ≠ [])
    (each : ∀ piece ∈ pieces, Balanced [','] piece) :
    splitFrom [] 0 false ' ' (Text.joinWith [','] pieces) = pieces := by
  fun_induction Text.joinWith [','] pieces with
  | case1 => exact absurd rfl some_piece
  | case2 s =>
    have last := splitFrom_balanced (each s List.mem_cons_self) [] []
    rw [List.append_nil, List.append_nil] at last
    rw [last, splitFrom, List.reverse_reverse]
  | case3 s t rest ih =>
    have tail := ih (List.cons_ne_nil t rest) fun piece among => each piece (List.mem_cons_of_mem s among)
    have cut (current more : Text) :
        splitFrom current 0 false ' ' (',' :: more) = current.reverse :: splitFrom [] 0 false ' ' more :=
      congrArg (current.reverse :: ·) (splitFrom_outside ',' ' ' [] 0 more)
    rw [List.append_assoc, splitFrom_balanced (each s List.mem_cons_self), List.singleton_append, cut, tail,
      List.append_nil, List.reverse_reverse]

/-- Pieces joined by commas are found again, without their margins. -/
theorem splitTopLevel_joinWith {pieces : List Text} (each : ∀ piece ∈ pieces, Balanced [','] piece)
    (solid : ∀ piece ∈ pieces, ¬Text.IsBlank piece) :
    splitTopLevel (Text.joinWith [','] pieces) = pieces.map Text.trim := by
  by_cases none : pieces = []
  · rw [none]
    rfl
  · rw [splitTopLevel, splitFrom_outside _ ' ', splitFrom_joinWith none each, List.filter_eq_self]
    intro part among
    obtain ⟨piece, inside, rfl⟩ := List.mem_map.mp among
    rw [Bool.not_eq_true', List.isEmpty_eq_false_iff]
    exact fun emptied => solid piece inside (Text.blank_of_trim emptied)

/-- The search for the equals sign of a default. -/
def equalsScanner : Scanner (Text × Bool) where
  scan context s := beforeEquals context.length false s
  literal context s := beforeEquals context.length true s
  keep c := Prod.map (c :: ·) id
  separators := ['=']
  scan_char {c context} plain kept rest := by
    obtain ⟨opens, closes, quote⟩ := plain_iff.mp plain
    rw [beforeEquals, if_neg Bool.false_ne_true, if_neg (Bool.eq_false_iff.mp opens),
      if_neg (Bool.eq_false_iff.mp closes), if_neg quote, if_neg (not_cut kept)]
    rfl
  scan_opening b context rest := by
    simp [beforeEquals, Prod.map]
  scan_closing b context rest := by
    simp [beforeEquals, Prod.map]
  scan_quote context rest := rfl
  literal_char inside context rest := by
    rw [beforeEquals, if_pos rfl, bne_iff_ne.mpr (ne_of_plain (literalChar_iff.mp inside).1 (d := '"') rfl)]
    rfl
  literal_quote context rest := rfl

theorem foldr_equals (s : Text) (x : Text × Bool) : s.foldr equalsScanner.keep x = (s ++ x.1, x.2) := by
  induction s with
  | nil => rfl
  | cons c rest ih =>
    rw [List.foldr_cons, ih]
    rfl

theorem beforeEquals_balanced {declared : Text} (balanced : Balanced ['='] declared) (rest : Text) :
    beforeEquals 0 false (declared ++ rest) =
      (declared ++ (beforeEquals 0 false rest).1, (beforeEquals 0 false rest).2) :=
  (equalsScanner.scan_balanced balanced [] (fun _ => List.Subset.refl _) rest).trans
    (foldr_equals declared _)

theorem cutAtBracket?_closing (depth : Nat) (rest : Text) :
    cutAtBracket? ((depth + 1 : Nat) + 1) (']' :: rest) =
      (cutAtBracket? (depth + 1) rest).map fun cut => (']' :: cut.1, cut.2) := by
  have closing : ¬(']' = '[') := by decide
  have inner : ((depth + 1 : Nat) : Int) + 1 ≠ 1 := by omega
  have back : ((depth + 1 : Nat) : Int) + 1 - 1 = depth + 1 := by omega
  rw [cutAtBracket?, if_neg closing, if_neg fun last => inner last.2, if_pos rfl, back]

/-- The search for the bracket that ends an attribute section, which takes no notice of literals. -/
def sectionScanner : Scanner (Option (Text × Text)) where
  scan context s := cutAtBracket? (context.count .square + 1) s
  literal context s := cutAtBracket? (context.count .square + 1) s
  keep c := Option.map fun cut => (c :: cut.1, cut.2)
  separators := []
  scan_char plain _ rest := by
    rw [cutAtBracket?, if_neg (ne_of_plain plain rfl), if_neg fun ends => ne_of_plain plain rfl ends.1,
      if_neg (ne_of_plain plain rfl)]
  scan_opening b context rest := by
    rw [cutAtBracket?]
    cases b <;> simp [Bracket.opening]
  scan_closing b context rest := by
    cases b with
    | square => rw [List.count_cons_self, Bracket.closing, cutAtBracket?_closing]
    | angle | round | curly => simp [Bracket.closing, cutAtBracket?]
  scan_quote context rest := rfl
  literal_char inside context rest := by
    have plain := (literalChar_iff.mp inside).1
    rw [cutAtBracket?, if_neg (ne_of_plain plain rfl), if_neg fun ends => ne_of_plain plain rfl ends.1,
      if_neg (ne_of_plain plain rfl)]
  literal_quote context rest := rfl

theorem foldr_sections (s : Text) (x : Option (Text × Text)) :
    s.foldr sectionScanner.keep x = x.map fun cut => (s ++ cut.1, cut.2) := by
  induction s with
  | nil => exact Option.map_id_apply.symm
  | cons c rest ih =>
    rw [List.foldr_cons, ih]
    exact Option.map_map _ _ x

theorem cutAtBracket?_section {separators : List Char} {body : Text} (balanced : Balanced separators body)
    (rest : Text) : cutAtBracket? 1 (body ++ ']' :: rest) = some (body, rest) := by
  have passed := sectionScanner.scan_balanced balanced [] (fun _ => List.nil_subset _) (']' :: rest)
  have ends : sectionScanner.scan [] (']' :: rest) = some ([], rest) := rfl
  rw [foldr_sections, ends] at passed
  exact passed.trans (congrArg (fun a => some (a, rest)) (List.append_nil body))

theorem readAttributes?_cons (explicit : Option ParameterSource) (s : Text) :
    readAttributes? explicit ('[' :: s) = (cutAtBracket? 1 s).bind fun cut =>
      readAttributes? (explicit <|> bindingOf? cut.1) (Text.trimStart cut.2) := by
  rw [readAttributes?, if_pos rfl]
  split
  · next unclosed => simp [unclosed]
  · next closed => simp [closed]

theorem readAttributes?_end {s : Text} (ends : s.head? ≠ some '[') (explicit : Option ParameterSource) :
    readAttributes? explicit s = some (explicit, s) := by
  cases s with
  | nil => rw [readAttributes?]
  | cons c rest => rw [readAttributes?, if_neg fun opens => ends (congrArg some opens)]

end EndpointConsole.Parameter
