import EndpointConsole.Parameter.Binding
import EndpointConsole.Proofs.Parameter.Positions

/-!
What is in a string literal does not change how parameters are classified (`classify_literal`), in
a default or in an argument of an attribute, if the scanners find its end: no backslash stands before
the closing quote, and in an argument there are no further quotes and square brackets match. Without
any one of these it does (`literals_read`).
-/
namespace EndpointConsole.Parameter
open Text (trim trimStart trimEnd)
open Written (Attribute Space)

variable {body other : Text}

theorem trimStart_quoted (a body b : Text) : trimStart (a ++ (quoted body ++ b)) = trimStart a ++ (quoted body ++ b) := by
  rw [quoted_append, Text.trimStart_append rfl]

theorem trimEnd_quoted (a body b : Text) : trimEnd (a ++ (quoted body ++ b)) = a ++ (quoted body ++ trimEnd b) := by
  have ends := Text.trimEnd_append (c := '"') rfl (a ++ '"' :: body) b
  rw [quoted_append, quoted_append]
  simpa using ends

theorem trim_quoted (a body b : Text) : trim (a ++ (quoted body ++ b)) = trimStart a ++ (quoted body ++ trimEnd b) := by
  rw [trim, trimStart_quoted, trimEnd_quoted]

/-- A literal lies in one piece between commas, whatever its body is. -/
theorem splitTopLevel_literal {a : Text} (outside : literalAfter false (Char.ofNat 0) a = false) (rest : Text) :
    ∃ pieces first more, ∀ body, Closes body → splitTopLevel (a ++ (quoted body ++ rest)) =
      pieces ++ (trimStart (openPiece a) ++ (quoted body ++ first)) :: more := by
  obtain ⟨pieces, first, more, split⟩ := splitFrom_literal outside rest
  refine ⟨(pieces.map trim).filter fun part => !part.isEmpty, trimEnd first,
    (more.map trim).filter fun part => !part.isEmpty, fun body closes => ?_⟩
  rw [splitTopLevel, split body closes, List.map_append, List.map_cons, trim_quoted, List.filter_append,
    List.filter_cons_of_pos (by simp [quoted])]

/-- The name of an attribute stands before its arguments. -/
theorem attributeName_append {a : Text} (called : '(' ∈ a) (rest : Text) : attributeName (a ++ rest) = attributeName a := by
  obtain ⟨first, more, rfl, absent⟩ := List.eq_append_cons_of_mem called
  rw [List.append_assoc, List.cons_append, attributeName, attributeName, Text.before_append absent,
    Text.before_append absent]

/-- An argument does not matter for the source that a section names. -/
theorem bindingOf?_literal {a : Text} (outside : literalAfter false (Char.ofNat 0) a = false)
    (called : '(' ∈ openPiece a) (rest : Text) (closes : Closes body) (closes' : Closes other) :
    bindingOf? (a ++ (quoted body ++ rest)) = bindingOf? (a ++ (quoted other ++ rest)) := by
  obtain ⟨pieces, first, more, split⟩ := splitTopLevel_literal outside rest
  have called : '(' ∈ trimStart (openPiece a) := by
    obtain ⟨before, behind, same⟩ := List.append_of_mem called
    rw [same, Text.trimStart_append rfl]
    exact List.mem_append_right _ List.mem_cons_self
  have named (literal : Text) : attributeName (trimStart (openPiece a) ++ (literal ++ first)) =
      attributeName (trimStart (openPiece a)) := attributeName_append called _
  rw [bindingOf?, bindingOf?, split body closes, split other closes', List.findSome?_append, List.findSome?_append,
    List.findSome?_cons, List.findSome?_cons, named, named]

/-- An argument does not matter for the source that the sections name. -/
theorem readAttributes?_literal {s sofar : Text} (opened : OpenSection s sofar)
    (outside : literalAfter false (Char.ofNat 0) sofar = false) (called : '(' ∈ openPiece sofar)
    (explicit : Option ParameterSource) (rest : Text) (closes : Closes body) (closes' : Closes other)
    (balanced : SquareBalanced body) (balanced' : SquareBalanced other) :
    readAttributes? explicit (s ++ (quoted body ++ rest)) = readAttributes? explicit (s ++ (quoted other ++ rest)) := by
  induction opened generalizing explicit with
  | here unclosed =>
    obtain ⟨found, cut⟩ := cutAtBracket?_literal unclosed rest
    rw [List.cons_append, List.cons_append, readAttributes?_cons, readAttributes?_cons, cut body balanced,
      cut other balanced', Option.bind_map, Option.bind_map]
    refine Option.bind_congr fun behind _ => ?_
    simp only [Function.comp_def, bindingOf?_literal outside called behind.1 closes closes']
  | @later s closed left sofar cut next ih =>
    rw [List.cons_append, List.cons_append, readAttributes?_cons, readAttributes?_cons, cutAtBracket?_closed cut,
      cutAtBracket?_closed cut, Option.bind_some, Option.bind_some, trimStart_quoted, trimStart_quoted]
    exact ih outside called _

/-- What the scanners that come to such a position pass over. -/
def Position.Passes : Position → Text → Prop
  | default, body => Closes body
  | argument, body => Closes body ∧ '"' ∉ body ∧ SquareBalanced body

theorem Position.Passes.closes {position : Position} {body : Text} (passes : position.Passes body) : Closes body := by
  cases position with
  | default => exact passes
  | argument => exact passes.1

theorem ofText?_literal {position : Position} {s : Text} (reached : position.Reached s) (rest : Text)
    (passes : position.Passes body) (passes' : position.Passes other) :
    Declaration.ofText? (s ++ (quoted body ++ rest)) = Declaration.ofText? (s ++ (quoted other ++ rest)) := by
  cases position with
  | default => rw [Declaration.ofText?, Declaration.ofText?, beforeEquals_behind reached, beforeEquals_behind reached]
  | argument =>
    obtain ⟨ahead, even, sofar, opened, outside, called⟩ := reached
    obtain ⟨closes, noQuote, balanced⟩ := passes
    obtain ⟨closes', noQuote', balanced'⟩ := passes'
    obtain ⟨declared, found, cut⟩ := beforeEquals_literal ahead even rest
    rw [Declaration.ofText?, Declaration.ofText?, cut body noQuote, cut other noQuote']
    dsimp only
    rw [trim_quoted, trim_quoted, opened.trimStart,
      readAttributes?_literal opened outside called none _ closes closes' balanced balanced']

theorem declarations_literal {position : Position} {list : Text}
    (outside : literalAfter false (Char.ofNat 0) list = false) (reached : position.Reached (trimStart (openPiece list)))
    (rest : Text) (passes : position.Passes body) (passes' : position.Passes other) :
    declarations (list ++ (quoted body ++ rest)) = declarations (list ++ (quoted other ++ rest)) := by
  obtain ⟨pieces, first, more, split⟩ := splitTopLevel_literal outside rest
  rw [declarations, declarations, split body passes.closes, split other passes'.closes, List.filterMap_append,
    List.filterMap_append, List.filterMap_cons, List.filterMap_cons, ofText?_literal reached first passes passes']

/-- What is gathered up to some place in a line. -/
def gatheredTo (joined start : Text) : Text :=
  if joined.isEmpty then trimStart start else joined ++ ' ' :: trimStart start

theorem gather_quoted (joined start body finish : Text) :
    gather joined (start ++ (quoted body ++ finish)) = gatheredTo joined start ++ (quoted body ++ trimEnd finish) := by
  rw [gather, gatheredTo, trim_quoted]
  split
  · rfl
  · rw [List.append_assoc, List.cons_append]

/-- The list ends before the literal, or whatever its body is the same is found behind it. -/
theorem balanced?_literal {before list : Text} (absent : '(' ∉ before)
    (outside : literalAfter false (Char.ofNat 0) list = false) :
    (∃ found, ∀ rest, balanced? (before ++ '(' :: list ++ rest) = some found) ∨
      ∃ depth, ∀ body, Closes body → ∀ rest, balanced? (before ++ '(' :: list ++ (quoted body ++ rest)) =
        (balancedFrom depth false '"' rest).map fun behind => list ++ (quoted body ++ behind) := by
  have read (rest : Text) : balanced? (before ++ '(' :: list ++ rest) = balancedFrom 1 false '(' (list ++ rest) := by
    rw [List.append_assoc, List.cons_append, balanced?, Text.cutAt?_append absent]
  rcases balancedFrom_append 1 false '(' list with ⟨found, ends⟩ | ⟨depth, last, passed⟩
  · exact .inl ⟨found, fun rest => (read rest).trans (ends rest)⟩
  · refine .inr ⟨depth, fun body closes rest => ?_⟩
    rw [read, passed, literalAfter_outside _ (Char.ofNat 0), outside, balancedFrom_quoted closes, Option.map_map]
    rfl

theorem listFrom_cons (joined line : Text) (rest : List Text) :
    listFrom joined (line :: rest) = (balanced? (gather joined line)).or (listFrom (gather joined line) rest) := by
  rw [listFrom]
  cases balanced? (gather joined line) <;> rfl

/-- Once the literal is gathered, the same declarations are found there or with more lines. -/
theorem gathered_literal {position : Position} {before list : Text} (absent : '(' ∉ before)
    (outside : literalAfter false (Char.ofNat 0) list = false) (reached : position.Reached (trimStart (openPiece list)))
    (passes : position.Passes body) (passes' : position.Passes other) (finish : Text) (below : List Text) :
    ((balanced? (before ++ '(' :: list ++ (quoted body ++ finish))).or
        (listFrom (before ++ '(' :: list ++ (quoted body ++ finish)) below)).map declarations =
      ((balanced? (before ++ '(' :: list ++ (quoted other ++ finish))).or
        (listFrom (before ++ '(' :: list ++ (quoted other ++ finish)) below)).map declarations := by
  rcases balanced?_literal absent outside with ⟨found, ends⟩ | ⟨depth, passed⟩
  · rw [ends, ends]
    rfl
  induction below generalizing finish with
  | nil =>
    rw [passed body passes.closes, passed other passes'.closes]
    cases balancedFrom depth false '"' finish with
    | none => rfl
    | some behind => exact congrArg some (declarations_literal outside reached behind passes passes')
  | cons line rest ih =>
    have more (body : Text) : gather (before ++ '(' :: list ++ (quoted body ++ finish)) line =
        before ++ '(' :: list ++ (quoted body ++ (finish ++ ' ' :: trim line)) := by
      rw [gather, if_neg (by simp)]
      simp
    rw [passed body passes.closes, passed other passes'.closes]
    cases balancedFrom depth false '"' finish with
    | none =>
      rw [Option.map_none, Option.map_none, Option.none_or, Option.none_or, listFrom_cons, listFrom_cons, more, more]
      exact ih _
    | some behind => exact congrArg some (declarations_literal outside reached behind passes passes')

theorem listFrom_literal {position : Position} {joined start : Text} {above : List Text}
    (within : position.Within (gatheredTo (above.foldl gather joined) start)) (passes : position.Passes body)
    (passes' : position.Passes other) (finish : Text) (below : List Text) :
    (listFrom joined (above ++ (start ++ (quoted body ++ finish)) :: below)).map declarations =
      (listFrom joined (above ++ (start ++ (quoted other ++ finish)) :: below)).map declarations := by
  induction above generalizing joined with
  | nil =>
    obtain ⟨before, list, same, absent, outside, reached⟩ := within
    rw [List.foldl_nil] at same
    rw [List.nil_append, List.nil_append, listFrom_cons, listFrom_cons, gather_quoted, gather_quoted, same]
    exact gathered_literal absent outside reached passes passes' _ below
  | cons line rest ih =>
    rw [List.cons_append, List.cons_append, listFrom_cons, listFrom_cons]
    cases balanced? (gather joined line) with
    | some found => rfl
    | none => exact ih within

theorem classify_eq (lines : List Text) (methodLine : Nat) (method : HttpMethod) (routeNames : List Text) :
    classify lines methodLine method routeNames =
      ((listAt? lines methodLine).map declarations).elim {} (summarize method routeNames) := by
  rw [classify]
  cases listAt? lines methodLine <;> rfl

/-- What is in a literal does not matter: the summary is the same with any other that the scanners pass over. -/
theorem classify_literal (method : HttpMethod) (routeNames : List Text) {position : Position} {above : List Text}
    {methodLine : Nat} {start : Text}
    (within : position.Within (gatheredTo ((above.drop methodLine).foldl gather []) start))
    (passes : position.Passes body) (passes' : position.Passes other) (finish : Text) (below : List Text) :
    classify (above ++ (start ++ (quoted body ++ finish)) :: below) methodLine method routeNames =
      classify (above ++ (start ++ (quoted other ++ finish)) :: below) methodLine method routeNames := by
  rw [classify_eq, classify_eq, listAt?, listAt?, List.drop_append, List.drop_append, List.take_append,
    List.take_append]
  congr 1
  cases methodLine - above.length with
  | succ skipped => rfl
  | zero =>
    rw [List.drop_zero, List.drop_zero]
    -- the line may lie too far below the method
    cases left : listLookahead - (above.drop methodLine).length with
    | zero => rfl
    | succ more =>
      rw [List.take_succ_cons, List.take_succ_cons, List.take_of_length_le (by omega)]
      exact listFrom_literal within passes passes' finish _

/-- A method with a literal in the default of its first parameter. -/
def withDefault (body : Text) : List Text := ["Get(string a = ".toList ++ (quoted body ++ ", int b)".toList)]

/-- A method with a literal in an argument of the attribute of its parameter. -/
def withArgument (body : Text) : List Text := ["Get([FromQuery(Name = ".toList ++ (quoted body ++ ")] int a = 1)".toList)]

/-- A literal behind a comparison in the arguments of an attribute. -/
def withComparison (body : Text) : List Text := ["Get([Check(1 > 0, ".toList ++ (quoted body ++ ")] int a)".toList)]

/-- The parameter up to its default. -/
def named : Written where
  before := .none
  sections := []
  modifiers := []
  type := {
    text := "string".toList
    balanced := Balanced.of_all (by decide)
    solid := ⟨by decide, by decide, by decide⟩
    no_section := by decide
    no_modifier := by decide }
  between := .single
  verbatim := false
  name := { text := ['a'], nonempty := by decide, chars := List.all_eq_true.mp (by decide), bare := by decide }
  after := Space.single.toGap
  default := none

theorem withDefault_within : Position.default.Within (gatheredTo [] "Get(string a = ".toList) := by
  have absent : '(' ∉ "Get".toList := by decide
  have written : gatheredTo [] "Get(string a = ".toList =
      "Get".toList ++ '(' :: (leading [] ++ defaultBeginning named [' ']) := by
    decide
  rw [written]
  exact default_within absent [] named (.balanced (Balanced.of_all (by decide)))

/-- The attribute up to its arguments. -/
def fromQuery : Attribute where
  before := .none
  name := { text := "FromQuery".toList, nonempty := by decide, chars := List.all_eq_true.mp (by decide) }
  between := .none
  arguments := none
  after := .none

theorem withArgument_within : Position.argument.Within (gatheredTo [] "Get([FromQuery(Name = ".toList) := by
  have absent : '(' ∉ "Get".toList := by decide
  have written : gatheredTo [] "Get([FromQuery(Name = ".toList =
      "Get".toList ++ '(' :: (leading [] ++ argumentBeginning .none [] [] fromQuery "Name = ".toList) := by
    decide
  rw [written]
  exact argument_within absent [] .none [] [] fromQuery (.balanced (Balanced.of_all (by decide)))

/-- A quote behind a backslash, commas and brackets in a default do not matter, nor do commas, equals
    signs and brackets that match in an argument. -/
theorem classify_literal_marks :
    (Position.default.Within (gatheredTo [] "Get(string a = ".toList) ∧ Position.default.Passes "\\\"), [".toList ∧
      Position.default.Passes [] ∧
      classify (withDefault "\\\"), [".toList) 0 .get [] = classify (withDefault []) 0 .get []) ∧
    Position.argument.Within (gatheredTo [] "Get([FromQuery(Name = ".toList) ∧
      Position.argument.Passes "<a, [(b)] = ".toList ∧ Position.argument.Passes [] ∧
      classify (withArgument "<a, [(b)] = ".toList) 0 .get [] = classify (withArgument []) 0 .get [] := by
  have quote : Position.default.Passes "\\\"), [".toList :=
    ⟨.escape '"' (.of_absent (s := "), [".toList) (by decide) (by decide)), by decide⟩
  have square : SquareBalanced "<a, [(b)] = ".toList := by
    have group := SquareBalanced.group (.of_absent (s := "(b)".toList) (by decide) (by decide))
      (.of_absent (s := " = ".toList) (by decide) (by decide))
    exact (SquareBalanced.of_absent (s := "<a, ".toList) (by decide) (by decide)).append group
  have brackets : Position.argument.Passes "<a, [(b)] = ".toList :=
    ⟨⟨.of_absent (by decide) (by decide), by decide⟩, by decide, square⟩
  have nothing : Closes [] := ⟨.nil, by decide⟩
  have empty : Position.argument.Passes [] := ⟨nothing, by decide, .nil⟩
  refine ⟨⟨withDefault_within, quote, nothing, ?_⟩, withArgument_within, brackets, empty, ?_⟩
  · exact @classify_literal _ _ .get [] .default [] 0 _ withDefault_within quote nothing ", int b)".toList []
  · exact @classify_literal _ _ .get [] .argument [] 0 _ withArgument_within brackets empty ")] int a = 1)".toList []

/-- Literals do matter: a last backslash behind a backslash in a default hides the closing quote, and so does a
    quote behind a backslash in an argument, where a square bracket ends the section of the attribute. What
    comes behind a comparison in the arguments is taken for an attribute of its own. -/
theorem literals_read :
    (LiteralBody "\\\\".toList ∧ LiteralBody [] ∧
      classify (withDefault "\\\\".toList) 0 .get [] ≠ classify (withDefault []) 0 .get []) ∧
    (LiteralBody "a\\\"b".toList ∧
      classify (withArgument "a\\\"b".toList) 0 .get [] ≠ classify (withArgument []) 0 .get []) ∧
    (LiteralBody "]".toList ∧ classify (withArgument "]".toList) 0 .get [] ≠ classify (withArgument []) 0 .get []) ∧
    LiteralBody ".FromBody(".toList ∧
      classify (withComparison ".FromBody(".toList) 0 .get [] ≠ classify (withComparison []) 0 .get [] := by
  have backslashes : LiteralBody "\\\\".toList := .escape '\\' .nil
  have quote : LiteralBody "a\\\"b".toList :=
    .char (by decide) (by decide) (.escape '"' (.char (by decide) (by decide) .nil))
  have bracket : LiteralBody "]".toList := .of_absent (by decide) (by decide)
  have name : LiteralBody ".FromBody(".toList := .of_absent (by decide) (by decide)
  refine ⟨⟨backslashes, .nil, ?_⟩, ⟨quote, ?_⟩, ⟨bracket, ?_⟩, name, ?_⟩ <;> decide +kernel

end EndpointConsole.Parameter
