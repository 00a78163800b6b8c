import EndpointConsole.Parameter.Binding
import EndpointConsole.Proofs.Parameter.Literals
import EndpointConsole.Proofs.Text.Spacing

/-!
Parameter lists whose white space is wider or narrower. No scanner looks at white space, and so each
finds the same things in a list and in the respaced list, respaced like it (`balanced?_respaced`,
`splitTopLevel_respaced`, `beforeEquals_respaced`, `cutAtBracket?_respaced`). Names and types are read
as words, and the names of attributes hold no white space, so that what is declared is the same
(`declarations_respaced`).
-/
namespace EndpointConsole.Parameter
open Text (IsBlank Respaced RespacedCut RespacedPieces isBlank trim trimStart)

variable {s t : Text}

theorem ne_quote {c : Char} (blank : isBlank c = true) : c ≠ '"' := Text.ne_of_blank blank rfl

theorem not_opensBracket {c : Char} (blank : isBlank c = true) : opensBracket c = false := by
  simp [opensBracket, Text.ne_of_blank blank (d := '<') rfl, Text.ne_of_blank blank (d := '(') rfl,
    Text.ne_of_blank blank (d := '[') rfl, Text.ne_of_blank blank (d := '\x7b') rfl]

theorem not_closesBracket {c : Char} (blank : isBlank c = true) : closesBracket c = false := by
  simp [closesBracket, Text.ne_of_blank blank (d := '>') rfl, Text.ne_of_blank blank (d := ')') rfl,
    Text.ne_of_blank blank (d := ']') rfl, Text.ne_of_blank blank (d := '\x7d') rfl]

theorem not_closesLiteral_of_blank {c : Char} (blank : isBlank c = true) (previous : Char) :
    closesLiteral previous c = false := by
  simp [closesLiteral, ne_quote blank]

/-- A scanner that keeps blanks, and for which the character before matters only if it is a backslash, goes over
    white space of any width. -/
theorem scan_gap {α : Type} (scan : Char → Text → α) (keep : Char → α → α)
    (keeps : ∀ {c}, isBlank c = true → ∀ p s, scan p (c :: s) = keep c (scan c s))
    (plain : ∀ {p q}, p ≠ '\\' → q ≠ '\\' → ∀ s, scan p s = scan q s) {gap : Text} (blank : IsBlank gap)
    (some_blank : gap ≠ []) (previous : Char) (s : Text) :
    scan previous (gap ++ s) = gap.foldr keep (scan ' ' s) := by
  induction gap generalizing previous with
  | nil => exact absurd rfl some_blank
  | cons c rest ih =>
    have first := blank c List.mem_cons_self
    rw [List.cons_append, keeps first, List.foldr_cons]
    cases rest with
    | nil => exact congrArg (keep c) (plain (Text.ne_of_blank first rfl) (by decide) s)
    | cons d more => rw [ih (fun e among => blank e (List.mem_cons_of_mem c among)) (List.cons_ne_nil d more)]

theorem balancedFrom_blank {c : Char} (blank : isBlank c = true) (depth : Nat) (inLiteral : Bool) (previous : Char)
    (s : Text) : balancedFrom depth inLiteral previous (c :: s) = (balancedFrom depth inLiteral c s).map (c :: ·) := by
  cases inLiteral with
  | true => rw [balancedFrom, if_pos rfl, not_closesLiteral_of_blank blank, Bool.not_false]
  | false =>
    rw [balancedFrom, if_neg Bool.false_ne_true, if_neg (ne_quote blank), if_neg (Text.ne_of_blank blank rfl),
      if_neg (Text.ne_of_blank blank rfl)]

theorem balancedFrom_plain (depth : Nat) (inLiteral : Bool) {p q : Char} (plain : p ≠ '\\') (plain' : q ≠ '\\')
    (s : Text) : balancedFrom depth inLiteral p s = balancedFrom depth inLiteral q s := by
  cases inLiteral with
  | true => exact balancedFrom_inside q plain plain' depth s
  | false => exact balancedFrom_outside p q depth s

theorem balancedFrom_gap {gap : Text} (blank : IsBlank gap) (some_blank : gap ≠ []) (depth : Nat) (inLiteral : Bool)
    (previous : Char) (s : Text) :
    balancedFrom depth inLiteral previous (gap ++ s) = (balancedFrom depth inLiteral ' ' s).map (gap ++ ·) :=
  (scan_gap (balancedFrom depth inLiteral) parenthesisScanner.keep
    (fun blank => balancedFrom_blank blank depth inLiteral) (balancedFrom_plain depth inLiteral) blank some_blank
    previous s).trans (foldr_parentheses gap _)

theorem balancedFrom_respaced (r : Respaced s t) (depth : Nat) (inLiteral : Bool) (previous : Char) :
    Option.Rel Respaced (balancedFrom depth inLiteral previous s) (balancedFrom depth inLiteral previous t) := by
  induction r generalizing depth inLiteral previous with
  | nil => exact .none
  | @char c s t solid _ ih =>
    rcases balancedFrom_cons depth inLiteral previous c with ends | ⟨deeper, next⟩
    · rw [ends, ends]
      exact .some .nil
    · have rest := ih deeper (literalNext inLiteral previous c) c
      rw [next, next]
      generalize balancedFrom deeper _ c s = x, balancedFrom deeper _ c t = y at rest
      cases rest with
      | none => exact .none
      | some r => exact .some (.char solid r)
  | @gap a b s t blank some_blank blank' some_blank' _ ih =>
    have rest := ih depth inLiteral ' '
    rw [balancedFrom_gap blank some_blank, balancedFrom_gap blank' some_blank']
    generalize balancedFrom depth inLiteral ' ' s = x, balancedFrom depth inLiteral ' ' t = y at rest
    cases rest with
    | none => exact .none
    | some r => exact .some (.gap blank some_blank blank' some_blank' r)

/-- The list in respaced text is the list, respaced. -/
theorem balanced?_respaced (r : Respaced s t) : Option.Rel Respaced (balanced? s) (balanced? t) := by
  have list : isBlank '(' = false := rfl
  have cut := r.cutAt? list
  rw [balanced?, balanced?]
  generalize Text.cutAt? '(' s = x, Text.cutAt? '(' t = y at cut
  cases cut with
  | none => exact .none
  | some both => exact balancedFrom_respaced both.2 1 false '('

theorem splitFrom_blank {c : Char} (blank : isBlank c = true) (current : Text) (depth : Int) (inLiteral : Bool)
    (previous : Char) (s : Text) :
    splitFrom current depth inLiteral previous (c :: s) = splitFrom (c :: current) depth inLiteral c s := by
  cases inLiteral with
  | true => rw [splitFrom, if_pos rfl, not_closesLiteral_of_blank blank, Bool.not_false]
  | false =>
    rw [splitFrom, if_neg Bool.false_ne_true, if_neg (ne_quote blank),
      if_neg (Bool.eq_false_iff.mp (not_opensBracket blank)), if_neg (Bool.eq_false_iff.mp (not_closesBracket blank)),
      if_neg fun comma => Text.ne_of_blank blank rfl comma.1]

theorem splitFrom_plain (current : Text) (depth : Int) (inLiteral : Bool) {p q : Char} (plain : p ≠ '\\')
    (plain' : q ≠ '\\') (s : Text) : splitFrom current depth inLiteral p s = splitFrom current depth inLiteral q s := by
  cases inLiteral with
  | true => exact splitFrom_inside q plain plain' current depth s
  | false => exact splitFrom_outside p q current depth s

theorem splitFrom_gap {gap : Text} (blank : IsBlank gap) (some_blank : gap ≠ []) (current : Text) (depth : Int)
    (inLiteral : Bool) (previous : Char) (s : Text) :
    splitFrom current depth inLiteral previous (gap ++ s) =
      splitFrom (gap.reverse ++ current) depth inLiteral ' ' s :=
  (congrFun (scan_gap (fun p s current => splitFrom current depth inLiteral p s) commaScanner.keep
    (fun blank p s => funext fun current => splitFrom_blank blank current depth inLiteral p s)
    (fun plain plain' s => funext fun current => splitFrom_plain current depth inLiteral plain plain' s) blank some_blank
    previous s) current).trans (foldr_commas gap _ current)

theorem splitFrom_respaced (r : Respaced s t) {current current' : Text} (before : Respaced current.reverse current'.reverse)
    (depth : Int) (inLiteral : Bool) (previous : Char) :
    RespacedPieces (splitFrom current depth inLiteral previous s) (splitFrom current' depth inLiteral previous t) := by
  induction r generalizing current current' depth inLiteral previous with
  | nil => exact .cons before .nil
  | @char c s t solid _ ih =>
    rcases splitFrom_cons depth inLiteral previous c with ⟨_, cut⟩ | ⟨deeper, next⟩
    · have fresh : Respaced (List.reverse []) (List.reverse []) := .nil
      rw [cut, cut]
      exact .cons before (ih fresh depth false c)
    · rw [next, next]
      refine ih ?_ deeper _ c
      rw [List.reverse_cons, List.reverse_cons]
      exact before.append (.char solid .nil)
  | @gap a b s t blank some_blank blank' some_blank' _ ih =>
    rw [splitFrom_gap blank some_blank, splitFrom_gap blank' some_blank']
    refine ih ?_ depth inLiteral ' '
    rw [List.reverse_append, List.reverse_append, List.reverse_reverse, List.reverse_reverse]
    exact before.append (.blanks blank some_blank blank' some_blank')

/-- The parts of a respaced text are its parts, respaced. -/
theorem splitTopLevel_respaced (r : Respaced s t) : RespacedPieces (splitTopLevel s) (splitTopLevel t) := by
  have fresh : Respaced (List.reverse []) (List.reverse []) := .nil
  have pieces := splitFrom_respaced r fresh 0 false (Char.ofNat 0)
  refine List.rel_filter (R := Respaced) (fun part part' r => ?_)
    (List.rel_map (R := Respaced) (P := Respaced) (fun _ _ r => r.trim) pieces)
  have both := r.eq_nil_iff
  simp [both]

theorem beforeEquals_blank {c : Char} (blank : isBlank c = true) (depth : Int) (inLiteral : Bool) (s : Text) :
    beforeEquals depth inLiteral (c :: s) = equalsScanner.keep c (beforeEquals depth inLiteral s) := by
  cases inLiteral with
  | true =>
    rw [beforeEquals, if_pos rfl, bne_iff_ne.mpr (ne_quote blank)]
    rfl
  | false =>
    rw [beforeEquals, if_neg Bool.false_ne_true, if_neg (Bool.eq_false_iff.mp (not_opensBracket blank)),
      if_neg (Bool.eq_false_iff.mp (not_closesBracket blank)), if_neg (ne_quote blank),
      if_neg fun equals => Text.ne_of_blank blank rfl equals.1]
    rfl

theorem beforeEquals_gap {gap : Text} (blank : IsBlank gap) (some_blank : gap ≠ []) (depth : Int) (inLiteral : Bool)
    (s : Text) : beforeEquals depth inLiteral (gap ++ s) =
      (gap ++ (beforeEquals depth inLiteral s).1, (beforeEquals depth inLiteral s).2) :=
  (scan_gap (fun _ => beforeEquals depth inLiteral) equalsScanner.keep
    (fun blank _ => beforeEquals_blank blank depth inLiteral) (fun _ _ _ => rfl) blank some_blank ' ' s).trans
    (foldr_equals gap _)

theorem beforeEquals_respaced (r : Respaced s t) (depth : Int) (inLiteral : Bool) :
    Respaced (beforeEquals depth inLiteral s).1 (beforeEquals depth inLiteral t).1 ∧
      (beforeEquals depth inLiteral s).2 = (beforeEquals depth inLiteral t).2 := by
  induction r generalizing depth inLiteral with
  | nil => exact ⟨.nil, rfl⟩
  | @char c s t solid _ ih =>
    rcases beforeEquals_cons depth inLiteral c with ends | ⟨deeper, next⟩
    · rw [ends, ends]
      exact ⟨.nil, rfl⟩
    · obtain ⟨kept, found⟩ := ih deeper (inLiteral != (c == '"'))
      rw [next, next]
      exact ⟨.char solid kept, found⟩
  | gap blank some_blank blank' some_blank' _ ih =>
    obtain ⟨kept, found⟩ := ih depth inLiteral
    rw [beforeEquals_gap blank some_blank, beforeEquals_gap blank' some_blank']
    exact ⟨.gap blank some_blank blank' some_blank' kept, found⟩

theorem cutAtBracket?_blank {c : Char} (blank : isBlank c = true) (depth : Int) (s : Text) :
    cutAtBracket? depth (c :: s) = sectionScanner.keep c (cutAtBracket? depth s) := by
  rw [cutAtBracket?, if_neg (Text.ne_of_blank blank rfl), if_neg fun ends => Text.ne_of_blank blank rfl ends.1,
    if_neg (Text.ne_of_blank blank rfl)]
  rfl

theorem cutAtBracket?_gap {gap : Text} (blank : IsBlank gap) (some_blank : gap ≠ []) (depth : Int) (s : Text) :
    cutAtBracket? depth (gap ++ s) = (cutAtBracket? depth s).map fun cut => (gap ++ cut.1, cut.2) :=
  (scan_gap (fun _ => cutAtBracket? depth) sectionScanner.keep (fun blank _ => cutAtBracket?_blank blank depth)
    (fun _ _ _ => rfl) blank some_blank ' ' s).trans (foldr_sections gap _)

theorem cutAtBracket?_respaced (r : Respaced s t) (depth : Int) :
    Option.Rel RespacedCut (cutAtBracket? depth s) (cutAtBracket? depth t) := by
  induction r generalizing depth with
  | nil => exact .none
  | @char c s t solid rest ih =>
    rcases cutAtBracket?_cons depth c with ends | ⟨deeper, _, next⟩
    · rw [ends, ends]
      exact .some ⟨.nil, rest⟩
    · have cut := ih deeper
      rw [next, next]
      generalize cutAtBracket? deeper s = x, cutAtBracket? deeper t = y at cut
      cases cut with
      | none => exact .none
      | some both => exact .some ⟨.char solid both.1, both.2⟩
  | @gap a b s t blank some_blank blank' some_blank' _ ih =>
    have cut := ih depth
    rw [cutAtBracket?_gap blank some_blank, cutAtBracket?_gap blank' some_blank']
    generalize cutAtBracket? depth s = x, cutAtBracket? depth t = y at cut
    cases cut with
    | none => exact .none
    | some both => exact .some ⟨.gap blank some_blank blank' some_blank' both.1, both.2⟩

theorem attributeName_respaced (r : Respaced s t) : Respaced (attributeName s) (attributeName t) := by
  have list : isBlank '(' = false := rfl
  have dot : isBlank '.' = false := rfl
  have ending : ∀ c ∈ "Attribute".toList, isBlank c = false := by
    have solid : ("Attribute".toList.all fun c => !isBlank c) = true := by decide
    simpa using solid
  have name := (r.before list).trim.afterLast dot
  have bare := name.stripEnd? ending
  rw [attributeName, attributeName]
  generalize Text.stripEnd? _ _ = x, Text.stripEnd? _ (Text.afterLast '.' (trim (Text.before '(' t))) = y at bare
  cases bare with
  | none => exact name
  | some r => exact r

theorem lookup?_respaced {α : Type} {table : List (Text × α)} (solid : ∀ entry ∈ table, ∀ c ∈ entry.1, isBlank c = false)
    (r : Respaced s t) : Json.lookup? s table = Json.lookup? t table := by
  induction table with
  | nil => rfl
  | cons entry rest ih =>
    rw [Json.lookup?, Json.lookup?, ih fun other among => solid other (List.mem_cons_of_mem entry among)]
    simp only [r.eq_iff (solid entry List.mem_cons_self)]

theorem bindingNames_solid : ∀ entry ∈ bindingNames, ∀ c ∈ entry.1, isBlank c = false := by
  have solid : (bindingNames.all fun entry => entry.1.all fun c => !isBlank c) = true := by decide
  simpa using solid

theorem bindingOf?_respaced (r : Respaced s t) : bindingOf? s = bindingOf? t := by
  have parts := splitTopLevel_respaced r
  rw [bindingOf?, bindingOf?]
  generalize splitTopLevel s = x, splitTopLevel t = y at parts
  induction parts with
  | nil => rfl
  | cons first _ ih =>
    rw [List.findSome?_cons, List.findSome?_cons, ih,
      lookup?_respaced bindingNames_solid (attributeName_respaced first)]

theorem readAttributes?_respaced {s t : Text} (explicit : Option ParameterSource) (r : Respaced s t) :
    Option.Rel (fun x y => x.1 = y.1 ∧ Respaced x.2 y.2) (readAttributes? explicit s) (readAttributes? explicit t) := by
  by_cases opens : s.head? = some '['
  · obtain ⟨s, rfl⟩ := List.head?_eq_some_iff.mp opens
    obtain ⟨t, rfl, rest⟩ := r.of_cons rfl
    rw [readAttributes?_cons, readAttributes?_cons]
    match here : cutAtBracket? 1 s, cutAtBracket? 1 t, cutAtBracket?_respaced rest 1 with
    | none, none, _ => exact .none
    | some x, some y, .some both =>
      have shorter : (trimStart x.2).length < ('[' :: s).length := by
        have inside := cutAtBracket?_length here
        have trimmed := (List.dropWhile_sublist isBlank (l := x.2)).length_le
        rw [List.length_cons, trimStart]
        omega
      rw [Option.bind_some, Option.bind_some, bindingOf?_respaced both.1]
      exact readAttributes?_respaced _ both.2.trimStart
  · have opens' : t.head? ≠ some '[' := fun first => opens ((r.head?_iff rfl).mpr first)
    rw [readAttributes?_end opens, readAttributes?_end opens']
    exact .some ⟨rfl, r⟩
termination_by s.length

theorem ofText?_respaced (r : Respaced s t) : Declaration.ofText? s = Declaration.ofText? t := by
  obtain ⟨declared, defaulted⟩ := beforeEquals_respaced r 0 false
  have attributes := readAttributes?_respaced none declared.trim
  rw [Declaration.ofText?, Declaration.ofText?]
  dsimp only
  rw [defaulted]
  generalize readAttributes? none (trim (beforeEquals 0 false s).1) = x,
    readAttributes? none (trim (beforeEquals 0 false t).1) = y at attributes
  cases attributes with
  | none => rfl
  | @some a b same =>
    obtain ⟨explicit, rest⟩ := a
    obtain ⟨_, rest'⟩ := b
    obtain ⟨rfl, rest⟩ := same
    simp only [Option.bind_eq_bind, Option.bind_some, rest.words]

/-- Respaced lists declare the same. -/
theorem declarations_respaced (r : Respaced s t) : declarations s = declarations t := by
  have parts := splitTopLevel_respaced r
  rw [declarations, declarations]
  generalize splitTopLevel s = x, splitTopLevel t = y at parts
  congr 1
  induction parts with
  | nil => rfl
  | cons first _ ih => rw [List.filterMap_cons, List.filterMap_cons, ofText?_respaced first, ih]

end EndpointConsole.Parameter
