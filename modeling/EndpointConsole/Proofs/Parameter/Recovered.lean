import EndpointConsole.Proofs.Parameter.Written

/-!
What is written is what is recovered. The sections of a parameter say together what the first
binding attribute says (`readAttributes?_sections`), the words behind them are its modifiers,
its type and its name (`words_body`), and so a parameter is read as what it says
(`ofText?_text`) and a list as what its parameters say (`declarations_listText`). On any line
of a document, behind a text without a parenthesis, the parameters are recovered with their
names, types and sources (`classify_listText`).
-/
namespace EndpointConsole.Parameter.Written

theorem Attribute.before_trim (a : Attribute) : Text.trim (Text.before '(' (Text.trim a.text)) = a.name.text := by
  rw [text, Text.trim_margins a.before.blank a.after.blank, argumentsText]
  cases a.arguments with
  | none =>
    rw [List.append_nil, Text.trim_append_blank a.name.solid a.between.blank, Text.before_of_not_mem a.name.no_list,
      Text.trim_of_no_blank a.name.solid]
  | some list =>
    have no_list : '(' ∉ a.name.text ++ a.between.text := by
      rw [List.mem_append, not_or]
      exact ⟨a.name.no_list, fun among => Text.ne_of_blank (a.between.blank _ among) rfl rfl⟩
    -- the name begins and the parenthesis ends what is left
    have ends := (Text.Solid.of_all a.name.solid a.name.nonempty).between
      (Text.Solid.singleton (c := ')') rfl) (a.between.text ++ '(' :: list.text)
    have whole : a.name.text ++ (a.between.text ++ '(' :: list.text) ++ [')'] =
        a.name.text ++ a.between.text ++ ('(' :: list.text ++ [')']) := by simp
    rw [← whole, ends.trim, whole, List.cons_append, Text.before_append no_list,
      Text.trim_append_blank a.name.solid a.between.blank]

/-- What is written around the name of an attribute makes no difference. -/
theorem Attribute.attributeName_trim (a : Attribute) : attributeName (Text.trim a.text) = attributeName a.name.text := by
  rw [attributeName, attributeName, a.before_trim, Text.before_of_not_mem a.name.no_list,
    Text.trim_of_no_blank a.name.solid]

theorem Section.bindingOf?_body (s : Section) : bindingOf? s.body = s.attributes.findSome? Attribute.source? := by
  have balanced : ∀ piece ∈ s.attributes.map Attribute.text, Balanced [','] piece :=
    List.forall_mem_map.mpr fun a _ => a.balanced.fewer_separators (by simp)
  have solid : ∀ piece ∈ s.attributes.map Attribute.text, ¬Text.IsBlank piece :=
    List.forall_mem_map.mpr fun a _ => Text.not_blank_of_subset a.name.nonempty a.name.solid fun c among => by
      simp [Attribute.text, among]
  have named (a : Attribute) : Json.lookup? (attributeName (Text.trim a.text)) bindingNames = a.source? := by
    rw [a.attributeName_trim, Attribute.source?]
  rw [bindingOf?, body, splitTopLevel_joinWith balanced solid, List.findSome?_map, List.findSome?_map]
  simp only [Function.comp_def, named]

/-- A section is read, and then what follows it. -/
theorem readAttributes?_section {separators : List Char} {inner : Text} (balanced : Balanced separators inner)
    (explicit : Option ParameterSource) (rest : Text) :
    readAttributes? explicit ('[' :: (inner ++ ']' :: rest)) =
      readAttributes? (explicit <|> bindingOf? inner) (Text.trimStart rest) := by
  rw [readAttributes?_cons, cutAtBracket?_section balanced, Option.bind_some]

theorem readAttributes?_sections (sections : List Section) (explicit : Option ParameterSource) {rest : Text}
    (solid : Text.Solid rest) (ends : rest.head? ≠ some '[') :
    readAttributes? explicit (sections.flatMap Section.text ++ rest) =
      some (explicit <|> (sections.flatMap Section.attributes).findSome? Attribute.source?, rest) := by
  induction sections generalizing explicit with
  | nil =>
    have read := readAttributes?_end ends explicit
    simpa using read
  | cons s later ih =>
    have next : Text.trimStart (s.after.text ++ (later.flatMap Section.text ++ rest)) =
        later.flatMap Section.text ++ rest := by
      rw [Text.trimStart_blank_append s.after.blank]
      cases later with
      | nil => exact solid.trimStart
      | cons t _ => rfl
    rw [List.flatMap_cons, Section.text, List.append_assoc, List.append_assoc, List.cons_append, List.cons_append,
      readAttributes?_section s.balanced_body, next, ih, s.bindingOf?_body, List.flatMap_cons, List.findSome?_append]
    simp only [Option.orElse_eq_orElse, Option.orElse_eq_or, Option.or_assoc]

theorem words_modifiers (ms : List Modifier) (rest : Text) :
    Text.words (ms.flatMap Modifier.text ++ rest) = ms.map Modifier.word ++ Text.words rest := by
  induction ms with
  | nil => rfl
  | cons m later ih =>
    rw [List.flatMap_cons, Modifier.text, List.append_assoc, Text.words_gap m.after.blank m.after.nonempty, ih,
      Text.words_of_solid m.solid m.nonempty]
    rfl

theorem words_body (p : Written) :
    Text.words p.body = p.modifiers.map Modifier.word ++ (Text.words p.type.text ++ [p.nameText]) := by
  rw [body, words_modifiers, Text.words_gap p.between.blank p.between.nonempty,
    Text.words_of_solid p.nameText_solid p.nameText_ne_nil]

theorem dropWhile_modifiers (ms : List Modifier) (rest : List Text) :
    (ms.map Modifier.word ++ rest).dropWhile Parameter.modifiers.contains =
      rest.dropWhile Parameter.modifiers.contains := by
  induction ms with
  | nil => rfl
  | cons m later ih =>
    rw [List.map_cons, List.cons_append, List.dropWhile_cons_of_pos (List.contains_iff_mem.mpr m.known), ih]

theorem dropWhile_at (p : Written) : p.nameText.dropWhile (· == '@') = p.name.text := by
  have kept : p.name.text.dropWhile (· == '@') = p.name.text := by
    obtain ⟨c, rest, split⟩ := List.exists_cons_of_ne_nil p.name.nonempty
    have bare := p.name.bare
    rw [split, List.head?_cons, ne_eq, Option.some_inj] at bare
    rw [split, List.dropWhile_cons_of_neg (by simpa using bare)]
  rw [nameText]
  split
  · rw [List.dropWhile_cons_of_pos rfl, kept]
  · exact kept

theorem body_eq_of_modifier {p : Written} {m : Modifier} {later : List Modifier} (modified : p.modifiers = m :: later) :
    p.body = m.word ++ (m.after.text ++ later.flatMap Modifier.text ++ p.type.text ++ p.between.text) ++ p.nameText := by
  simp [body, modified, Modifier.text]

theorem solid_body (p : Written) : Text.Solid p.body := by
  have name := Text.Solid.of_all p.nameText_solid p.nameText_ne_nil
  cases modified : p.modifiers with
  | nil =>
    rw [body, modified]
    exact p.type.solid.between name _
  | cons m later =>
    rw [body_eq_of_modifier modified]
    exact (Text.Solid.of_all m.solid m.nonempty).between name _

theorem head?_body (p : Written) : p.body.head? ≠ some '[' := by
  cases modified : p.modifiers with
  | nil =>
    rw [body, modified, List.flatMap_nil, List.nil_append, List.append_assoc,
      List.head?_append_of_ne_nil _ p.type.solid.nonempty]
    exact p.type.no_section
  | cons m later =>
    rw [body_eq_of_modifier modified, List.append_assoc, List.head?_append_of_ne_nil _ m.nonempty]
    intro opens
    cases m.chars '[' (List.mem_of_head? opens)

theorem solid_core (p : Written) : Text.Solid p.core := by
  cases bracketed : p.sections with
  | nil =>
    rw [core, bracketed]
    exact p.solid_body
  | cons s later =>
    have whole : p.core = ['['] ++ (s.body ++ ']' :: s.after.text ++ later.flatMap Section.text) ++ p.body := by
      simp [core, bracketed, Section.text]
    rw [whole]
    exact (Text.Solid.singleton rfl).between p.solid_body _

/-- Before the default stands what is declared. -/
theorem beforeEquals_text (p : Written) : ∃ declared,
    beforeEquals 0 false (Text.trim p.text) = (declared, p.default.isSome) ∧ Text.trim declared = p.core := by
  have margins := Text.trim_margins Text.isBlank_nil p.after.blank p.core
  rw [List.nil_append, p.solid_core.trim] at margins
  cases defaulted : p.default with
  | none =>
    refine ⟨p.core, ?_, p.solid_core.trim⟩
    have trimmed : Text.trim p.text = p.core := by
      rw [text, defaultText, defaulted, List.append_nil, ← List.append_assoc,
        Text.trim_margins p.before.blank p.after.blank, p.solid_core.trim]
    have whole := beforeEquals_balanced (p.balanced_core.fewer_separators (by simp)) []
    rw [List.append_nil, beforeEquals, List.append_nil] at whole
    rw [trimmed, whole]
    rfl
  | some value =>
    refine ⟨p.core ++ p.after.text, ?_, margins⟩
    have trimmed : Text.trim p.text = p.core ++ p.after.text ++ '=' :: Text.trimEnd value.text := by
      rw [text, defaultText, defaulted, Text.trim, Text.trimStart_blank_append p.before.blank, List.append_assoc,
        p.solid_core.trimStart_append, ← List.append_assoc, Text.trimEnd_append rfl]
    have cut := beforeEquals_balanced ((p.balanced_core.append p.after.balanced).fewer_separators (by simp))
      ('=' :: Text.trimEnd value.text)
    have equals : beforeEquals 0 false ('=' :: Text.trimEnd value.text) = ([], true) := rfl
    rw [equals, List.append_nil] at cut
    rw [trimmed, cut]
    rfl

/-- A parameter is read as what it says. -/
theorem ofText?_text (p : Written) : Declaration.ofText? (Text.trim p.text) = some p.declaration := by
  obtain ⟨declared, cut, trimmed⟩ := p.beforeEquals_text
  have attributes := readAttributes?_sections p.sections none p.solid_body p.head?_body
  obtain ⟨first, more, typed⟩ := List.exists_cons_of_ne_nil p.type.solid.words_ne_nil
  have unmodified : ¬(Parameter.modifiers.contains first = true) := by
    rw [List.contains_iff_mem]
    exact p.type.no_modifier first (by rw [typed, List.head?_cons, Option.mem_some_iff])
  have kept : ((Text.words p.body).dropWhile Parameter.modifiers.contains).reverse =
      p.nameText :: (Text.words p.type.text).reverse := by
    rw [p.words_body, dropWhile_modifiers, typed, List.cons_append, List.dropWhile_cons_of_neg unmodified,
      ← List.cons_append, List.reverse_append, List.reverse_singleton, List.singleton_append]
  obtain ⟨last, before, reversed⟩ := List.exists_cons_of_ne_nil (List.reverse_ne_nil_iff.mpr p.type.solid.words_ne_nil)
  have type : (last :: before).reverse = Text.words p.type.text := by rw [← reversed, List.reverse_reverse]
  rw [reversed] at kept
  simp only [Declaration.ofText?, cut, trimmed, core, attributes]
  simp only [Option.bind_eq_bind, Option.bind_some, kept, type, p.dropWhile_at]
  rfl

theorem not_blank_text (p : Written) : ¬Text.IsBlank p.text :=
  Text.not_blank_of_subset p.name.nonempty p.name.solid fun c among => by
    by_cases marked : p.verbatim <;> simp [text, core, body, nameText, marked, among]

theorem balanced_listText (params : List Written) : Balanced [] (listText params) :=
  .joinWith rfl List.not_mem_nil (List.forall_mem_map.mpr fun p _ => p.balanced_text.fewer_separators (List.nil_subset _))

/-- A list of parameters is read as what they say. -/
theorem declarations_listText (params : List Written) :
    declarations (listText params) = (params.map declaration).filter fun d => !isCancellationToken d.type := by
  have balanced : ∀ piece ∈ params.map text, Balanced [','] piece := List.forall_mem_map.mpr fun p _ => p.balanced_text
  have solid : ∀ piece ∈ params.map text, ¬Text.IsBlank piece := List.forall_mem_map.mpr fun p _ => p.not_blank_text
  have read : ((params.map text).map Text.trim).filterMap Declaration.ofText? = params.map declaration := by
    rw [List.filterMap_map, List.filterMap_map, ← List.filterMap_eq_map]
    exact congrArg (params.filterMap ·) (funext ofText?_text)
  rw [declarations, listText, splitTopLevel_joinWith balanced solid, read]

/-- The list of the method declared on a line is what stands between its parentheses, whatever the other
    lines say. -/
theorem listAt?_line {separators : List Char} {start list : Text} (absent : '(' ∉ start)
    (balanced : Balanced separators list) (finish : Text) (before after : List Text) :
    listAt? (before ++ (start ++ '(' :: (list ++ ')' :: finish)) :: after) before.length = some list := by
  have absent_trimmed : '(' ∉ Text.trimStart start := fun among => absent ((List.dropWhile_suffix _).subset among)
  have trimmed : Text.trim (start ++ '(' :: (list ++ ')' :: finish)) =
      Text.trimStart start ++ '(' :: (list ++ ')' :: Text.trimEnd finish) := by
    have ends := Text.trimEnd_append (c := ')') rfl (Text.trimStart start ++ '(' :: list) finish
    rw [Text.trim, Text.trimStart_append rfl]
    simpa using ends
  have found := balanced?_list absent_trimmed balanced (Text.trimEnd finish)
  have first : gather [] (start ++ '(' :: (list ++ ')' :: finish)) =
      Text.trimStart start ++ '(' :: (list ++ ')' :: Text.trimEnd finish) := trimmed
  rw [listAt?, List.drop_left, listLookahead, List.take_succ_cons, listFrom, first, found]

theorem declaration_type (p : Written) : p.declaration.type = p.type.collapsed := rfl

/-- Where the parameter takes its value from: what the first binding attribute says, or else a place in the
    route, a form for a file, and what the method reads. -/
def source (method : HttpMethod) (routeNames : List Text) (p : Written) : ParameterSource :=
  match p.binding? with
  | some named => named
  | none =>
    if routeNames.any fun name => Text.sameLetters name p.name.text then .route
    else if isFormFile p.type.collapsed then .form
    else if method.bindsFromQuery then .query
    else .body

/-- What a caller is told of the parameter. -/
def reported (method : HttpMethod) (routeNames : List Text) (p : Written) : Parameter :=
  { name := p.name.text
    type := p.type.collapsed
    source := p.source method routeNames
    required := p.default.isNone && !isNullable p.type.collapsed }

theorem place_declaration (method : HttpMethod) (routeNames : List Text) (p : Written) :
    place method routeNames p.declaration = p.reported method routeNames := by
  have source : sourceOf method routeNames p.declaration = p.source method routeNames := rfl
  have required : (!p.declaration.hasDefault) = p.default.isNone := Option.not_isSome _
  rw [place, source, required]
  rfl

/-- The parameters on a line are recovered, in their order, all but the cancellation tokens. -/
theorem classify_listText (method : HttpMethod) (routeNames : List Text) (params : List Written) {start : Text}
    (absent : '(' ∉ start) (finish : Text) (before after : List Text) :
    (classify (before ++ (start ++ '(' :: (listText params ++ ')' :: finish)) :: after) before.length method
        routeNames).parameters =
      (params.filter fun p => !isCancellationToken p.type.collapsed).map (reported method routeNames) := by
  have sent : declarations (listText params) =
      (params.filter fun p => !isCancellationToken p.type.collapsed).map declaration := by
    rw [declarations_listText, List.filter_map]
    simp only [Function.comp_def, declaration_type]
  rw [classify, listAt?_line absent (balanced_listText params)]
  simp only [summarize, sent, List.map_map]
  exact congrArg (List.map · _) (funext (place_declaration method routeNames))

/-- A parameter with an attribute, a type with white space and a default. -/
def tenants : Written where
  before := .none
  sections := [{
    attributes := [{
      before := .none
      name := { text := "FromHeader".toList, nonempty := by decide, chars := List.all_eq_true.mp (by decide) }
      between := .none
      arguments := some {
        text := "Name = ".toList ++ ('"' :: "A, B".toList ++ '"' :: [])
        balanced := (Balanced.of_all (by decide)).append (.literal (List.all_eq_true.mp (by decide)) .nil) }
      after := .none }]
    after := .none }]
  modifiers := []
  type := {
    text := "Dictionary".toList ++ ('<' :: "string,  int".toList ++ '>' :: [])
    balanced := (Balanced.of_all (by decide)).append (.group .angle (Balanced.of_all (by decide)) .nil)
    solid := ⟨by decide, by decide, by decide⟩
    no_section := by decide
    no_modifier := by decide }
  between := .single
  verbatim := true
  name := { text := "tenants".toList, nonempty := by decide, chars := List.all_eq_true.mp (by decide), bare := by decide }
  after := Space.single.toGap
  default := some { text := " null".toList, balanced := Balanced.of_all (by decide) }

/-- A cancellation token. -/
def token : Written where
  before := Space.single.toGap
  sections := []
  modifiers := [{ word := "in".toList, known := by decide, after := .single }]
  type := {
    text := "CancellationToken".toList
    balanced := Balanced.of_all (by decide)
    solid := ⟨by decide, by decide, by decide⟩
    no_section := by decide
    no_modifier := by decide }
  between := .single
  verbatim := false
  name := { text := "token".toList, nonempty := by decide, chars := List.all_eq_true.mp (by decide), bare := by decide }
  after := .none
  default := none

/-- The list of a method with an attribute, a default and a token. -/
theorem classify_listText_tenants :
    let line := "Get([FromHeader(Name = \"A, B\")]Dictionary<string,  int> @tenants = null, in CancellationToken token)"
    '(' ∉ "Get".toList ∧ (classify [line.toList] 0 .get []).parameters =
      [{ name := "tenants".toList, type := "Dictionary<string, int>".toList, source := .header, required := false }] := by
  intro line
  have absent : '(' ∉ "Get".toList := by decide
  have written : line.toList = "Get".toList ++ '(' :: (listText [tenants, token] ++ ')' :: []) := by decide +kernel
  have recovered := classify_listText .get [] [tenants, token] absent [] [] []
  have expected : ([tenants, token].filter fun p => !isCancellationToken p.type.collapsed).map (reported .get []) =
      [{ name := "tenants".toList, type := "Dictionary<string, int>".toList, source := .header, required := false }] := by
    decide +kernel
  rw [expected] at recovered
  rw [written]
  exact ⟨absent, recovered⟩

end EndpointConsole.Parameter.Written
