import EndpointConsole.Proofs.Parameter.Opacity
import EndpointConsole.Proofs.Parameter.Spacing

/-!
A parameter list that is broken over lines. The lines are trimmed and joined one by one, and what is
gathered of them is after each one the text up to there, but for the white space within it and at its
ends (`SameInside`, `gather_sameInside`). So the list closes with the line that it closes in, and is
the list of the single line, respaced (`listFrom_broken`): the parameters are classified the same
(`classify_broken`).
-/
namespace EndpointConsole.Parameter
open Text (IsBlank Respaced isBlank trim trimStart)
open Written (Gap Space)

variable {s t text joined list : Text}

/-- The same text up to the white space within and at the ends. -/
def SameInside (s t : Text) : Prop := ∀ a b : Space, Respaced (trimStart (s ++ a.text)) (trimStart (t ++ b.text))

/-- With white space between them, texts are put together as such. -/
theorem SameInside.append {s' t' : Text} (first : SameInside s t) (second : SameInside s' t') (a b : Space) :
    SameInside (s ++ a.text ++ s') (t ++ b.text ++ t') := by
  -- the white space that the second text begins with is counted to that before it
  have cut (s s' : Text) (a c : Space) : ∃ gap : Space, trimStart (s ++ a.text ++ s' ++ c.text) =
      trimStart (s ++ gap.text) ++ trimStart (s' ++ c.text) := by
    obtain ⟨before, blank, whole⟩ := Text.exists_margin (s' ++ c.text)
    have split : s ++ a.text ++ s' ++ c.text = s ++ (a.text ++ before) ++ trimStart (s' ++ c.text) := by
      simp only [List.append_assoc, ← whole]
    refine ⟨⟨⟨a.text ++ before, a.blank.append blank⟩, List.append_ne_nil_of_left_ne_nil a.nonempty before⟩, ?_⟩
    rw [split, Text.trimStart_append_of_trimmed (Text.trimStart_trimStart _)]
  intro c d
  obtain ⟨gap, left⟩ := cut s s' a c
  obtain ⟨gap', right⟩ := cut t t' b d
  rw [left, right]
  exact (first gap gap').append (second c d)

/-- White space at the beginning does not count. -/
theorem SameInside.of_blank_append {gap : Text} (blank : IsBlank gap) (same : SameInside s (gap ++ t)) :
    SameInside s t := fun a b => by
  have whole := same a b
  rwa [List.append_assoc, Text.trimStart_blank_append blank] at whole

theorem SameInside.trim (s : Text) : SameInside s (trim s) := by
  intro a b
  obtain ⟨before, after, blank, blank', whole⟩ := Text.exists_margins s
  have behind : IsBlank (after ++ a.text) := blank'.append a.blank
  have some_behind := List.append_ne_nil_of_right_ne_nil after a.nonempty
  have same := ((Respaced.refl (Text.trim s)).append (.blanks behind some_behind b.blank b.nonempty)).trimStart
  have split : s ++ a.text = before ++ (Text.trim s ++ (after ++ a.text)) := by
    conv_lhs => rw [whole]
    simp only [List.append_assoc]
  rwa [split, Text.trimStart_blank_append blank]

theorem balanced?_trimStart (s : Text) : balanced? (trimStart s) = balanced? s := by
  induction s with
  | nil => rfl
  | cons c rest ih =>
    cases blank : isBlank c with
    | true =>
      have dropped : trimStart (c :: rest) = trimStart rest := List.dropWhile_cons_of_pos blank
      rw [dropped, ih, balanced?, balanced?, Text.cutAt?, if_neg (Text.ne_of_blank blank rfl)]
      cases Text.cutAt? '(' rest <;> rfl
    | false =>
      have kept : trimStart (c :: rest) = c :: rest := List.dropWhile_cons_of_neg (Bool.eq_false_iff.mp blank)
      rw [kept]

/-- A list that is closed stays as it is, and white space closes none. -/
theorem balanced?_append (s : Text) :
    (∃ list, ∀ rest, balanced? (s ++ rest) = some list) ∨ ∀ gap, IsBlank gap → balanced? (s ++ gap) = none := by
  by_cases opens : '(' ∈ s
  · obtain ⟨before, list, rfl, absent⟩ := List.eq_append_cons_of_mem opens
    have read (rest : Text) : balanced? (before ++ '(' :: list ++ rest) = balancedFrom 1 false '(' (list ++ rest) := by
      rw [List.append_assoc, List.cons_append, balanced?, Text.cutAt?_append absent]
    rcases balancedFrom_append 1 false '(' list with ⟨found, ends⟩ | ⟨depth, last, passed⟩
    · exact .inl ⟨found, fun rest => (read rest).trans (ends rest)⟩
    · refine .inr fun gap blank => ?_
      have unclosed : balancedFrom depth (literalAfter false '(' list) last gap = none := by
        cases gap with
        | nil => rfl
        | cons c rest =>
          have passing := balancedFrom_gap blank (List.cons_ne_nil c rest) depth (literalAfter false '(' list) last []
          rwa [List.append_nil] at passing
      rw [read, passed, unclosed, Option.map_none]
  · refine .inr fun gap blank => ?_
    have absent : '(' ∉ s ++ gap := by
      rw [List.mem_append, not_or]
      exact ⟨opens, fun among => Text.ne_of_blank (blank _ among) rfl rfl⟩
    rw [balanced?, Text.cutAt?_of_not_mem absent]

theorem balanced?_append_of_closed (closed : balanced? s = some list) (rest : Text) :
    balanced? (s ++ rest) = some list := by
  rcases balanced?_append s with ⟨found, ends⟩ | unclosed
  · have here := ends []
    rw [List.append_nil, closed] at here
    rw [ends, here]
  · have here := unclosed [] Text.isBlank_nil
    rw [List.append_nil, closed] at here
    cases here

theorem balanced?_append_blank {gap : Text} (blank : IsBlank gap) (s : Text) : balanced? (s ++ gap) = balanced? s := by
  rcases balanced?_append s with ⟨found, ends⟩ | unclosed
  · have here := ends []
    rw [List.append_nil] at here
    rw [ends, here]
  · have here := unclosed [] Text.isBlank_nil
    rw [List.append_nil] at here
    rw [unclosed gap blank, here]

theorem SameInside.balanced? (same : SameInside s t) :
    Option.Rel Respaced (Parameter.balanced? s) (Parameter.balanced? t) := by
  have lists := balanced?_respaced (same .single .single)
  rwa [balanced?_trimStart, balanced?_trimStart, balanced?_append_blank Space.single.blank,
    balanced?_append_blank Space.single.blank] at lists

/-- Texts that are the same inside hold the same list, respaced. -/
theorem SameInside.closed (same : SameInside s t) (closed : Parameter.balanced? s = some list) :
    ∃ list', Parameter.balanced? t = some list' ∧ Respaced list list' := by
  match Parameter.balanced? t, closed ▸ same.balanced? with
  | some list', .some r => exact ⟨list', rfl, r⟩

theorem SameInside.unclosed (same : SameInside s t) (unclosed : Parameter.balanced? s = none) :
    Parameter.balanced? t = none := by
  match Parameter.balanced? t, unclosed ▸ same.balanced? with
  | none, _ => rfl

/-- A place where a text is broken: the white space there in the text, what of it ends the line above and begins
    the line below, and the text up to the next such place. -/
structure Break where
  gap : Space
  ending : Gap
  indent : Gap
  text : Text

/-- The text on a single line. -/
def unbroken (first : Text) (breaks : List Break) : Text := first ++ breaks.flatMap fun b => b.gap.text ++ b.text

/-- The lines that the text is broken into. -/
def broken (first : Text) : List Break → List Text
  | [] => [first]
  | b :: later => (first ++ b.ending.text) :: broken (b.indent.text ++ b.text) later

theorem unbroken_cons (first : Text) (b : Break) (later : List Break) :
    unbroken first (b :: later) = unbroken (first ++ b.gap.text ++ b.text) later := by
  simp [unbroken]

theorem broken_eq_cons (first : Text) (breaks : List Break) :
    ∃ (ending : Gap) (later : List Text), broken first breaks = (first ++ ending.text) :: later := by
  cases breaks with
  | nil => exact ⟨.none, [], by rw [broken, Gap.none, List.append_nil]⟩
  | cons b later => exact ⟨b.ending, _, rfl⟩

/-- With a line more, what is gathered is the text up to there. -/
theorem gather_sameInside (same : SameInside text joined) (gap : Space) (next : Text) (indent ending : Gap) :
    SameInside (text ++ gap.text ++ next) (gather joined (indent.text ++ next ++ ending.text)) := by
  have line : trim (indent.text ++ next ++ ending.text) = trim next := Text.trim_margins indent.blank ending.blank next
  have whole := same.append (SameInside.trim next) gap .single
  rw [gather, line]
  split
  · next empty =>
    rw [List.isEmpty_iff.mp empty, List.nil_append] at whole
    exact whole.of_blank_append Space.single.blank
  · rwa [List.append_assoc joined] at whole

/-- If the list closes in one of the lines that are looked at, it is found there, respaced. -/
theorem listFrom_broken {start : Text} {early : List Break}
    (same : ∀ ending : Gap, SameInside text (gather joined (start ++ ending.text)))
    (closes : balanced? (unbroken text early) = some list) {ahead : Nat} (near : early.length < ahead)
    (late : List Break) (below : List Text) :
    ∃ list', listFrom joined ((broken start (early ++ late) ++ below).take ahead) = some list' ∧ Respaced list list' := by
  obtain ⟨ahead, rfl⟩ := Nat.exists_eq_add_one_of_ne_zero (Nat.ne_zero_of_lt near)
  induction early generalizing text joined start ahead with
  | nil =>
    obtain ⟨ending, later, lines⟩ := broken_eq_cons start late
    rw [unbroken, List.flatMap_nil, List.append_nil] at closes
    obtain ⟨list', found, r⟩ := (same ending).closed closes
    rw [List.nil_append, lines, List.cons_append, List.take_succ_cons, listFrom_cons, found]
    exact ⟨list', rfl, r⟩
  | cons b early ih =>
    rw [List.cons_append, broken, List.cons_append, List.take_succ_cons, listFrom_cons]
    cases above : balanced? text with
    | some upper =>
      obtain ⟨list', found, r⟩ := (same b.ending).closed above
      rw [unbroken, balanced?_append_of_closed above] at closes
      cases closes
      rw [found]
      exact ⟨list', rfl, r⟩
    | none =>
      rw [List.length_cons] at near
      obtain ⟨ahead, rfl⟩ : ∃ fewer, ahead = fewer + 1 := Nat.exists_eq_add_one_of_ne_zero (by omega)
      rw [(same b.ending).unclosed above, Option.none_or]
      rw [unbroken_cons] at closes
      exact ih (gather_sameInside (same b.ending) b.gap b.text b.indent) closes ahead (by omega)

/-- A list in the lines that are looked at is found, and is that of the single line, respaced. -/
theorem listAt?_broken {first : Text} {early : List Break} (closes : balanced? (unbroken first early) = some list)
    (near : early.length < listLookahead) (late : List Break) (before after : List Text) :
    ∃ list', listAt? (before ++ (broken first (early ++ late) ++ after)) before.length = some list' ∧
      Respaced list list' := by
  rw [listAt?, List.drop_left]
  refine listFrom_broken (fun ending => ?_) closes near late after
  have line : gather [] (first ++ ending.text) = trim first := by
    have trimmed := Text.trim_margins Text.isBlank_nil ending.blank first
    rw [gather, if_pos List.isEmpty_nil]
    exact trimmed
  rw [line]
  exact SameInside.trim first

/-- Line breaks do not matter: broken at white space into lines of which the first twenty hold the list, a
    method text is classified as on a single line. -/
theorem classify_broken (method : HttpMethod) (routeNames : List Text) (before after : List Text) (first : Text)
    (breaks : List Break) (closes : balanced? (unbroken first (breaks.take (listLookahead - 1))) ≠ none) :
    classify (before ++ (broken first breaks ++ after)) before.length method routeNames =
      classify (before ++ unbroken first breaks :: after) before.length method routeNames := by
  obtain ⟨list, closed⟩ := Option.ne_none_iff_exists'.mp closes
  have near : (breaks.take (listLookahead - 1)).length < listLookahead := by
    rw [List.length_take, listLookahead]
    omega
  obtain ⟨lines, found, r⟩ := listAt?_broken closed near (breaks.drop (listLookahead - 1)) before after
  rw [List.take_append_drop] at found
  -- the single line is that line broken nowhere
  have whole : balanced? (unbroken (unbroken first breaks) []) = some list := by
    rw [unbroken, List.flatMap_nil, List.append_nil, ← List.take_append_drop (listLookahead - 1) breaks, unbroken,
      List.flatMap_append, ← List.append_assoc]
    exact balanced?_append_of_closed closed _
  obtain ⟨single, found', r'⟩ := listAt?_broken whole (Nat.zero_lt_succ 19) [] before after
  have found' : listAt? (before ++ unbroken first breaks :: after) before.length = some single := found'
  rw [classify_eq, classify_eq, found, found', Option.map_some, Option.map_some, ← declarations_respaced r,
    ← declarations_respaced r']

/-- A default with a comma in it, on a line of its own. -/
theorem classify_broken_at_default :
    classify ["ActionResult Get([FromQuery] int page,".toList, " string name".toList, " = \"a, b\")".toList] 0 .get [] =
      classify ["ActionResult Get([FromQuery] int page, string name = \"a, b\")".toList] 0 .get [] :=
  classify_broken .get [] [] [] "ActionResult Get([FromQuery] int page,".toList
    [⟨.single, .none, Space.single.toGap, "string name".toList⟩,
      ⟨.single, .none, Space.single.toGap, "= \"a, b\")".toList⟩] (by decide)

end EndpointConsole.Parameter
