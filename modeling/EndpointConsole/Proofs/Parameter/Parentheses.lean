import EndpointConsole.Proofs.Parameter.Breaks
import EndpointConsole.Proofs.Text.Bytes

/-!
What the search for a parameter list finds: the text between the first parenthesis and the one that matches
it, where parentheses in literals do not count (`Listed`). The search is exact (`balanced?_eq_some_iff`), and
it is carried out safely in bytes: the number of open parentheses never has to go below zero, and the list is
cut out between characters (`searched_eq`). Both are one statement with what follows from them, that there is
at most one list and that it stays when text is added (`balanced?_exact`).
-/
namespace EndpointConsole.Parameter
open Text (byteLength slice?)

variable {s t a b body out rest : Text} {p c : Char} {depth : Nat}

/-- What stands in a literal from a character on: each quote in it has a backslash before it, and the quote
    behind it has none. -/
structure UpToQuote (previous : Char) (body : Text) : Prop where
  escaped : ∀ before after, body = before ++ '"' :: after → before.getLastD previous = '\\'
  ends : body.getLastD previous ≠ '\\'

theorem upToQuote_nil : UpToQuote p [] ↔ p ≠ '\\' := by
  refine ⟨UpToQuote.ends, fun plain => ⟨fun before after whole => ?_, plain⟩⟩
  exact absurd (List.mem_append_right before List.mem_cons_self) (whole ▸ List.not_mem_nil)

theorem upToQuote_cons : UpToQuote p (c :: body) ↔ (c = '"' → p = '\\') ∧ UpToQuote c body := by
  constructor
  · rintro ⟨escaped, ends⟩
    refine ⟨fun quote => escaped [] body (by rw [quote, List.nil_append]), fun before after whole => ?_, ?_⟩
    · have here := escaped (c :: before) after (by rw [whole, List.cons_append])
      rwa [List.getLastD_cons] at here
    · rwa [List.getLastD_cons] at ends
  · rintro ⟨first, escaped, ends⟩
    refine ⟨fun before after whole => ?_, by rwa [List.getLastD_cons]⟩
    rcases List.cons_eq_append_iff.mp whole with ⟨rfl, same⟩ | ⟨more, rfl, behind⟩
    · exact first (List.cons.inj same).1.symm
    · rw [List.getLastD_cons]
      exact escaped more after behind

/-- A text that begins and ends outside of literals, with its characters outside of literals. -/
inductive Outside : Text → Text → Prop
  | nil : Outside [] []
  | char {c : Char} {s out : Text} (plain : c ≠ '"') (more : Outside s out) : Outside (c :: s) (c :: out)
  | literal {body s out : Text} (inside : UpToQuote '"' body) (more : Outside s out) :
      Outside ('"' :: (body ++ '"' :: s)) out

/-- Parentheses of a text match where some are open before it: none is closed that is not open, and in the end
    all are closed. -/
def Matched (depth : Nat) (out : Text) : Prop :=
  (∀ part, part <+: out → part.count ')' ≤ depth + part.count '(') ∧ depth + out.count '(' = out.count ')'

theorem matched_nil : Matched depth [] ↔ depth = 0 := by
  simp [Matched]

theorem matched_cons : Matched depth (c :: out) ↔
    (∀ part, part <+: out → (c :: part).count ')' ≤ depth + (c :: part).count '(') ∧
      depth + (c :: out).count '(' = (c :: out).count ')' := by
  refine and_congr_left' ⟨fun all part starts => all _ ((List.prefix_cons_inj c).mpr starts), fun all => ?_⟩
  intro part starts
  rcases List.prefix_cons_iff.mp starts with rfl | ⟨part, rfl, more⟩
  · exact Nat.zero_le _
  · exact all part more

theorem matched_opening : Matched depth ('(' :: out) ↔ Matched (depth + 1) out := by
  have other : '(' ≠ ')' := by decide
  rw [matched_cons, Matched]
  simp only [List.count_cons_self, List.count_cons_of_ne other, Nat.add_assoc, Nat.add_comm 1]

theorem matched_closing : Matched depth (')' :: out) ↔ ∃ left, depth = left + 1 ∧ Matched left out := by
  have other : ')' ≠ '(' := by decide
  rw [matched_cons]
  simp only [List.count_cons_self, List.count_cons_of_ne other]
  constructor
  · rintro ⟨each, whole⟩
    have first : 0 + 1 ≤ depth + 0 := each [] List.nil_prefix
    obtain ⟨left, rfl⟩ := Nat.exists_eq_add_of_le' first
    refine ⟨left, rfl, fun part starts => ?_, by omega⟩
    have := each part starts
    omega
  · rintro ⟨left, rfl, each, whole⟩
    refine ⟨fun part starts => ?_, by omega⟩
    have := each part starts
    omega

theorem matched_other (opens : c ≠ '(') (closes : c ≠ ')') : Matched depth (c :: out) ↔ Matched depth out := by
  rw [matched_cons, Matched]
  simp only [List.count_cons_of_ne opens, List.count_cons_of_ne closes]

/-- A text in which parentheses match outside of literals, and which ends outside of them. -/
def Enclosed (s : Text) : Prop :=
  ∃ out, Outside s out ∧ (∀ part, part <+: out → part.count ')' ≤ part.count '(') ∧ out.count '(' = out.count ')'

theorem enclosed_iff : Enclosed s ↔ ∃ out, Outside s out ∧ Matched 0 out := by
  simp only [Enclosed, Matched, Nat.zero_add]

/-- The list of a text: it stands behind the first parenthesis, and before the one that matches it. -/
def Listed (text s : Text) : Prop := ∃ a b, text = a ++ '(' :: (s ++ ')' :: b) ∧ '(' ∉ a ∧ Enclosed s

/-- The search goes over a literal. -/
theorem balancedFrom_literal (inside : UpToQuote p body) (rest : Text) :
    balancedFrom depth true p (body ++ '"' :: rest) = (balancedFrom depth false '"' rest).map (body ++ '"' :: ·) := by
  induction body generalizing p with
  | nil =>
    have closes : closesLiteral p '"' = true := by simp [closesLiteral, upToQuote_nil.mp inside]
    rw [List.nil_append, balancedFrom, if_pos rfl, closes]
    rfl
  | cons c body ih =>
    obtain ⟨first, more⟩ := upToQuote_cons.mp inside
    have goesOn : closesLiteral p c = false := by
      rw [closesLiteral, Bool.and_eq_false_iff, bne_eq_false_iff_eq, beq_eq_false_iff_ne]
      exact or_iff_not_imp_left.mpr fun quote => first (not_not.mp quote)
    rw [List.cons_append, balancedFrom, if_pos rfl, goesOn, Bool.not_false, ih more, Option.map_map]
    rfl

/-- A search that succeeds from within a literal finds its end. -/
theorem exists_literal (found : balancedFrom depth true p rest = some s) :
    ∃ body behind, rest = body ++ '"' :: behind ∧ UpToQuote p body := by
  induction rest generalizing p s with
  | nil => cases found
  | cons c rest ih =>
    rw [balancedFrom, if_pos rfl] at found
    cases closes : closesLiteral p c with
    | true =>
      obtain ⟨quote, plain⟩ : c = '"' ∧ p ≠ '\\' := by simpa [closesLiteral] using closes
      exact ⟨[], rest, by rw [quote, List.nil_append], upToQuote_nil.mpr plain⟩
    | false =>
      rw [closes, Bool.not_false] at found
      obtain ⟨more, found, -⟩ := Option.map_eq_some_iff.mp found
      obtain ⟨body, behind, rfl, inside⟩ := ih found
      refine ⟨c :: body, behind, rfl, upToQuote_cons.mpr ⟨fun quote => ?_, inside⟩⟩
      simpa [closesLiteral, quote] using closes

theorem balancedFrom_quote (rest : Text) :
    balancedFrom depth false p ('"' :: rest) = (balancedFrom depth true '"' rest).map ('"' :: ·) := rfl

theorem balancedFrom_opening (rest : Text) :
    balancedFrom depth false p ('(' :: rest) = (balancedFrom (depth + 1) false '(' rest).map ('(' :: ·) := rfl

theorem balancedFrom_last (rest : Text) : balancedFrom 1 false p (')' :: rest) = some [] := rfl

theorem balancedFrom_closing (rest : Text) :
    balancedFrom (depth + 2) false p (')' :: rest) = (balancedFrom (depth + 1) false ')' rest).map (')' :: ·) := by
  have more : ¬depth + 2 ≤ 1 := by omega
  simp [balancedFrom, more]

theorem balancedFrom_other (plain : c ≠ '"') (opens : c ≠ '(') (closes : c ≠ ')') (rest : Text) :
    balancedFrom depth false p (c :: rest) = (balancedFrom depth false c rest).map (c :: ·) := by
  rw [balancedFrom, if_neg Bool.false_ne_true, if_neg plain, if_neg opens, if_neg closes]

/-- What the search finds is followed by the parenthesis that closes it. -/
theorem matched_of_balancedFrom {depth : Nat} {p : Char} {s : Text} (rest : Text)
    (found : balancedFrom (depth + 1) false p rest = some s) :
    ∃ out b, rest = s ++ ')' :: b ∧ Outside s out ∧ Matched depth out := by
  match rest with
  | [] => cases found
  | c :: rest =>
    by_cases quote : c = '"'
    · subst quote
      rw [balancedFrom_quote] at found
      obtain ⟨_, literal, rfl⟩ := Option.map_eq_some_iff.mp found
      obtain ⟨body, behind, whole, inside⟩ := exists_literal literal
      have shorter : behind.length < rest.length := by
        rw [whole, List.length_append, List.length_cons]
        omega
      rw [whole, balancedFrom_literal inside] at literal
      obtain ⟨_, later, rfl⟩ := Option.map_eq_some_iff.mp literal
      obtain ⟨out, b, rfl, outside, matched⟩ := matched_of_balancedFrom behind later
      exact ⟨out, b, by simp [whole], .literal inside outside, matched⟩
    by_cases opens : c = '('
    · subst opens
      rw [balancedFrom_opening] at found
      obtain ⟨_, later, rfl⟩ := Option.map_eq_some_iff.mp found
      obtain ⟨out, b, rfl, outside, matched⟩ := matched_of_balancedFrom rest later
      exact ⟨'(' :: out, b, rfl, .char quote outside, matched_opening.mpr matched⟩
    by_cases closes : c = ')'
    · subst closes
      cases depth with
      | zero =>
        rw [balancedFrom_last] at found
        cases found
        exact ⟨[], rest, rfl, .nil, matched_nil.mpr rfl⟩
      | succ depth =>
        rw [balancedFrom_closing] at found
        obtain ⟨_, later, rfl⟩ := Option.map_eq_some_iff.mp found
        obtain ⟨out, b, rfl, outside, matched⟩ := matched_of_balancedFrom rest later
        exact ⟨')' :: out, b, rfl, .char quote outside, matched_closing.mpr ⟨depth, rfl, matched⟩⟩
    · rw [balancedFrom_other quote opens closes] at found
      obtain ⟨_, later, rfl⟩ := Option.map_eq_some_iff.mp found
      obtain ⟨out, b, rfl, outside, matched⟩ := matched_of_balancedFrom rest later
      exact ⟨c :: out, b, rfl, .char quote outside, (matched_other opens closes).mpr matched⟩
termination_by rest.length
decreasing_by all_goals simp only [List.length_cons]; omega

/-- The search goes over what matches, and stops behind it. -/
theorem balancedFrom_matched (outside : Outside s out) (matched : Matched depth out) (b : Text) :
    balancedFrom (depth + 1) false p (s ++ ')' :: b) = some s := by
  induction outside generalizing depth p with
  | nil =>
    rw [matched_nil.mp matched]
    rfl
  | @char c s out plain _ ih =>
    by_cases opens : c = '('
    · subst opens
      rw [List.cons_append, balancedFrom_opening, ih (matched_opening.mp matched), Option.map_some]
    by_cases closes : c = ')'
    · subst closes
      obtain ⟨left, rfl, more⟩ := matched_closing.mp matched
      rw [List.cons_append, balancedFrom_closing, ih more, Option.map_some]
    · rw [List.cons_append, balancedFrom_other plain opens closes, ih ((matched_other opens closes).mp matched),
        Option.map_some]
  | literal inside _ ih =>
    rw [List.cons_append, List.append_assoc, List.cons_append, balancedFrom_quote, balancedFrom_literal inside,
      ih matched, Option.map_some, Option.map_some]

theorem balanced?_eq_some_iff {text : Text} : balanced? text = some s ↔ Listed text s := by
  constructor
  · intro found
    rw [balanced?] at found
    split at found
    · cases found
    · next a rest cut =>
      obtain ⟨rfl, absent⟩ := Text.cutAt?_eq_some_iff.mp cut
      obtain ⟨out, b, rfl, outside, matched⟩ := matched_of_balancedFrom rest found
      exact ⟨a, b, rfl, absent, enclosed_iff.mpr ⟨out, outside, matched⟩⟩
  · rintro ⟨a, b, rfl, absent, enclosed⟩
    obtain ⟨out, outside, matched⟩ := enclosed_iff.mp enclosed
    rw [balanced?, Text.cutAt?_append absent]
    exact balancedFrom_matched outside matched b

/-- Why a search could not go on. -/
inductive Fault where
  /-- More parentheses would have to be closed than are open. -/
  | countBelowZero
  /-- A text would have to be cut within a character. -/
  | cutWithinCharacter
  deriving DecidableEq

/-- Where a character stands first, in bytes from a position on. -/
def positionFrom (sought : Char) (position : Nat) : Text → Option Nat
  | [] => none
  | c :: rest => if c = sought then some position else positionFrom sought (position + c.utf8Size) rest

/-- Where the parenthesis stands that closes the last open one, in bytes from a position on. -/
def closingFrom (depth : Nat) (inLiteral : Bool) (previous : Char) (position : Nat) : Text → Except Fault (Option Nat)
  | [] => .ok none
  | c :: rest =>
    if inLiteral then closingFrom depth (!closesLiteral previous c) c (position + c.utf8Size) rest
    else if c = '"' then closingFrom depth true c (position + c.utf8Size) rest
    else if c = '(' then closingFrom (depth + 1) false c (position + c.utf8Size) rest
    else if c = ')' then
      if depth = 0 then .error .countBelowZero
      else if depth - 1 = 0 then .ok (some position)
      else closingFrom (depth - 1) false c (position + c.utf8Size) rest
    else closingFrom depth false c (position + c.utf8Size) rest

/-- Cuts out a part of a text that has to be there. -/
def cut (text : Text) (start stop : Nat) : Except Fault Text :=
  match slice? text start stop with
  | none => .error .cutWithinCharacter
  | some part => .ok part

/-- The search in bytes: from the first parenthesis on, with none open before it. -/
def searched (text : Text) : Except Fault (Option Text) :=
  match positionFrom '(' 0 text with
  | none => .ok none
  | some start => do
    let rest ← cut text start (byteLength text)
    match ← closingFrom 0 false (Char.ofNat 0) 0 rest with
    | none => .ok none
    | some offset => some <$> cut text (start + 1) (start + offset)

theorem positionFrom_of_not_mem (absent : c ∉ s) (position : Nat) : positionFrom c position s = none := by
  induction s generalizing position with
  | nil => rfl
  | cons d rest ih =>
    rw [List.mem_cons, not_or] at absent
    rw [positionFrom, if_neg (Ne.symm absent.1), ih absent.2]

theorem positionFrom_append (absent : c ∉ a) (position : Nat) (rest : Text) :
    positionFrom c position (a ++ c :: rest) = some (position + byteLength a) := by
  induction a generalizing position with
  | nil => rw [List.nil_append, positionFrom, if_pos rfl, byteLength, Nat.add_zero]
  | cons d more ih =>
    rw [List.mem_cons, not_or] at absent
    rw [List.cons_append, positionFrom, if_neg (Ne.symm absent.1), ih absent.2, byteLength, Nat.add_assoc]

theorem cut_append (a s b : Text) :
    cut (a ++ (s ++ b)) (byteLength a) (byteLength a + byteLength s) = .ok s := by
  rw [cut, Text.slice?_append]

/-- With a parenthesis open, the count stays above zero up to the position behind the list. -/
theorem closingFrom_eq (depth : Nat) (inLiteral : Bool) (p : Char) (position : Nat) (rest : Text) :
    closingFrom (depth + 1) inLiteral p position rest =
      .ok ((balancedFrom (depth + 1) inLiteral p rest).map (position + byteLength ·)) := by
  induction rest generalizing depth inLiteral p position with
  | nil => rfl
  | cons c rest ih =>
    have further (found : Option Text) : found.map (position + c.utf8Size + byteLength ·) =
        (found.map (c :: ·)).map (position + byteLength ·) := by
      rw [Option.map_map]
      exact congrArg (found.map ·) (funext fun s => Nat.add_assoc _ _ _)
    cases inLiteral with
    | true => rw [closingFrom, if_pos rfl, ih, further, balancedFrom, if_pos rfl]
    | false =>
      rw [closingFrom, if_neg Bool.false_ne_true]
      by_cases quote : c = '"'
      · rw [if_pos quote, ih, further, quote, balancedFrom_quote]
      by_cases opens : c = '('
      · rw [if_neg quote, if_pos opens, ih, further, opens, balancedFrom_opening]
      by_cases closes : c = ')'
      · rw [if_neg quote, if_neg opens, if_pos closes]
        rw [if_neg (Nat.succ_ne_zero depth), Nat.add_sub_cancel]
        cases depth with
        | zero =>
          rw [if_pos rfl, closes, balancedFrom_last]
          rfl
        | succ depth => rw [if_neg (Nat.succ_ne_zero depth), ih, further, closes, balancedFrom_closing]
      · rw [if_neg quote, if_neg opens, if_neg closes, ih, further, balancedFrom_other quote opens closes]

theorem searched_eq (text : Text) : searched text = .ok (balanced? text) := by
  by_cases opens : '(' ∈ text
  · obtain ⟨a, rest, rfl, absent⟩ := List.eq_append_cons_of_mem opens
    have start : cut (a ++ '(' :: rest) (byteLength a) (byteLength (a ++ '(' :: rest)) = .ok ('(' :: rest) := by
      have whole := cut_append a ('(' :: rest) []
      rwa [List.append_nil, ← Text.byteLength_append] at whole
    have search : closingFrom 0 false (Char.ofNat 0) 0 ('(' :: rest) =
        .ok ((balancedFrom 1 false '(' rest).map (1 + byteLength ·)) := closingFrom_eq 0 false '(' 1 rest
    have found : balanced? (a ++ '(' :: rest) = balancedFrom 1 false '(' rest := by
      rw [balanced?, Text.cutAt?_append absent]
    rw [searched, positionFrom_append absent, Nat.zero_add, found]
    simp only [start, search, bind, Except.bind]
    cases ends : balancedFrom 1 false '(' rest with
    | none => rfl
    | some s =>
      obtain ⟨_, b, rfl, -, -⟩ := matched_of_balancedFrom rest ends
      have list := cut_append (a ++ ['(']) s (')' :: b)
      have behind : byteLength (a ++ ['(']) = byteLength a + 1 := Text.byteLength_append a ['(']
      rw [behind, List.append_assoc, List.singleton_append, Nat.add_assoc] at list
      simp only [Option.map_some, list]
      rfl
  · rw [searched, positionFrom_of_not_mem opens, balanced?, Text.cutAt?_of_not_mem opens]

/-- The search for the list of a text succeeds on every text without a fault and finds just the list between the
    first parenthesis and the one that matches it. There is at most one, and it stays when text is added. -/
theorem balanced?_exact (text : Text) :
    searched text = .ok (balanced? text) ∧
    (∀ s, balanced? text = some s ↔ Listed text s) ∧
    (∀ s t, Listed text s → Listed text t → s = t) ∧
    ∀ s, balanced? text = some s → ∀ more, balanced? (text ++ more) = some s := by
  refine ⟨searched_eq text, fun s => balanced?_eq_some_iff, fun s t first second => ?_,
    fun s => balanced?_append_of_closed⟩
  have both : some s = some t := (balanced?_eq_some_iff.mpr first).symm.trans (balanced?_eq_some_iff.mpr second)
  exact Option.some.inj both

/-- A list with a parenthesis and an escaped quote in a literal, on a line that goes on. -/
theorem balanced?_exact_literal :
    let text := "Get(string a = \"(é\\\")\", (int, int) b) => F(".toList
    let list := "string a = \"(é\\\")\", (int, int) b".toList
    searched text = .ok (some list) ∧ Listed text list ∧ balanced? (text ++ ")".toList) = some list := by
  intro text list
  have found : balanced? text = some list := by decide +kernel
  obtain ⟨safe, exact, -, stays⟩ := balanced?_exact text
  exact ⟨safe.trans (congrArg Except.ok found), (exact list).mp found, stays list found _⟩

end EndpointConsole.Parameter
