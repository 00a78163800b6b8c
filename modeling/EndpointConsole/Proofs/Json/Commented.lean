import EndpointConsole.Json.Commented
import EndpointConsole.Proofs.Json.Indented
import EndpointConsole.Proofs.Text.Trimming

/-!
Files without comments. A text is left as it is if none of its lines begins with a slash
and none ends with a carriage return, which one pass over its characters tells (`lineAfter?`,
`withoutComments_of_lineAfter?`). The indented text of a value is such a text, since strings
are the only place for slashes and line breaks in them are escaped (`withoutComments_pretty`).
-/
namespace EndpointConsole

/-- A line feed ends the first line, with the carriage return before it. -/
theorem Text.lines_append_feed {first : Text} (absent : '\n' ∉ first) (rest : Text) :
    lines (first ++ '\n' :: rest) = (if first.getLast? = some '\r' then first.dropLast else first) :: lines rest := by
  obtain ⟨pieces, last, cut⟩ := (List.eq_nil_or_concat' (splitOn '\n' rest)).resolve_left (splitOn_ne_nil '\n' rest)
  rw [lines, lines, splitOn_append absent, cut]
  simp

theorem Text.lines_append {first : Text} (absent : '\n' ∉ first) (returns : '\r' ∉ first) (rest : Text) :
    lines (first ++ '\n' :: rest) = first :: lines rest := by
  rw [lines_append_feed absent, if_neg fun last => returns (List.mem_of_getLast? last)]

theorem Text.lines_of_not_mem {s : Text} (absent : '\n' ∉ s) (nonempty : s ≠ []) : lines s = [s] := by
  rw [lines, splitOn_of_not_mem absent]
  simp [nonempty]

namespace Json

/-- Whether anything but white space stands on the line that a text ends in, if it does on the line
    that the text goes on with. There is no answer if a line begins with a slash, or at a carriage return. -/
def lineAfter? (begun : Bool) : Text → Option Bool
  | [] => some begun
  | c :: rest =>
    if c = '\n' then lineAfter? false rest
    else if c = '\r' then none
    else if begun then lineAfter? true rest
    else if Text.isBlank c then lineAfter? false rest
    else if c = '/' then none
    else lineAfter? true rest

theorem lineAfter?_append (begun : Bool) (s t : Text) :
    lineAfter? begun (s ++ t) = (lineAfter? begun s).bind fun begun => lineAfter? begun t := by
  fun_induction lineAfter? begun s with
  | case1 => rfl
  | case2 begun rest ih => simpa [lineAfter?] using ih
  | case3 => simp [lineAfter?]
  | case4 c rest feed carriage ih => simpa [lineAfter?, feed, carriage] using ih
  | case5 begun c rest feed carriage fresh blank ih => simpa [lineAfter?, feed, carriage, fresh, blank] using ih
  | case6 begun rest => simp_all [lineAfter?]
  | case7 begun c rest feed carriage fresh blank slash ih =>
    simpa [lineAfter?, feed, carriage, fresh, blank, slash] using ih

/-- A line that was passed over ends without a carriage return, and is no comment from its beginning. -/
theorem lineAfter?_line {line : Text} (absent : '\n' ∉ line) {begun after : Bool}
    (passed : lineAfter? begun line = some after) :
    '\r' ∉ line ∧ (begun = false → isComment line = false) := by
  induction line generalizing begun with
  | nil => exact ⟨List.not_mem_nil, fun _ => rfl⟩
  | cons c rest ih =>
    rw [List.mem_cons, not_or] at absent
    have feed : ¬c = '\n' := Ne.symm absent.1
    rw [lineAfter?, if_neg feed] at passed
    by_cases carriage : c = '\r'
    · rw [if_pos carriage] at passed
      cases passed
    rw [if_neg carriage] at passed
    cases begun with
    | true =>
      rw [if_pos rfl] at passed
      refine ⟨?_, nofun⟩
      simp [Ne.symm carriage, (ih absent.2 passed).1]
    | false =>
      rw [if_neg Bool.false_ne_true] at passed
      by_cases blank : Text.isBlank c = true
      · rw [if_pos blank] at passed
        obtain ⟨returns, comment⟩ := ih absent.2 passed
        refine ⟨by simp [Ne.symm carriage, returns], fun _ => ?_⟩
        rw [isComment, Text.trimStart, List.dropWhile_cons_of_pos blank]
        exact comment rfl
      · rw [if_neg blank] at passed
        by_cases slash : c = '/'
        · rw [if_pos slash] at passed
          cases passed
        · rw [if_neg slash] at passed
          refine ⟨by simp [Ne.symm carriage, (ih absent.2 passed).1], fun _ => ?_⟩
          rw [isComment, Text.trimStart, List.dropWhile_cons_of_neg blank, Text.startsWith]
          simp [List.isPrefixOf, Ne.symm slash]

theorem join_lines_of_lineAfter? {s : Text} (passed : lineAfter? false s = some true) :
    Text.joinWith ['\n'] ((Text.lines s).filter fun line => !isComment line) = s := by
  by_cases member : '\n' ∈ s
  · obtain ⟨first, rest, cut, absent⟩ := List.eq_append_cons_of_mem member
    have shorter : rest.length < s.length := by
      rw [cut, List.length_append, List.length_cons]
      omega
    subst cut
    rw [lineAfter?_append, Option.bind_eq_some_iff] at passed
    obtain ⟨begun, here, later⟩ := passed
    rw [lineAfter?, if_pos rfl] at later
    obtain ⟨returns, comment⟩ := lineAfter?_line absent here
    have ih := join_lines_of_lineAfter? later
    have some_line : (Text.lines rest).filter (fun line => !isComment line) ≠ [] := by
      intro none
      rw [none] at ih
      subst ih
      cases later
    obtain ⟨second, others, is⟩ := List.exists_cons_of_ne_nil some_line
    rw [is] at ih
    rw [Text.lines_append absent returns, List.filter_cons_of_pos (by simp [comment rfl]), is, Text.joinWith, ih,
      List.append_assoc, List.singleton_append]
  · have nonempty : s ≠ [] := by
      rintro rfl
      cases passed
    have comment := (lineAfter?_line member passed).2 rfl
    rw [Text.lines_of_not_mem member nonempty, List.filter_cons_of_pos (by simp [comment])]
    rfl
termination_by s.length

/-- A text without comments, carriage returns and byte order mark that ends within a line stays as it is. -/
theorem withoutComments_of_lineAfter? {s : Text} (mark : s.head? ≠ some byteOrderMark)
    (passed : lineAfter? false s = some true) : withoutComments s = s := by
  have unmarked : dropMark s = s := by
    cases s with
    | nil => rfl
    | cons c rest => rw [dropMark, if_neg fun same => mark (congrArg some same)]
  rw [withoutComments, unmarked, join_lines_of_lineAfter? passed]

/-- A character that begins a token: no white space, no slash and no byte order mark. -/
def beginsToken (c : Char) : Bool := !Text.isBlank c && c != '/' && c != byteOrderMark

/-- A character that no line ends with. -/
def isInner (c : Char) : Bool := c != '\n' && c != '\r'

theorem lineAfter?_inner {s : Text} (inner : ∀ c ∈ s, isInner c = true) : lineAfter? true s = some true := by
  induction s with
  | nil => rfl
  | cons c rest ih =>
    have here := inner c List.mem_cons_self
    rw [isInner, Bool.and_eq_true, bne_iff_ne, bne_iff_ne] at here
    rw [lineAfter?, if_neg here.1, if_neg here.2, if_pos rfl]
    exact ih fun d among => inner d (List.mem_cons_of_mem c among)

/-- A token may stand anywhere in a line. -/
theorem lineAfter?_token {c : Char} (begins : beginsToken c = true) {rest : Text} (inner : ∀ d ∈ rest, isInner d = true)
    (begun : Bool) : lineAfter? begun (c :: rest) = some true := by
  simp only [beginsToken, Bool.and_eq_true, Bool.not_eq_true', bne_iff_ne] at begins
  obtain ⟨⟨solid, slash⟩, _⟩ := begins
  have feed : c ≠ '\n' := by
    rintro rfl
    cases solid
  have carriage : c ≠ '\r' := by
    rintro rfl
    cases solid
  rw [lineAfter?, if_neg feed, if_neg carriage, if_neg (Bool.eq_false_iff.mp solid), if_neg slash,
    lineAfter?_inner inner]
  cases begun <;> rfl

theorem lineAfter?_newline (begun : Bool) (level : Nat) : lineAfter? begun (newline level) = some false := by
  have indented (n : Nat) : lineAfter? false (List.replicate n ' ') = some false := by
    induction n with
    | zero => rfl
    | succ n ih => simpa [List.replicate_succ, lineAfter?, Text.isBlank] using ih
  rw [newline, lineAfter?, if_pos rfl, indented]

theorem isInner_of_toNat {c : Char} (printable : 0x20 ≤ c.toNat) : isInner c = true := by
  have feed : c ≠ '\n' := by
    rintro rfl
    exact absurd printable (by decide)
  have carriage : c ≠ '\r' := by
    rintro rfl
    exact absurd printable (by decide)
  simp [isInner, feed, carriage]

theorem isInner_escapeChar {c d : Char} (among : d ∈ escapeChar c) : isInner d = true := by
  have digit {n : Nat} (small : n < 16) : isInner (Hex.lowerDigit n) = true := by
    revert n
    decide
  by_cases named : c = '"' ∨ c = '\\' ∨ c = '\n' ∨ c = '\r' ∨ c = '\t'
  · have each : ((['"', '\\', '\n', '\r', '\t'].flatMap escapeChar).all isInner) = true := by decide
    refine List.all_eq_true.mp each d (List.mem_flatMap.mpr ⟨c, ?_, among⟩)
    simpa using named
  obtain ⟨quote, backslash, newline, carriage, tab⟩ : c ≠ '"' ∧ c ≠ '\\' ∧ c ≠ '\n' ∧ c ≠ '\r' ∧ c ≠ '\t' := by
    simpa only [not_or] using named
  simp only [escapeChar, if_neg quote, if_neg backslash, if_neg newline, if_neg carriage, if_neg tab] at among
  split at among
  · have each : (['\\', 'b'].all isInner) = true := by decide
    exact List.all_eq_true.mp each d among
  split at among
  · have each : (['\\', 'f'].all isInner) = true := by decide
    exact List.all_eq_true.mp each d among
  split at among
  · next control =>
    have high := digit (n := c.toNat / 16) (by omega)
    have low := digit (n := c.toNat % 16) (by omega)
    simp only [List.mem_cons, List.not_mem_nil, or_false] at among
    rcases among with rfl | rfl | rfl | rfl | rfl | rfl
    · rfl
    · rfl
    · rfl
    · rfl
    · exact high
    · exact low
  · next printable =>
    rw [List.mem_singleton.mp among]
    exact isInner_of_toNat (by omega)

theorem lineAfter?_quote (begun : Bool) (s : Text) : lineAfter? begun (quote s) = some true := by
  refine lineAfter?_token rfl ?_ begun
  intro d among
  rcases List.mem_append.mp among with inside | last
  · obtain ⟨c, _, escaped⟩ := List.mem_flatMap.mp inside
    exact isInner_escapeChar escaped
  · rw [List.mem_singleton.mp last]
    rfl

/-- The text of a number that is an integer begins a token and goes on in its line. -/
theorem numberText_token {n : Number} (integer : n.IsInteger) :
    ∃ c rest, numberText n = c :: rest ∧ beginsToken c = true ∧ ∀ d ∈ rest, isInner d = true := by
  have digit {c : Char} (is : c.isDigit = true) : beginsToken c = true ∧ isInner c = true := by
    have bounds : 48 ≤ c.toNat ∧ c.toNat ≤ 57 := by
      simpa [Char.isDigit, UInt32.le_iff_toNat_le] using is
    have solid := Text.isBlank_of_printable (c := c) (by omega) (by omega)
    have slash : c ≠ '/' := by
      rintro rfl
      cases is
    have mark : c ≠ byteOrderMark := by
      rintro rfl
      cases is
    exact ⟨by simp [beginsToken, solid, slash, mark], isInner_of_toNat (by omega)⟩
  cases n with
  | int n =>
    have each (m : Nat) : ∀ c ∈ natText m, c.isDigit = true := fun c member => isDigit_natText member
    rw [numberText, intText]
    split
    · exact ⟨'-', _, rfl, rfl, fun d among => (digit (each _ d among)).2⟩
    · obtain ⟨c, rest, cut⟩ := List.exists_cons_of_ne_nil (Nat.toDigits_ne_nil (b := 10) (n := n.natAbs))
      have here : natText n.natAbs = c :: rest := cut
      have all := each n.natAbs
      rw [here] at all ⊢
      exact ⟨c, rest, rfl, (digit (all c List.mem_cons_self)).1,
        fun d among => (digit (all d (List.mem_cons_of_mem c among))).2⟩
  | real x =>
    rw [Number.IsInteger] at integer
    subst integer
    exact ⟨'-', "0.0".toList, rfl, rfl, List.all_eq_true.mp rfl⟩

mutual

/-- The indented text of a value passes wherever it stands, and leaves something on its last line. -/
theorem lineAfter?_prettyAt {v : Json} (integers : OnlyIntegers v) (begun : Bool) (level : Nat) :
    lineAfter? begun (prettyAt level v) = some true := by
  cases v with
  | null => exact lineAfter?_token rfl (List.all_eq_true.mp rfl) begun
  | bool b => cases b <;> exact lineAfter?_token rfl (List.all_eq_true.mp rfl) begun
  | number n =>
    obtain ⟨c, rest, text, begins, inner⟩ := numberText_token (onlyIntegers_number.mp integers)
    rw [prettyAt, text]
    exact lineAfter?_token begins inner begun
  | string s => exact lineAfter?_quote begun s
  | array items =>
    have opening : lineAfter? begun ['['] = some true := lineAfter?_token rfl (List.forall_mem_nil _) begun
    rw [prettyAt, ← List.singleton_append, lineAfter?_append, opening]
    exact lineAfter?_prettyItems (onlyIntegers_array.mp integers) level
  | object members =>
    have opening : lineAfter? begun ['\x7b'] = some true := lineAfter?_token rfl (List.forall_mem_nil _) begun
    rw [prettyAt, ← List.singleton_append, lineAfter?_append, opening]
    exact lineAfter?_prettyMembers (onlyIntegers_object.mp integers) level

theorem lineAfter?_prettyItems {items : List Json} (integers : ∀ v ∈ items, OnlyIntegers v) (level : Nat) :
    lineAfter? true (prettyItems level items) = some true := by
  cases items with
  | nil => rfl
  | cons v rest =>
    rw [prettyItems, lineAfter?_append, lineAfter?_append, lineAfter?_newline, Option.bind_some,
      lineAfter?_prettyAt (integers v List.mem_cons_self), Option.bind_some,
      lineAfter?_prettyMoreItems fun w among => integers w (List.mem_cons_of_mem v among)]

theorem lineAfter?_prettyMoreItems {items : List Json} (integers : ∀ v ∈ items, OnlyIntegers v) (level : Nat) :
    lineAfter? true (prettyMoreItems level items) = some true := by
  cases items with
  | nil =>
    rw [prettyMoreItems, lineAfter?_append, lineAfter?_newline]
    rfl
  | cons v rest =>
    have comma : lineAfter? true [','] = some true := rfl
    rw [prettyMoreItems, ← List.singleton_append, lineAfter?_append, lineAfter?_append, lineAfter?_append, comma,
      Option.bind_some, lineAfter?_newline, Option.bind_some, lineAfter?_prettyAt (integers v List.mem_cons_self),
      Option.bind_some, lineAfter?_prettyMoreItems fun w among => integers w (List.mem_cons_of_mem v among)]

theorem lineAfter?_prettyMembers {members : List (Text × Json)} (integers : ∀ m ∈ members, OnlyIntegers m.2)
    (level : Nat) : lineAfter? true (prettyMembers level members) = some true := by
  cases members with
  | nil => rfl
  | cons m rest =>
    obtain ⟨key, v⟩ := m
    have colon : lineAfter? true ": ".toList = some true := rfl
    simp only [prettyMembers, lineAfter?_append, lineAfter?_newline, lineAfter?_quote, colon,
      lineAfter?_prettyAt (integers (key, v) List.mem_cons_self), Option.bind_some]
    exact lineAfter?_prettyMoreMembers (fun n among => integers n (List.mem_cons_of_mem (key, v) among)) level

theorem lineAfter?_prettyMoreMembers {members : List (Text × Json)} (integers : ∀ m ∈ members, OnlyIntegers m.2)
    (level : Nat) : lineAfter? true (prettyMoreMembers level members) = some true := by
  cases members with
  | nil =>
    rw [prettyMoreMembers, lineAfter?_append, lineAfter?_newline]
    rfl
  | cons m rest =>
    obtain ⟨key, v⟩ := m
    have comma : lineAfter? true [','] = some true := rfl
    have colon : lineAfter? true ": ".toList = some true := rfl
    rw [prettyMoreMembers, ← List.singleton_append]
    simp only [lineAfter?_append, comma, lineAfter?_newline, lineAfter?_quote, colon,
      lineAfter?_prettyAt (integers (key, v) List.mem_cons_self), Option.bind_some]
    exact lineAfter?_prettyMoreMembers (fun n among => integers n (List.mem_cons_of_mem (key, v) among)) level

end

/-- An indented text begins with a token. -/
theorem head?_pretty {v : Json} (integers : OnlyIntegers v) : ∃ c ∈ (pretty v).head?, beginsToken c = true := by
  cases v with
  | null => exact ⟨'n', rfl, rfl⟩
  | bool b => cases b <;> exact ⟨_, rfl, rfl⟩
  | number n =>
    obtain ⟨c, rest, text, begins, _⟩ := numberText_token (onlyIntegers_number.mp integers)
    exact ⟨c, by simp [pretty, prettyAt, text], begins⟩
  | string s => exact ⟨'"', rfl, rfl⟩
  | array items => exact ⟨'[', rfl, rfl⟩
  | object members => exact ⟨'\x7b', rfl, rfl⟩

/-- There are no comments in an indented text. -/
theorem withoutComments_pretty {v : Json} (integers : OnlyIntegers v) : withoutComments (pretty v) = pretty v := by
  refine withoutComments_of_lineAfter? ?_ (lineAfter?_prettyAt integers false 0)
  obtain ⟨c, first, begins⟩ := head?_pretty integers
  rw [first]
  intro same
  rw [Option.some.inj same] at begins
  cases begins

end Json

end EndpointConsole
