import EndpointConsole.Proofs.Json.Commented
import EndpointConsole.Proofs.Json.LineBreaks
import EndpointConsole.Proofs.Text.Blank

/-!
JSON with comments between its lines. A text is read line by line: its tokens are those of its
lines one after the other, as no token goes over the end of a line, and so are the tokens of what is
left without the comments (`tokens?_uncommented`). No line that holds tokens is a comment, as no
token begins with a slash and strings end on the line they begin on. So a text that was given
comments on lines of their own, other line ends and a byte order mark loses them again, and nothing
that was there before (`parse?_withoutComments`).
-/
namespace EndpointConsole

/-- A text is a line, or a line and its line feed before a text. -/
@[elab_as_elim]
theorem Text.line_induction {motive : Text → Prop} (line : ∀ l, '\n' ∉ l → motive l)
    (feed : ∀ l rest, '\n' ∉ l → motive rest → motive (l ++ '\n' :: rest)) (s : Text) : motive s := by
  by_cases member : '\n' ∈ s
  · obtain ⟨l, rest, cut, absent⟩ := List.eq_append_cons_of_mem member
    have shorter : rest.length < s.length := by
      rw [cut, List.length_append, List.length_cons]
      omega
    rw [cut]
    exact feed l rest absent (line_induction line feed rest)
  · exact line s member
termination_by s.length

namespace Json

/-- A line on which tokens stand, if any, is no comment: a slash begins no token. -/
theorem isComment_of_tokens? {line : Text} {ts : List Token} (read : tokens? line = some ts) :
    isComment line = false := by
  induction line with
  | nil => rfl
  | cons c rest ih =>
    by_cases blank : Text.isBlank c = true
    · have space : isSpace c = true := by
        by_contra other
        rw [tokens?_of_no_token (by simpa using other) (readToken_of_blank blank rest)] at read
        cases read
      rw [tokens?_space space] at read
      rw [isComment, Text.trimStart, List.dropWhile_cons_of_pos blank]
      exact ih read
    · rw [isComment, Text.trimStart, List.dropWhile_cons_of_neg blank, Text.startsWith]
      have slash : c ≠ '/' := by
        rintro rfl
        rw [tokens?_of_no_token rfl rfl] at read
        cases read
      simp [List.isPrefixOf, Ne.symm slash]

/-- A carriage return at its end makes no line a comment, nor any other comment. -/
theorem isComment_return (line : Text) : isComment (line ++ ['\r']) = isComment line := by
  have blank : Text.IsBlank ['\r'] := by
    intro c among
    rw [List.mem_singleton.mp among]
    rfl
  have kept (s : Text) : Text.startsWith ['/', '/'] (s ++ ['\r']) = Text.startsWith ['/', '/'] s := by
    cases s with
    | nil => rfl
    | cons c rest =>
      cases rest with
      | nil => simp [Text.startsWith, List.isPrefixOf]
      | cons d more => rfl
  rw [isComment, isComment]
  rcases Text.trimStart_append_blank blank line with whole | ⟨first, second⟩
  · rw [whole, kept]
  · rw [first, second]

/-- The tokens on a line, none if it is a comment. -/
def lineTokens? (line : Text) : Option (List Token) := if isComment line then some [] else tokens? line

theorem lineTokens?_return (line : Text) : lineTokens? (line ++ ['\r']) = lineTokens? line := by
  rw [lineTokens?, isComment_return, tokens?_break (.inr rfl), tokens?_nil, Option.map₂_right_identity List.append_nil]
  rfl

/-- The tokens on the lines of a text that are no comments. -/
def uncommented? (s : Text) : Option (List Token) :=
  (Text.splitOn '\n' s).foldr (fun line => Option.map₂ (· ++ ·) (lineTokens? line)) (some [])

theorem uncommented?_line {line : Text} (absent : '\n' ∉ line) : uncommented? line = lineTokens? line := by
  rw [uncommented?, Text.splitOn_of_not_mem absent]
  exact Option.map₂_right_identity List.append_nil (lineTokens? line)

theorem uncommented?_feed (s rest : Text) :
    uncommented? (s ++ '\n' :: rest) = Option.map₂ (· ++ ·) (uncommented? s) (uncommented? rest) := by
  induction s using Text.line_induction with
  | line l absent =>
    rw [uncommented?_line absent, uncommented?, Text.splitOn_append absent]
    rfl
  | feed l s absent ih =>
    have first (t : Text) : uncommented? (l ++ '\n' :: t) = Option.map₂ (· ++ ·) (lineTokens? l) (uncommented? t) := by
      rw [uncommented?, Text.splitOn_append absent]
      rfl
    rw [List.append_assoc, List.cons_append, first, first, ih, Option.map₂_assoc List.append_assoc]

theorem uncommented?_return (s : Text) : uncommented? (s ++ ['\r']) = uncommented? s := by
  induction s using Text.line_induction with
  | line l absent =>
    rw [uncommented?_line absent, uncommented?_line (by simpa using absent), lineTokens?_return]
  | feed l s absent ih => rw [List.append_assoc, List.cons_append, uncommented?_feed, uncommented?_feed, ih]

/-- A text that JSON reads has no comment among its lines. -/
theorem uncommented?_of_tokens? {s : Text} {ts : List Token} (read : tokens? s = some ts) :
    uncommented? s = some ts := by
  have line {l : Text} {ts : List Token} (read : tokens? l = some ts) : lineTokens? l = some ts := by
    rw [lineTokens?, isComment_of_tokens? read]
    exact read
  induction s using Text.line_induction generalizing ts with
  | line l absent => rw [uncommented?_line absent, line read]
  | feed l s absent ih =>
    rw [tokens?_break (.inl rfl)] at read
    obtain ⟨first, later, here, behind, both⟩ := Option.map₂_eq_some_iff.mp read
    rw [uncommented?_feed, uncommented?_line absent, line here, ih behind, Option.map₂_some_some, both]

theorem tokens?_joinWith_cons (line : Text) (lines : List Text) :
    tokens? (Text.joinWith ['\n'] (line :: lines)) =
      Option.map₂ (· ++ ·) (tokens? line) (tokens? (Text.joinWith ['\n'] lines)) := by
  cases lines with
  | nil => rw [Text.joinWith, Text.joinWith, tokens?_nil, Option.map₂_right_identity List.append_nil]
  | cons next lines =>
    rw [Text.joinWith, List.append_assoc, List.singleton_append, tokens?_break (.inl rfl)]

theorem tokens?_uncommented (s : Text) :
    tokens? (Text.joinWith ['\n'] ((Text.lines s).filter fun line => !isComment line)) = uncommented? s := by
  have first (l : Text) (lines : List Text) :
      tokens? (Text.joinWith ['\n'] ((l :: lines).filter fun line => !isComment line)) = Option.map₂ (· ++ ·)
        (lineTokens? l) (tokens? (Text.joinWith ['\n'] (lines.filter fun line => !isComment line))) := by
    rw [lineTokens?]
    by_cases comment : isComment l = true
    · rw [List.filter_cons_of_neg (by simp [comment]), if_pos comment, Option.map₂_left_identity List.nil_append]
    · rw [List.filter_cons_of_pos (by simp [comment]), if_neg comment, tokens?_joinWith_cons]
  induction s using Text.line_induction with
  | line l absent =>
    rw [uncommented?_line absent]
    cases l with
    | nil => rfl
    | cons c rest =>
      rw [Text.lines_of_not_mem absent (List.cons_ne_nil c rest), first, List.filter_nil, Text.joinWith, tokens?_nil,
        Option.map₂_right_identity List.append_nil]
  | feed l s absent ih =>
    rw [Text.lines_append_feed absent, first, ih, uncommented?_feed, uncommented?_line absent]
    split
    · next last =>
      obtain ⟨front, rfl⟩ := List.getLast?_eq_some_iff.mp last
      rw [List.dropLast_concat, lineTokens?_return]
    · rfl

/-- JSON has no byte order mark. -/
theorem uncommented?_mark (s : Text) : uncommented? (byteOrderMark :: s) = none := by
  have line (l : Text) : lineTokens? (byteOrderMark :: l) = none := by
    have failed : readToken (byteOrderMark :: l) = none := rfl
    have solid : isComment (byteOrderMark :: l) = false := rfl
    rw [lineTokens?, solid, if_neg Bool.false_ne_true, tokens?_of_no_token rfl failed]
  obtain ⟨first, lines, cut⟩ := List.exists_cons_of_ne_nil (Text.splitOn_ne_nil '\n' s)
  rw [uncommented?, Text.splitOn_cons (by decide), cut, List.modify_zero_cons, List.foldr_cons, line]
  rfl

/-- A whole-line comment: white space, two slashes and any text. -/
def IsCommentLine (line : Text) : Prop :=
  '\n' ∉ line ∧ ∃ indent text, Text.IsBlank indent ∧ line = indent ++ '/' :: '/' :: text

theorem uncommented?_comment {line : Text} (comment : IsCommentLine line) : uncommented? line = some [] := by
  obtain ⟨absent, indent, text, blank, rfl⟩ := comment
  have trimmed : Text.trimStart (indent ++ '/' :: '/' :: text) = '/' :: '/' :: text := by
    rw [Text.trimStart_blank_append blank]
    rfl
  rw [uncommented?_line absent, lineTokens?, isComment, trimmed]
  rfl

/-- A line begins behind this text. -/
def EndsLine (before : Text) : Prop := before = [] ∨ ∃ front, before = front ++ ['\n']

/-- The texts that come from a text by comments on lines of their own and by other line ends. -/
inductive Annotated (t : Text) : Text → Prop
  | plain : Annotated t t
  /-- A comment before a line, be it the first. -/
  | between {before after comment : Text} : Annotated t (before ++ after) → EndsLine before → IsCommentLine comment →
      Annotated t (before ++ comment ++ '\n' :: after)
  /-- A line feed behind the last line. -/
  | ended {s : Text} : Annotated t s → Annotated t (s ++ ['\n'])
  /-- A comment behind the last line. -/
  | last {s comment : Text} : Annotated t s → EndsLine s → IsCommentLine comment → Annotated t (s ++ comment)
  /-- A line feed becomes a carriage return and a line feed. -/
  | returned {before after : Text} : Annotated t (before ++ '\n' :: after) →
      Annotated t (before ++ '\r' :: '\n' :: after)

theorem Annotated.uncommented? {t s : Text} (annotated : Annotated t s) {ts : List Token}
    (read : tokens? t = some ts) : uncommented? s = some ts := by
  have nothing : Json.uncommented? [] = some [] := by
    rw [uncommented?_line List.not_mem_nil]
    exact tokens?_nil
  have left (first : Option (List Token)) : Option.map₂ (· ++ ·) first (some []) = first :=
    Option.map₂_right_identity List.append_nil first
  induction annotated with
  | plain => exact uncommented?_of_tokens? read
  | @between before after comment _ ends is_comment ih =>
    have gone : Json.uncommented? (comment ++ '\n' :: after) = Json.uncommented? after := by
      rw [uncommented?_feed, uncommented?_comment is_comment, Option.map₂_left_identity List.nil_append]
    rcases ends with rfl | ⟨front, rfl⟩
    · rwa [List.nil_append, gone]
    · rw [List.append_assoc, List.singleton_append, uncommented?_feed] at ih
      rwa [List.append_assoc, List.append_assoc, List.singleton_append, uncommented?_feed, gone]
  | ended _ ih => rwa [uncommented?_feed, nothing, left]
  | @last s comment _ ends is_comment ih =>
    rcases ends with rfl | ⟨front, rfl⟩
    · rwa [List.nil_append, uncommented?_comment is_comment, ← nothing]
    · rw [uncommented?_feed, nothing] at ih
      rwa [List.append_assoc, List.singleton_append, uncommented?_feed, uncommented?_comment is_comment]
  | @returned before after _ ih =>
    have apart : before ++ '\r' :: '\n' :: after = (before ++ ['\r']) ++ '\n' :: after := by simp
    rw [uncommented?_feed] at ih
    rwa [apart, uncommented?_feed, uncommented?_return]

/-- Comments on lines of their own, carriage returns before the line feeds and a byte order mark in
    front do not change the value of a JSON text. -/
theorem parse?_withoutComments {t s : Text} {v : Json} (annotated : Annotated t s) (parsed : parse? t = some v) :
    parse? (withoutComments s) = some v ∧ parse? (withoutComments (byteOrderMark :: s)) = some v := by
  obtain ⟨tree, written, value⟩ := Option.bind_eq_some_iff.mp parsed
  obtain ⟨ts, read, tokens⟩ := Option.bind_eq_some_iff.mp written
  have bare := annotated.uncommented? read
  have unmarked : dropMark s = s := by
    cases s with
    | nil => rfl
    | cons c rest =>
      refine if_neg ?_
      rintro rfl
      rw [uncommented?_mark] at bare
      cases bare
  have marked : dropMark (byteOrderMark :: s) = s := by rw [dropMark, if_pos rfl]
  have same : parse? (Text.joinWith ['\n'] ((Text.lines s).filter fun line => !isComment line)) = some v := by
    rw [parse?, Written.parse?, tokens?_uncommented, bare, Option.bind_some, tokens]
    exact value
  rw [withoutComments, withoutComments, unmarked, marked]
  exact ⟨same, same⟩

/-- Comments in front, between the lines and behind, next to a string that holds slashes. -/
theorem parse?_withoutComments_slashes :
    let v : Json := .object [("a".toList, .string "// b".toList)]
    let t := "\x7b\n  \"a\": \"// b\"\n\x7d".toList
    let s := "//\n\x7b\r\n \t// \x7b\n  \"a\": \"// b\"\n\x7d\n  // end".toList
    Annotated t s ∧ parse? t = some v ∧
      parse? (withoutComments s) = some v ∧ parse? (withoutComments (byteOrderMark :: s)) = some v := by
  intro v t s
  have comment (indent text : Text) (absent : '\n' ∉ indent ++ '/' :: '/' :: text)
      (blank : indent.all Text.isBlank = true) : IsCommentLine (indent ++ '/' :: '/' :: text) :=
    ⟨absent, indent, text, List.all_eq_true.mp blank, rfl⟩
  have opened : Annotated t ("//\n".toList ++ t) :=
    @Annotated.between t [] t _ .plain (.inl rfl) (comment [] [] (by decide) rfl)
  have inside : Annotated t ("//\n\x7b\n \t// \x7b\n  \"a\": \"// b\"\n\x7d".toList) :=
    @Annotated.between t "//\n\x7b\n".toList "  \"a\": \"// b\"\n\x7d".toList _ opened
      (.inr ⟨"//\n\x7b".toList, rfl⟩) (comment " \t".toList " \x7b".toList (by decide) rfl)
  have returned : Annotated t ("//\n\x7b\r\n \t// \x7b\n  \"a\": \"// b\"\n\x7d".toList) :=
    @Annotated.returned t "//\n\x7b".toList " \t// \x7b\n  \"a\": \"// b\"\n\x7d".toList inside
  have annotated : Annotated t s :=
    .last returned.ended (.inr ⟨_, rfl⟩) (comment "  ".toList " end".toList (by decide) rfl)
  have parsed : parse? t = some v := by
    have faithful : Faithful maxDepth v := by simp [v, Faithful, FaithfulMembers, maxDepth]
    exact parse?_pretty faithful
  exact ⟨annotated, parsed, parse?_withoutComments annotated parsed⟩

end Json

end EndpointConsole
