import EndpointConsole.Panel.Inbound
import EndpointConsole.Proofs.Request.Filling
import EndpointConsole.Proofs.Text.Trimming

/-!
What a server finds in the URL of a request. The query of a URL begins behind its
first question mark, wherever that comes from: a placeholder that stays in the path
may hold one, and then the entries that are left join what follows it. So a server
finds these entries in every case (`build_received`).
-/
namespace EndpointConsole.Request
open Text (Piece)

/-- The entries that a server finds in a URL: those of the query, which begins behind the first question
    mark and ends at a number sign. -/
def received (url : Text) : List Entry :=
  (Form.parse (Panel.Submission.queryOf (Text.before '#' url))).map fun (key, value) => ⟨key, value⟩

/-- A placeholder with this content finds no entry and stays in the path. -/
def Stays (route : Text) (entries : List Entry) (content : Text) : Prop :=
  ∃ before, (before, .found content) ∈ placed route ∧ entryFor? entries before (.found content) = none

variable {route : Text} {entries : List Entry}

/-- A character that no encoded value holds comes from the route. -/
theorem mem_path_iff {c : Char} (reserved : Percent.isUnreserved c = false) (no_escape : c ≠ '%') :
    c ∈ (fillRoute route entries).1 ↔
      .char c ∈ Route.placeholderPieces route ∨
        ∃ content, Stays route entries content ∧ c ∈ Route.placeholderText content := by
  have absent (value : Text) : c ∉ Percent.encodeComponent value :=
    Percent.not_mem_encodeComponent reserved no_escape value
  have pieces : (placed route).map Prod.snd = Route.placeholderPieces route := map_snd_placedFrom [] _
  rw [fillRoute_path, List.mem_flatMap, ← pieces, List.mem_map]
  constructor
  · rintro ⟨⟨before, piece⟩, place, inside⟩
    rw [putFor] at inside
    split at inside
    · exact absurd inside (absent _)
    · next nothing =>
      cases piece with
      | char d =>
        rw [List.mem_singleton.mp inside]
        exact .inl ⟨_, place, rfl⟩
      | found content =>
        rw [Route.written_found] at inside
        exact .inr ⟨content, ⟨before, place, nothing⟩, inside⟩
  · rintro (⟨⟨before, piece⟩, place, rfl⟩ | ⟨content, ⟨before, place, nothing⟩, inside⟩)
    · exact ⟨_, place, List.mem_singleton.mpr rfl⟩
    · refine ⟨_, place, ?_⟩
      rw [putFor, nothing]
      exact (Route.written_found content).symm ▸ inside

theorem mem_placeholderText_iff {c : Char} (other : c ≠ '\x7b' ∧ c ≠ '\x7d') (content : Text) :
    c ∈ Route.placeholderText content ↔ c ∈ content := by
  simp [Route.placeholderText, other.1, other.2]

/-- The path has a question mark if and only if a placeholder that stays has one. -/
theorem questionMark_mem_path_iff (inside : .char '?' ∉ Route.placeholderPieces route) :
    '?' ∈ (fillRoute route entries).1 ↔ ∃ content, Stays route entries content ∧ '?' ∈ content := by
  have mark (content : Text) : '?' ∈ Route.placeholderText content ↔ '?' ∈ content :=
    mem_placeholderText_iff (by decide) content
  rw [mem_path_iff (by decide) (by decide), or_iff_right inside]
  simp only [mark]

theorem queryOf_append {first : Text} (absent : '?' ∉ first) (rest : Text) :
    Panel.Submission.queryOf (first ++ '?' :: rest) = rest := by
  rw [Panel.Submission.queryOf, Text.cutAt?_append absent]
  rfl

theorem queryOf_of_not_mem {s : Text} (absent : '?' ∉ s) : Panel.Submission.queryOf s = [] := by
  have uncut : Text.cutAt? '?' s = none := by
    rw [Option.eq_none_iff_forall_ne_some]
    rintro ⟨first, rest⟩ cut
    apply absent
    rw [(Text.cutAt?_eq_some_iff.mp cut).1]
    simp
  rw [Panel.Submission.queryOf, uncut]
  rfl

theorem parse_append (a b : Text) : Form.parse (a ++ '&' :: b) = Form.parse a ++ Form.parse b := by
  rw [Form.parse, Text.splitOn_append_cons, List.filter_append, List.map_append]
  rfl

theorem numberSign_not_mem_queryText (entries : List Entry) : '#' ∉ queryText entries := by
  intro member
  rcases mem_queryText member with kept | percent | equals | separator
  · exact absurd kept (by decide)
  · exact absurd percent (by decide)
  · exact absurd equals (by decide)
  · exact absurd separator (by decide)

/-- Entries that are set off by an ampersand where there is a question mark already, and by a question
    mark where there is none, are found behind those found before. -/
theorem received_append {first : Text} (no_fragment : '#' ∉ first) (entries : List Entry) :
    received (first ++ (if '?' ∈ first then '&' else '?') :: queryText entries) = received first ++ entries := by
  have whole : Text.before '#' (first ++ (if '?' ∈ first then '&' else '?') :: queryText entries) =
      first ++ (if '?' ∈ first then '&' else '?') :: queryText entries := by
    apply Text.before_of_not_mem
    rw [List.mem_append, List.mem_cons, not_or, not_or]
    refine ⟨no_fragment, ?_, numberSign_not_mem_queryText entries⟩
    split <;> decide
  have read : (Form.parse (queryText entries)).map (fun p => (⟨p.1, p.2⟩ : Entry)) = entries := by
    rw [parse_queryText, List.map_map]
    exact List.map_id entries
  rw [received, received, whole, Text.before_of_not_mem no_fragment]
  by_cases marked : '?' ∈ first
  · obtain ⟨front, query, rfl, absent⟩ := List.eq_append_cons_of_mem marked
    rw [if_pos marked, List.append_assoc, List.cons_append, queryOf_append absent, queryOf_append absent, parse_append,
      List.map_append]
    exact congrArg _ read
  · rw [if_neg marked, queryOf_append marked, queryOf_of_not_mem marked]
    exact read

theorem queryText_ne_nil (some_entry : entries ≠ []) : queryText entries ≠ [] := by
  obtain ⟨e, rest, rfl⟩ := List.exists_cons_of_ne_nil some_entry
  cases rest with
  | nil => simp [queryText, Text.joinWith, Entry.encoded]
  | cons f more => simp [queryText, Text.joinWith, Entry.encoded]

/-- Where base URL and route have question marks in placeholders only, the entries that are left are set
    off by a question mark, unless a placeholder stays that has one: then by an ampersand. A server finds
    them, in their order, behind whatever it finds in base URL and path. -/
theorem build_received (base : Text) {route : Text} {entries : List Entry} (plain : '?' ∉ base)
    (inside : .char '?' ∉ Route.placeholderPieces route) (remain : unconsumed route entries ≠ []) :
    let target := Target.build base route entries
    let marked := ∃ content, Stays route entries content ∧ '?' ∈ content
    (¬marked → target.url = base ++ target.path ++ '?' :: target.query) ∧
      (marked → target.url = base ++ target.path ++ '&' :: target.query) ∧
      ('#' ∉ base ++ target.path →
        received target.url = received (base ++ target.path) ++ unconsumed route entries) := by
  intro target marked
  have query : target.query = queryText (unconsumed route entries) := build_query base route entries
  have url : target.url = base ++ target.path ++ (if '?' ∈ base ++ target.path then '&' else '?') :: target.query := by
    have some_query : target.query ≠ [] := query ▸ queryText_ne_nil remain
    have assembled := build_url base route entries
    rwa [if_neg some_query] at assembled
  have mark : '?' ∈ base ++ target.path ↔ marked := by
    rw [List.mem_append, or_iff_right plain]
    exact questionMark_mem_path_iff inside
  refine ⟨?_, ?_, ?_⟩
  · intro none
    rw [url, if_neg (mt mark.mp none)]
  · intro some
    rw [url, if_pos (mark.mpr some)]
  · intro no_fragment
    rw [url, query]
    exact received_append no_fragment _

/-- One placeholder is filled, one stays with its question mark, and of three entries two are left. -/
theorem build_received_optional :
    let base := "http://localhost".toList
    let route := "/shops/\x7bshop\x7d/items/\x7bid?\x7d".toList
    let entries : List Entry := [⟨"q".toList, "a&b".toList⟩, ⟨"Shop".toList, "?".toList⟩, ⟨"q".toList, []⟩]
    let target := Target.build base route entries
    let marked := ∃ content, Stays route entries content ∧ '?' ∈ content
    '?' ∉ base ∧ .char '?' ∉ Route.placeholderPieces route ∧ unconsumed route entries ≠ [] ∧
      '#' ∉ base ++ target.path ∧
      target.url = "http://localhost/shops/%3F/items/\x7bid?\x7d&q=a%26b&q=".toList ∧
      received target.url = [⟨"\x7d".toList, []⟩, ⟨"q".toList, "a&b".toList⟩, ⟨"q".toList, []⟩] ∧
      (¬marked → target.url = base ++ target.path ++ '?' :: target.query) ∧
      (marked → target.url = base ++ target.path ++ '&' :: target.query) ∧
      ('#' ∉ base ++ target.path →
        received target.url = received (base ++ target.path) ++ unconsumed route entries) := by
  intro base route entries target marked
  have plain : '?' ∉ base := by decide
  have inside : .char '?' ∉ Route.placeholderPieces route := by decide +kernel
  have remain : unconsumed route entries ≠ [] := by decide +kernel
  have found : received target.url = [⟨"\x7d".toList, []⟩, ⟨"q".toList, "a&b".toList⟩, ⟨"q".toList, []⟩] := by
    decide +kernel
  exact ⟨plain, inside, remain, by decide +kernel, by decide +kernel, found, build_received base plain inside remain⟩

/-- Behind a placeholder that stays with its question mark, the entry that is left is not set off by
    another one; if it were, no server would find it. Behind a number sign none finds it at all. -/
theorem not_set_off_by_question_mark :
    let base := "http://localhost".toList
    let route := "/items/\x7bid?\x7d".toList
    let entry : Entry := ⟨"q".toList, "1".toList⟩
    let target := Target.build base route [entry]
    let other := base ++ target.path ++ '?' :: target.query
    '?' ∉ base ∧ .char '?' ∉ Route.placeholderPieces route ∧ unconsumed route [entry] = [entry] ∧
      target.url ≠ other ∧ entry ∈ received target.url ∧ entry ∉ received other ∧
      entry ∉ received (Target.build "http://localhost/#".toList "/items".toList [entry]).url := by
  decide +kernel

end EndpointConsole.Request
