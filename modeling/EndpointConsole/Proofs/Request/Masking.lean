import EndpointConsole.Proofs.Request.Query
import EndpointConsole.Proofs.Text.Trimming

/-!
What the masking of a query leaves for its reader. Both cut the text into pairs,
each in its own way: the masking takes keys as they are written, the reader trims
the text first and then reads escapes. A query is masked as far as its reader can
tell just if the two agree, pair by pair, on which keys name credentials
(`masked_iff_agree`); there are queries on which they do not.
-/
namespace EndpointConsole.Request
open History (maskPair maskPairs maskQuery maskText isSensitiveKey)

def dropQuestionMark (s : Text) : Text := (Text.stripStart? ['?'] s).getD s

/-- The pairs as the masking takes them. -/
def writtenPairs (query : Text) : List Text := Text.splitOn '&' (dropQuestionMark query)

/-- The pairs as the reader takes them. -/
def readPairs (query : Text) : List Text := Text.splitOn '&' (dropQuestionMark (Text.trim query))

/-- Whether a key is one for credentials, in any ASCII case and with white space around it. -/
def NamesCredential (key : Text) : Prop := Text.asciiLower (Text.trim key) ∈ credentialKeys

instance (key : Text) : Decidable (NamesCredential key) := inferInstanceAs (Decidable (_ ∈ credentialKeys))

theorem isSensitiveKey_iff (key : Text) : isSensitiveKey key = true ↔ NamesCredential key := by
  rw [isSensitiveKey, List.contains_eq_mem, decide_eq_true_iff]
  exact Iff.rfl

theorem mem_parseQuery {query : Text} {e : Entry} :
    e ∈ parseQuery query ↔ ∃ pair ∈ readPairs query, pair ≠ [] ∧ Form.pair pair = (e.key, e.value) := by
  obtain ⟨key, value⟩ := e
  simp only [parseQuery, Form.parse, readPairs, dropQuestionMark, List.mem_map, List.mem_filter,
    Bool.not_eq_true', List.isEmpty_eq_false_iff, Prod.exists, Entry.mk.injEq]
  constructor
  · rintro ⟨_, _, ⟨pair, ⟨among, some_text⟩, read⟩, rfl, rfl⟩
    exact ⟨pair, among, some_text, read⟩
  · rintro ⟨pair, among, some_text, read⟩
    exact ⟨key, value, ⟨pair, ⟨among, some_text⟩, read⟩, rfl, rfl⟩

theorem dropQuestionMark_cons {c : Char} (other : c ≠ '?') (s : Text) : dropQuestionMark (c :: s) = c :: s := by
  rw [dropQuestionMark, Text.stripStart?, if_neg (Ne.symm other)]
  rfl

theorem splitOn_dropQuestionMark (s : Text) :
    Text.splitOn '&' (dropQuestionMark s) = (Text.splitOn '&' s).modify 0 dropQuestionMark := by
  cases s with
  | nil => rfl
  | cons c rest =>
    obtain ⟨first, more, cut⟩ := List.exists_cons_of_ne_nil (Text.splitOn_ne_nil '&' rest)
    by_cases mark : c = '?'
    · subst mark
      rw [Text.splitOn_cons (by decide), cut]
      exact cut
    · rw [dropQuestionMark_cons mark]
      by_cases separator : c = '&'
      · rw [Text.splitOn, if_pos separator]
        rfl
      · rw [Text.splitOn_cons separator, cut, List.modify_zero_cons, List.modify_zero_cons, dropQuestionMark_cons mark]

/-- Changes the pair at one place. -/
def atPlace (place : Nat) (f : Text → Text) (i : Nat) (pair : Text) : Text := if place = i then f pair else pair

theorem getElem?_modify_atPlace (pairs : List Text) (place : Nat) (f : Text → Text) (i : Nat) :
    (pairs.modify place f)[i]? = pairs[i]?.map (atPlace place f i) := by
  rw [List.getElem?_modify]
  cases pairs[i]? with
  | none => split <;> rfl
  | some pair => simp [atPlace]

/-- What the reader makes of the pair at a place among `n`: the white space at the ends of the text
    goes, and then a question mark in front, unless the pairs stand behind one already. -/
def asRead (behindMark : Bool) (n i : Nat) (pair : Text) : Text :=
  if behindMark then atPlace (n - 1) Text.trimEnd i pair
  else atPlace 0 dropQuestionMark i (atPlace (n - 1) Text.trimEnd i (atPlace 0 Text.trimStart i pair))

theorem readPairs_behindMark (s : Text) (i : Nat) :
    (readPairs ('?' :: s))[i]? = (Text.splitOn '&' s)[i]?.map (asRead true (Text.splitOn '&' s).length i) := by
  have trimmed : Text.trim ('?' :: s) = '?' :: Text.trimEnd s := Text.trimEnd_append rfl [] s
  have pairs : readPairs ('?' :: s) = Text.splitOn '&' (Text.trimEnd s) := by
    rw [readPairs, trimmed]
    rfl
  rw [pairs, Text.splitOn_trimEnd rfl, getElem?_modify_atPlace]
  rfl

theorem readPairs_getElem? (s : Text) (i : Nat) :
    (readPairs s)[i]? = (Text.splitOn '&' s)[i]?.map (asRead false (Text.splitOn '&' s).length i) := by
  rw [readPairs, splitOn_dropQuestionMark, Text.trim, Text.splitOn_trimEnd rfl, Text.splitOn_trimStart rfl,
    List.length_modify,
    getElem?_modify_atPlace, getElem?_modify_atPlace, getElem?_modify_atPlace, Option.map_map, Option.map_map]
  rfl

/-- A pair whose value is masked. -/
def EndsMasked (pair : Text) : Prop := ∃ key, '=' ∉ key ∧ pair = key ++ '=' :: maskText

namespace EndsMasked
variable {pair : Text}

theorem value (masked : EndsMasked pair) : (Form.pair pair).2 = maskText := by
  obtain ⟨key, absent, rfl⟩ := masked
  rw [Form.pair, Text.cutAt?_append absent]
  rfl

theorem trimStart (masked : EndsMasked pair) : EndsMasked (Text.trimStart pair) := by
  obtain ⟨key, absent, rfl⟩ := masked
  refine ⟨Text.trimStart key, ?_, Text.trimStart_append rfl key maskText⟩
  intro member
  exact absent ((List.dropWhile_suffix Text.isBlank).subset member)

theorem trimEnd (masked : EndsMasked pair) : EndsMasked (Text.trimEnd pair) := by
  obtain ⟨key, absent, rfl⟩ := masked
  exact ⟨key, absent, Text.trimEnd_append rfl key maskText⟩

theorem dropQuestionMark (masked : EndsMasked pair) : EndsMasked (Request.dropQuestionMark pair) := by
  obtain ⟨key, absent, rfl⟩ := masked
  cases key with
  | nil => exact ⟨[], absent, rfl⟩
  | cons c rest =>
    by_cases mark : c = '?'
    · subst mark
      exact ⟨rest, fun member => absent (List.mem_cons_of_mem _ member), rfl⟩
    · exact ⟨c :: rest, absent, dropQuestionMark_cons mark _⟩

theorem atPlace {f : Text → Text} (keeps : ∀ {p}, EndsMasked p → EndsMasked (f p)) (masked : EndsMasked pair)
    (place i : Nat) : EndsMasked (Request.atPlace place f i pair) := by
  rw [Request.atPlace]
  split
  · exact keeps masked
  · exact masked

theorem asRead (masked : EndsMasked pair) (behindMark : Bool) (n i : Nat) :
    EndsMasked (Request.asRead behindMark n i pair) := by
  rw [Request.asRead]
  split
  · exact masked.atPlace trimEnd _ _
  · exact ((masked.atPlace trimStart _ _).atPlace trimEnd _ _).atPlace dropQuestionMark _ _

end EndsMasked

theorem not_mem_before (sep : Char) (s : Text) : sep ∉ Text.before sep s := by
  intro member
  have other := List.mem_takeWhile_imp member
  simp at other

theorem maskPair_of_names {pair : Text} (names : NamesCredential (Text.before '=' pair)) :
    EndsMasked (maskPair pair) := by
  refine ⟨Text.before '=' pair, not_mem_before '=' pair, ?_⟩
  rw [maskPair, if_pos ((isSensitiveKey_iff _).mpr names)]

theorem maskPair_of_not_names {pair : Text} (other : ¬NamesCredential (Text.before '=' pair)) :
    maskPair pair = pair := by
  rw [maskPair, if_neg (mt (isSensitiveKey_iff _).mp other)]

theorem splitOn_maskPairs (s : Text) : Text.splitOn '&' (maskPairs s) = (Text.splitOn '&' s).map maskPair := by
  rw [maskPairs, Text.splitOn_joinWith]
  · simpa using Text.splitOn_ne_nil '&' s
  · intro masked among
    obtain ⟨pair, inside, rfl⟩ := List.mem_map.mp among
    have absent : '&' ∉ pair := Text.not_mem_of_mem_splitOn inside
    rw [maskPair]
    split
    · have key : '&' ∉ Text.before '=' pair := fun member => absent ((List.takeWhile_prefix _).subset member)
      simp [key, maskText]
    · exact absent

/-- The reader takes a pair of a masked query as it takes the written pair, once that is masked. -/
theorem exists_asRead (query : Text) :
    ∃ (behindMark : Bool) (n : Nat), ∀ i,
      (readPairs query)[i]? = (writtenPairs query)[i]?.map (asRead behindMark n i) ∧
        (readPairs (maskQuery query))[i]? =
          (writtenPairs query)[i]?.map (fun pair => asRead behindMark n i (maskPair pair)) := by
  cases marked : Text.stripStart? ['?'] query with
  | none =>
    have written : writtenPairs query = Text.splitOn '&' query := by rw [writtenPairs, dropQuestionMark, marked]; rfl
    have masked : maskQuery query = maskPairs query := by rw [maskQuery, marked]
    refine ⟨false, (Text.splitOn '&' query).length, fun i => ⟨?_, ?_⟩⟩
    · rw [written, readPairs_getElem?]
    · rw [written, masked, readPairs_getElem?, splitOn_maskPairs, List.length_map, List.getElem?_map, Option.map_map]
      rfl
  | some rest =>
    have text : query = '?' :: rest := Text.eq_cons_of_stripStart? marked
    subst text
    refine ⟨true, (Text.splitOn '&' rest).length, fun i => ⟨readPairs_behindMark rest i, ?_⟩⟩
    have masked : maskQuery ('?' :: rest) = '?' :: maskPairs rest := rfl
    rw [masked, readPairs_behindMark, splitOn_maskPairs, List.length_map, List.getElem?_map, Option.map_map]
    rfl

/-- A query is masked, as far as its reader can tell, just if wherever the reader finds a key for
    credentials the masking has found one in the same pair, or the value is the mask anyway. -/
theorem masked_iff_agree (query : Text) :
    (∀ e ∈ parseQuery (maskQuery query), NamesCredential e.key → e.value = "***".toList) ↔
      ∀ (i : Nat) (written read : Text), (writtenPairs query)[i]? = some written →
        (readPairs query)[i]? = some read → NamesCredential (Form.pair read).1 →
          NamesCredential (Text.before '=' written) ∨ (Form.pair read).2 = "***".toList := by
  obtain ⟨behindMark, n, same⟩ := exists_asRead query
  constructor
  · intro safe i written read place taken names
    by_cases found : NamesCredential (Text.before '=' written)
    · exact .inl found
    -- the pair is left as it is, and the reader finds it in the masked query
    obtain ⟨before, after⟩ := same i
    rw [place, Option.map_some, maskPair_of_not_names found] at after
    rw [place, Option.map_some, taken] at before
    rw [← before] at after
    have some_text : read ≠ [] := by
      rintro rfl
      exact absurd names (by decide)
    refine .inr (safe ⟨(Form.pair read).1, (Form.pair read).2⟩ ?_ names)
    exact mem_parseQuery.mpr ⟨read, List.mem_of_getElem? after, some_text, rfl⟩
  · intro agree e member names
    obtain ⟨pair, among, _, parts⟩ := mem_parseQuery.mp member
    obtain ⟨i, held⟩ := List.mem_iff_getElem?.mp among
    obtain ⟨before, after⟩ := same i
    rw [held] at after
    obtain ⟨written, place, taken⟩ := Option.map_eq_some_iff.mp after.symm
    by_cases found : NamesCredential (Text.before '=' written)
    · have value := ((maskPair_of_names found).asRead behindMark n i).value
      rw [taken, parts] at value
      exact value
    · rw [maskPair_of_not_names found] at taken
      rw [place, Option.map_some, taken] at before
      have reads := agree i written pair place before
      rw [parts] at reads
      exact (reads names).resolve_left found

/-- White space in front of a question mark hides a key from the masking, but not from the reader. -/
theorem not_masked_behind_blank :
    ¬∀ e ∈ parseQuery (maskQuery " ?token=secret".toList), NamesCredential e.key → e.value = "***".toList := by
  intro safe
  have held : ⟨"token".toList, "secret".toList⟩ ∈ parseQuery (maskQuery " ?token=secret".toList) := by
    decide +kernel
  exact absurd (safe _ held (by decide)) (by decide)

end EndpointConsole.Request
