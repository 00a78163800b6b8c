import EndpointConsole.Proofs.History.MaskedValue
import EndpointConsole.Proofs.Json.Indented

/-!
The masking of JSON bodies (`maskBody_exact`). A body without anything to mask stays
as it is written; any other is replaced by the text of its masked value, on one line
or on several as before. What is kept reads as the masked value, and of the old text
nothing is left in it but its choice of layout.
-/
namespace EndpointConsole.History
open Json (parse? OnlyIntegers)

variable {body : Text} {v : Json}

theorem maskBody_of_parse? (parsed : parse? body = some v) : maskBody body = maskDocument body v := by
  have solid : ¬(Text.trim body).isEmpty = true := by
    rw [List.isEmpty_iff]
    exact Json.trim_of_parse? parsed
  rw [maskBody, if_neg solid, parsed]

theorem maskDocument_of_not_hasToken (bare : ¬HasToken v) : maskDocument body v = body := by
  rw [maskDocument, if_neg (mt (hasTokenKey_iff v).mp bare)]

theorem maskDocument_of_hasToken (token : HasToken v) :
    maskDocument body v = if '\n' ∈ body then (maskValue v).pretty else (maskValue v).compact := by
  rw [maskDocument, if_pos ((hasTokenKey_iff v).mpr token)]

theorem hasToken_maskValue (token : HasToken v) : HasToken (maskValue v) := by
  rw [← hasTokenKey_iff, hasTokenKey_maskValue, hasTokenKey_iff]
  exact token

/-- A value with something to mask is a container with something in it. -/
theorem newline_mem_pretty (token : HasToken v) : '\n' ∈ v.pretty := by
  cases v with
  | array items =>
    obtain ⟨w, among, _⟩ := hasToken_array.mp token
    obtain ⟨first, rest, rfl⟩ := List.exists_cons_of_ne_nil (List.ne_nil_of_mem among)
    exact List.mem_cons_of_mem _ (Json.newline_mem_prettyItems 0 first rest)
  | object members =>
    obtain ⟨m, among, _⟩ := hasToken_object.mp token
    obtain ⟨first, rest, rfl⟩ := List.exists_cons_of_ne_nil (List.ne_nil_of_mem among)
    exact List.mem_cons_of_mem _ (Json.newline_mem_prettyMembers 0 first rest)
  | _ =>
    obtain ⟨members, inside, _⟩ := token
    cases inside

/-- The text of a masked document has the layout of the document. -/
theorem newline_mem_maskDocument (integers : OnlyIntegers v) (token : HasToken v) :
    '\n' ∈ maskDocument body v ↔ '\n' ∈ body := by
  rw [maskDocument_of_hasToken token]
  by_cases lines : '\n' ∈ body
  · rw [if_pos lines]
    exact iff_of_true (newline_mem_pretty (hasToken_maskValue token)) lines
  · rw [if_neg lines]
    exact iff_of_false (Json.newline_not_mem_compact (onlyIntegers_maskValue integers)) lines

theorem parse?_maskDocument (parsed : parse? body = some v) (integers : OnlyIntegers v) (token : HasToken v) :
    parse? (maskDocument body v) = some (maskValue v) := by
  have faithful := faithful_maskValue (Json.faithful_of_parse? parsed integers)
  rw [maskDocument_of_hasToken token]
  split
  · exact Json.parse?_pretty faithful
  · exact Json.parse?_compact faithful

/-- Documents of one layout that have the same masked value are masked to the same text. -/
theorem maskDocument_congr {other : Text} {w : Json} (token : HasToken v) (also : HasToken w)
    (same : maskValue v = maskValue w) (layout : '\n' ∈ body ↔ '\n' ∈ other) :
    maskDocument body v = maskDocument other w := by
  rw [maskDocument_of_hasToken token, maskDocument_of_hasToken also, same]
  simp only [layout]

/-- What can be relied on of the masking of a body that reads as a value. -/
structure MaskedExactly (body : Text) (v : Json) : Prop where
  /-- Without anything to mask the body stays as it is written. -/
  kept : ¬HasToken v → maskBody body = body
  /-- Otherwise it reads as the masked value afterwards, on one line or on several as before. -/
  masked : HasToken v → ∃ w, Masked v w ∧ parse? (maskBody body) = some w ∧ ('\n' ∈ maskBody body ↔ '\n' ∈ body)
  /-- Masking it again changes nothing. -/
  again : maskBody (maskBody body) = maskBody body
  /-- Nothing else of the body is left: the masked value and the layout decide the text. -/
  alike : ∀ {other : Text} {u w : Json}, parse? other = some u → HasToken v → HasToken u → Masked v w → Masked u w →
    ('\n' ∈ body ↔ '\n' ∈ other) → maskBody body = maskBody other

theorem maskBody_exact (parsed : parse? body = some v) (integers : OnlyIntegers v) : MaskedExactly body v := by
  have written := maskBody_of_parse? parsed
  constructor
  · intro bare
    rw [written, maskDocument_of_not_hasToken bare]
  · intro token
    rw [written]
    exact ⟨maskValue v, masked_maskValue v, parse?_maskDocument parsed integers token,
      newline_mem_maskDocument integers token⟩
  · by_cases token : HasToken v
    · -- the masked document is a document of the same layout, and masking its value changes nothing
      rw [written, maskBody_of_parse? (parse?_maskDocument parsed integers token)]
      exact maskDocument_congr (hasToken_maskValue token) token (maskValue_maskValue v)
        (newline_mem_maskDocument integers token)
    · rw [written, maskDocument_of_not_hasToken token, written, maskDocument_of_not_hasToken token]
  · intro other u w parsed' token also first second layout
    rw [written, maskBody_of_parse? parsed']
    exact maskDocument_congr token also (((masked_iff.mp first).symm.trans (masked_iff.mp second))) layout

/-- A body with a token two levels down, beside integers at both ends of their range. -/
theorem maskBody_exact_nested :
    let body := ("\x7b\"n\":[18446744073709551615,-9223372036854775808]," ++
      "\"list\":[\x7b\"accessToken\":\x7b\"x\":1\x7d\x7d]\x7d").toList
    let bounds : Json := .array [.number (.int 18446744073709551615), .number (.int (-9223372036854775808))]
    let list : Json := .array [.object [("accessToken".toList, .object [("x".toList, .number (.int 1))])]]
    let v : Json := .object [("n".toList, bounds), ("list".toList, list)]
    parse? body = some v ∧ OnlyIntegers v ∧ MaskedExactly body v := by
  intro body bounds list v
  have text : body = v.compact := by decide +kernel
  have integers : OnlyIntegers v := by
    simp only [v, bounds, list, Json.onlyIntegers_object, Json.onlyIntegers_array, Json.onlyIntegers_number,
      List.forall_mem_cons, List.not_mem_nil, IsEmpty.forall_iff, implies_true, and_true, Number.IsInteger]
    decide
  have parsed : parse? body = some v := by
    have faithful : Json.Faithful Json.maxDepth v := Json.Written.faithful_of_value? (w := Json.written v) rfl integers
    rw [text]
    exact Json.parse?_compact faithful
  exact ⟨parsed, integers, maskBody_exact parsed integers⟩

end EndpointConsole.History
