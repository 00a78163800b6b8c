import EndpointConsole.Proofs.Encoding.Base64
import EndpointConsole.Request.Payload
import Mathlib.Data.List.Forall2
import Mathlib.Data.List.ReduceOption

/-!
What is sent of a request. Forms and binary bodies hold the very bytes that their Base64 stands for, and
fail where it stands for none, a form at its first such field; everything else is sent as the text
body (`ofRequest_prepares`). `Prepared` lists what may come of a request, case by case.
-/
namespace EndpointConsole

/-- The content of a form file, if there is any, is the Base64 of some bytes. -/
def FormField.Sound (f : FormField) : Prop :=
  f.kind = .file → ∀ content, f.content = some content → content ≠ [] → ∃ data, content = Base64.encode data

theorem FormField.not_sound_iff {f : FormField} : ¬f.Sound ↔ f.kind = .file ∧
    ∃ content, f.content = some content ∧ content ≠ [] ∧ ∀ data, content ≠ Base64.encode data := by
  simp [Sound]

/-- A header, in any case, gives the type of the content. -/
def HttpRequest.IsTyped (r : HttpRequest) : Prop :=
  ∃ header ∈ r.headers, Text.asciiLower header.1 = "content-type".toList

theorem HttpRequest.hasHeader_iff {r : HttpRequest} : r.hasHeader "content-type".toList = true ↔ r.IsTyped := by
  have name : Text.asciiLower "content-type".toList = "content-type".toList := by decide
  simp only [hasHeader, List.any_eq_true, Text.sameLetters, beq_iff_eq, name, IsTyped]

namespace Payload

variable {s : Option Text} {content : Text}

theorem filled?_eq_some_iff : filled? s = some content ↔ s = some content ∧ content ≠ [] := by
  cases s with
  | none => simp [filled?]
  | some text =>
    simp only [filled?, List.isEmpty_iff, Option.ite_none_left_eq_some, Option.some.injEq]
    constructor
    · rintro ⟨filled, rfl⟩
      exact ⟨rfl, filled⟩
    · rintro ⟨rfl, filled⟩
      exact ⟨filled, rfl⟩

theorem filled?_eq_none_iff : filled? s = .none ↔ s = .none ∨ s = some [] := by
  cases s <;> simp [filled?]

/-- What a field of a form becomes. A file without content becomes nothing. -/
inductive PartOf (f : FormField) : Option FormPart → Prop where
  | text (kind : f.kind = .text) : PartOf f (some (.text f.key (f.value.getD [])))
  | skipped (kind : f.kind = .file) (empty : f.content = .none ∨ f.content = some []) : PartOf f .none
  | file {data : List UInt8} (kind : f.kind = .file) (content : f.content = some (Base64.encode data))
      (filled : Base64.encode data ≠ []) :
      PartOf f (some (.file f.key data (nameOr f.fileName) (typeOr f.contentType)))

variable {f : FormField} {part : Option FormPart} {e : Failure}

theorem partOf?_eq_ok_iff : partOf? f = .ok part ↔ PartOf f part := by
  constructor
  · intro made
    unfold partOf? at made
    split at made
    · next kind =>
      cases made
      exact .text kind
    next kind =>
    split at made
    · next empty =>
      cases made
      exact .skipped kind (filled?_eq_none_iff.mp empty)
    next content filled =>
    obtain ⟨held, filled⟩ := filled?_eq_some_iff.mp filled
    split at made
    · cases made
    · next data read =>
      cases made
      obtain rfl := Base64.decode?_eq_some_iff.mp read
      exact .file kind held filled
  · rintro (kind | ⟨kind, empty⟩ | ⟨kind, held, filled⟩)
    · simp [partOf?, kind]
    · simp [partOf?, kind, filled?_eq_none_iff.mpr empty]
    · simp [partOf?, kind, filled?_eq_some_iff.mpr ⟨held, filled⟩, Base64.decode?_encode]

theorem partOf?_eq_error_iff : partOf? f = .error e ↔ ¬f.Sound ∧ e = .formFile f.key := by
  constructor
  · intro failed
    unfold partOf? at failed
    split at failed
    · cases failed
    next kind =>
    split at failed
    · cases failed
    next content filled =>
    obtain ⟨held, filled⟩ := filled?_eq_some_iff.mp filled
    split at failed
    · next unread =>
      cases failed
      refine ⟨FormField.not_sound_iff.mpr ⟨kind, content, held, filled, ?_⟩, rfl⟩
      exact Base64.decode?_eq_none_iff.mp unread
    · cases failed
  · rintro ⟨broken, rfl⟩
    obtain ⟨kind, content, held, filled, other⟩ := FormField.not_sound_iff.mp broken
    simp [partOf?, kind, filled?_eq_some_iff.mpr ⟨held, filled⟩, Base64.decode?_eq_none_iff.mpr other]

theorem exists_partOf_iff : (∃ part, PartOf f part) ↔ f.Sound := by
  constructor
  · rintro ⟨part, made⟩
    by_contra broken
    have failed := partOf?_eq_error_iff.mpr ⟨broken, rfl⟩
    rw [partOf?_eq_ok_iff.mpr made] at failed
    cases failed
  · intro sound
    cases made : partOf? f with
    | ok part => exact ⟨part, partOf?_eq_ok_iff.mp made⟩
    | error e => exact absurd sound (partOf?_eq_error_iff.mp made).1

variable {fields : List FormField} {parts : List FormPart}

theorem partsOf_eq_ok_iff :
    partsOf fields = .ok parts ↔ ∃ each, List.Forall₂ PartOf fields each ∧ parts = each.reduceOption := by
  induction fields generalizing parts with
  | nil => simp [partsOf, List.forall₂_nil_left_iff, eq_comm]
  | cons f fields ih =>
    rw [partsOf]
    constructor
    · intro made
      split at made
      · cases made
      next part first =>
      split at made
      · cases made
      next later rest =>
      cases made
      obtain ⟨each, all, rfl⟩ := ih.mp rest
      refine ⟨part :: each, .cons (partOf?_eq_ok_iff.mp first) all, ?_⟩
      cases part <;> simp
    · rintro ⟨each, all, rfl⟩
      cases all with
      | @cons _ part _ each first all =>
        rw [partOf?_eq_ok_iff.mpr first, ih.mpr ⟨each, all, rfl⟩]
        cases part <;> simp

/-- A form fails at the first of its fields that is not sound. -/
theorem partsOf_eq_error_iff : partsOf fields = .error e ↔ ∃ before f after, fields = before ++ f :: after ∧
    (∀ g ∈ before, g.Sound) ∧ ¬f.Sound ∧ e = .formFile f.key := by
  induction fields with
  | nil => simp [partsOf]
  | cons f fields ih =>
    rw [partsOf]
    constructor
    · intro failed
      split at failed
      · next first =>
        cases failed
        obtain ⟨broken, rfl⟩ := partOf?_eq_error_iff.mp first
        exact ⟨[], f, fields, rfl, by simp, broken, rfl⟩
      next part first =>
      split at failed
      · next later =>
        cases failed
        obtain ⟨before, g, after, rfl, sound, broken, rfl⟩ := ih.mp later
        refine ⟨f :: before, g, after, rfl, ?_, broken, rfl⟩
        rw [List.forall_mem_cons]
        exact ⟨exists_partOf_iff.mp ⟨part, partOf?_eq_ok_iff.mp first⟩, sound⟩
      · cases failed
    · rintro ⟨before, g, after, split, sound, broken, rfl⟩
      cases before with
      | nil =>
        cases split
        rw [partOf?_eq_error_iff.mpr ⟨broken, rfl⟩]
      | cons _ before =>
        cases split
        rw [List.forall_mem_cons] at sound
        obtain ⟨part, first⟩ := exists_partOf_iff.mpr sound.1
        rw [partOf?_eq_ok_iff.mpr first, ih.mpr ⟨before, g, after, rfl, sound.2, broken, rfl⟩]

/-- A request of which only the text body is sent: it has neither a binary body nor a form, or they are empty. -/
inductive TextOnly (r : HttpRequest) : Prop where
  | json (mode : r.bodyMode = .json)
  | binary (mode : r.bodyMode = .binary) (empty : r.binary = .none ∨ r.binary = some [])
  | form (mode : r.bodyMode = .formData) (empty : r.fields = [])

/-- What may come of a request: its payload, or a failure. -/
inductive Prepared (r : HttpRequest) : Except Failure Payload → Prop where
  | text {body : Text} (plain : TextOnly r) (held : r.body = some body) (filled : body ≠ []) :
      Prepared r (.ok (.text body))
  | nothing (plain : TextOnly r) (empty : r.body = .none ∨ r.body = some []) : Prepared r (.ok .none)
  | bytes {data : List UInt8} (mode : r.bodyMode = .binary) (held : r.binary = some (Base64.encode data))
      (filled : Base64.encode data ≠ []) (typed : r.IsTyped) : Prepared r (.ok (.bytes data (typeOr r.binaryType)))
  | file {data : List UInt8} (mode : r.bodyMode = .binary) (held : r.binary = some (Base64.encode data))
      (filled : Base64.encode data ≠ []) (untyped : ¬r.IsTyped) :
      Prepared r (.ok (.fileThenRaw data (nameOr r.binaryName) (typeOr r.binaryType)))
  | brokenBinary {content : Text} (mode : r.bodyMode = .binary) (held : r.binary = some content) (filled : content ≠ [])
      (broken : ∀ data, content ≠ Base64.encode data) : Prepared r (.error .binaryBody)
  | form {each : List (Option FormPart)} (mode : r.bodyMode = .formData) (filled : r.fields ≠ [])
      (parts : List.Forall₂ PartOf r.fields each) : Prepared r (.ok (.multipart each.reduceOption))
  | brokenForm {before after : List FormField} {f : FormField} (mode : r.bodyMode = .formData)
      (split : r.fields = before ++ f :: after) (sound : ∀ g ∈ before, g.Sound) (broken : ¬f.Sound) :
      Prepared r (.error (.formFile f.key))

variable {r : HttpRequest} {answer : Except Failure Payload}

theorem ofRequest_of_textOnly (plain : TextOnly r) : ofRequest r = .ok (ofText r) := by
  unfold ofRequest
  cases plain with
  | json mode => rw [mode]
  | binary mode empty => simp only [mode, filled?_eq_none_iff.mpr empty]
  | form mode empty => simp [mode, empty]

theorem ofRequest_of_binary {content : Text} (mode : r.bodyMode = .binary) (held : r.binary = some content)
    (filled : content ≠ []) : ofRequest r = ofBinary r content := by
  simp only [ofRequest, mode, filled?_eq_some_iff.mpr ⟨held, filled⟩]

theorem ofRequest_of_form (mode : r.bodyMode = .formData) (filled : r.fields ≠ []) :
    ofRequest r = (partsOf r.fields).map .multipart := by
  simp [ofRequest, mode, filled]

theorem ofBinary_encode (data : List UInt8) : ofBinary r (Base64.encode data) =
    if r.hasHeader "content-type".toList then .ok (.bytes data (typeOr r.binaryType))
    else .ok (.fileThenRaw data (nameOr r.binaryName) (typeOr r.binaryType)) := by
  simp only [ofBinary, Base64.decode?_encode]

theorem ofBinary_of_broken {content : Text} (broken : ∀ data, content ≠ Base64.encode data) :
    ofBinary r content = .error .binaryBody := by
  simp only [ofBinary, Base64.decode?_eq_none_iff.mpr broken]

/-- A request sends its text body, its binary body or its form. -/
theorem textOnly_or (r : HttpRequest) : TextOnly r ∨
    (∃ content, r.bodyMode = .binary ∧ r.binary = some content ∧ content ≠ []) ∨
      r.bodyMode = .formData ∧ r.fields ≠ [] := by
  cases mode : r.bodyMode with
  | json => exact .inl (.json mode)
  | binary =>
    cases held : filled? r.binary with
    | none => exact .inl (.binary mode (filled?_eq_none_iff.mp held))
    | some content => exact .inr (.inl ⟨content, rfl, filled?_eq_some_iff.mp held⟩)
  | formData =>
    by_cases empty : r.fields = []
    · exact .inl (.form mode empty)
    · exact .inr (.inr ⟨rfl, empty⟩)

theorem prepared_ofText (plain : TextOnly r) : Prepared r (.ok (ofText r)) := by
  unfold ofText
  split
  · next body filled =>
    obtain ⟨held, filled⟩ := filled?_eq_some_iff.mp filled
    exact .text plain held filled
  · next empty => exact .nothing plain (filled?_eq_none_iff.mp empty)

theorem prepared_ofBinary {content : Text} (mode : r.bodyMode = .binary) (held : r.binary = some content)
    (filled : content ≠ []) : Prepared r (ofBinary r content) := by
  by_cases sound : ∃ data, content = Base64.encode data
  · obtain ⟨data, rfl⟩ := sound
    rw [ofBinary_encode]
    split
    · next typed => exact .bytes mode held filled (HttpRequest.hasHeader_iff.mp typed)
    · next untyped => exact .file mode held filled (mt HttpRequest.hasHeader_iff.mpr untyped)
  · have broken := not_exists.mp sound
    rw [ofBinary_of_broken broken]
    exact .brokenBinary mode held filled broken

theorem prepared_partsOf (mode : r.bodyMode = .formData) (filled : r.fields ≠ []) :
    Prepared r ((partsOf r.fields).map .multipart) := by
  cases made : partsOf r.fields with
  | ok parts =>
    obtain ⟨each, all, rfl⟩ := partsOf_eq_ok_iff.mp made
    exact .form mode filled all
  | error e =>
    obtain ⟨before, f, after, split, sound, broken, rfl⟩ := partsOf_eq_error_iff.mp made
    exact .brokenForm mode split sound broken

theorem prepared_ofRequest (r : HttpRequest) : Prepared r (ofRequest r) := by
  rcases textOnly_or r with plain | ⟨content, mode, held, filled⟩ | ⟨mode, filled⟩
  · rw [ofRequest_of_textOnly plain]
    exact prepared_ofText plain
  · rw [ofRequest_of_binary mode held filled]
    exact prepared_ofBinary mode held filled
  · rw [ofRequest_of_form mode filled]
    exact prepared_partsOf mode filled

/-- The cases are apart: what they say comes of a request is what does. -/
theorem Prepared.eq_ofRequest (prepared : Prepared r answer) : answer = ofRequest r := by
  cases prepared with
  | text plain held filled =>
    rw [ofRequest_of_textOnly plain, ofText, filled?_eq_some_iff.mpr ⟨held, filled⟩]
  | nothing plain empty => rw [ofRequest_of_textOnly plain, ofText, filled?_eq_none_iff.mpr empty]
  | bytes mode held filled typed =>
    rw [ofRequest_of_binary mode held filled, ofBinary_encode, if_pos (HttpRequest.hasHeader_iff.mpr typed)]
  | file mode held filled untyped =>
    rw [ofRequest_of_binary mode held filled, ofBinary_encode, if_neg (mt HttpRequest.hasHeader_iff.mp untyped)]
  | brokenBinary mode held filled broken => rw [ofRequest_of_binary mode held filled, ofBinary_of_broken broken]
  | form mode filled parts =>
    rw [ofRequest_of_form mode filled, partsOf_eq_ok_iff.mpr ⟨_, parts, rfl⟩]
    rfl
  | brokenForm mode split sound broken =>
    have filled : r.fields ≠ [] := by simp [split]
    rw [ofRequest_of_form mode filled, partsOf_eq_error_iff.mpr ⟨_, _, _, split, sound, broken, rfl⟩]
    rfl

theorem exists_ofBinary_iff {content : Text} :
    (∃ p, ofBinary r content = .ok p) ↔ ∃ data, content = Base64.encode data := by
  constructor
  · rintro ⟨p, made⟩
    by_contra broken
    rw [ofBinary_of_broken (not_exists.mp broken)] at made
    cases made
  · rintro ⟨data, rfl⟩
    rw [ofBinary_encode]
    split
    · exact ⟨_, rfl⟩
    · exact ⟨_, rfl⟩

theorem sound_of_forall₂ {each : List (Option FormPart)} (all : List.Forall₂ PartOf fields each) :
    ∀ f ∈ fields, f.Sound := by
  induction all with
  | nil => simp
  | cons first _ ih =>
    rw [List.forall_mem_cons]
    exact ⟨exists_partOf_iff.mp ⟨_, first⟩, ih⟩

theorem exists_partsOf_iff : (∃ parts, partsOf fields = .ok parts) ↔ ∀ f ∈ fields, f.Sound := by
  constructor
  · rintro ⟨parts, made⟩
    obtain ⟨each, all, -⟩ := partsOf_eq_ok_iff.mp made
    exact sound_of_forall₂ all
  · intro sound
    cases made : partsOf fields with
    | ok parts => exact ⟨parts, rfl⟩
    | error e =>
      obtain ⟨before, f, after, rfl, -, broken, -⟩ := partsOf_eq_error_iff.mp made
      exact absurd (sound f (by simp)) broken

/-- What comes of a request, and when it is a payload. -/
structure Prepares (r : HttpRequest) : Prop where
  answer : Prepared r (ofRequest r)
  only : ∀ answer, Prepared r answer → answer = ofRequest r
  form : r.bodyMode = .formData → r.fields ≠ [] → ((∃ p, ofRequest r = .ok p) ↔ ∀ f ∈ r.fields, f.Sound)
  binary : r.bodyMode = .binary → ∀ content, r.binary = some content → content ≠ [] →
    ((∃ p, ofRequest r = .ok p) ↔ ∃ data, content = Base64.encode data)
  text : TextOnly r → ∃ p, ofRequest r = .ok p

theorem ofRequest_prepares (r : HttpRequest) : Prepares r where
  answer := prepared_ofRequest r
  only _ prepared := prepared.eq_ofRequest
  form := by
    intro mode filled
    rw [ofRequest_of_form mode filled, ← exists_partsOf_iff]
    cases partsOf r.fields <;> simp [Except.map]
  binary := by
    intro mode content held filled
    rw [ofRequest_of_binary mode held filled]
    exact exists_ofBinary_iff
  text := by
    intro plain
    exact ⟨ofText r, ofRequest_of_textOnly plain⟩

end Payload

end EndpointConsole
