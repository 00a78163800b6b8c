import EndpointConsole.Encoding.Utf8

/-!
Reading UTF-8 gives back what was written. The reader goes through the bytes of
one character and is between characters again (`readFrom_encodeChar`), so the
bytes of a text read as that text, with no replacement characters in it
(`decodeLossy_encode`).
-/
namespace EndpointConsole.Utf8

theorem readFrom_byte (begun : Option Begun) {n : Nat} (small : n < 256) (rest : List UInt8) :
    readFrom begun (UInt8.ofNat n :: rest) = (step begun n).1 ++ readFrom (step begun n).2 rest := by
  have value : (UInt8.ofNat n).toNat = n := by rw [UInt8.toNat_ofNat', Nat.mod_eq_of_lt small]
  cases begun <;> rw [readFrom, value]

theorem step_whole {b : Nat} (ascii : b < 0x80) : step none b = ([some (Char.ofNat b)], none) := by
  rw [step, startWith, lead, if_pos ascii]

theorem step_first_of_two {b : Nat} (low : 0xC2 ≤ b) (high : b < 0xE0) :
    step none b = ([], some ⟨1, b - 0xC0, 0x80, 0xBF⟩) := by
  rw [step, startWith, lead, if_neg (by omega), if_neg (by omega), if_pos high]

theorem step_first_of_three {b : Nat} (low : 0xE0 ≤ b) (high : b < 0xF0) :
    step none b =
      ([], some ⟨2, b - 0xE0, if b = 0xE0 then 0xA0 else 0x80, if b = 0xED then 0x9F else 0xBF⟩) := by
  rw [step, startWith, lead, if_neg (by omega), if_neg (by omega), if_neg (by omega), if_pos high]

theorem step_first_of_four {b : Nat} (low : 0xF0 ≤ b) (high : b < 0xF5) :
    step none b =
      ([], some ⟨3, b - 0xF0, if b = 0xF0 then 0x90 else 0x80, if b = 0xF4 then 0x8F else 0xBF⟩) := by
  rw [step, startWith, lead, if_neg (by omega), if_neg (by omega), if_neg (by omega), if_neg (by omega), if_pos high]

theorem step_last {bits low high b : Nat} (above : low ≤ b) (below : b ≤ high) :
    step (some ⟨1, bits, low, high⟩) b = ([some (Char.ofNat (bits * 64 + (b - 0x80)))], none) := by
  rw [step, if_pos ⟨above, below⟩]
  rfl

theorem step_more {missing bits low high b : Nat} (more : missing ≠ 0) (above : low ≤ b) (below : b ≤ high) :
    step (some ⟨missing + 1, bits, low, high⟩) b =
      ([], some ⟨missing, bits * 64 + (b - 0x80), 0x80, 0xBF⟩) := by
  rw [step, if_pos ⟨above, below⟩]
  simp [more]

theorem readFrom_two {v : Nat} (low : 0x80 ≤ v) (high : v ≤ 0x7FF) (rest : List UInt8) :
    readFrom none (UInt8.ofNat (v / 64 % 32 + 0xC0) :: UInt8.ofNat (v % 64 + 0x80) :: rest) =
      some (Char.ofNat v) :: readFrom none rest := by
  rw [readFrom_byte none (by omega), step_first_of_two (by omega) (by omega)]
  rw [readFrom_byte _ (by omega), step_last (by omega) (by omega)]
  have value : (v / 64 % 32 + 0xC0 - 0xC0) * 64 + (v % 64 + 0x80 - 0x80) = v := by omega
  rw [value]
  rfl

theorem readFrom_three {v : Nat} (low : 0x800 ≤ v) (high : v ≤ 0xFFFF) (scalar : v < 0xD800 ∨ 0xDFFF < v)
    (rest : List UInt8) :
    readFrom none (UInt8.ofNat (v / 4096 % 16 + 0xE0) :: UInt8.ofNat (v / 64 % 64 + 0x80) ::
      UInt8.ofNat (v % 64 + 0x80) :: rest) = some (Char.ofNat v) :: readFrom none rest := by
  rw [readFrom_byte none (by omega), step_first_of_three (by omega) (by omega)]
  -- The second byte is in the range that shuts out overlong forms and surrogates.
  rw [readFrom_byte _ (by omega), step_more (by decide) (by split <;> omega) (by split <;> omega)]
  rw [readFrom_byte _ (by omega), step_last (by omega) (by omega)]
  have value : ((v / 4096 % 16 + 0xE0 - 0xE0) * 64 + (v / 64 % 64 + 0x80 - 0x80)) * 64 + (v % 64 + 0x80 - 0x80) = v := by
    omega
  rw [value]
  rfl

theorem readFrom_four {v : Nat} (low : 0x10000 ≤ v) (high : v < 0x110000) (rest : List UInt8) :
    readFrom none (UInt8.ofNat (v / 262144 % 8 + 0xF0) :: UInt8.ofNat (v / 4096 % 64 + 0x80) ::
      UInt8.ofNat (v / 64 % 64 + 0x80) :: UInt8.ofNat (v % 64 + 0x80) :: rest) =
      some (Char.ofNat v) :: readFrom none rest := by
  rw [readFrom_byte none (by omega), step_first_of_four (by omega) (by omega)]
  rw [readFrom_byte _ (by omega), step_more (by decide) (by split <;> omega) (by split <;> omega)]
  rw [readFrom_byte _ (by omega), step_more (by decide) (by omega) (by omega)]
  rw [readFrom_byte _ (by omega), step_last (by omega) (by omega)]
  have value : (((v / 262144 % 8 + 0xF0 - 0xF0) * 64 + (v / 4096 % 64 + 0x80 - 0x80)) * 64 +
      (v / 64 % 64 + 0x80 - 0x80)) * 64 + (v % 64 + 0x80 - 0x80) = v := by omega
  rw [value]
  rfl

/-- Code points of characters are no surrogates. -/
theorem toNat_scalar (c : Char) : c.toNat < 0xD800 ∨ 0xDFFF < c.toNat ∧ c.toNat < 0x110000 := c.valid

theorem encodeChar_eq (c : Char) :
    String.utf8EncodeChar c =
      if c.toNat ≤ 0x7F then [UInt8.ofNat c.toNat]
      else if c.toNat ≤ 0x7FF then [UInt8.ofNat (c.toNat / 64 % 32 + 0xC0), UInt8.ofNat (c.toNat % 64 + 0x80)]
      else if c.toNat ≤ 0xFFFF then
        [UInt8.ofNat (c.toNat / 4096 % 16 + 0xE0), UInt8.ofNat (c.toNat / 64 % 64 + 0x80),
          UInt8.ofNat (c.toNat % 64 + 0x80)]
      else
        [UInt8.ofNat (c.toNat / 262144 % 8 + 0xF0), UInt8.ofNat (c.toNat / 4096 % 64 + 0x80),
          UInt8.ofNat (c.toNat / 64 % 64 + 0x80), UInt8.ofNat (c.toNat % 64 + 0x80)] := rfl

/-- The bytes of a character read as that character. -/
theorem readFrom_encodeChar (c : Char) (rest : List UInt8) :
    readFrom none (String.utf8EncodeChar c ++ rest) = some c :: readFrom none rest := by
  have scalar := toNat_scalar c
  rw [encodeChar_eq]
  conv => rhs; rw [← Char.ofNat_toNat c]
  by_cases one : c.toNat ≤ 0x7F
  · rw [if_pos one, List.singleton_append, readFrom_byte none (by omega), step_whole (by omega)]
    rfl
  by_cases two : c.toNat ≤ 0x7FF
  · rw [if_neg one, if_pos two]
    exact readFrom_two (by omega) two rest
  by_cases three : c.toNat ≤ 0xFFFF
  · rw [if_neg one, if_neg two, if_pos three]
    exact readFrom_three (by omega) three (by omega) rest
  · rw [if_neg one, if_neg two, if_neg three]
    exact readFrom_four (by omega) (by omega) rest

theorem encode_append (s t : Text) : encode (s ++ t) = encode s ++ encode t := List.flatMap_append

theorem readFrom_encode (s : Text) : readFrom none (encode s) = s.map some := by
  induction s with
  | nil => rfl
  | cons c rest ih =>
    rw [encode, List.flatMap_cons, readFrom_encodeChar, List.map_cons]
    exact congrArg (some c :: ·) ih

/-- What is encoded is well-formed. -/
theorem decode?_encode (s : Text) : decode? (encode s) = some s := by
  rw [decode?, readFrom_encode]
  induction s with
  | nil => rfl
  | cons c rest ih =>
    rw [List.map_cons, List.mapM_cons, ih]
    rfl

/-- No replacement character stands where none was written. -/
theorem decodeLossy_encode (s : Text) : decodeLossy (encode s) = s := by
  rw [decodeLossy, readFrom_encode, List.map_map]
  exact List.map_id s

end EndpointConsole.Utf8
