import EndpointConsole.Encoding.Percent
import EndpointConsole.Proofs.Encoding.Utf8

/-!
A percent-encoded component reads back as a form field (`decode_encodeComponent`),
although the two were made for different formats: encoded text holds no plus sign
that would be taken for a space, and every percent sign in it begins an escape.
-/
namespace EndpointConsole

namespace Hex

theorem digit?_upperDigit {n : Nat} (small : n < 16) : digit? (upperDigit n) = some n := by
  revert n
  decide

theorem upperDigit_toNat_lt {n : Nat} (small : n < 16) : (upperDigit n).toNat < 0x80 := by
  revert n
  decide

theorem isAlphanum_upperDigit {n : Nat} (small : n < 16) : (upperDigit n).isAlphanum = true := by
  revert n
  decide

end Hex

namespace Utf8

theorem encode_ascii {c : Char} (ascii : c.toNat < 0x80) (s : Text) :
    encode (c :: s) = UInt8.ofNat c.toNat :: encode s := by
  rw [encode, List.flatMap_cons, encodeChar_eq, if_pos (by omega)]
  rfl

end Utf8

namespace Percent

theorem isAlphanum_bounds {c : Char} (letter : c.isAlphanum = true) : 0x30 ≤ c.toNat ∧ c.toNat ≤ 0x7A := by
  change (decide (65 ≤ c.val ∧ c.val ≤ 90) || decide (97 ≤ c.val) && decide (c.val ≤ 122) ||
    decide (48 ≤ c.val) && decide (c.val ≤ 57)) = true at letter
  simp only [Bool.or_eq_true, Bool.and_eq_true, decide_eq_true_eq, UInt32.le_iff_toNat_le] at letter
  change ((65 ≤ c.toNat ∧ c.toNat ≤ 90) ∨ (97 ≤ c.toNat ∧ c.toNat ≤ 122)) ∨ (48 ≤ c.toNat ∧ c.toNat ≤ 57) at letter
  omega

/-- Characters that are kept are printable ASCII. -/
theorem isUnreserved_bounds {c : Char} (kept : isUnreserved c = true) : 0x21 ≤ c.toNat ∧ c.toNat < 0x80 := by
  simp only [isUnreserved, Bool.or_eq_true, beq_iff_eq] at kept
  rcases kept with ((((((((letter | rfl) | rfl) | rfl) | rfl) | rfl) | rfl) | quote) | rfl) | rfl
  · have := isAlphanum_bounds letter
    omega
  all_goals first | decide | omega

theorem isUnreserved_toNat_lt {c : Char} (kept : isUnreserved c = true) : c.toNat < 0x80 :=
  (isUnreserved_bounds kept).2

theorem mem_encodeChar {c d : Char} (member : d ∈ encodeChar c) : isUnreserved d = true ∨ d = '%' := by
  unfold encodeChar at member
  split at member
  · next kept =>
    rw [List.mem_singleton] at member
    exact .inl (member ▸ kept)
  · obtain ⟨b, _, inside⟩ := List.mem_flatMap.mp member
    have small : b.toNat < 256 := b.toNat_lt
    have digit {n : Nat} (bound : n < 16) : isUnreserved (Hex.upperDigit n) = true := by
      simp [isUnreserved, Hex.isAlphanum_upperDigit bound]
    rw [Hex.upperByte, List.mem_cons, List.mem_cons, List.mem_singleton] at inside
    rcases inside with percent | rfl | rfl
    · exact .inr percent
    · exact .inl (digit (by omega))
    · exact .inl (digit (by omega))

theorem mem_encodeComponent {s : Text} {d : Char} (member : d ∈ encodeComponent s) :
    isUnreserved d = true ∨ d = '%' := by
  obtain ⟨c, _, inside⟩ := List.mem_flatMap.mp member
  exact mem_encodeChar inside

/-- What separates the parts of a query does not stand in a component. -/
theorem not_mem_encodeComponent {d : Char} (reserved : isUnreserved d = false) (no_escape : d ≠ '%') (s : Text) :
    d ∉ encodeComponent s := by
  intro member
  rcases mem_encodeComponent member with kept | percent
  · rw [reserved] at kept
    cases kept
  · exact no_escape percent

theorem decodeBytes_other {b : UInt8} (other : b ≠ 0x25) (rest : List UInt8) :
    decodeBytes (b :: rest) = b :: decodeBytes rest := by
  conv => lhs; unfold decodeBytes
  exact if_neg other

theorem charOfByte {c : Char} (ascii : c.toNat < 0x80) : Char.ofNat (UInt8.ofNat c.toNat).toNat = c := by
  rw [UInt8.toNat_ofNat', Nat.mod_eq_of_lt (by omega), Char.ofNat_toNat]

/-- An escaped byte reads as that byte. -/
theorem decodeBytes_escape (b : UInt8) (rest : List UInt8) :
    decodeBytes (Utf8.encode ('%' :: Hex.upperByte b) ++ rest) = b :: decodeBytes rest := by
  have small : b.toNat < 256 := b.toNat_lt
  have high : b.toNat / 16 < 16 := by omega
  have low : b.toNat % 16 < 16 := by omega
  have digits : escaped? (UInt8.ofNat (Hex.upperDigit (b.toNat / 16)).toNat)
      (UInt8.ofNat (Hex.upperDigit (b.toNat % 16)).toNat) = some b := by
    rw [escaped?, charOfByte (Hex.upperDigit_toNat_lt high), charOfByte (Hex.upperDigit_toNat_lt low),
      Hex.digit?_upperDigit high, Hex.digit?_upperDigit low]
    have value : b.toNat / 16 * 16 + b.toNat % 16 = b.toNat := by omega
    change some (UInt8.ofNat (b.toNat / 16 * 16 + b.toNat % 16)) = some b
    rw [value, UInt8.ofNat_toNat]
  rw [Hex.upperByte, Utf8.encode_ascii (by decide), Utf8.encode_ascii (Hex.upperDigit_toNat_lt high),
    Utf8.encode_ascii (Hex.upperDigit_toNat_lt low), List.cons_append, List.cons_append, List.cons_append,
    decodeBytes, if_pos (by decide)]
  simp only [digits]
  rfl

theorem decodeBytes_escapes (bytes rest : List UInt8) :
    decodeBytes (Utf8.encode (bytes.flatMap fun b => '%' :: Hex.upperByte b) ++ rest) =
      bytes ++ decodeBytes rest := by
  induction bytes with
  | nil => rfl
  | cons b more ih =>
    rw [List.flatMap_cons, Utf8.encode_append, List.append_assoc, decodeBytes_escape, ih, List.cons_append]

/-- An encoded character reads as the bytes of that character. -/
theorem decodeBytes_encodeChar (c : Char) (rest : List UInt8) :
    decodeBytes (Utf8.encode (encodeChar c) ++ rest) = String.utf8EncodeChar c ++ decodeBytes rest := by
  unfold encodeChar
  by_cases kept : isUnreserved c = true
  · have ascii := isUnreserved_toNat_lt kept
    have noPercent : UInt8.ofNat c.toNat ≠ 0x25 := by
      intro same
      have percent : c = '%' := by rw [← charOfByte ascii, same]; rfl
      rw [percent] at kept
      exact absurd kept (by decide)
    rw [if_pos kept, Utf8.encode_ascii ascii, Utf8.encodeChar_eq, if_pos (by omega)]
    exact decodeBytes_other noPercent rest
  · rw [if_neg kept]
    exact decodeBytes_escapes _ rest

theorem decodeBytes_encodeComponent (s : Text) : decodeBytes (Utf8.encode (encodeComponent s)) = Utf8.encode s := by
  induction s with
  | nil => rfl
  | cons c rest ih =>
    rw [encodeComponent, List.flatMap_cons, Utf8.encode_append, decodeBytes_encodeChar]
    exact congrArg (String.utf8EncodeChar c ++ ·) ih

end Percent

namespace Form
open Percent

/-- A component reads back as a key or a value of a form. -/
theorem decode_encodeComponent (s : Text) : decode (encodeComponent s) = s := by
  have noPlus : (encodeComponent s).map (fun c => if c = '+' then ' ' else c) = encodeComponent s := by
    rw [List.map_congr_left (g := id), List.map_id]
    intro c member
    rw [if_neg (fun plus => not_mem_encodeComponent (by decide) (by decide) s (plus ▸ member))]
    rfl
  rw [decode, noPlus, decodeBytes_encodeComponent, Utf8.decodeLossy_encode]

end Form

end EndpointConsole
