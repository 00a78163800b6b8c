import EndpointConsole.Encoding.Base64
import Mathlib.Tactic.SplitIfs

/-!
Base64 has one text for any bytes. What is encoded reads back (`decode?_encode`), and nothing else is
read (`decode?_eq_some_iff`): groups of four characters and of three bytes hold the same 24 bits, and
the bits that padding leaves over must be zero.
-/
namespace EndpointConsole.Base64

theorem value?_symbol {n : Nat} (small : n < 64) : value? (symbol n) = some n := by
  revert n
  decide

theorem symbol_of_value? {c : Char} {n : Nat} (read : value? c = some n) : n < 64 ∧ symbol n = c := by
  unfold value? at read
  dsimp only at read
  split_ifs at read with upper lower digit plus slash <;> cases read
  · refine ⟨by omega, ?_⟩
    have code : 65 + (c.toNat - 65) = c.toNat := by omega
    rw [symbol, if_pos (by omega), code, Char.ofNat_toNat]
  · refine ⟨by omega, ?_⟩
    have code : 71 + (c.toNat - 71) = c.toNat := by omega
    rw [symbol, if_neg (by omega), if_pos (by omega), code, Char.ofNat_toNat]
  · refine ⟨by omega, ?_⟩
    have code : c.toNat + 4 - 4 = c.toNat := by omega
    rw [symbol, if_neg (by omega), if_neg (by omega), if_pos (by omega), code, Char.ofNat_toNat]
  · exact ⟨by omega, plus.symm⟩
  · exact ⟨by omega, slash.symm⟩

theorem symbol_ne_padding {n : Nat} (small : n < 64) : symbol n ≠ '=' := by
  revert n
  decide

/-- A byte is the number that it was made of. -/
theorem ofNat_eq {a : UInt8} {n : Nat} (same : n = a.toNat) : UInt8.ofNat n = a := by
  rw [same, UInt8.ofNat_toNat]

theorem decodeGroup?_encode (a b c : UInt8) {n : Nat} (bits : n = (a.toNat * 256 + b.toNat) * 256 + c.toNat) :
    decodeGroup? (symbol (n / 262144)) (symbol (n / 4096 % 64)) (symbol (n / 64 % 64)) (symbol (n % 64)) =
      some [a, b, c] := by
  have first := a.toNat_lt
  have second := b.toNat_lt
  have third := c.toNat_lt
  simp only [decodeGroup?, value?_symbol (show n / 262144 < 64 by omega), value?_symbol (Nat.mod_lt _ (by decide : 0 < 64)),
    Option.bind_eq_bind, Option.bind_some, Option.pure_def]
  rw [ofNat_eq (a := a) (by omega), ofNat_eq (a := b) (by omega), ofNat_eq (a := c) (by omega)]

theorem decodeLast?_of_symbols {a b c d : Char} (third : c ≠ '=') (fourth : d ≠ '=') :
    decodeLast? a b c d = decodeGroup? a b c d := by
  simp only [decodeLast?, decodeGroup?, if_neg third, if_neg fourth]

theorem encode_of_decodeGroup? {a b c d : Char} {bytes : List UInt8} (read : decodeGroup? a b c d = some bytes)
    (rest : List UInt8) : encode (bytes ++ rest) = a :: b :: c :: d :: encode rest := by
  simp only [decodeGroup?, Option.bind_eq_bind, Option.bind_eq_some_iff, Option.pure_def, Option.some.injEq] at read
  obtain ⟨i, first, j, second, k, third, l, fourth, rfl⟩ := read
  obtain ⟨small_i, rfl⟩ := symbol_of_value? first
  obtain ⟨small_j, rfl⟩ := symbol_of_value? second
  obtain ⟨small_k, rfl⟩ := symbol_of_value? third
  obtain ⟨small_l, rfl⟩ := symbol_of_value? fourth
  simp only [List.cons_append, List.nil_append, encode, UInt8.toNat_ofNat']
  congr <;> omega

theorem encode_of_decodeLast? {a b c d : Char} {bytes : List UInt8} (read : decodeLast? a b c d = some bytes) :
    encode bytes = [a, b, c, d] := by
  by_cases third : c = '='
  · subst third
    simp only [decodeLast?, Option.bind_eq_bind, Option.bind_eq_some_iff, Option.pure_def, ↓reduceIte,
      Option.ite_none_right_eq_some, Option.some.injEq] at read
    obtain ⟨i, first, j, second, ⟨rfl, whole⟩, rfl⟩ := read
    obtain ⟨small_i, rfl⟩ := symbol_of_value? first
    obtain ⟨small_j, rfl⟩ := symbol_of_value? second
    simp only [encode, UInt8.toNat_ofNat']
    congr <;> omega
  by_cases fourth : d = '='
  · subst fourth
    simp only [decodeLast?, Option.bind_eq_bind, Option.bind_eq_some_iff, Option.pure_def, ↓reduceIte, if_neg third,
      Option.ite_none_right_eq_some, Option.some.injEq] at read
    obtain ⟨i, first, j, second, k, third, whole, rfl⟩ := read
    obtain ⟨small_i, rfl⟩ := symbol_of_value? first
    obtain ⟨small_j, rfl⟩ := symbol_of_value? second
    obtain ⟨small_k, rfl⟩ := symbol_of_value? third
    simp only [encode, UInt8.toNat_ofNat']
    congr <;> omega
  · rw [decodeLast?_of_symbols third fourth] at read
    simpa [encode] using encode_of_decodeGroup? read []

theorem decode?_group {a b c d : Char} {rest : Text} {bytes more : List UInt8}
    (third : c ≠ '=') (fourth : d ≠ '=') (first : decodeGroup? a b c d = some bytes) (later : decode? rest = some more) :
    decode? (a :: b :: c :: d :: rest) = some (bytes ++ more) := by
  cases rest with
  | nil =>
    cases later
    rw [decode?, decodeLast?_of_symbols third fourth, first, List.append_nil]
  | cons e rest =>
    rw [decode?, first, later]
    · rfl
    · simp

/-- Whatever is encoded reads back. -/
theorem decode?_encode (bytes : List UInt8) : decode? (encode bytes) = some bytes := by
  induction bytes using encode.induct with
  | case1 => rfl
  | case2 a =>
    have small := a.toNat_lt
    have low := value?_symbol (show a.toNat * 16 / 64 < 64 by omega)
    have high := value?_symbol (show a.toNat * 16 % 64 < 64 by omega)
    have whole : a.toNat * 16 % 64 % 16 = 0 := by omega
    simp only [encode, decode?, decodeLast?, low, high, whole, Option.bind_eq_bind, Option.bind_some, Option.pure_def,
      and_self, ↓reduceIte]
    rw [ofNat_eq (a := a) (by omega)]
  | case3 a b =>
    have first := a.toNat_lt
    have second := b.toNat_lt
    generalize bits : (a.toNat * 256 + b.toNat) * 4 = n
    have high := value?_symbol (show n / 4096 < 64 by omega)
    have middle := value?_symbol (show n / 64 % 64 < 64 by omega)
    have low := value?_symbol (show n % 64 < 64 by omega)
    have solid := symbol_ne_padding (show n % 64 < 64 by omega)
    have whole : n % 64 % 4 = 0 := by omega
    simp only [encode, bits, decode?, decodeLast?, high, middle, low, solid, whole, Option.bind_eq_bind,
      Option.bind_some, Option.pure_def, ↓reduceIte]
    rw [ofNat_eq (a := a) (by omega), ofNat_eq (a := b) (by omega)]
  | case4 a b c rest ih =>
    rw [encode]
    refine decode?_group ?_ ?_ (decodeGroup?_encode a b c rfl) ih
    · exact symbol_ne_padding (by omega)
    · exact symbol_ne_padding (by omega)

theorem encode_of_decode? {s : Text} {bytes : List UInt8} (read : decode? s = some bytes) : encode bytes = s := by
  fun_induction decode? s generalizing bytes with
  | case1 =>
    cases read
    rfl
  | case2 a b c d => exact encode_of_decodeLast? read
  | case3 a b c d rest more ih =>
    simp only [Option.bind_eq_bind, Option.bind_eq_some_iff, Option.pure_def, Option.some.injEq] at read
    obtain ⟨group, first, tail, later, rfl⟩ := read
    rw [encode_of_decodeGroup? first, ih later]
  | case4 => cases read

theorem decode?_eq_some_iff {s : Text} {bytes : List UInt8} : decode? s = some bytes ↔ s = encode bytes := by
  constructor
  · intro read
    exact (encode_of_decode? read).symm
  · rintro rfl
    exact decode?_encode bytes

theorem decode?_eq_none_iff {s : Text} : decode? s = none ↔ ∀ bytes, s ≠ encode bytes := by
  simp only [Option.eq_none_iff_forall_ne_some, ne_eq, decode?_eq_some_iff]

end EndpointConsole.Base64
