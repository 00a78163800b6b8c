import EndpointConsole.Proofs.Encoding.Percent
import EndpointConsole.Proofs.Text.LowerCase
import EndpointConsole.Url.Host
import Mathlib.Algebra.Group.Nat.Defs
import Mathlib.Data.List.Basic

/-!
Hosts that read back as they are written. An address is written with four numbers, of which it is the value
(`ipv4?_ipv4Text`), and what is read as an address has no more than four bytes (`ipv4?_lt`). A domain of small
letters, digits and dots stays as it is (`host?_of_plain`).
-/
namespace EndpointConsole.Url

theorem digit?_of_isDigit {c : Char} (digit : c.isDigit = true) :
    Hex.digit? c = some (c.toNat - '0'.toNat) ∧ c.toNat - '0'.toNat < 10 := by
  have between : '0' ≤ c ∧ c ≤ '9' := by simpa [Char.isDigit, Char.le_def] using digit
  have most : c.toNat ≤ '9'.toNat := UInt32.le_iff_toNat_le.mp between.2
  refine ⟨by rw [Hex.digit?, if_pos between], ?_⟩
  have zero : '0'.toNat = 48 := rfl
  have nine : '9'.toNat = 57 := rfl
  omega

theorem digitsValue?_of_digits {digits : Text} (decimal : ∀ c ∈ digits, c.isDigit = true) (n : Nat) :
    digitsValue? 10 n digits = some (Nat.ofDigitChars 10 digits n) := by
  induction digits generalizing n with
  | nil => rfl
  | cons c rest ih =>
    rw [List.forall_mem_cons] at decimal
    obtain ⟨value, small⟩ := digit?_of_isDigit decimal.1
    rw [digitsValue?, value]
    simp only [small, if_true]
    rw [ih decimal.2, Nat.mul_comm]
    rfl

theorem isDigit_of_mem_toDigits {n : Nat} {c : Char} (member : c ∈ Nat.toDigits 10 n) : c.isDigit = true :=
  Nat.isDigit_of_mem_toDigits (by decide) (by decide) member

theorem digitsValue?_toDigits (n : Nat) : digitsValue? 10 0 (Nat.toDigits 10 n) = some n := by
  rw [digitsValue?_of_digits fun c member => isDigit_of_mem_toDigits member, Nat.ofDigitChars_ten_toDigits]

theorem foldl_bytes_lt {numbers : List Nat} (bytes : ∀ n ∈ numbers, n ≤ 255) {sum k : Nat} (small : sum < 256 ^ k) :
    numbers.foldl (fun sum n => sum * 256 + n) sum < 256 ^ (k + numbers.length) := by
  induction numbers generalizing sum k with
  | nil => exact small
  | cons n rest ih =>
    rw [List.forall_mem_cons] at bytes
    have next : sum * 256 + n < 256 ^ (k + 1) := by
      rw [Nat.pow_succ]
      omega
    have whole := ih bytes.2 next
    rwa [Nat.add_assoc, Nat.add_comm 1] at whole

theorem ipv4?_lt {s : Text} {a : Nat} (read : ipv4? s = some a) : a < 2 ^ 32 := by
  simp only [ipv4?, bind, pure, Option.bind_eq_some_iff] at read
  obtain ⟨numbers, -, read⟩ := read
  split at read
  · cases read
  next few =>
  split at read
  · cases read
  next last before split_last =>
  split at read
  · cases read
  next bounded =>
  rw [not_or, Nat.not_le] at bounded
  obtain ⟨bytes, last_small⟩ := bounded
  have length : numbers.length = before.length + 1 := by
    rw [← List.length_reverse, split_last, List.length_cons]
  have front : before.length ≤ 3 := by omega
  -- the numbers before the last fill a byte each, and the last fills the others
  have bytes : ∀ n ∈ before.reverse, n ≤ 255 := by simpa using bytes
  have high := foldl_bytes_lt (k := 0) bytes (by decide : 0 < 256 ^ 0)
  rw [Nat.zero_add, List.length_reverse] at high
  cases read
  calc before.reverse.foldl (fun sum n => sum * 256 + n) 0 * 256 ^ (4 - before.length) + last
    _ < (before.reverse.foldl (fun sum n => sum * 256 + n) 0 + 1) * 256 ^ (4 - before.length) := by
      rw [Nat.succ_mul]
      exact Nat.add_lt_add_left last_small _
    _ ≤ 256 ^ before.length * 256 ^ (4 - before.length) := Nat.mul_le_mul_right _ high
    _ = 256 ^ 4 := by rw [← Nat.pow_add, Nat.add_sub_cancel' (by omega)]
    _ = 2 ^ 32 := rfl

/-- A number of an address is written with its digits. -/
def byteText (address shift : Nat) : Text := Nat.toDigits 10 (address / 256 ^ shift % 256)

theorem ipv4Text_eq (address : Nat) : ipv4Text address = Text.joinWith ['.']
    [byteText address 3, byteText address 2, byteText address 1, byteText address 0] := rfl

theorem ipv4Number?_toDigits {n : Nat} (small : n < 256) : ipv4Number? (Nat.toDigits 10 n) = some n := by
  revert n
  decide +kernel

theorem splitOn_ipv4Text (address : Nat) : Text.splitOn '.' (ipv4Text address) =
    [byteText address 3, byteText address 2, byteText address 1, byteText address 0] := by
  have absent (shift : Nat) : '.' ∉ byteText address shift := by
    intro member
    exact absurd (isDigit_of_mem_toDigits member) (by decide)
  rw [ipv4Text_eq, Text.splitOn_joinWith (List.cons_ne_nil _ _)]
  simp [absent]

theorem dropEmptyLast_ipv4Text (address : Nat) : dropEmptyLast (Text.splitOn '.' (ipv4Text address)) =
    [byteText address 3, byteText address 2, byteText address 1, byteText address 0] := by
  have filled : byteText address 0 ≠ [] := Nat.toDigits_ne_nil
  rw [splitOn_ipv4Text, dropEmptyLast, if_neg (by simpa using filled)]

theorem endsInNumber_ipv4Text (address : Nat) : endsInNumber (ipv4Text address) = true := by
  have filled : byteText address 0 ≠ [] := Nat.toDigits_ne_nil
  have digits : (byteText address 0).all Char.isDigit = true :=
    List.all_eq_true.mpr fun c member => isDigit_of_mem_toDigits member
  rw [endsInNumber, dropEmptyLast_ipv4Text]
  simp [digits, filled]

theorem ipv4?_ipv4Text {address : Nat} (small : address < 2 ^ 32) : ipv4? (ipv4Text address) = some address := by
  have number (shift : Nat) : ipv4Number? (byteText address shift) = some (address / 256 ^ shift % 256) :=
    ipv4Number?_toDigits (Nat.mod_lt _ (by decide))
  have least (n : Nat) : ¬255 < n % 256 := by omega
  rw [ipv4?, dropEmptyLast_ipv4Text]
  simp [number, least]
  omega

/-- The small letters, the digits and the dot of ASCII. -/
def isPlain (c : Char) : Bool := c.isLower || c.isDigit || c == '.'

/-- A domain of small letters, digits and dots is in ASCII already. -/
def KeepsPlain (toAscii? : Text → Option Text) : Prop :=
  ∀ s, s ≠ [] → (∀ c ∈ s, isPlain c = true) → toAscii? s = some s

variable {c : Char} {s : Text}

theorem isPlain_lt (plain : isPlain c = true) : c.toNat < 0x80 := by
  rw [isPlain, Bool.or_eq_true, Bool.or_eq_true, beq_iff_eq] at plain
  rcases plain with (lower | digit) | rfl
  · have most : c.toNat ≤ 122 := UInt32.le_iff_toNat_le.mp (of_decide_eq_true (Bool.and_eq_true_iff.mp lower).2)
    omega
  · have most : c.toNat ≤ 57 := UInt32.le_iff_toNat_le.mp (of_decide_eq_true (Bool.and_eq_true_iff.mp digit).2)
    omega
  · decide

/-- A property of plain characters, checked one by one. -/
theorem forall_plain {P : Char → Prop} (each : ∀ n : Fin 0x80, isPlain (Char.ofNat n) = true → P (Char.ofNat n))
    (plain : isPlain c = true) : P c :=
  Text.forall_ascii (P := fun c => isPlain c = true → P c) each (isPlain_lt plain) plain

theorem decodeBytes_of_plain (plain : ∀ c ∈ s, isPlain c = true) :
    Percent.decodeBytes (Utf8.encode s) = Utf8.encode s := by
  induction s with
  | nil => rfl
  | cons c rest ih =>
    rw [List.forall_mem_cons] at plain
    have other : UInt8.ofNat c.toNat ≠ 0x25 :=
      forall_plain (P := fun c => UInt8.ofNat c.toNat ≠ 0x25) (by decide) plain.1
    rw [Utf8.encode_ascii (isPlain_lt plain.1), Percent.decodeBytes_other other, ih plain.2]

theorem isForbidden_of_plain (plain : isPlain c = true) : isForbidden c = false :=
  forall_plain (P := fun c => isForbidden c = false) (by decide) plain

/-- What is known of compatibility forms leaves plain domains alone. -/
theorem toAscii?_keepsPlain : KeepsPlain toAscii? := by
  intro s _ plain
  have mapped : s.flatMap mapDomainChar = s := by
    have kept : ∀ c ∈ s, mapDomainChar c = [c] := fun c among =>
      forall_plain (P := fun c => mapDomainChar c = [c]) (by decide) (plain c among)
    rw [List.flatMap_congr kept, List.flatMap_singleton']
  have encoded : ∀ label ∈ Text.splitOn '.' s, isEncodedRight label = true := by
    intro label among
    rw [isEncodedRight, bne_iff_ne]
    rintro rfl
    exact absurd (plain '-' (Text.mem_of_mem_splitOn among (by decide))) (by decide)
  rw [toAscii?, mapped, if_pos (List.all_eq_true.mpr encoded)]

variable {toAscii? : Text → Option Text} (keeps : KeepsPlain toAscii?) (filled : s ≠ [])
  (plain : ∀ c ∈ s, isPlain c = true)
include keeps filled plain

theorem domain?_of_plain : domain? toAscii? s = some s := by
  have allowed : ∀ c ∈ s, isForbidden c = false := fun c among => isForbidden_of_plain (plain c among)
  simpa [domain?, decodeBytes_of_plain plain, Utf8.decode?_encode, keeps s filled plain, filled] using allowed

theorem host?_of_plain : host? toAscii? s =
    if endsInNumber s then (ipv4? s).map .ipv4 else some (.domain s) := by
  have domain := domain?_of_plain keeps filled plain
  cases s with
  | nil => exact absurd rfl filled
  | cons c rest =>
    have other : c ≠ '[' := by
      rintro rfl
      exact absurd (plain '[' List.mem_cons_self) (by decide)
    unfold host?
    split
    · next none => cases none
    · next open_bracket =>
      cases open_bracket
      exact absurd rfl other
    · rw [domain]
      rfl

omit keeps filled plain

/-- A host that this machine may answer to: a plain domain that is no number, or an address. -/
inductive Host.Written : Host → Prop where
  | domain {name : Text} (filled : name ≠ []) (plain : ∀ c ∈ name, isPlain c = true)
      (named : endsInNumber name = false) : Written (.domain name)
  | ipv4 {address : Nat} (small : address < 2 ^ 32) : Written (.ipv4 address)

theorem ipv4Text_plain (address : Nat) : ∀ c ∈ ipv4Text address, isPlain c = true := by
  intro c member
  rw [ipv4Text_eq] at member
  rcases Text.mem_joinWith member with rfl | ⟨piece, among, inside⟩
  · decide
  · have digits : ∀ shift, c ∈ byteText address shift → c.isDigit = true := fun shift => isDigit_of_mem_toDigits
    have digit : c.isDigit = true := by
      simp only [List.mem_cons, List.not_mem_nil, or_false] at among
      rcases among with rfl | rfl | rfl | rfl <;> exact digits _ inside
    rw [isPlain, digit]
    simp

end EndpointConsole.Url
