import EndpointConsole.Proofs.Encoding.Utf8
import EndpointConsole.Text.Bytes
import Mathlib.Data.List.Infix

/-!
Texts and the bytes of their UTF-8 form. The bytes tell where a text may be cut: a byte that does not go
on with a character begins one, so the boundaries are the lengths of the beginnings of the text
(`isCharBoundary_iff`), and what is cut out between two of them is what stands there (`slice?_append`). A text
cut down to a number of bytes is therefore the longest beginning of whole characters that there is room
for (`truncate?_longest`).
-/
namespace EndpointConsole.Text

variable {s p q : Text}

theorem byteLength_append (s t : Text) : byteLength (s ++ t) = byteLength s + byteLength t := by
  induction s with
  | nil => rw [List.nil_append, byteLength, Nat.zero_add]
  | cons c rest ih => rw [List.cons_append, byteLength, byteLength, ih, Nat.add_assoc]

theorem length_encode (s : Text) : (Utf8.encode s).length = byteLength s := by
  induction s with
  | nil => rfl
  | cons c rest ih =>
    rw [Utf8.encode, List.flatMap_cons, List.length_append, String.length_utf8EncodeChar, byteLength]
    exact congrArg (c.utf8Size + ·) ih

theorem byteLength_le_of_isPrefix (starts : p <+: s) : byteLength p ≤ byteLength s := by
  obtain ⟨rest, rfl⟩ := starts
  rw [byteLength_append]
  exact Nat.le_add_right _ _

/-- A character is a byte that begins it and bytes that go on with it. -/
theorem utf8EncodeChar_eq_cons (c : Char) :
    ∃ first more, String.utf8EncodeChar c = first :: more ∧ continues first = false ∧
      ∀ b ∈ more, continues b = true := by
  have scalar := Utf8.toNat_scalar c
  have begins {n : Nat} (outside : n < 0x80 ∨ 0xC0 ≤ n ∧ n < 0x100) : continues (UInt8.ofNat n) = false := by
    rw [continues, UInt8.toNat_ofNat', Nat.mod_eq_of_lt (by omega)]
    simp only [Bool.and_eq_false_iff, decide_eq_false_iff_not]
    omega
  have goesOn (n : Nat) : continues (UInt8.ofNat (n % 64 + 0x80)) = true := by
    rw [continues, UInt8.toNat_ofNat', Nat.mod_eq_of_lt (by omega)]
    simp only [Bool.and_eq_true, decide_eq_true_eq]
    omega
  have last : ∀ b ∈ [UInt8.ofNat (c.toNat % 64 + 0x80)], continues b = true :=
    List.forall_mem_singleton.mpr (goesOn c.toNat)
  rw [Utf8.encodeChar_eq]
  by_cases one : c.toNat ≤ 0x7F
  · rw [if_pos one]
    exact ⟨_, _, rfl, begins (by omega), nofun⟩
  by_cases two : c.toNat ≤ 0x7FF
  · rw [if_neg one, if_pos two]
    exact ⟨_, _, rfl, begins (by omega), last⟩
  by_cases three : c.toNat ≤ 0xFFFF
  · rw [if_neg one, if_neg two, if_pos three]
    exact ⟨_, _, rfl, begins (by omega), List.forall_mem_cons.mpr ⟨goesOn _, last⟩⟩
  · rw [if_neg one, if_neg two, if_neg three]
    exact ⟨_, _, rfl, begins (by omega), List.forall_mem_cons.mpr ⟨goesOn _, List.forall_mem_cons.mpr ⟨goesOn _, last⟩⟩⟩

theorem isCharBoundary_zero (s : Text) : isCharBoundary s 0 = true := rfl

/-- Within a character there is no boundary. -/
theorem isCharBoundary_within {c : Char} {n : Nat} (some_byte : 0 < n) (within : n < c.utf8Size) (rest : Text) :
    isCharBoundary (c :: rest) n = false := by
  obtain ⟨first, more, bytes, -, goOn⟩ := utf8EncodeChar_eq_cons c
  have size : (first :: more).length = c.utf8Size := bytes ▸ String.length_utf8EncodeChar c
  obtain ⟨k, rfl⟩ := Nat.exists_eq_succ_of_ne_zero (Nat.ne_of_gt some_byte)
  have inside : k < more.length := by
    rw [List.length_cons] at size
    omega
  have byte : (Utf8.encode (c :: rest))[k + 1]? = some more[k] := by
    rw [Utf8.encode, List.flatMap_cons, bytes, List.cons_append, List.getElem?_cons_succ,
      List.getElem?_append_left inside, List.getElem?_eq_getElem inside]
  simp only [isCharBoundary, byte, goOn _ (List.getElem_mem inside)]
  simp

/-- Behind a character the boundaries are those of the rest. -/
theorem isCharBoundary_behind {c : Char} {n : Nat} (rest : Text) :
    isCharBoundary (c :: rest) (c.utf8Size + n) = isCharBoundary rest n := by
  have byte : (Utf8.encode (c :: rest))[c.utf8Size + n]? = (Utf8.encode rest)[n]? := by
    rw [← String.length_utf8EncodeChar c, Utf8.encode, List.flatMap_cons,
      List.getElem?_append_right (Nat.le_add_right _ n), Nat.add_sub_cancel_left]
    rfl
  have size := c.utf8Size_pos
  have started : (c.utf8Size + n == 0) = false := by
    rw [beq_eq_false_iff_ne]
    omega
  have same : (c.utf8Size + n == byteLength (c :: rest)) = (n == byteLength rest) := by
    rw [byteLength, Bool.eq_iff_iff, beq_iff_eq, beq_iff_eq]
    omega
  rw [isCharBoundary, byte, started, same, Bool.false_or]
  cases n with
  | succ n => rfl
  | zero =>
    rw [isCharBoundary_zero]
    cases rest with
    | nil => rfl
    | cons d rest =>
      obtain ⟨first, more, bytes, begins, -⟩ := utf8EncodeChar_eq_cons d
      have lead : (Utf8.encode (d :: rest))[0]? = some first := by
        rw [Utf8.encode, List.flatMap_cons, bytes]
        rfl
      simp only [lead, begins, Bool.not_false]

/-- The boundaries of a text are the lengths of its beginnings. -/
theorem isCharBoundary_iff {n : Nat} : isCharBoundary s n = true ↔ ∃ p, p <+: s ∧ byteLength p = n := by
  induction s generalizing n with
  | nil =>
    simp only [List.prefix_nil, exists_eq_left]
    cases n with
    | zero => exact iff_of_true rfl rfl
    | succ n => exact iff_of_false (by simp [isCharBoundary, Utf8.encode, byteLength]) (by simp [byteLength])
  | cons c rest ih =>
    have beginnings : (∃ p, p <+: c :: rest ∧ byteLength p = n) ↔
        n = 0 ∨ ∃ p, p <+: rest ∧ c.utf8Size + byteLength p = n := by
      simp only [List.prefix_cons_iff]
      constructor
      · rintro ⟨p, rfl | ⟨p, rfl, starts⟩, same⟩
        · exact .inl same.symm
        · exact .inr ⟨p, starts, same⟩
      · rintro (rfl | ⟨p, starts, same⟩)
        · exact ⟨[], .inl rfl, rfl⟩
        · exact ⟨c :: p, .inr ⟨p, rfl, starts⟩, same⟩
    rw [beginnings]
    rcases Nat.lt_or_ge n c.utf8Size with within | behind
    · cases n with
      | zero => exact iff_of_true rfl (.inl rfl)
      | succ n =>
        rw [isCharBoundary_within (Nat.succ_pos n) within]
        refine iff_of_false Bool.false_ne_true ?_
        rintro (none | ⟨p, -, same⟩) <;> omega
    · obtain ⟨k, rfl⟩ := Nat.exists_eq_add_of_le behind
      have size := c.utf8Size_pos
      rw [isCharBoundary_behind, ih]
      constructor
      · rintro ⟨p, starts, rfl⟩
        exact .inr ⟨p, starts, rfl⟩
      · rintro (none | ⟨p, starts, same⟩)
        · omega
        · exact ⟨p, starts, by omega⟩

/-- What is cut out between two boundaries is what stands there. -/
theorem slice?_append (a s b : Text) :
    slice? (a ++ (s ++ b)) (byteLength a) (byteLength a + byteLength s) = some s := by
  have start : isCharBoundary (a ++ (s ++ b)) (byteLength a) = true :=
    isCharBoundary_iff.mpr ⟨a, List.prefix_append a (s ++ b), rfl⟩
  have stop : isCharBoundary (a ++ (s ++ b)) (byteLength a + byteLength s) = true :=
    isCharBoundary_iff.mpr ⟨a ++ s, ⟨b, List.append_assoc a s b⟩, byteLength_append a s⟩
  rw [slice?, if_pos ⟨Nat.le_add_right _ _, start, stop⟩, ← length_encode a, ← length_encode s, Utf8.encode_append,
    Utf8.encode_append, List.take_length_add_append, List.drop_left, List.take_left]
  exact Utf8.decode?_encode s

theorem boundaryBefore_le (s : Text) (n : Nat) : boundaryBefore s n ≤ n := by
  fun_induction boundaryBefore s n with
  | case1 => exact Nat.le_refl 0
  | case2 => exact Nat.le_refl _
  | case3 n _ ih => exact Nat.le_succ_of_le ih

/-- The way down ends at a boundary, at the beginning of the text if not before. -/
theorem isCharBoundary_boundaryBefore (s : Text) (n : Nat) : isCharBoundary s (boundaryBefore s n) = true := by
  fun_induction boundaryBefore s n with
  | case1 => rfl
  | case2 n found => exact found
  | case3 n _ ih => exact ih

/-- No boundary is passed over on the way down. -/
theorem le_boundaryBefore {m n : Nat} (boundary : isCharBoundary s m = true) (below : m ≤ n) :
    m ≤ boundaryBefore s n := by
  fun_induction boundaryBefore s n with
  | case1 => exact below
  | case2 => exact below
  | case3 n passed ih =>
    refine ih (Nat.le_of_lt_succ (Nat.lt_of_le_of_ne below ?_))
    rintro rfl
    exact passed boundary

theorem isPrefix_truncateBytes (room : Nat) (s : Text) : truncateBytes room s <+: s := by
  fun_induction truncateBytes room s with
  | case1 => exact List.prefix_refl []
  | case2 room c rest _ ih => exact List.prefix_cons_inj c |>.mpr ih
  | case3 => exact List.nil_prefix

theorem byteLength_truncateBytes (room : Nat) (s : Text) : byteLength (truncateBytes room s) ≤ room := by
  fun_induction truncateBytes room s with
  | case1 => exact Nat.zero_le _
  | case2 room c rest fits ih =>
    rw [byteLength]
    omega
  | case3 => exact Nat.zero_le _

/-- What there is room for begins what is kept. -/
theorem prefix_truncateBytes {room : Nat} (starts : q <+: s) (fits : byteLength q ≤ room) :
    q <+: truncateBytes room s := by
  fun_induction truncateBytes room s generalizing q with
  | case1 => exact starts
  | case2 room c rest _ ih =>
    rcases List.prefix_cons_iff.mp starts with rfl | ⟨q, rfl, more⟩
    · exact List.nil_prefix
    · rw [byteLength] at fits
      exact (List.prefix_cons_inj c).mpr (ih more (by omega))
  | case3 room c rest large =>
    rcases List.prefix_cons_iff.mp starts with rfl | ⟨q, rfl, -⟩
    · exact List.nil_prefix
    · rw [byteLength] at fits
      omega

theorem truncateBytes_of_fits {room : Nat} (fits : byteLength s ≤ room) : truncateBytes room s = s :=
  (isPrefix_truncateBytes room s).eq_of_length_le (prefix_truncateBytes (List.prefix_refl s) fits).length_le

/-- The way down from the limit ends behind what there is room for. -/
theorem boundaryBefore_eq (room : Nat) (s : Text) : boundaryBefore s room = byteLength (truncateBytes room s) := by
  refine Nat.le_antisymm ?_ (le_boundaryBefore ?_ (byteLength_truncateBytes room s))
  · obtain ⟨p, starts, same⟩ := isCharBoundary_iff.mp (isCharBoundary_boundaryBefore s room)
    rw [← same]
    exact byteLength_le_of_isPrefix (prefix_truncateBytes starts (same ▸ boundaryBefore_le s room))
  · exact isCharBoundary_iff.mpr ⟨_, isPrefix_truncateBytes room s, rfl⟩

theorem truncate?_eq (room : Nat) (s : Text) : truncate? room s = some (truncateBytes room s) := by
  rw [truncate?]
  split
  · next fits => rw [truncateBytes_of_fits fits]
  · next large =>
    obtain ⟨rest, whole⟩ := isPrefix_truncateBytes room s
    have cut := slice?_append [] (truncateBytes room s) rest
    rw [List.nil_append, whole, byteLength, Nat.zero_add] at cut
    rw [Nat.min_eq_left (Nat.le_of_not_le large), boundaryBefore_eq, cut]

/-- A text is cut down to the longest beginning of whole characters that there is room for, all of it if
    there is room for all, and the way down from the limit ends between two characters. -/
theorem truncate?_longest (room : Nat) (s : Text) :
    (∃ p, truncate? room s = some p ∧ p <+: s ∧ byteLength p ≤ room ∧
      (∀ q, q <+: s → byteLength q ≤ room → q <+: p) ∧ (byteLength s ≤ room → p = s)) ∧
    isCharBoundary s (boundaryBefore s (min room (byteLength s))) = true ∧
    ∃ before after, s = before ++ after ∧ byteLength before = boundaryBefore s (min room (byteLength s)) := by
  have boundary := isCharBoundary_boundaryBefore s (min room (byteLength s))
  obtain ⟨before, ⟨after, whole⟩, same⟩ := isCharBoundary_iff.mp boundary
  exact ⟨⟨truncateBytes room s, truncate?_eq room s, isPrefix_truncateBytes room s, byteLength_truncateBytes room s,
    fun q => prefix_truncateBytes, truncateBytes_of_fits⟩, boundary, before, after, whole.symm, same⟩

/-- A character of three bytes that there is room for in part. -/
theorem truncate?_longest_part :
    let s := "né端点".toList
    truncate? 5 s = some "né".toList ∧ "né".toList <+: s ∧ byteLength "né".toList ≤ 5 ∧
      "né".toList <+: "né".toList ∧ boundaryBefore s (min 5 (byteLength s)) = 3 := by
  intro s
  obtain ⟨⟨p, cut, starts, fits, longest, -⟩, -⟩ := truncate?_longest 5 s
  have kept : truncate? 5 s = some "né".toList := by decide +kernel
  obtain rfl : "né".toList = p := Option.some.inj (kept.symm.trans cut)
  exact ⟨kept, starts, fits, longest _ starts fits, by decide +kernel⟩

end EndpointConsole.Text
