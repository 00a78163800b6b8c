import EndpointConsole.Encoding.Hex

/-!
The BLAKE3 hash of a byte string: chunks of 1024 bytes in blocks of 64, joined
by a binary tree whose left part is the largest power of two of chunks. `hash`
gives the first 32 bytes of output.
-/
namespace EndpointConsole.Digest

/-- The eight words that chain one block to the next. -/
abbrev Chain := Vector UInt32 8

/-- The sixteen words of a block. -/
abbrev Block := Vector UInt32 16

def initial : Chain :=
  #v[0x6A09E667, 0xBB67AE85, 0x3C6EF372, 0xA54FF53A, 0x510E527F, 0x9B05688C, 0x1F83D9AB, 0x5BE0CD19]

/-- What a compressed block is: bits that mark its place in its chunk and in the tree. -/
def chunkStart : UInt32 := 1
def chunkEnd : UInt32 := 2
def parentNode : UInt32 := 4
def rootNode : UInt32 := 8

def rotateRight (x n : UInt32) : UInt32 := (x >>> n) ||| (x <<< (32 - n))

/-- Mixes two message words into a column or a diagonal. -/
def quarter (s : Block) (a b c d : Fin 16) (x y : UInt32) : Block :=
  let s := s.set a (s[a] + s[b] + x)
  let s := s.set d (rotateRight (s[d] ^^^ s[a]) 16)
  let s := s.set c (s[c] + s[d])
  let s := s.set b (rotateRight (s[b] ^^^ s[c]) 12)
  let s := s.set a (s[a] + s[b] + y)
  let s := s.set d (rotateRight (s[d] ^^^ s[a]) 8)
  let s := s.set c (s[c] + s[d])
  s.set b (rotateRight (s[b] ^^^ s[c]) 7)

/-- Mixes a block into the state: the columns, then the diagonals. -/
def round (s m : Block) : Block :=
  let s := quarter s 0 4 8 12 m[0] m[1]
  let s := quarter s 1 5 9 13 m[2] m[3]
  let s := quarter s 2 6 10 14 m[4] m[5]
  let s := quarter s 3 7 11 15 m[6] m[7]
  let s := quarter s 0 5 10 15 m[8] m[9]
  let s := quarter s 1 6 11 12 m[10] m[11]
  let s := quarter s 2 7 8 13 m[12] m[13]
  quarter s 3 4 9 14 m[14] m[15]

/-- Reorders the message between rounds. -/
def permute (m : Block) : Block :=
  #v[m[2], m[6], m[3], m[10], m[7], m[0], m[4], m[13], m[1], m[11], m[12], m[5], m[9], m[14], m[15], m[8]]

/-- The rounds that are left. -/
def rounds : Nat → Block → Block → Block
  | 0, s, _ => s
  | n + 1, s, m => rounds n (round s m) (permute m)

/-- The compression of one block: how many of its bytes count, which chunk it is of, and its place. -/
def compress (chain : Chain) (block : Block) (counter : Nat) (length flags : UInt32) : Chain :=
  let s : Block :=
    #v[chain[0], chain[1], chain[2], chain[3], chain[4], chain[5], chain[6], chain[7],
      initial[0], initial[1], initial[2], initial[3],
      UInt32.ofNat (counter % 4294967296), UInt32.ofNat (counter / 4294967296), length, flags]
  let s := rounds 7 s block
  #v[s[0] ^^^ s[8], s[1] ^^^ s[9], s[2] ^^^ s[10], s[3] ^^^ s[11],
    s[4] ^^^ s[12], s[5] ^^^ s[13], s[6] ^^^ s[14], s[7] ^^^ s[15]]

/-- A word from four bytes, the least first; missing bytes are zero. -/
def word (bytes : List UInt8) (i : Nat) : UInt32 :=
  let byteAt (k : Nat) : UInt32 := ((bytes.drop (4 * i + k)).headD 0).toUInt32
  byteAt 0 ||| (byteAt 1 <<< 8) ||| (byteAt 2 <<< 16) ||| (byteAt 3 <<< 24)

/-- At most 64 bytes as a block, filled up with zeros. -/
def blockOf (bytes : List UInt8) : Block := Vector.ofFn fun i => word bytes i.val

/-- The blocks of a chunk from a given one on; `flags` holds what only the last adds. -/
def compressBlocks (chain : Chain) (counter : Nat) (first : Bool) (last : UInt32) (bytes : List UInt8) : Chain :=
  let start := if first then chunkStart else 0
  if bytes.length ≤ 64 then
    compress chain (blockOf bytes) counter (UInt32.ofNat bytes.length) (start ||| chunkEnd ||| last)
  else
    compressBlocks (compress chain (blockOf (bytes.take 64)) counter 64 start) counter false last (bytes.drop 64)
termination_by bytes.length
decreasing_by simp only [List.length_drop]; omega

/-- The chaining value of a chunk, which is the hash itself when it is the root. -/
def chunk (counter : Nat) (isRoot : Bool) (bytes : List UInt8) : Chain :=
  compressBlocks initial counter true (if isRoot then rootNode else 0) bytes

/-- Joins two subtrees. -/
def parent (left right : Chain) (isRoot : Bool) : Chain :=
  let block : Block := (left ++ right).cast rfl
  compress initial block 0 64 (if isRoot then parentNode ||| rootNode else parentNode)

/-- The number of bytes in the left subtree: the largest power of two of chunks that leaves some over. -/
def leftLength (length : Nat) : Nat := 1024 * Nat.pow 2 (Nat.log2 ((length - 1) / 1024))

theorem leftLength_pos (n : Nat) : 0 < leftLength n := Nat.mul_pos (by decide) (Nat.pow_pos (by decide))

theorem leftLength_lt {n : Nat} (h : 1024 < n) : leftLength n < n := by
  have nonzero : (n - 1) / 1024 ≠ 0 := by omega
  have bound : Nat.pow 2 (Nat.log2 ((n - 1) / 1024)) ≤ (n - 1) / 1024 := Nat.log2_self_le nonzero
  have : 1024 * ((n - 1) / 1024) ≤ n - 1 := Nat.mul_div_le _ _
  unfold leftLength
  omega

/-- The chaining value of the subtree over the bytes, whose first chunk has the given number. -/
def subtree (counter : Nat) (isRoot : Bool) (bytes : List UInt8) : Chain :=
  if h : bytes.length ≤ 1024 then chunk counter isRoot bytes
  else
    let left := leftLength bytes.length
    parent (subtree counter false (bytes.take left)) (subtree (counter + left / 1024) false (bytes.drop left)) isRoot
termination_by bytes.length
decreasing_by
  · have := leftLength_lt (Nat.lt_of_not_le h)
    simp only [List.length_take]; omega
  · have := leftLength_pos bytes.length
    simp only [List.length_drop]; omega

/-- The four bytes of a word, the least first. -/
def wordBytes (w : UInt32) : List UInt8 :=
  [w.toUInt8, (w >>> 8).toUInt8, (w >>> 16).toUInt8, (w >>> 24).toUInt8]

/-- The 32 bytes of the hash. -/
def hash (bytes : List UInt8) : List UInt8 := (subtree 0 true bytes).toList.flatMap wordBytes

/-- The hash in hexadecimal. -/
def hexHash (bytes : List UInt8) : Text := (hash bytes).flatMap Hex.lowerByte

end EndpointConsole.Digest
