import EndpointConsole.Text

/-!
Base64 with the standard alphabet. `encode` pads to groups of four; `decode?`
accepts the padded form of some bytes and nothing else: no white space, no
missing or surplus padding, no stray bits before the padding.
-/
namespace EndpointConsole.Base64

/-- The character of a number below 64. -/
def symbol (n : Nat) : Char :=
  if n < 26 then Char.ofNat (65 + n)
  else if n < 52 then Char.ofNat (71 + n)
  else if n < 62 then Char.ofNat (n - 4)
  else if n = 62 then '+' else '/'

/-- The number of a character of the alphabet. -/
def value? (c : Char) : Option Nat :=
  let n := c.toNat
  if 65 ≤ n ∧ n ≤ 90 then some (n - 65)
  else if 97 ≤ n ∧ n ≤ 122 then some (n - 71)
  else if 48 ≤ n ∧ n ≤ 57 then some (n + 4)
  else if c = '+' then some 62
  else if c = '/' then some 63
  else none

def encode : List UInt8 → Text
  | [] => []
  | [a] =>
    let n := a.toNat * 16
    [symbol (n / 64), symbol (n % 64), '=', '=']
  | [a, b] =>
    let n := (a.toNat * 256 + b.toNat) * 4
    [symbol (n / 4096), symbol (n / 64 % 64), symbol (n % 64), '=']
  | a :: b :: c :: rest =>
    let n := (a.toNat * 256 + b.toNat) * 256 + c.toNat
    symbol (n / 262144) :: symbol (n / 4096 % 64) :: symbol (n / 64 % 64) :: symbol (n % 64) :: encode rest

/-- The bytes of the last group, which may be padded. -/
def decodeLast? (a b c d : Char) : Option (List UInt8) := do
  let i ← value? a
  let j ← value? b
  if c = '=' then
    if d = '=' ∧ j % 16 = 0 then pure [UInt8.ofNat (i * 4 + j / 16)] else none
  else
    let k ← value? c
    if d = '=' then
      if k % 4 = 0 then
        pure [UInt8.ofNat (i * 4 + j / 16), UInt8.ofNat (j % 16 * 16 + k / 4)]
      else none
    else
      let l ← value? d
      pure [UInt8.ofNat (i * 4 + j / 16), UInt8.ofNat (j % 16 * 16 + k / 4), UInt8.ofNat (k % 4 * 64 + l)]

/-- The bytes of a group that others follow, which holds no padding. -/
def decodeGroup? (a b c d : Char) : Option (List UInt8) := do
  let i ← value? a
  let j ← value? b
  let k ← value? c
  let l ← value? d
  pure [UInt8.ofNat (i * 4 + j / 16), UInt8.ofNat (j % 16 * 16 + k / 4), UInt8.ofNat (k % 4 * 64 + l)]

/-- The bytes that a text encodes. -/
def decode? : Text → Option (List UInt8)
  | [] => some []
  | [a, b, c, d] => decodeLast? a b c d
  | a :: b :: c :: d :: rest => do
    let bytes ← decodeGroup? a b c d
    let more ← decode? rest
    pure (bytes ++ more)
  | _ => none

end EndpointConsole.Base64
