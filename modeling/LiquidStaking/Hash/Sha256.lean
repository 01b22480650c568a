/-! # SHA-256

The SHA-256 digest of a byte string, as the standard defines it: pad the message with a
one bit, zeros and its bit length to whole 64-byte blocks, then fold the compression
function over the blocks from the standard's initial state. The digest is written in
uppercase hexadecimal where a denomination needs it.
-/
namespace LiquidStaking.Sha256

/-- The round constants. -/
def roundConstants : Array UInt32 := #[
  0x428a2f98, 0x71374491, 0xb5c0fbcf, 0xe9b5dba5, 0x3956c25b, 0x59f111f1, 0x923f82a4, 0xab1c5ed5,
  0xd807aa98, 0x12835b01, 0x243185be, 0x550c7dc3, 0x72be5d74, 0x80deb1fe, 0x9bdc06a7, 0xc19bf174,
  0xe49b69c1, 0xefbe4786, 0x0fc19dc6, 0x240ca1cc, 0x2de92c6f, 0x4a7484aa, 0x5cb0a9dc, 0x76f988da,
  0x983e5152, 0xa831c66d, 0xb00327c8, 0xbf597fc7, 0xc6e00bf3, 0xd5a79147, 0x06ca6351, 0x14292967,
  0x27b70a85, 0x2e1b2138, 0x4d2c6dfc, 0x53380d13, 0x650a7354, 0x766a0abb, 0x81c2c92e, 0x92722c85,
  0xa2bfe8a1, 0xa81a664b, 0xc24b8b70, 0xc76c51a3, 0xd192e819, 0xd6990624, 0xf40e3585, 0x106aa070,
  0x19a4c116, 0x1e376c08, 0x2748774c, 0x34b0bcb5, 0x391c0cb3, 0x4ed8aa4a, 0x5b9cca4f, 0x682e6ff3,
  0x748f82ee, 0x78a5636f, 0x84c87814, 0x8cc70208, 0x90befffa, 0xa4506ceb, 0xbef9a3f7, 0xc67178f2]

/-- The initial state. -/
def initialState : List UInt32 :=
  [0x6a09e667, 0xbb67ae85, 0x3c6ef372, 0xa54ff53a, 0x510e527f, 0x9b05688c, 0x1f83d9ab, 0x5be0cd19]

/-- Rotation right by `n` bits, `0 < n < 32`. -/
def rotr (x : UInt32) (n : UInt32) : UInt32 := (x >>> n) ||| (x <<< (32 - n))

/-- The eight big-endian bytes of a 64-bit length. -/
def lengthBytes (n : Nat) : List UInt8 :=
  (List.range 8).reverse.map fun i => (n / Nat.pow 2 (8 * i) % 256).toUInt8

/-- The message followed by a one bit, zeros and its bit length, a whole number of blocks. -/
def pad (msg : List UInt8) : List UInt8 :=
  msg ++ [0x80] ++ List.replicate ((119 - msg.length % 64) % 64) 0 ++ lengthBytes (8 * msg.length)

/-- The big-endian word of four bytes. -/
def word (b : List UInt8) : UInt32 :=
  b.foldl (fun acc x => (acc <<< 8) ||| x.toUInt32) 0

/-- The sixteen words of a block. -/
def blockWords (block : List UInt8) : List UInt32 :=
  (List.range 16).map fun i => word ((block.drop (4 * i)).take 4)

/-- The message schedule: the block's words extended to sixty-four. -/
def schedule (block : List UInt8) : Array UInt32 :=
  (List.range 48).foldl (fun (w : Array UInt32) i =>
    let w15 := w.getD (i + 1) 0
    let w2 := w.getD (i + 14) 0
    let s0 := rotr w15 7 ^^^ rotr w15 18 ^^^ (w15 >>> 3)
    let s1 := rotr w2 17 ^^^ rotr w2 19 ^^^ (w2 >>> 10)
    w.push (w.getD i 0 + s0 + w.getD (i + 9) 0 + s1)) (blockWords block).toArray

/-- The working variables `a` to `h`. -/
structure Working where
  a : UInt32
  b : UInt32
  c : UInt32
  d : UInt32
  e : UInt32
  f : UInt32
  g : UInt32
  h : UInt32

/-- One round of the compression function. -/
def round (v : Working) (k w : UInt32) : Working :=
  let s1 := rotr v.e 6 ^^^ rotr v.e 11 ^^^ rotr v.e 25
  let ch := (v.e &&& v.f) ^^^ (~~~v.e &&& v.g)
  let t1 := v.h + s1 + ch + k + w
  let s0 := rotr v.a 2 ^^^ rotr v.a 13 ^^^ rotr v.a 22
  let maj := (v.a &&& v.b) ^^^ (v.a &&& v.c) ^^^ (v.b &&& v.c)
  let t2 := s0 + maj
  ⟨t1 + t2, v.a, v.b, v.c, v.d + t1, v.e, v.f, v.g⟩

/-- The state after one block. -/
def compress (state : List UInt32) (block : List UInt8) : List UInt32 :=
  let w := schedule block
  let init : Working :=
    ⟨state.getD 0 0, state.getD 1 0, state.getD 2 0, state.getD 3 0,
     state.getD 4 0, state.getD 5 0, state.getD 6 0, state.getD 7 0⟩
  let v := (List.range 64).foldl (fun v i => round v (roundConstants.getD i 0) (w.getD i 0)) init
  List.zipWith (· + ·) state [v.a, v.b, v.c, v.d, v.e, v.f, v.g, v.h]

/-- The state after the blocks of a padded message, one block per unit of fuel. -/
def compressAll (state : List UInt32) : Nat → List UInt8 → List UInt32
  | 0, _ => state
  | fuel + 1, bytes =>
    if bytes.isEmpty then state else compressAll (compress state (bytes.take 64)) fuel (bytes.drop 64)

/-- The four big-endian bytes of a word. -/
def wordBytes (x : UInt32) : List UInt8 :=
  [(x >>> 24).toUInt8, (x >>> 16).toUInt8, (x >>> 8).toUInt8, x.toUInt8]

/-- The 32-byte digest of a message. -/
def digest (msg : List UInt8) : List UInt8 :=
  let padded := pad msg
  (compressAll initialState (padded.length / 64) padded).flatMap wordBytes

/-- An uppercase hexadecimal digit. -/
def hexDigit (n : Nat) : Char :=
  if n < 10 then Char.ofNat ('0'.toNat + n) else Char.ofNat ('A'.toNat + n - 10)

/-- Bytes in uppercase hexadecimal, two digits each. -/
def hexUpper (bytes : List UInt8) : String :=
  String.ofList (bytes.flatMap fun b => [hexDigit (b.toNat / 16), hexDigit (b.toNat % 16)])

end LiquidStaking.Sha256
