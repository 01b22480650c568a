/-! # Base64

The standard base64 alphabet with padding. Encoding writes every three bytes as four
characters and pads the last group with `=`. Decoding does not insist on the padding: the
last group may have two, three or four characters and at most the padding it lacks, and
the bits that a short group leaves unused must be zero.
-/
namespace LiquidStaking.Base64

/-- The sixty-four characters, in value order. -/
def alphabet : List Char :=
  "ABCDEFGHIJKLMNOPQRSTUVWXYZabcdefghijklmnopqrstuvwxyz0123456789+/".toList

/-- The character of a six-bit value. -/
def charOf (v : Nat) : Char := alphabet.getD v 'A'

/-- The six-bit value of a character of the alphabet. -/
def valueOf? (c : Char) : Option Nat := alphabet.idxOf? c

/-- The four characters of up to three bytes, padded with `=`. -/
def encodeGroup : List UInt8 → List Char
  | [a, b, c] =>
    let n := a.toNat * 65536 + b.toNat * 256 + c.toNat
    [charOf (n / 262144), charOf (n / 4096 % 64), charOf (n / 64 % 64), charOf (n % 64)]
  | [a, b] =>
    let n := a.toNat * 65536 + b.toNat * 256
    [charOf (n / 262144), charOf (n / 4096 % 64), charOf (n / 64 % 64), '=']
  | [a] =>
    let n := a.toNat * 65536
    [charOf (n / 262144), charOf (n / 4096 % 64), '=', '=']
  | _ => []

/-- The text of a byte string. -/
def encodeList : List UInt8 → List Char
  | a :: b :: c :: rest => encodeGroup [a, b, c] ++ encodeList rest
  | rest => encodeGroup rest

/-- The text of a byte string. -/
def encode (bytes : List UInt8) : String := String.ofList (encodeList bytes)

/-- The bytes of a full group of four characters. -/
def decodeQuad (a b c d : Char) : Option (List UInt8) := do
  let n := (← valueOf? a) * 262144 + (← valueOf? b) * 4096 + (← valueOf? c) * 64 + (← valueOf? d)
  pure [(n / 65536).toUInt8, (n / 256 % 256).toUInt8, (n % 256).toUInt8]

/-- The bytes of the last, partial group of two or three characters; the bits that the
group leaves unused must be zero. -/
def decodeTail : List Char → Option (List UInt8)
  | [] => some []
  | [a, b] => do
    let va ← valueOf? a
    let vb ← valueOf? b
    guard (vb % 16 == 0)
    pure [(va * 4 + vb / 16).toUInt8]
  | [a, b, c] => do
    let va ← valueOf? a
    let vb ← valueOf? b
    let vc ← valueOf? c
    guard (vc % 4 == 0)
    let n := va * 4096 + vb * 64 + vc
    pure [(n / 1024).toUInt8, (n / 4 % 256).toUInt8]
  | _ => none

/-- The bytes of the characters before the padding. -/
def decodeData : List Char → Option (List UInt8)
  | a :: b :: c :: d :: rest => do
    let group ← decodeQuad a b c d
    let tail ← decodeData rest
    pure (group ++ tail)
  | rest => decodeTail rest

/-- Whether `pad` padding characters may follow `data` data characters: none after full
groups, at most two after a group of two and at most one after a group of three. -/
def padAllowed (data pad : Nat) : Bool :=
  match data % 4 with
  | 0 => pad == 0
  | 2 => pad ≤ 2
  | 3 => pad ≤ 1
  | _ => false

/-- The bytes of a base64 text, or `none`. Padding is optional: the last group may carry
any amount of it up to what it lacks, and nothing but padding may follow the first `=`. -/
def decode? (s : String) : Option (List UInt8) :=
  let cs := s.toList
  let data := cs.takeWhile (· != '=')
  let pad := cs.dropWhile (· != '=')
  if pad.all (· == '=') && padAllowed data.length pad.length then decodeData data else none

end LiquidStaking.Base64
