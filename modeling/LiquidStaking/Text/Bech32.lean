/-! # Bech32

Decoding of bech32 and bech32m strings. A string splits at its last `1` into a
human-readable part and a data part. The human-readable part is 1 to 83 bytes in
`33..126` and of one case; every data character is one of the 32 of the charset, in either
case but one case throughout, agreeing with the human-readable part; at least six data
characters carry the checksum, which is either the bech32 or the bech32m constant.

The checks run in that order and the first failure is the answer. Within each part they
run left to right, so a bad character after a case clash reports the clash.
-/
namespace LiquidStaking.Bech32

/-- Why a string is not bech32. -/
inductive Error
  | missingSeparator
  | invalidLength
  | invalidChar (c : Char)
  | mixedCase
  | invalidChecksum
deriving DecidableEq, Inhabited

/-- The text of a decoding error. -/
def Error.message : Error → String
  | .missingSeparator => "missing human-readable separator, \"1\""
  | .invalidLength => "invalid length"
  | .invalidChar c => "invalid character (code=" ++ String.singleton c ++ ")"
  | .mixedCase => "mixed-case strings not allowed"
  | .invalidChecksum => "invalid checksum"

/-- The two checksum constants. -/
inductive Variant
  | bech32
  | bech32m
deriving DecidableEq, Inhabited

/-- The case seen so far. -/
inductive Case
  | none
  | lower
  | upper
deriving DecidableEq, Inhabited

/-- The 32 data characters, in value order. -/
def charset : List Char := "qpzry9x8gf2tvdw0s3jn54khce6mua7l".toList

/-- The value of a data character, in either case. -/
def valueOf? (c : Char) : Option Nat := charset.idxOf? c.toLower

/-- The case of the human-readable part, checking its bytes left to right. -/
def hrpCase (bytes : List UInt8) : Except Error Case :=
  if bytes.isEmpty || bytes.length > 83 then .error .invalidLength
  else go bytes false false
where
  go : List UInt8 → Bool → Bool → Except Error Case
    | [], lower, upper =>
      .ok (if upper then .upper else if lower then .lower else .none)
    | b :: rest, lower, upper =>
      if b < 33 || b > 126 then .error (.invalidChar (Char.ofNat b.toNat))
      else
        let lower := lower || (97 ≤ b && b ≤ 122)
        let upper := upper || (65 ≤ b && b ≤ 90)
        if lower && upper then .error .mixedCase else go rest lower upper

/-- The values of the data characters, checking them left to right against the case. -/
def dataValues : Case → List Char → Except Error (List Nat)
  | _, [] => .ok []
  | case, c :: rest =>
    if c.toNat ≥ 128 then .error (.invalidChar c)
    else
      let next : Except Error Case :=
        if 'a' ≤ c && c ≤ 'z' then
          if case == .upper then .error .mixedCase else .ok .lower
        else if 'A' ≤ c && c ≤ 'Z' then
          if case == .lower then .error .mixedCase else .ok .upper
        else .ok case
      match next with
      | .error e => .error e
      | .ok case' =>
        match valueOf? c with
        | none => .error (.invalidChar c)
        | some v => (dataValues case' rest).map (v :: ·)

/-- The generator of the checksum code. -/
def generator : List UInt32 := [0x3b6a57b2, 0x26508e6d, 0x1ea119fa, 0x3d4233dd, 0x2a1462b3]

/-- The checksum polynomial of a value sequence. -/
def polymod (values : List Nat) : UInt32 :=
  values.foldl (fun chk v =>
    let top := chk >>> 25
    let chk := ((chk &&& 0x1ffffff) <<< 5) ^^^ v.toUInt32
    (List.range 5).foldl (fun chk i =>
      if (top >>> i.toUInt32) &&& 1 == 1 then chk ^^^ generator.getD i 0 else chk) chk) 1

/-- The human-readable part spread over values: high bits, a zero, low bits. -/
def expandHrp (hrp : List UInt8) : List Nat :=
  hrp.map (fun b => b.toNat / 32) ++ [0] ++ hrp.map (fun b => b.toNat % 32)

/-- The variant whose constant the checksum matches. -/
def variantOf? (hrp : List UInt8) (data : List Nat) : Option Variant :=
  let c := polymod (expandHrp hrp ++ data)
  if c == 1 then some .bech32 else if c == 0x2bc830a3 then some .bech32m else none

/-- The lowercase form of an ASCII letter byte. -/
def lowerByte (b : UInt8) : UInt8 := if 65 ≤ b && b ≤ 90 then b + 32 else b

/-- A decoded string: the human-readable part in lowercase, the data values without the
checksum, and the checksum's variant. -/
structure Decoded where
  hrp : String
  data : List Nat
  variant : Variant

/-- Decodes a bech32 or bech32m string. -/
def decode (s : String) : Except Error Decoded := do
  let cs := s.toList
  let some sep := (List.range cs.length).reverse.find? (fun i => cs.getD i ' ' == '1')
    | .error .missingSeparator
  let hrpBytes := (String.ofList (cs.take sep)).toUTF8.toList
  let case ← hrpCase hrpBytes
  let hrp := if case == .upper then hrpBytes.map lowerByte else hrpBytes
  let values ← dataValues case (cs.drop (sep + 1))
  if values.length < 6 then .error .invalidLength
  let some variant := variantOf? hrp values | .error .invalidChecksum
  pure ⟨String.ofList (hrp.map fun b => Char.ofNat b.toNat), values.take (values.length - 6), variant⟩

end LiquidStaking.Bech32
