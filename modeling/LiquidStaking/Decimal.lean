import LiquidStaking.Amount

/-! # Decimals

A decimal is a fixed-point number with 18 fractional digits, stored as its count of
atomics (`10^-18` units), itself an amount; so the largest decimal is
`340282366920.938463463374607431768211455`.

Text is read without rounding: an integer part, then optionally a point and at most 18
fractional digits; each part is an unsigned numeral. Text is written canonically: the
integer part, then a point and the fractional digits without trailing zeros, and no point
at all when the value is integral.
-/
namespace LiquidStaking

/-- Atomics in one unit: `10^18`. -/
def Decimal.scale : Nat := 1000000000000000000

/-- A fixed-point number with 18 fractional digits. -/
structure Decimal where
  /-- The value in units of `10^-18`. -/
  atomics : Amount
deriving DecidableEq, Inhabited

namespace Decimal

/-- The number of fractional digits. -/
def places : Nat := 18

/-- Zero. -/
def zero : Decimal := ⟨Amount.zero⟩

/-- One. -/
def one : Decimal := ⟨⟨scale, by decide⟩⟩

/-- `n / 100`, for a percentage `n` of at most 100. -/
def percent (n : Nat) (h : n ≤ 100) : Decimal :=
  ⟨⟨n * 10000000000000000, by unfold Amount.bound; omega⟩⟩

instance : LE Decimal := ⟨fun a b => a.atomics.toNat ≤ b.atomics.toNat⟩
instance : LT Decimal := ⟨fun a b => a.atomics.toNat < b.atomics.toNat⟩
instance (a b : Decimal) : Decidable (a ≤ b) :=
  inferInstanceAs (Decidable (a.atomics.toNat ≤ b.atomics.toNat))
instance (a b : Decimal) : Decidable (a < b) :=
  inferInstanceAs (Decidable (a.atomics.toNat < b.atomics.toNat))

/-- Whether the decimal is zero. -/
def isZero (x : Decimal) : Bool := x.atomics.isZero

/-- The sum, when it stays representable. -/
def add? (a b : Decimal) : Option Decimal := (a.atomics.add? b.atomics).map mk

/-- `n / d` rounded down to 18 places, when representable. -/
def ofRatio? (n d : Amount) : Option Decimal :=
  (Amount.ofNat? (n.toNat * scale / d.toNat)).map mk

/-- Drops the zeros at the end of a digit string. -/
def trimTrailingZeros (cs : List Char) : List Char :=
  (cs.reverse.dropWhile (· == '0')).reverse

/-- The canonical text of a decimal. -/
def toText (x : Decimal) : String :=
  let whole := x.atomics.toNat / scale
  let frac := x.atomics.toNat % scale
  if frac = 0 then Numeral.write whole
  else Numeral.write whole ++ "." ++
    String.ofList (trimTrailingZeros (Numeral.writePadded places frac))

/-- The atomics of a fractional digit string: its numeral value scaled by the places it
leaves unwritten. More than 18 characters is refused. -/
def fractionAtomics? (cs : List Char) : Option Nat := do
  let v ← Numeral.read? cs
  let _ ← Amount.ofNat? v
  if cs.length ≤ places then some (v * Nat.pow 10 (places - cs.length)) else none

/-- Reads a decimal: an integer numeral, optionally followed by a point and a fractional
numeral of at most 18 characters. -/
def ofText? (s : String) : Option Decimal :=
  match s.toList.splitOn '.' with
  | [w] => do
      let whole ← Numeral.read? w >>= Amount.ofNat?
      (Amount.ofNat? (whole.toNat * scale)).map mk
  | [w, f] => do
      let whole ← Numeral.read? w >>= Amount.ofNat?
      let base ← Amount.ofNat? (whole.toNat * scale)
      let frac ← fractionAtomics? f
      (Amount.ofNat? (base.toNat + frac)).map mk
  | _ => none

end Decimal

/-- The atomics of one unit, as an amount. -/
def Amount.scale : Amount := ⟨Decimal.scale, by decide⟩

/-- `⌊a · r⌋`: zero when either factor is zero, otherwise the floored ratio
`a · atomics / 10^18`, when it is an amount. -/
def Amount.mulDecimal? (a : Amount) (r : Decimal) : Option Amount :=
  if a.isZero || r.isZero then some Amount.zero else a.mulDiv? r.atomics Amount.scale

end LiquidStaking
