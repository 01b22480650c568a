import LiquidStaking.Numeral

/-! # Amounts

An amount counts the smallest unit of a coin or of the derivative token. Amounts are
unsigned 128-bit quantities: every amount is below `Amount.bound = 2^128`, and the bound is
part of the type. Arithmetic that could leave the range returns `Option`: a caller decides
whether leaving it rejects the transaction or aborts it.

`mulDiv?` is the floored ratio `⌊a · n / d⌋` computed exactly, so an intermediate product
above the bound is fine as long as the result fits.
-/
namespace LiquidStaking

/-- Every amount is below this bound, `2^128`. -/
def Amount.bound : Nat := 340282366920938463463374607431768211456

/-- A quantity of a coin or of the derivative token, below `2^128`. -/
structure Amount where
  /-- The quantity as a natural number. -/
  toNat : Nat
  lt_bound : toNat < Amount.bound
deriving DecidableEq

namespace Amount

/-- The amount zero. -/
def zero : Amount := ⟨0, by decide⟩

instance : Inhabited Amount := ⟨zero⟩

/-- The largest amount, `2^128 - 1`. -/
def max : Amount := ⟨bound - 1, by decide⟩

/-- `n` as an amount, when it is below the bound. -/
def ofNat? (n : Nat) : Option Amount :=
  if h : n < bound then some ⟨n, h⟩ else none

/-- A natural number already known to be below the bound. -/
def ofNatLt (n : Nat) (h : n < bound) : Amount := ⟨n, h⟩

instance : LE Amount := ⟨fun a b => a.toNat ≤ b.toNat⟩
instance : LT Amount := ⟨fun a b => a.toNat < b.toNat⟩
instance (a b : Amount) : Decidable (a ≤ b) := inferInstanceAs (Decidable (a.toNat ≤ b.toNat))
instance (a b : Amount) : Decidable (a < b) := inferInstanceAs (Decidable (a.toNat < b.toNat))

/-- Whether the amount is zero. -/
def isZero (a : Amount) : Bool := a.toNat == 0

/-- The sum, when it stays below the bound. -/
def add? (a b : Amount) : Option Amount := ofNat? (a.toNat + b.toNat)

/-- The difference `a - b`, when `b ≤ a`. -/
def sub? (a b : Amount) : Option Amount :=
  if h : b.toNat ≤ a.toNat then some ⟨a.toNat - b.toNat, by have := a.lt_bound; omega⟩
  else none

/-- The difference `a - b`, or zero when `b` exceeds `a`. -/
def satSub (a b : Amount) : Amount := ⟨a.toNat - b.toNat, by have := a.lt_bound; omega⟩

/-- The smaller of two amounts. -/
def min (a b : Amount) : Amount := if a.toNat ≤ b.toNat then a else b

/-- The floored ratio `⌊a · n / d⌋`, when it is an amount. A zero `d` gives zero; callers
never divide by zero. -/
def mulDiv? (a n d : Amount) : Option Amount := ofNat? (a.toNat * n.toNat / d.toNat)

/-- The amount written in decimal. -/
def toText (a : Amount) : String := Numeral.write a.toNat

/-- Reads an amount from an unsigned numeral; `none` when the text is no numeral or its
value is not below the bound. -/
def ofText? (s : String) : Option Amount := Numeral.read? s.toList >>= ofNat?

/-- The sum of a list of amounts, when every partial sum stays below the bound. -/
def sum? (xs : List Amount) : Option Amount := xs.foldlM add? zero

@[simp] theorem toNat_zero : zero.toNat = 0 := rfl

theorem ext_toNat {a b : Amount} (h : a.toNat = b.toNat) : a = b := by
  cases a; cases b; cases h; rfl

theorem add?_eq_some_iff {a b c : Amount} : a.add? b = some c ↔ c.toNat = a.toNat + b.toNat := by
  unfold add? ofNat?
  constructor
  · intro h
    split at h
    · cases h; rfl
    · cases h
  · intro h
    have hc := c.lt_bound
    rw [dif_pos (by omega)]
    exact congrArg some (ext_toNat h.symm)

theorem sub?_eq_some_iff {a b c : Amount} :
    a.sub? b = some c ↔ b.toNat ≤ a.toNat ∧ c.toNat = a.toNat - b.toNat := by
  unfold sub?
  constructor
  · intro h
    split at h
    · cases h; exact ⟨by assumption, rfl⟩
    · cases h
  · rintro ⟨hle, hc⟩
    rw [dif_pos hle]
    exact congrArg some (ext_toNat hc.symm)

end Amount

/-- A coin: an amount of one denomination. -/
structure Coin where
  denom : String
  amount : Amount
deriving DecidableEq, Inhabited

end LiquidStaking
