import LiquidStaking.Error

/-! # Fees

Every fee is a fraction of the derivative involved in an operation, paid to the fee address
in the derivative token. Each rate must stay strictly below its ceiling: deposit and unstake
fees below one half, restake and redemption fees below one fifth. A fee is the floor of the
amount times the rate, and the remainder is what the operation keeps.
-/
namespace LiquidStaking

/-- The four fee rates. -/
structure FeeRates where
  deposit : Decimal
  restake : Decimal
  unstake : Decimal
  redemption : Decimal
deriving DecidableEq, Inhabited

/-- The fee rates and the address that collects every fee. -/
structure FeeSchedule where
  rates : FeeRates
  address : String
deriving DecidableEq, Inhabited

namespace FeeKind

/-- The ceiling a rate must stay below. -/
def ceiling : FeeKind → Decimal
  | .deposit => Decimal.percent 50 (by decide)
  | .restake => Decimal.percent 20 (by decide)
  | .unstake => Decimal.percent 50 (by decide)
  | .redemption => Decimal.percent 20 (by decide)

/-- Accepts a rate strictly below the fee's ceiling. -/
def check (k : FeeKind) (rate : Decimal) : Except Error Unit :=
  if k.ceiling ≤ rate then .error (.invalidFee k rate k.ceiling) else .ok ()

end FeeKind

/-- Accepts rates each below its ceiling, checking deposit, restake, unstake and redemption
in that order. -/
def FeeRates.validate (r : FeeRates) : Except Error Unit := do
  FeeKind.deposit.check r.deposit
  FeeKind.restake.check r.restake
  FeeKind.unstake.check r.unstake
  FeeKind.redemption.check r.redemption

/-- An amount split into its fee and the rest. -/
structure FeeSplit where
  fee : Amount
  net : Amount
deriving DecidableEq, Inhabited

/-- Splits an amount into `⌊amount · rate⌋` and the remainder. The product aborts when it
leaves the amount range and the remainder when the rate exceeds one. -/
def splitFee (amount : Amount) (rate : Decimal) : Except Abort FeeSplit :=
  match amount.mulDecimal? rate with
  | none => .error .ratioOverflow
  | some fee =>
    match amount.sub? fee with
    | none => .error .subOverflow
    | some net => .ok ⟨fee, net⟩

end LiquidStaking
