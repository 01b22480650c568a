import LiquidStaking.Error

/-! # Exchange rate

The rate between the base asset and the derivative at one instant is the pair of the net
value and the derivative supply. While either is zero the module is bootstrapping: the rate
is one both ways and amounts convert unchanged. Otherwise the derivative for a base amount
is `⌊base · supply / value⌋` and the base for a derivative amount is
`⌊derivative · value / supply⌋`; both abort when the result leaves the amount range. The
derivative per base (`supply / value`) and the base per derivative (`value / supply`) are
decimals, an error when they are past the decimal range.
-/
namespace LiquidStaking

/-- Net value and derivative supply at one instant. -/
structure ExchangeRate where
  value : Amount
  supply : Amount
deriving DecidableEq, Inhabited

namespace ExchangeRate

/-- Whether either side is zero. -/
def bootstrapping (r : ExchangeRate) : Bool := r.value.isZero || r.supply.isZero

/-- The derivative minted for a base amount. -/
def mintAmount (r : ExchangeRate) (base : Amount) : Except Abort Amount :=
  if r.bootstrapping then .ok base
  else match base.mulDiv? r.supply r.value with
    | some a => .ok a
    | none => .error .ratioOverflow

/-- The base paid for a derivative amount. -/
def baseAmount (r : ExchangeRate) (derivative : Amount) : Except Abort Amount :=
  if r.bootstrapping then .ok derivative
  else match derivative.mulDiv? r.value r.supply with
    | some a => .ok a
    | none => .error .ratioOverflow

/-- A ratio as a decimal, or the overflow error. -/
def ratio (n d : Amount) : Except BaseError Decimal :=
  match Decimal.ofRatio? n d with
  | some x => .ok x
  | none => .error (.generic "Overflow")

/-- Derivative per unit of base. -/
def cValue (r : ExchangeRate) : Except BaseError Decimal :=
  if r.bootstrapping then .ok Decimal.one else ratio r.supply r.value

/-- Base per unit of derivative. -/
def exchangeRate (r : ExchangeRate) : Except BaseError Decimal :=
  if r.bootstrapping then .ok Decimal.one else ratio r.value r.supply

end ExchangeRate

end LiquidStaking
