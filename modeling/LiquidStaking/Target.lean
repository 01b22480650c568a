import LiquidStaking.Decimal

/-! # Targets

An allow-listed validator and its target weight, the share of the delegated total it should
hold. The weights of a valid allow list sum to exactly one.
-/
namespace LiquidStaking

/-- An allow-listed validator with its target weight. -/
structure Target where
  validator : String
  weight : Decimal
deriving DecidableEq, Inhabited

/-- The validators and weights of targets as integer shares: weight atomics. -/
def Target.shares (targets : List Target) : List (String × Amount) :=
  targets.map fun t => (t.validator, t.weight.atomics)

end LiquidStaking
