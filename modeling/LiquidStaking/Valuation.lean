import LiquidStaking.Tx
import LiquidStaking.Fees
import LiquidStaking.ExchangeRate
import LiquidStaking.Chain

/-! # Valuation

The module's net value is its recorded delegations, plus its unclaimed rewards less the
restake fee on them, plus escrowed deposits, plus base idle on the host. Base owed to
unbonding records is not counted: its derivative was burned when the record was made.
Rewards are read from the staking module on the native ledger, counting only coins of the
base denomination on recorded validators, and from the last host observation on the
interchain ledger. Nothing is cached: every reading starts from the state and the chain.
Sums abort on overflow.
-/
namespace LiquidStaking.Valuation

/-- The sum of a list of amounts, aborting on overflow. -/
def sum (xs : List Amount) : Except Abort Amount :=
  match Amount.sum? xs with
  | some t => .ok t
  | none => .error .addOverflow

/-- The sum of the recorded delegations. -/
def totalDelegated (s : State) : Except Abort Amount := sum (s.delegations.toList.map Prod.snd)

/-- Unclaimed rewards in a denomination per recorded validator, zero ones left out. -/
def nativeRewards (s : State) (view : StakingView) (denom : String) :
    Except Abort (List (String × Amount)) :=
  s.delegations.toList.foldlM (fun acc (v, _) =>
    match view.delegation? v with
    | none => .ok acc
    | some d => do
      let amount ← sum ((d.rewards.filter (·.denom == denom)).map Coin.amount)
      pure (if amount.isZero then acc else acc ++ [(v, amount)])) []

/-- Lifts an abort to a failure. -/
def aborting {α : Type} : Except Abort α → Except Failure α
  | .ok a => .ok a
  | .error a => .error (.abort a)

/-- Gross unclaimed rewards on the configured ledger. -/
def totalRewards (s : State) (view : StakingView) : Except Failure Amount := do
  let some config := s.config | .error (.reject (.base (.notFound none)))
  match config.ledger with
  | .native =>
    match s.params with
    | none => pure Amount.zero
    | some p => aborting (nativeRewards s view p.baseDenom >>= fun rs => sum (rs.map Prod.snd))
  | .interchain => pure s.hostRewards

/-- The derivative supply; zero before the module is created. -/
def supply (s : State) : Amount := (s.token.map TokenInfo.totalSupply).getD Amount.zero

/-- The exchange rate given gross rewards. -/
def rateWithRewards (s : State) (rewards : Amount) : Except Failure ExchangeRate :=
  aborting do
    let restakeFee := (s.params.map (·.fees.rates.restake)).getD Decimal.zero
    let delegated ← totalDelegated s
    let net := (← splitFee rewards restakeFee).net
    let v ← match delegated.add? net >>= (·.add? s.pendingDeposits) >>= (·.add? s.hostIdle) with
      | some v => pure v
      | none => throw .addOverflow
    pure ⟨v, supply s⟩

/-- The current exchange rate. -/
def currentRate (s : State) (view : StakingView) : Except Failure ExchangeRate := do
  rateWithRewards s (← totalRewards s view)

end LiquidStaking.Valuation
