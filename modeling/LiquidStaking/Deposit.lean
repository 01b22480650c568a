import LiquidStaking.Cycle

/-! # Deposits

A deposit locks one coin of the deposit denomination, at least the minimum deposit, and
mints derivative at the rate read before the deposit joins the escrow: `⌊amount · c⌋`
where `c` is derivative per base, less the deposit fee, which is minted to the fee address.
The coin stays in escrow until the next cycle delegates it.
-/
namespace LiquidStaking.Deposit

open Tx

/-- The single coin attached to a message. -/
def oneCoin : List Coin → Except Error Coin
  | [] => .error .noFunds
  | [c] => .ok c
  | cs => .error (.multipleDenoms cs.length)

/-- Deposits the attached coin for derivative. -/
def liquidStake (env : Env) (sender : String) (funds : List Coin) : Tx Response := do
  let params ← operational
  let config ← Tx.config
  let deposit ← ofError (oneCoin funds)
  let expected := Denom.depositDenom config.ledger params
  if deposit.denom != expected then reject (.wrongDenom expected deposit.denom)
  if deposit.amount < params.minDeposit then
    reject (.belowMinimumDeposit deposit.amount params.minDeposit)
  let rate ← read (Valuation.currentRate · env.staking)
  let minted ← ofAbort (rate.mintAmount deposit.amount)
  if minted.isZero then reject (.amountTooSmall deposit.amount)
  let split ← ofAbort (splitFee minted params.fees.rates.deposit)
  Token.mintDerivative sender split.net
  Token.mintDerivative params.fees.address split.fee
  let pending ← add (← get).pendingDeposits deposit.amount
  modify fun s => { s with pendingDeposits := pending }
  pure (Response.empty.attr "action" "liquid_stake" |>.attr "delegator" sender
    |>.attr "amount" deposit.amount.toText |>.attr "minted" split.net.toText
    |>.attr "fee" split.fee.toText |>.attr "mint_denom" params.mintDenom)

end LiquidStaking.Deposit
