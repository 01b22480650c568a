import LiquidStaking.Cycle

/-! # Exits

Three ways out of the derivative. An instant redemption burns derivative and pays base out
of the escrowed deposits at the current rate, less the redemption fee. An unstake burns
derivative, undelegates the equivalent base across validators in proportion to their
delegations and records a claim that matures after the unbonding period, less the unstake
fee; on the interchain ledger the undelegation is an instruction to the delegator and the
claim joins the batch of its maturity. A claim pays every matured record of the caller (on
the interchain ledger only those whose batch has returned) and is a no-op when none has.
-/
namespace LiquidStaking.Exit

open Tx

/-- Burns derivative and pays base out of escrow. -/
def redeem (env : Env) (sender : String) (amount : Amount) : Tx Response := do
  let params ← operational
  let config ← Tx.config
  if amount.isZero then reject .zeroAmount
  let rate ← read (Valuation.currentRate · env.staking)
  let split ← ofAbort (splitFee amount params.fees.rates.redemption)
  let payout ← ofAbort (rate.baseAmount split.net)
  if payout.isZero then reject (.amountTooSmall amount)
  let reserve := (← get).pendingDeposits
  if reserve < payout then reject (.insufficientLiquidReserve payout reserve)
  Token.transferDerivative sender params.fees.address split.fee
  Token.burnDerivative sender split.net
  modify fun s => { s with pendingDeposits := reserve.satSub payout }
  pure (Response.empty.message (.bankSend sender [⟨Denom.depositDenom config.ledger params, payout⟩])
    |>.attr "action" "redeem" |>.attr "redeemer" sender |>.attr "burned" split.net.toText
    |>.attr "fee" split.fee.toText |>.attr "payout" payout.toText)

/-- Adds an unbonding amount to the batch of its maturity. -/
def joinBatch (maturity : Nat) (amount : Amount) : Tx Unit := do
  let b := (← get).batches.getD maturity ⟨Amount.zero, .unbonding⟩
  let total ← add b.amount amount
  modify fun s => { s with batches := s.batches.insert maturity { b with amount := total } }

/-- Burns derivative, undelegates its base and records the claim. -/
def liquidUnstake (env : Env) (sender : String) (amount : Amount) : Tx Response := do
  let params ← operational
  let config ← Tx.config
  if amount.isZero then reject .zeroAmount
  let rate ← read (Valuation.currentRate · env.staking)
  let split ← ofAbort (splitFee amount params.fees.rates.unstake)
  let unbond ← ofAbort (rate.baseAmount split.net)
  if unbond.isZero then reject (.amountTooSmall amount)
  let current := (← get).delegations.toList
  let delegated ← ofAbort (Valuation.sum (current.map Prod.snd))
  if delegated < unbond then reject (.insufficientDelegations unbond delegated)
  let undelegations := (Rebalance.splitUndelegation unbond current).map
    fun (v, a) => HostMsg.undelegate v a
  let withdrawals ← match config.ledger with
    | .native => do
      let validators := (Rebalance.splitUndelegation unbond current).map Prod.fst
      pure (← Cycle.harvestNative env params rate (some validators)).1
    | .interchain => pure []
  Token.transferDerivative sender params.fees.address split.fee
  Token.burnDerivative sender split.net
  Recording.recordAll undelegations .pending
  let recordId ← freshRecordId
  let maturity ← ofAbort (env.block.time.plusSeconds config.unbondingPeriod)
  modify fun s => { s with records := s.records.insert (sender, recordId) ⟨sender, unbond, maturity⟩ }
  let r := Response.empty.attr "action" "liquid_unstake" |>.attr "delegator" sender
    |>.attr "burned" split.net.toText |>.attr "fee" split.fee.toText
    |>.attr "unbonding" unbond.toText |>.attr "record_id" (Numeral.write recordId)
    |>.attr "maturity" (Numeral.write maturity.seconds)
  match config.ledger with
  | .native =>
    let natives ← ofBase (undelegations.mapM (·.toNative params.baseDenom))
    pure (r.messagesAdd withdrawals |>.messagesAdd natives)
  | .interchain =>
    joinBatch maturity.seconds unbond
    let accounts ← Tx.accounts
    let (d, e) ← Transport.queue env config params accounts.delegator undelegations
      (.unstake sender recordId split.net)
    modify fun s => { s with accounts := some { accounts with delegator := d } }
    pure (r.event e)

/-- Whether a record can be paid now. -/
def claimableNow (s : State) (config : Config) (now : Timestamp) (r : UnbondingRecord) : Bool :=
  r.maturity ≤ now &&
    (config.ledger == .native ||
      (s.batches.get? r.maturity.seconds).any (·.status == .returned))

/-- Pays and removes every claimable record of the caller. -/
def claim (env : Env) (sender : String) : Tx Response := do
  ensureEnabled
  let params ← registeredParams
  let config ← Tx.config
  let mine := (← get).records.toList.filter (·.1.1 == sender)
  let mut claimed := Amount.zero
  let mut count := 0
  for ((owner, id), r) in mine do
    if claimableNow (← get) config env.block.time r then
      modify fun s => { s with records := s.records.erase (owner, id) }
      claimed ← add claimed r.amount
      count := count + 1
  let resp := Response.empty.attr "action" "claim" |>.attr "claimer" sender
    |>.attr "claimed" claimed.toText |>.attr "records" (Numeral.write count)
  if claimed.isZero then return resp
  if config.ledger == .interchain then
    let reserve ← checkedSub (← get).claimReserve claimed
    modify fun s => { s with claimReserve := reserve }
  pure (resp.message (.bankSend sender [⟨Denom.depositDenom config.ledger params, claimed⟩]))

end LiquidStaking.Exit
