import LiquidStaking.Cycle
import LiquidStaking.Registration

/-! # Administration

What only the administrator may do: register the host chain (once; on the interchain
ledger this also opens both host accounts), restart the handshake of suspended host
accounts, switch the module on or off, and report a slash by overwriting a validator's
recorded delegation with what the ledger reports, so the exchange rate reflects it at once.
On the interchain ledger a report waits until the delegator has no outstanding
instruction, since compensating that instruction would reverse amounts recorded against
the old delegation.
-/
namespace LiquidStaking.Admin

open Tx

/-- Refuses anyone but the administrator. -/
def ensureAdmin (config : Config) (sender : String) : Tx Unit :=
  if sender == config.admin then pure () else reject .unauthorized

/-- The token named after the derivative's denomination. -/
def nameToken (mintDenom : String) : Tx Unit := do
  match (← get).token with
  | some t => modify fun s => { s with token := some { t with name := mintDenom, symbol := mintDenom } }
  | none => reject (.base (.notFound none))

/-- Registers the host chain, its fees and validator set. -/
def jumpStart (sender : String) (m : JumpStartMsg) : Tx Response := do
  let config ← Tx.config
  ensureAdmin config sender
  if let some existing := (← get).params then
    if !existing.hasMissingField then reject .alreadyRegistered
  let feeAddress ← validateAddress m.feeAddress
  let params : HostParams := ⟨m.chainId, m.connectionId, m.transferChannel, m.transferPort,
    m.baseDenom, m.mintDenom, m.minDeposit, ⟨m.rates, feeAddress⟩⟩
  ofError params.validate
  ofError (validateOwnerIds m.delegatorOwnerId m.rewardsOwnerId)
  ofError (validateAllowList m.allowList)
  modify fun s => { s with params := some params, allowList := some m.allowList, enabled := some true }
  nameToken params.mintDenom
  let r := Response.empty.attr "action" "jump_start" |>.attr "chain_id" params.chainId
    |>.attr "base_denom" params.baseDenom |>.attr "mint_denom" params.mintDenom
    |>.attr "validators" (Numeral.write m.allowList.length)
  match config.ledger with
  | .native => pure r
  | .interchain =>
    let (d, e1) ← ofError (Transport.startHandshake (HostAccount.new m.delegatorOwnerId)
      params.connectionId)
    let (w, e2) ← ofError (Transport.startHandshake (HostAccount.new m.rewardsOwnerId)
      params.connectionId)
    modify fun s => { s with accounts := some ⟨d, w⟩ }
    pure (r.event e1 |>.event e2)

/-- Restarts the handshake of every suspended host account, the delegator first. -/
def recreateIca (sender : String) : Tx Response := do
  let config ← Tx.config
  ensureAdmin config sender
  if config.ledger != .interchain then reject (.wrongLedger .interchain)
  let some params := (← get).params | reject .hostChainNotRegistered
  let accounts ← Tx.accounts
  let mut r := Response.empty.attr "action" "recreate_ica"
  let mut count := 0
  let mut result := accounts
  for role in [AccountRole.delegator, AccountRole.rewards] do
    let a := result.get role
    if a.status == .suspended then
      let (a', e) ← ofError (Transport.startHandshake a params.connectionId)
      result := result.set role a'
      r := r.event e
      count := count + 1
  if count == 0 then reject .noSuspendedAccounts
  modify fun s => { s with accounts := some result }
  pure (r.attr "recreated" (Numeral.write count))

/-- Switches the module on or off. -/
def changeModuleState (sender : String) (enabled : Bool) : Tx Response := do
  let config ← Tx.config
  ensureAdmin config sender
  modify fun s => { s with enabled := some enabled }
  pure (Response.empty.attr "action" "change_module_state"
    |>.attr "enabled" (if enabled then "true" else "false"))

/-- Overwrites a validator's recorded delegation with what the ledger reports. -/
def reportSlashing (env : Env) (sender validator : String) : Tx Response := do
  let config ← Tx.config
  ensureAdmin config sender
  let some recorded := (← get).delegations.get? validator
    | reject (.noRecordedDelegation validator)
  let observed ← match config.ledger with
    | .native =>
      pure (((env.staking.delegation? validator).map (·.amount.amount)).getD Amount.zero)
    | .interchain => do
      let accounts ← Tx.accounts
      if let some seq := accounts.delegator.pending then
        reject (.accountBusy accounts.delegator.ownerId seq)
      match (← get).observed.get? validator with
      | some a => pure a
      | none => reject (.noObservation validator)
  modify fun s => { s with
    delegations := if observed.isZero then s.delegations.erase validator
      else s.delegations.insert validator observed }
  pure (Response.empty.attr "action" "report_slashing" |>.attr "validator" validator
    |>.attr "recorded" recorded.toText |>.attr "observed" observed.toText)

end LiquidStaking.Admin
