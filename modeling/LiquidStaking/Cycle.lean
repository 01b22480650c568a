import LiquidStaking.Transport
import LiquidStaking.Rebalance
import LiquidStaking.Denom

/-! # The end-block cycle

Once per block the module restakes harvested rewards, delegates escrowed deposits toward
the target weights and redelegates toward them; right after the allow list changes it runs
the redelegation pass alone. A disabled or unregistered module skips the cycle.

On the native ledger every delegation-changing operation is a submessage whose reply
settles it: an accepted redelegation starts the destination's cooldown, a rejected
operation has its recorded effect reversed. Rewards are harvested into escrow first and
the restake fee is minted at the rate read before they joined it.

On the interchain ledger the rewards account sends harvested rewards to the delegator, and
the delegator's work for the block (matured unbondings travelling back, escrowed deposits
shipped to the host, delegations and redelegations) is folded into one instruction. A
source still receiving a redelegation is passed over with a `redelegation_skipped` event
and a diagnostic line.
-/
namespace LiquidStaking.Cycle

open Tx

/-- The registered parameters of an enabled module, if any. -/
def operationalParams (s : State) : Option HostParams :=
  if s.enabled.getD true then s.params.filter (!·.hasMissingField) else none

/-- The validators whose cooldown runs past a time. -/
def coolingDown (s : State) (now : Timestamp) : List String :=
  s.cooldowns.toList.filterMap fun (v, until_) => if now < until_ then some v else none

/-- The redelegation plan over the recorded delegations. -/
def plan (env : Env) (config : Config) (targets : List Target) : Tx Rebalance.Plan := do
  let s ← get
  let cooling := coolingDown s env.block.time
  ofAbort (Rebalance.planRedelegations s.delegations.toList targets (cooling.contains ·)
    config.maxRedelegations)

/-- The events and diagnostic lines for the sources a plan passed over. -/
def skipped (p : Rebalance.Plan) : List Event × List String :=
  (p.skipped.map fun v => Event.new "redelegation_skipped" |>.attr "validator" v,
   p.skipped.map fun v => "redelegation from " ++ v ++ " deferred: still receiving a redelegation")

/-- The allow-listed validators in the chain's validator set. -/
def nativeTargets (env : Env) : Tx (List Target) := do
  pure ((← Tx.allowList).filter fun t => env.staking.hasValidator t.validator)

/-- Withdraws unclaimed rewards into escrow and mints the restake fee at a rate; `only`
limits the harvest to some validators. Gives the withdrawals and the amount harvested. -/
def harvestNative (env : Env) (params : HostParams) (rate : ExchangeRate)
    (only : Option (List String)) : Tx (List ChainMsg × Amount) := do
  let rewards ← ofAbort (Valuation.nativeRewards (← get) env.staking params.baseDenom)
  let chosen := rewards.filter fun (v, _) => (only.map (·.contains v)).getD true
  let msgs := chosen.map fun (v, _) => ChainMsg.withdrawReward v
  let harvested ← ofAbort (Valuation.sum (chosen.map Prod.snd))
  if harvested.isZero then return (msgs, harvested)
  let pending ← add (← get).pendingDeposits harvested
  modify fun s => { s with pendingDeposits := pending }
  let fee := (← ofAbort (splitFee harvested params.fees.rates.restake)).fee
  Token.mintDerivative params.fees.address (← ofAbort (rate.mintAmount fee))
  pure (msgs, harvested)

/-- A ledger operation as a submessage that always replies, its context kept under a fresh
reply id. -/
def ledgerSubmsg (params : HostParams) (m : HostMsg) : Tx SubMsg := do
  let id ← freshReplyId
  let native ← ofBase (m.toNative params.baseDenom)
  modify fun s => { s with replies := s.replies.insert id m }
  pure ⟨id, native, .always⟩

/-- Records a plan's redelegations against escrow and emits them as submessages. -/
def nativeRedelegations (params : HostParams) (p : Rebalance.Plan) : Tx (List SubMsg) :=
  p.redelegations.mapM fun r => do
    let m := HostMsg.redelegate r.src r.dst r.amount
    Recording.record m .pending
    ledgerSubmsg params m

/-- Records delegations of escrowed deposits and emits them as submessages. -/
def nativeDelegations (params : HostParams) (parts : List (String × Amount)) : Tx (List SubMsg) :=
  parts.mapM fun (v, a) => do
    let m := HostMsg.delegate v a
    Recording.record m .pending
    ledgerSubmsg params m

/-- The native cycle: harvest, delegate escrow, redelegate. -/
def nativeCycle (env : Env) (config : Config) (params : HostParams) :
    Tx (Response × List String) := do
  let rate ← read (Valuation.currentRate · env.staking)
  let (withdrawals, harvested) ← harvestNative env params rate none
  let targets ← nativeTargets env
  let pending := (← get).pendingDeposits
  let parts ← if !pending.isZero && !targets.isEmpty then
      ofAbort (Rebalance.allocateDelegations pending (← get).delegations.toList targets)
    else pure []
  let delegations ← nativeDelegations params parts
  let delegated ← ofAbort (Valuation.sum (parts.map Prod.snd))
  let p ← plan env config targets
  let (events, debug) := skipped p
  let redelegations ← nativeRedelegations params p
  pure (Response.empty.attr "action" "end_block" |>.attr "restaked" harvested.toText
    |>.attr "delegated" delegated.toText
    |>.attr "redelegations" (Numeral.write redelegations.length)
    |>.messagesAdd withdrawals |>.submessages delegations |>.submessages redelegations
    |>.eventsAdd events, debug)

/-- Settles a native ledger operation from its reply: `error` is the rejection, if any. -/
def handleReply (env : Env) (id : Nat) (error : Option String) : Tx (Response × List String) := do
  let some m := (← get).replies.get? id | reject (.unknownReply id)
  modify fun s => { s with replies := s.replies.erase id }
  match error with
  | none =>
    match m with
    | .redelegate _ dst _ =>
      let config ← Tx.config
      let until_ ← ofAbort (env.block.time.plusSeconds config.unbondingPeriod)
      modify fun s => { s with cooldowns := s.cooldowns.insert dst until_ }
      pure (Response.empty, [])
    | _ => pure (Response.empty, [])
  | some e =>
    Recording.unrecord m .pending
    pure (Response.empty.event (Event.new "ledger_rejection" |>.attr "operation" m.action
      |>.attr "error" e),
      [m.action ++ " rejected by the staking module, deferred to the next cycle: " ++ e])

/-- Records a plan's redelegations against base idle on the host. -/
def interchainRedelegations (env : Env) (config : Config) (targets : List Target) :
    Tx (List HostMsg × List Event × List String) := do
  let p ← plan env config targets
  let (events, debug) := skipped p
  let msgs ← p.redelegations.mapM fun r => do
    let m := HostMsg.redelegate r.src r.dst r.amount
    Recording.record m .hostIdle
    pure m
  pure (msgs, events, debug)

/-- Stores the host accounts. -/
def saveAccounts (accounts : HostAccounts) : Tx Unit :=
  modify fun s => { s with accounts := some accounts }

/-- The batches matured by a time that are still unbonding, by maturity. -/
def maturedBatches (s : State) (now : Timestamp) : List (Nat × Amount) :=
  s.batches.toList.filterMap fun (m, b) =>
    if m ≤ now.seconds && b.status == .unbonding then some (m, b.amount) else none

/-- Sends the harvested host rewards to the delegator when the rewards account is free: the
accounts with the restake outstanding, and the event describing it. -/
def restakeRewards (env : Env) (config : Config) (params : HostParams) (accounts : HostAccounts) :
    Tx (HostAccounts × List Event) := do
  let rewards := (← get).hostRewards
  if accounts.rewards.isReady && !rewards.isZero then
    let (a, e) ← Transport.queue env config params accounts.rewards [.sendToDelegator rewards]
      (.restake rewards)
    pure ({ accounts with rewards := a }, [e])
  else pure (accounts, [])

/-- Marks the unbonding batches matured by a time as travelling back: their maturities and
their total. -/
def returnMatured (now : Timestamp) : Tx (List Nat × Amount) := do
  let matured := maturedBatches (← get) now
  let mut returned := Amount.zero
  for (m, amount) in matured do
    modify fun s => { s with batches := s.batches.insert m ⟨amount, .returning⟩ }
    returned ← add returned amount
  pure (matured.map Prod.fst, returned)

/-- Moves the escrowed deposits to base idle on the host: the amount shipped. -/
def shipDeposits : Tx Amount := do
  let shipped := (← get).pendingDeposits
  if !shipped.isZero then
    let idle ← add (← get).hostIdle shipped
    modify fun s => { s with pendingDeposits := Amount.zero, hostIdle := idle }
  pure shipped

/-- Records delegations of base idle on the host. -/
def recordDelegations (parts : List (String × Amount)) : Tx (List HostMsg) :=
  parts.mapM fun (v, a) => do
    let m := HostMsg.delegate v a
    Recording.record m .hostIdle
    pure m

/-- Delegates base idle on the host toward the targets, given the recorded delegations. -/
def interchainDelegations (current : List (String × Amount)) (targets : List Target) :
    Tx (List HostMsg) := do
  let idle := (← get).hostIdle
  if idle.isZero then pure [] else
    recordDelegations (← ofAbort (Rebalance.allocateDelegations idle current targets))

/-- The interchain cycle. -/
def interchainCycle (env : Env) (config : Config) (params : HostParams) :
    Tx (Response × List String) := do
  let (accounts, restaked) ← restakeRewards env config params (← Tx.accounts)
  let r := (Response.empty.attr "action" "end_block").eventsAdd restaked
  match ← Transport.queueSetupIfReady env config params accounts with
  | some (accounts', e) =>
    saveAccounts accounts'
    return (r.event e, [])
  | none => pure ()
  if !accounts.delegator.isReady then
    saveAccounts accounts
    return (r, [])
  let (returning, returned) ← returnMatured env.block.time
  let shipped ← shipDeposits
  let current := (← get).delegations.toList
  let targets ← Tx.allowList
  let delegations ← interchainDelegations current targets
  let (redelegations, events, debug) ← interchainRedelegations env config targets
  let r := r.eventsAdd events
  if returned.isZero && delegations.isEmpty && redelegations.isEmpty then
    saveAccounts accounts
    return (r, debug)
  let msgs := (if returned.isZero then [] else [HostMsg.transferToController returned]) ++
    current.map (fun (v, _) => HostMsg.withdrawRewards v) ++ delegations ++ redelegations
  let (d, e) ← Transport.queue env config params accounts.delegator msgs (.cycle shipped returning)
  let r := r.event e
  let r ← if shipped.isZero then pure r else do
    let some transport := config.transport | reject .missingTransport
    pure (r.message (.bankSend transport [⟨Denom.depositDenom config.ledger params, shipped⟩]))
  saveAccounts { accounts with delegator := d }
  return (r.attr "shipped" shipped.toText, debug)

/-- The per-block cycle. -/
def endBlock (env : Env) : Tx (Response × List String) := do
  match operationalParams (← get) with
  | none => pure (Response.empty.attr "action" "end_block" |>.attr "skipped" "inactive", [])
  | some params =>
    let config ← Tx.config
    match config.ledger with
    | .native => nativeCycle env config params
    | .interchain => interchainCycle env config params

/-- The redelegation pass alone, run right after the allow list changes. -/
def rebalanceNow (env : Env) : Tx (Response × List String) := do
  match operationalParams (← get) with
  | none => pure (Response.empty, [])
  | some params =>
    let config ← Tx.config
    match config.ledger with
    | .native =>
      let targets ← nativeTargets env
      let p ← plan env config targets
      let (events, debug) := skipped p
      let touched := p.redelegations.flatMap fun r => [r.src, r.dst]
      let (withdrawals, harvested) ← if touched.isEmpty then pure ([], Amount.zero) else do
        let rate ← read (Valuation.currentRate · env.staking)
        harvestNative env params rate (some touched)
      let submsgs ← nativeRedelegations params p
      pure (Response.empty.attr "restaked" harvested.toText
        |>.attr "redelegations" (Numeral.write submsgs.length)
        |>.messagesAdd withdrawals |>.submessages submsgs |>.eventsAdd events, debug)
    | .interchain =>
      let accounts ← Tx.accounts
      if !accounts.delegator.isReady then
        return (Response.empty.attr "deferred" "delegator_busy", [])
      let targets ← Tx.allowList
      let (msgs, events, debug) ← interchainRedelegations env config targets
      let r := Response.empty.eventsAdd events
      if msgs.isEmpty then return (r, debug)
      let (d, e) ← Transport.queue env config params accounts.delegator msgs
        (.cycle Amount.zero [])
      saveAccounts { accounts with delegator := d }
      return (r.event e, debug)

end LiquidStaking.Cycle
