import LiquidStaking.Recording
import LiquidStaking.Valuation
import LiquidStaking.Token
import LiquidStaking.Messages

/-! # Host account transport

On the interchain ledger every operation on a host account is an outbound instruction. An
account carries at most one outstanding instruction; queuing one takes the account's next
sequence number, stores the instruction and describes it in an `outbound_instruction`
event for the transport. A setup instruction needs a registered or active account, every
other kind an active one.

The transport calls back: a channel opening acknowledges the account's address, a closing
suspends the account and treats its outstanding instruction as timed out, and a packet
result answers the outstanding instruction. A success confirms the instruction's effect; a
failure or timeout compensates what was recorded when it was sent.
-/
namespace LiquidStaking.Transport

open Tx

/-- Refuses every ledger but the interchain one. -/
def ensureInterchain (c : Config) : Tx Unit :=
  if c.ledger == .interchain then pure () else reject (.wrongLedger .interchain)

/-- Opens, or reopens, the channel of an uninitialized or suspended account. -/
def startHandshake (a : HostAccount) (connectionId : String) : Except Error (HostAccount × Event) :=
  match a.status with
  | .uninitialized | .suspended =>
    .ok ({ a with status := .handshakeStarted },
      Event.new "register_interchain_account" |>.attr "owner_id" a.ownerId
        |>.attr "connection_id" connectionId)
  | s => .error (.invalidAccountTransition a.ownerId .startHandshake s)

/-- Whether an account may take an instruction of a kind. -/
def ensureCanSend (a : HostAccount) (kind : InstructionKind) : Except Error Unit :=
  match a.pending with
  | some seq => .error (.accountBusy a.ownerId seq)
  | none =>
    let allowed : Bool := match kind with
      | .setup => a.status == .registered || a.status == .active
      | _ => a.status == .active
    if allowed then .ok () else .error (.accountNotActive a.ownerId)

/-- Queues an instruction on an account: the account with the instruction outstanding, and
the event describing it. -/
def queue (env : Env) (config : Config) (params : HostParams) (a : HostAccount)
    (msgs : List HostMsg) (kind : InstructionKind) : Tx (HostAccount × Event) := do
  ofError (ensureCanSend a kind)
  let seq := a.nextSequence
  modify fun s => { s with
    outbound := s.outbound.insert (a.ownerId, seq) ⟨a.ownerId, seq, msgs, kind, env.block.time⟩ }
  let timeout ← ofAbort (env.block.time.plusSeconds config.packetTimeout)
  pure ({ a with nextSequence := seq + 1, pending := some seq },
    Event.new "outbound_instruction" |>.attr "owner_id" a.ownerId
      |>.attr "sequence" (Numeral.write seq) |>.attr "connection_id" params.connectionId
      |>.attr "host_address" (a.address.getD "")
      |>.attr "timeout" (Numeral.write timeout.seconds)
      |>.attr "msgs" (Json.render (.arr (msgs.map HostMsg.toJson))))

/-- Once the rewards address is known and the delegator is registered with nothing
outstanding, points the delegator's rewards at the rewards account. -/
def queueSetupIfReady (env : Env) (config : Config) (params : HostParams)
    (accounts : HostAccounts) : Tx (Option (HostAccounts × Event)) := do
  let some address := accounts.rewards.address | pure none
  if accounts.delegator.status != .registered || accounts.delegator.pending.isSome then
    pure none
  else
    let (d, e) ← queue env config params accounts.delegator [.setWithdrawAddress address] .setup
    pure (some ({ accounts with delegator := d }, e))

/-- The event reporting an instruction's result. -/
def resultEvent (i : Instruction) (outcome : String) : Event :=
  Event.new "instruction_result" |>.attr "owner_id" i.ownerId
    |>.attr "sequence" (Numeral.write i.sequence) |>.attr "outcome" outcome

/-- The outstanding instruction of an account, taken out of the store. -/
def takeInstruction (ownerId : String) (seq : Nat) : Tx Instruction := do
  let some i := (← get).outbound.get? (ownerId, seq) | reject (.base (.notFound none))
  modify fun s => { s with outbound := s.outbound.erase (ownerId, seq) }
  pure i

/-- A batch by its maturity; missing is an error. -/
def batch (maturity : Nat) : Tx Batch := do
  let some b := (← get).batches.get? maturity | reject (.base (.notFound none))
  pure b

/-- The cooldowns once every redelegation among the operations has started one at its
destination, running until a time. -/
def startCooldowns (msgs : List HostMsg) (until_ : Timestamp) (cooldowns : Table String Timestamp) :
    Table String Timestamp :=
  msgs.foldl (fun c m => match m with
    | .redelegate _ dst _ => c.insert dst until_
    | _ => c) cooldowns

/-- Settles the effect of a successful instruction. -/
def confirm (env : Env) (i : Instruction) : Tx Unit :=
  match i.kind with
  | .setup | .unstake .. => pure ()
  | .restake amount => do
    let params ← registeredParams
    let rate ← read (Valuation.currentRate · env.staking)
    let fee := (← ofAbort (splitFee amount params.fees.rates.restake)).fee
    Token.mintDerivative params.fees.address (← ofAbort (rate.mintAmount fee))
    let idle ← add (← get).hostIdle amount
    modify fun s => { s with hostRewards := s.hostRewards.satSub amount, hostIdle := idle }
  | .cycle _ returning => do
    let mut returned := Amount.zero
    for m in returning do
      let b ← batch m
      returned ← add returned b.amount
      modify fun s => { s with batches := s.batches.insert m { b with status := .returned } }
    let reserve ← add (← get).claimReserve returned
    modify fun s => { s with claimReserve := reserve }
    let config ← Tx.config
    let until_ ← ofAbort (i.sentAt.plusSeconds config.unbondingPeriod)
    modify fun s => { s with cooldowns := startCooldowns i.msgs until_ s.cooldowns }

/-- Reverses the effect recorded for an instruction that failed or timed out. -/
def compensate (i : Instruction) : Tx Unit :=
  match i.kind with
  | .setup | .restake _ => pure ()
  | .cycle shipped returning => do
    Recording.unrecordAll i.msgs .hostIdle
    let idle ← checkedSub (← get).hostIdle shipped
    modify fun s => { s with hostIdle := idle }
    let pending ← add (← get).pendingDeposits shipped
    modify fun s => { s with pendingDeposits := pending }
    for m in returning do
      let b ← batch m
      modify fun s => { s with batches := s.batches.insert m { b with status := .unbonding } }
  | .unstake owner recordId burned => do
    Recording.unrecordAll i.msgs .hostIdle
    match (← get).records.get? (owner, recordId) with
    | none => pure ()
    | some r =>
      modify fun s => { s with records := s.records.erase (owner, recordId) }
      let maturity := r.maturity.seconds
      match (← get).batches.get? maturity with
      | none => pure ()
      | some b =>
        let left := b.amount.satSub r.amount
        modify fun s => { s with
          batches := if left.isZero then s.batches.erase maturity
            else s.batches.insert maturity { b with amount := left } }
    Token.mintDerivative owner burned

/-- The role of the account with an owner id. -/
def roleOf (accounts : HostAccounts) (ownerId : String) : Tx AccountRole :=
  match accounts.roleOf? ownerId with
  | some r => pure r
  | none => reject (.unknownHostAccount ownerId)

/-- The channel of an account opened: its address is known, the rewards account becomes
active and the delegator registered. -/
def openAck (env : Env) (ownerId address : String) : Tx Response := do
  let config ← Tx.config
  ensureInterchain config
  let params ← registeredParams
  let accounts ← Tx.accounts
  let isRewards := accounts.rewards.ownerId == ownerId
  let role ← roleOf accounts ownerId
  let a := accounts.get role
  if a.status != .handshakeStarted then
    reject (.invalidAccountTransition a.ownerId .acknowledgeOpen a.status)
  let accounts := accounts.set role
    { a with address := some address, status := if isRewards then .active else .registered }
  let r := Response.empty.attr "action" "ica_open_ack" |>.attr "owner_id" ownerId
    |>.attr "address" address
  match ← queueSetupIfReady env config params accounts with
  | some (accounts, e) =>
    modify fun s => { s with accounts := some accounts }
    pure (r.event e)
  | none =>
    modify fun s => { s with accounts := some accounts }
    pure r

/-- The channel of an account closed: the account is suspended and its outstanding
instruction, if any, is compensated as timed out. -/
def channelClosed (ownerId : String) : Tx Response := do
  let config ← Tx.config
  ensureInterchain config
  let accounts ← Tx.accounts
  let role ← roleOf accounts ownerId
  let a := accounts.get role
  let accounts := accounts.set role { a with status := .suspended, pending := none }
  let r := Response.empty.attr "action" "ica_channel_closed" |>.attr "owner_id" ownerId
  let r ← match a.pending with
    | none => pure r
    | some seq => do
      let i ← takeInstruction ownerId seq
      compensate i
      pure (r.event (resultEvent i "timeout"))
  modify fun s => { s with accounts := some accounts }
  pure r

/-- The result of an account's outstanding instruction. -/
def packetResult (env : Env) (ownerId : String) (seq : Nat) (outcome : PacketOutcome) :
    Tx Response := do
  let config ← Tx.config
  ensureInterchain config
  let accounts ← Tx.accounts
  let role ← roleOf accounts ownerId
  let a := accounts.get role
  if a.pending != some seq then reject (.unexpectedSequence ownerId a.pending seq)
  let accounts := accounts.set role { a with pending := none }
  let i ← takeInstruction ownerId seq
  let r := Response.empty.attr "action" "ica_packet_result" |>.attr "owner_id" ownerId
    |>.attr "sequence" (Numeral.write seq)
  match outcome with
  | .success =>
    let accounts := if i.kind == .setup then
      { accounts with delegator := { accounts.delegator with status := .active } } else accounts
    confirm env i
    modify fun s => { s with accounts := some accounts }
    pure (r.event (resultEvent i "success"))
  | .failure error =>
    compensate i
    modify fun s => { s with accounts := some accounts }
    pure (r.event ((resultEvent i "failure").attr "error" error))
  | .timeout =>
    compensate i
    modify fun s => { s with accounts := some accounts }
    pure (r.event (resultEvent i "timeout"))

/-- A reading from the host: a delegation amount or the unclaimed rewards. -/
def observe (o : Observation) : Tx Response := do
  let config ← Tx.config
  ensureInterchain config
  let r := Response.empty.attr "action" "host_observation"
  match o with
  | .delegation v amount =>
    modify fun s => { s with observed := s.observed.insert v amount }
    pure (r.attr "validator" v |>.attr "delegation" amount.toText)
  | .rewards amount =>
    modify fun s => { s with hostRewards := amount }
    pure (r.attr "rewards" amount.toText)

end LiquidStaking.Transport
