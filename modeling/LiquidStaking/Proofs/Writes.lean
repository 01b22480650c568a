import LiquidStaking.Proofs.HostProtocol

/-! # What each call writes

Every entry point writes a fixed set of the state's fields, whatever branch it takes; the
rest stays as it found it. `State.restrict ws s` forgets the fields of `ws`, so two states
agree outside `ws` exactly when their restrictions are equal. `Call.writes` names each
call's set, and `transaction_restrict` says that a committed call changes nothing outside
it. An invariant of a few fields then needs proofs only for the calls that write them.
-/
set_option mvcgen.warning false

namespace LiquidStaking

/-- A field of the module state. -/
inductive Field
  | config | enabled | params | allowList | token | balances | allowances | pendingDeposits
  | hostRewards | hostIdle | claimReserve | delegations | observed | cooldowns | records
  | lastRecordId | batches | accounts | outbound | replies | lastReplyId
deriving DecidableEq

/-- The state with the fields of `ws` forgotten. -/
def State.restrict (ws : List Field) (s : State) : State where
  config := if .config ∈ ws then none else s.config
  enabled := if .enabled ∈ ws then none else s.enabled
  params := if .params ∈ ws then none else s.params
  allowList := if .allowList ∈ ws then none else s.allowList
  token := if .token ∈ ws then none else s.token
  balances := if .balances ∈ ws then {} else s.balances
  allowances := if .allowances ∈ ws then {} else s.allowances
  pendingDeposits := if .pendingDeposits ∈ ws then Amount.zero else s.pendingDeposits
  hostRewards := if .hostRewards ∈ ws then Amount.zero else s.hostRewards
  hostIdle := if .hostIdle ∈ ws then Amount.zero else s.hostIdle
  claimReserve := if .claimReserve ∈ ws then Amount.zero else s.claimReserve
  delegations := if .delegations ∈ ws then {} else s.delegations
  observed := if .observed ∈ ws then {} else s.observed
  cooldowns := if .cooldowns ∈ ws then {} else s.cooldowns
  records := if .records ∈ ws then {} else s.records
  lastRecordId := if .lastRecordId ∈ ws then 0 else s.lastRecordId
  batches := if .batches ∈ ws then {} else s.batches
  accounts := if .accounts ∈ ws then none else s.accounts
  outbound := if .outbound ∈ ws then {} else s.outbound
  replies := if .replies ∈ ws then {} else s.replies
  lastReplyId := if .lastReplyId ∈ ws then 0 else s.lastReplyId

namespace State

variable {ws : List Field} {s s' : State}

theorem params_eq_of_restrict (h : s'.restrict ws = s.restrict ws) (hf : Field.params ∉ ws) :
    s'.params = s.params := by
  simpa [restrict, hf] using congrArg State.params h

theorem allowList_eq_of_restrict (h : s'.restrict ws = s.restrict ws) (hf : Field.allowList ∉ ws) :
    s'.allowList = s.allowList := by
  simpa [restrict, hf] using congrArg State.allowList h

theorem accounts_eq_of_restrict (h : s'.restrict ws = s.restrict ws) (hf : Field.accounts ∉ ws) :
    s'.accounts = s.accounts := by
  simpa [restrict, hf] using congrArg State.accounts h

theorem cooldowns_eq_of_restrict (h : s'.restrict ws = s.restrict ws) (hf : Field.cooldowns ∉ ws) :
    s'.cooldowns = s.cooldowns := by
  simpa [restrict, hf] using congrArg State.cooldowns h

theorem config_eq_of_restrict (h : s'.restrict ws = s.restrict ws) (hf : Field.config ∉ ws) :
    s'.config = s.config := by
  simpa [restrict, hf] using congrArg State.config h

end State

/-- The fields an execute message may write. -/
def ExecuteMsg.writes : ExecuteMsg → List Field
  | .liquidStake | .redeem _ => [.token, .balances, .pendingDeposits]
  | .liquidUnstake _ => [.pendingDeposits, .token, .balances, .delegations, .hostIdle,
      .lastRecordId, .records, .batches, .outbound, .accounts]
  | .claim => [.records, .claimReserve]
  | .jumpStart _ => [.params, .allowList, .enabled, .token, .accounts]
  | .recreateIca => [.accounts]
  | .changeModuleState _ => [.enabled]
  | .reportSlashing _ => [.delegations]
  | .transfer .. | .send .. => [.balances]
  | .increaseAllowance .. | .decreaseAllowance .. => [.allowances]
  | .transferFrom .. | .sendFrom .. => [.allowances, .balances]

/-- The fields a privileged message may write. -/
def SudoMsg.writes : SudoMsg → List Field
  | .endBlock => [.pendingDeposits, .token, .balances, .delegations, .hostIdle, .replies,
      .lastReplyId, .outbound, .accounts, .batches]
  | .applyProposal _ => [.params, .allowList, .pendingDeposits, .token, .balances, .delegations,
      .hostIdle, .replies, .lastReplyId, .outbound, .accounts]
  | .openAck .. => [.outbound, .accounts]
  | .channelClosed _ => [.outbound, .accounts, .delegations, .pendingDeposits, .hostIdle,
      .batches, .records, .token, .balances]
  | .packetResult .. => [.outbound, .accounts, .token, .balances, .hostRewards, .hostIdle,
      .batches, .claimReserve, .cooldowns, .delegations, .pendingDeposits, .records]
  | .observe _ => [.observed, .hostRewards]

/-- The fields a call may write. -/
def Call.writes : Call → List Field
  | .instantiate _ => [.config, .enabled, .pendingDeposits, .token]
  | .execute _ _ m => m.writes
  | .privileged m => m.writes
  | .reply .. => [.replies, .cooldowns, .delegations, .pendingDeposits, .hostIdle]
  | .migrate => [.enabled]

open Std.Do Tx

section Entries

variable (env : Env) (s₀ : State)

theorem execute_writes (sender : String) (funds : List Coin) (m : ExecuteMsg) :
    ⦃fun s => ⌜s = s₀⌝⦄ Contract.execute env sender funds m
    ⦃⇓? _ s => ⌜s.restrict m.writes = s₀.restrict m.writes⌝⦄ := by
  cases m
  case recreateIca =>
    -- the loop only builds the new accounts; the state is written once after it
    mvcgen [Contract.execute, Admin.recreateIca, Admin.ensureAdmin] invariants
    | inv1 => ⇓? _ s => ⌜s = s₀⌝
    all_goals (subst_vars; rfl)
  all_goals
    mvcgen [Contract.execute, Deposit.liquidStake, Exit.redeem, Exit.liquidUnstake, Exit.joinBatch,
      Exit.claim_writes, Admin.jumpStart, Admin.ensureAdmin, Admin.nameToken,
      Admin.changeModuleState, Admin.reportSlashing, Transport.queue,
      Cycle.harvestNative_writes, Recording.recordAll_writes]
    all_goals (intros; (try cases_type* And Exists); subst_vars; rfl)

theorem privileged_writes (m : SudoMsg) :
    ⦃fun s => ⌜s = s₀⌝⦄ Contract.privileged env m
    ⦃⇓? _ s => ⌜s.restrict m.writes = s₀.restrict m.writes⌝⦄ := by
  cases m <;>
    mvcgen [Contract.privileged, Cycle.endBlock, Cycle.nativeCycle, Cycle.interchainCycle,
      Cycle.nativeTargets, Cycle.plan, Cycle.restakeRewards, Cycle.saveAccounts,
      Cycle.harvestNative_writes, Cycle.nativeDelegations_writes, Cycle.nativeRedelegations_writes,
      Cycle.returnMatured_writes, Cycle.shipDeposits_writes, Cycle.interchainDelegations_writes,
      Cycle.interchainRedelegations_writes, Cycle.rebalanceNow, Governance.apply,
      Transport.queueSetupIfReady, Transport.queue, Transport.openAck, Transport.channelClosed,
      Transport.packetResult, Transport.observe, Transport.ensureInterchain, Transport.roleOf,
      Transport.takeInstruction, Transport.confirm_writes, Transport.compensate_writes] <;>
    ((try cases_type* And Exists); subst_vars; rfl)

theorem reply_writes (id : Nat) (error : Option String) :
    ⦃fun s => ⌜s = s₀⌝⦄ Contract.reply env id error
    ⦃⇓? _ s => ⌜s.restrict (Call.reply id error).writes = s₀.restrict (Call.reply id error).writes⌝⦄ := by
  mvcgen [Contract.reply, Cycle.handleReply, Recording.unrecord_writes] <;>
    ((try cases_type* And Exists); subst_vars; rfl)

theorem migrate_writes :
    ⦃fun s => ⌜s = s₀⌝⦄ Contract.migrate
    ⦃⇓? _ s => ⌜s.restrict Call.migrate.writes = s₀.restrict Call.migrate.writes⌝⦄ := by
  mvcgen [Contract.migrate] <;> (subst_vars; rfl)

theorem instantiate_writes (m : InstantiateMsg) :
    ⦃fun s => ⌜s = s₀⌝⦄ Contract.instantiate m
    ⦃⇓? _ s => ⌜s.restrict (Call.instantiate m).writes =
      s₀.restrict (Call.instantiate m).writes⌝⦄ := by
  mvcgen [Contract.instantiate] <;> (subst_vars; rfl)

theorem transaction_writes (c : Call) :
    ⦃fun s => ⌜s = s₀⌝⦄ Session.transaction env c
    ⦃⇓? _ s => ⌜s.restrict c.writes = s₀.restrict c.writes⌝⦄ := by
  cases c <;> mvcgen [Session.transaction, execute_writes, privileged_writes,
    reply_writes, migrate_writes, instantiate_writes]
  all_goals (intro h; subst_vars; exact h)

end Entries

/-- A committed call changes no field outside the ones it may write. -/
theorem transaction_restrict {env : Env} {c : Call} {s s' : State} {r : Response × List String}
    (h : (Session.transaction env c).run s = .ok (r, s')) :
    s'.restrict c.writes = s.restrict c.writes :=
  Triple.run_ok (transaction_writes env s c) rfl h

end LiquidStaking
