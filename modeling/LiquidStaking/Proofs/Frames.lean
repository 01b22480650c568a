import LiquidStaking.Proofs.Hoare

/-! # What each step writes

A frame names the fields a transaction may write: every committed run from `s₀` ends in
`s₀` with only those fields replaced. Stated this way, `mvcgen` carries a frame through the
caller and keeps everything else about the state in view.

Recording and reversing ledger operations write the delegations and the funding sources;
the native cycle's submessages also the reply table. The interchain cycle's phases write
the batches, the funding sources and the delegations. Settling an instruction writes the
derivative ledger, the reward and idle funds, the batches, the claim reserve and the
cooldowns; compensating one the recorded view, the batches, the records and the ledger.
None of them writes the host accounts, the outbound store or the registered parameters.
-/
set_option mvcgen.warning false

namespace LiquidStaking

open Std.Do Tx

variable {s₀ : State}

namespace Recording

theorem record_writes {m : HostMsg} {f : Funding} :
    ⦃fun s => ⌜s = s₀⌝⦄ record m f
    ⦃⇓? _ s => ⌜∃ d p h, s = { s₀ with
      delegations := d, pendingDeposits := p, hostIdle := h }⌝⦄ := by
  mvcgen [record] <;> subst_vars <;> cases f <;> exact ⟨_, _, _, rfl⟩

theorem unrecord_writes {m : HostMsg} {f : Funding} :
    ⦃fun s => ⌜s = s₀⌝⦄ unrecord m f
    ⦃⇓? _ s => ⌜∃ d p h, s = { s₀ with
      delegations := d, pendingDeposits := p, hostIdle := h }⌝⦄ := by
  mvcgen [unrecord] <;> subst_vars <;> cases f <;> exact ⟨_, _, _, rfl⟩

theorem recordAll_writes {ms : List HostMsg} {f : Funding} :
    ⦃fun s => ⌜s = s₀⌝⦄ recordAll ms f
    ⦃⇓? _ s => ⌜∃ d p h, s = { s₀ with
      delegations := d, pendingDeposits := p, hostIdle := h }⌝⦄ := by
  mvcgen [recordAll, record_writes] invariants
  | inv1 => ⇓? _ s => ⌜∃ d p h, s = { s₀ with
      delegations := d, pendingDeposits := p, hostIdle := h }⌝
  with ((try cases_type* And Exists); subst_vars; exact ⟨_, _, _, rfl⟩)

theorem unrecordAll_writes {ms : List HostMsg} {f : Funding} :
    ⦃fun s => ⌜s = s₀⌝⦄ unrecordAll ms f
    ⦃⇓? _ s => ⌜∃ d p h, s = { s₀ with
      delegations := d, pendingDeposits := p, hostIdle := h }⌝⦄ := by
  mvcgen [unrecordAll, unrecord_writes] invariants
  | inv1 => ⇓? _ s => ⌜∃ d p h, s = { s₀ with
      delegations := d, pendingDeposits := p, hostIdle := h }⌝
  with ((try cases_type* And Exists); subst_vars; exact ⟨_, _, _, rfl⟩)

end Recording

namespace Cycle

theorem harvestNative_writes {env : Env} {params : HostParams} {rate : ExchangeRate}
    {only : Option (List String)} :
    ⦃fun s => ⌜s = s₀⌝⦄ harvestNative env params rate only
    ⦃⇓? _ s => ⌜∃ p t b, s = { s₀ with
      pendingDeposits := p, token := t, balances := b }⌝⦄ := by
  mvcgen [harvestNative] with ((try cases_type* And Exists); subst_vars; exact ⟨_, _, _, rfl⟩)

theorem nativeDelegations_writes {params : HostParams} {parts : List (String × Amount)} :
    ⦃fun s => ⌜s = s₀⌝⦄ nativeDelegations params parts
    ⦃⇓? _ s => ⌜∃ d p h rp n, s = { s₀ with
      delegations := d, pendingDeposits := p, hostIdle := h,
      replies := rp, lastReplyId := n }⌝⦄ := by
  mvcgen [nativeDelegations, ledgerSubmsg, Recording.record_writes] invariants
  | inv1 => ⇓? _ s => ⌜∃ d p h rp n, s = { s₀ with
      delegations := d, pendingDeposits := p, hostIdle := h,
      replies := rp, lastReplyId := n }⌝
  with (intros; (try cases_type* And Exists); subst_vars; exact ⟨_, _, _, _, _, rfl⟩)

theorem nativeRedelegations_writes {params : HostParams} {p : Rebalance.Plan} :
    ⦃fun s => ⌜s = s₀⌝⦄ nativeRedelegations params p
    ⦃⇓? _ s => ⌜∃ d p h rp n, s = { s₀ with
      delegations := d, pendingDeposits := p, hostIdle := h,
      replies := rp, lastReplyId := n }⌝⦄ := by
  mvcgen [nativeRedelegations, ledgerSubmsg, Recording.record_writes] invariants
  | inv1 => ⇓? _ s => ⌜∃ d p h rp n, s = { s₀ with
      delegations := d, pendingDeposits := p, hostIdle := h,
      replies := rp, lastReplyId := n }⌝
  with (intros; (try cases_type* And Exists); subst_vars; exact ⟨_, _, _, _, _, rfl⟩)

theorem interchainRedelegations_writes {env : Env} {config : Config}
    {targets : List Target} :
    ⦃fun s => ⌜s = s₀⌝⦄ interchainRedelegations env config targets
    ⦃⇓? _ s => ⌜∃ d p h, s = { s₀ with
      delegations := d, pendingDeposits := p, hostIdle := h }⌝⦄ := by
  mvcgen [interchainRedelegations, plan, Recording.record_writes] invariants
  | inv1 => ⇓? _ s => ⌜∃ d p h, s = { s₀ with
      delegations := d, pendingDeposits := p, hostIdle := h }⌝
  with ((try cases_type* And Exists); subst_vars; exact ⟨_, _, _, rfl⟩)

theorem recordDelegations_writes {parts : List (String × Amount)} :
    ⦃fun s => ⌜s = s₀⌝⦄ recordDelegations parts
    ⦃⇓? _ s => ⌜∃ d p h, s = { s₀ with
      delegations := d, pendingDeposits := p, hostIdle := h }⌝⦄ := by
  mvcgen [recordDelegations, Recording.record_writes] invariants
  | inv1 => ⇓? _ s => ⌜∃ d p h, s = { s₀ with
      delegations := d, pendingDeposits := p, hostIdle := h }⌝
  with (intros; (try cases_type* And Exists); subst_vars; exact ⟨_, _, _, rfl⟩)

theorem interchainDelegations_writes {current : List (String × Amount)}
    {targets : List Target} :
    ⦃fun s => ⌜s = s₀⌝⦄ interchainDelegations current targets
    ⦃⇓? _ s => ⌜∃ d p h, s = { s₀ with
      delegations := d, pendingDeposits := p, hostIdle := h }⌝⦄ := by
  mvcgen [interchainDelegations, recordDelegations_writes]
  case isTrue => subst_vars; exact ⟨_, _, _, rfl⟩
  case isFalse.post.success => cases_type* And; subst_vars; rfl

theorem returnMatured_writes {now : Timestamp} :
    ⦃fun s => ⌜s = s₀⌝⦄ returnMatured now ⦃⇓? _ s => ⌜∃ bs, s = { s₀ with batches := bs }⌝⦄ := by
  mvcgen [returnMatured] invariants
  | inv1 => ⇓? _ s => ⌜∃ bs, s = { s₀ with batches := bs }⌝
  with ((try cases_type* And Exists); subst_vars; exact ⟨_, rfl⟩)

theorem shipDeposits_writes :
    ⦃fun s => ⌜s = s₀⌝⦄ shipDeposits
    ⦃⇓? _ s => ⌜∃ p h, s = { s₀ with pendingDeposits := p, hostIdle := h }⌝⦄ := by
  mvcgen [shipDeposits] with (subst_vars; exact ⟨_, _, rfl⟩)

end Cycle

namespace Transport

theorem confirm_writes {env : Env} {i : Instruction} :
    ⦃fun s => ⌜s = s₀⌝⦄ confirm env i
    ⦃⇓? _ s => ⌜∃ t b w h bs c cd, s = { s₀ with
      token := t, balances := b, hostRewards := w,
      hostIdle := h, batches := bs, claimReserve := c,
      cooldowns := cd }⌝⦄ := by
  mvcgen [confirm, batch] invariants
  | inv1 => ⇓? _ s => ⌜∃ t b w h bs c cd, s = { s₀ with
      token := t, balances := b, hostRewards := w, hostIdle := h, batches := bs, claimReserve := c,
      cooldowns := cd }⌝
  with ((try cases_type* And Exists); subst_vars; exact ⟨_, _, _, _, _, _, _, rfl⟩)

theorem compensate_writes {i : Instruction} :
    ⦃fun s => ⌜s = s₀⌝⦄ compensate i
    ⦃⇓? _ s => ⌜∃ d p h bs rs t b, s = { s₀ with
      delegations := d, pendingDeposits := p, hostIdle := h, batches := bs, records := rs, token := t,
      balances := b }⌝⦄ := by
  mvcgen [compensate, batch, Recording.unrecordAll_writes] invariants
  | inv1 => ⇓? _ s => ⌜∃ d p h bs rs t b, s = { s₀ with
      delegations := d, pendingDeposits := p, hostIdle := h, batches := bs, records := rs, token := t,
      balances := b }⌝
  with ((try cases_type* And Exists); subst_vars; exact ⟨_, _, _, _, _, _, _, rfl⟩)

end Transport

theorem Exit.claim_writes {env : Env} {sender : String} :
    ⦃fun s => ⌜s = s₀⌝⦄ Exit.claim env sender
    ⦃⇓? _ s => ⌜∃ rs c, s = { s₀ with records := rs, claimReserve := c }⌝⦄ := by
  mvcgen [Exit.claim] invariants
  | inv1 => ⇓? _ s => ⌜∃ rs c, s = { s₀ with records := rs, claimReserve := c }⌝
  with ((try cases_type* And Exists); subst_vars; exact ⟨_, _, rfl⟩)

end LiquidStaking
