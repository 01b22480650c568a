import LiquidStaking.Proofs.HostAccounts
import LiquidStaking.Proofs.Frames
import LiquidStaking.Proofs.Reachable
import LiquidStaking.Proofs.Ledger

/-! # The host account protocol

`HostInv` is the protocol's invariant on a module state: before registration nothing is
stored for the host; afterwards the two accounts agree with the outbound store and the host
chain stays registered. `HostStep` says what one committed call may do to the accounts:
accounts once opened stay, owners stay and sequence numbers never go back, the store is
written only at numbers the accounts move past, and the delegator becomes active only by the
success of its setup.

Each move of the protocol has one lemma giving both from the accounts and the store it
leaves; each entry point is a triple from a state where the invariant holds, proved from
those lemmas and from the frames of the steps that write no account. By induction on
reachability, every reachable state keeps the invariant and every committed call from it is
a `HostStep`.
-/
set_option mvcgen.warning false

namespace LiquidStaking
open HostAccounts

/-- The host protocol invariant of a module state: before registration the outbound store is
empty; afterwards the accounts agree with it and the host chain stays registered. -/
def HostInv (s : State) : Prop :=
  match s.accounts with
  | none => ∀ k, s.outbound.get? k = none
  | some A => A.Consistent s.outbound ∧ ∃ p, s.params = some p ∧ p.hasMissingField = false

/-- What one call may do to the host accounts. -/
structure HostStep (s s' : State) (c : Call) : Prop where
  /-- Accounts once opened stay and move forward with the store. -/
  advance : ∀ A, s.accounts = some A → ∃ A', s'.accounts = some A' ∧ Advance A s.outbound A' s'.outbound
  /-- Nothing is written to the store before the accounts are opened. -/
  unopened : s.accounts = none → ∀ k i, s'.outbound.get? k = some i → s.outbound.get? k = some i
  /-- Accounts open with the delegator not yet active. -/
  opened : s.accounts = none → ∀ A', s'.accounts = some A' → A'.delegator.status ≠ .active
  /-- The delegator becomes active only by the success of its setup. -/
  activation : ∀ A A', s.accounts = some A → s'.accounts = some A' →
    A.delegator.status ≠ .active → A'.delegator.status = .active →
    ∃ q i, c = .privileged (.packetResult A.delegator.ownerId q .success) ∧
      A.delegator.pending = some q ∧ s.outbound.get? (A.delegator.ownerId, q) = some i ∧
      i.kind = .setup

section Steps

variable {s s' : State} {c : Call} {A A' : HostAccounts}

theorem HostInv.of_eq (h : HostInv s) (ha : s'.accounts = s.accounts) (ho : s'.outbound = s.outbound)
    (hp : s'.params = s.params) : HostInv s' := by
  unfold HostInv at h ⊢
  rw [ha, ho, hp]
  exact h

theorem HostInv.of_consistent (h : HostInv s) (hA : s.accounts = some A) (hA' : s'.accounts = some A')
    (hc : A'.Consistent s'.outbound) (hp : s'.params = s.params) : HostInv s' := by
  unfold HostInv at h ⊢
  rw [hA] at h
  rw [hA', hp]
  exact ⟨hc, h.2⟩

theorem HostStep.of_eq (ha : s'.accounts = s.accounts) (ho : s'.outbound = s.outbound) :
    HostStep s s' c := by
  refine ⟨fun A hA => ⟨A, ha.trans hA, ho ▸ Advance.refl⟩, fun _ k i hk => ho ▸ hk,
    fun hnone A' hA' => absurd (hA'.symm.trans (ha.trans hnone)) (by simp), ?_⟩
  intro A A' hA hA' hna hact
  rw [ha, hA] at hA'
  cases hA'
  exact absurd hact hna

/-- A step of opened accounts, which activates the delegator only as a success of its
setup. -/
theorem HostStep.of_advance (hA : s.accounts = some A) (hA' : s'.accounts = some A')
    (hadv : Advance A s.outbound A' s'.outbound)
    (hact : A.delegator.status ≠ .active → A'.delegator.status = .active →
      ∃ q i, c = .privileged (.packetResult A.delegator.ownerId q .success) ∧
        A.delegator.pending = some q ∧ s.outbound.get? (A.delegator.ownerId, q) = some i ∧
        i.kind = .setup) : HostStep s s' c := by
  refine ⟨fun B hB => ?_, fun hnone => absurd (hA.symm.trans hnone) (by simp),
    fun hnone => absurd (hA.symm.trans hnone) (by simp), ?_⟩
  · rw [hA] at hB
    cases hB
    exact ⟨A', hA', hadv⟩
  · intro B B' hB hB' hna ha
    rw [hA] at hB
    rw [hA'] at hB'
    cases hB
    cases hB'
    exact hact hna ha

/-- A step of opened accounts that makes no delegator active. -/
theorem HostStep.of_advance_status (hA : s.accounts = some A) (hA' : s'.accounts = some A')
    (hadv : Advance A s.outbound A' s'.outbound)
    (hst : A'.delegator.status = .active → A.delegator.status = .active) : HostStep s s' c :=
  HostStep.of_advance hA hA' hadv fun hna ha => absurd (hst ha) hna

end Steps

section Packets

variable {s s' : State} {A : HostAccounts} {r : AccountRole} {o : String} {q : Nat} {c : Call}

theorem HostInv.consistent (h : HostInv s) (hA : s.accounts = some A) : A.Consistent s.outbound := by
  unfold HostInv at h
  rw [hA] at h
  exact h.1

theorem pending_of_not_bne {a : HostAccount} (h : ¬(a.pending != some q) = true) : a.pending = some q := by
  simpa using h

/-- Settling an account's outstanding instruction without touching its status. -/
theorem settled_host (h : HostInv s) (hA : s.accounts = some A) (hr : A.roleOf? o = some r)
    (hq : ¬((A.get r).pending != some q) = true)
    (hA' : s'.accounts = some (A.set r { A.get r with pending := none }))
    (ho : s'.outbound = s.outbound.erase (o, q)) (hp : s'.params = s.params) :
    HostInv s' ∧ HostStep s s' c := by
  have hq' := pending_of_not_bne hq
  have ho' : s'.outbound = s.outbound.erase ((A.get r).ownerId, q) := by
    rw [roleOf?_ownerId hr]
    exact ho
  have hsame := set_same (A := A) (r := r) (a := { A.get r with pending := none }) rfl rfl
  refine ⟨?inv, HostStep.of_advance_status hA hA' ?adv ?act⟩
  case inv =>
    refine h.of_consistent hA hA' ?_ hp
    rw [ho']
    exact (h.consistent hA).settle hq'
  case adv => exact Advance.retire hsame.1 hsame.2 fun _ _ hk => Table.get?_of_get?_erase (ho' ▸ hk)
  case act =>
    cases r <;> simp

/-- A success settles the instruction, and the success of a setup activates the delegator. -/
theorem confirmed_host {i : Instruction} (h : HostInv s) (hA : s.accounts = some A)
    (hr : A.roleOf? o = some r) (hq : ¬((A.get r).pending != some q) = true)
    (hi : s.outbound.get? (o, q) = some i)
    (hA' : s'.accounts = some (if (i.kind == .setup) = true then
      { A.set r { A.get r with pending := none } with
        delegator := { (A.set r { A.get r with pending := none }).delegator with status := .active } }
      else A.set r { A.get r with pending := none }))
    (ho : s'.outbound = s.outbound.erase (o, q)) (hp : s'.params = s.params) :
    HostInv s' ∧ HostStep s s' (.privileged (.packetResult o q .success)) := by
  split at hA'
  case isFalse => exact settled_host h hA hr hq hA' ho hp
  case isTrue hk =>
    have hkind : i.kind = .setup := by simpa using hk
    have hown := roleOf?_ownerId hr
    -- the rewards account carries only restakes, so a setup is the delegator's
    have hrd : r = .delegator := by
      cases r
      · rfl
      · obtain ⟨x, hx⟩ := (h.consistent hA).restake q i (by simpa [← hown] using hi)
        rw [hx] at hkind
        cases hkind
    subst hrd
    simp only [get_delegator, set_delegator] at hA' hq hown
    have hq' := pending_of_not_bne hq
    subst hown
    have hc := ((h.consistent hA).settle (r := .delegator) hq').setIdle (r := .delegator)
      (a := { A.delegator with pending := none, status := .active }) rfl rfl rfl (by simp)
    refine ⟨h.of_consistent hA hA' (by rw [ho]; simpa using hc) hp, ?_⟩
    have hsame := set_same (A := A) (r := .delegator)
      (a := { A.delegator with pending := none, status := .active }) rfl rfl
    exact HostStep.of_advance hA hA' (Advance.retire (by simpa using hsame.1) (by simpa using hsame.2)
      fun _ _ hk => Table.get?_of_get?_erase (ho ▸ hk)) fun _ _ => ⟨q, i, rfl, hq', hi, hkind⟩

end Packets


section Queue

variable {s s' : State} {A B : HostAccounts} {c : Call}

/-- Queuing instructions on accounts that may take them keeps the protocol. -/
theorem queued_host (h : HostInv s) (hA : s.accounts = some A) (hA' : s'.accounts = some B)
    (hq : Queued A s.outbound B s'.outbound) (hp : s'.params = s.params) :
    HostInv s' ∧ HostStep s s' c :=
  ⟨h.of_consistent hA hA' (hq.consistent (h.consistent hA)) hp,
    HostStep.of_advance_status hA hA' hq.advance fun ha => hq.delegator_status ▸ ha⟩

end Queue

/-- Registered parameters have every field. -/
theorem HostParams.hasMissingField_of_validate {p : HostParams} {u : Unit} (h : p.validate = .ok u) :
    p.hasMissingField = false := by
  unfold HostParams.validate at h
  cases hm : p.hasMissingField
  · rfl
  · simp [hm, bind, Except.bind] at h

theorem ne_of_validateOwnerIds {d w : String} {u : Unit} (h : validateOwnerIds d w = .ok u) : d ≠ w := by
  unfold validateOwnerIds at h
  split at h
  · cases h
  · split at h
    · cases h
    · simpa using ‹¬(d == w) = true›

section Registration

variable {s s' : State} {c : Call}

/-- Before the host chain is registered there are no accounts. -/
theorem HostInv.accounts_eq_none (h : HostInv s)
    (hreg : ∀ q, s.params = some q → q.hasMissingField = true) : s.accounts = none := by
  unfold HostInv at h
  cases hA : s.accounts with
  | none => rfl
  | some A =>
    rw [hA] at h
    obtain ⟨p, hp, hm⟩ := h.2
    simp [hreg p hp] at hm

theorem HostInv.empty_of_none (h : HostInv s) (hnone : s.accounts = none) :
    ∀ k, s.outbound.get? k = none := by
  unfold HostInv at h
  rw [hnone] at h
  exact h

/-- Registering the host chain on the native ledger opens no accounts. -/
theorem registered_host (h : HostInv s)
    (hreg : ∀ q, s.params = some q → q.hasMissingField = true) (ha : s'.accounts = s.accounts)
    (ho : s'.outbound = s.outbound) : HostInv s' ∧ HostStep s s' c := by
  have hnone := h.accounts_eq_none hreg
  refine ⟨?_, HostStep.of_eq ha ho⟩
  unfold HostInv
  rw [ha, hnone, ho]
  exact h.empty_of_none hnone

/-- Registering the host chain on the interchain ledger opens both accounts with nothing
outstanding. -/
theorem opened_host {p : HostParams} {dOwner wOwner conn : String} {d w : HostAccount × Event}
    {u v : Unit} (h : HostInv s) (hreg : ∀ q, s.params = some q → q.hasMissingField = true)
    (hv : p.validate = .ok u) (hids : validateOwnerIds dOwner wOwner = .ok v)
    (hd : Transport.startHandshake (HostAccount.new dOwner) conn = .ok d)
    (hw : Transport.startHandshake (HostAccount.new wOwner) conn = .ok w)
    (hA' : s'.accounts = some ⟨d.1, w.1⟩) (ho : s'.outbound = s.outbound)
    (hp : s'.params = some p) : HostInv s' ∧ HostStep s s' c := by
  have hnone := h.accounts_eq_none hreg
  have hempty := h.empty_of_none hnone
  obtain ⟨hd1, -⟩ := Transport.startHandshake_eq_ok hd
  obtain ⟨hw1, -⟩ := Transport.startHandshake_eq_ok hw
  refine ⟨?_, ?_⟩
  · unfold HostInv
    rw [hA', hp, ho]
    refine ⟨Consistent.fresh hempty ?_ ?_ ?_ ?_, p, rfl, HostParams.hasMissingField_of_validate hv⟩
    · simpa [hd1, hw1, HostAccount.new] using ne_of_validateOwnerIds hids
    · simp [hd1, HostAccount.new]
    · simp [hw1, HostAccount.new]
    · simp [hw1]
  · refine ⟨fun A hA => absurd (hA.symm.trans hnone) (by simp), fun _ k i hk => ho ▸ hk, ?_, ?_⟩
    · -- the delegator's handshake has only started
      intro _ A' hA''
      rw [hA'] at hA''
      cases hA''
      simp [hd1]
    · intro A _ hA
      exact absurd (hA.symm.trans hnone) (by simp)

end Registration


section Callbacks

variable {s s' : State} {A B : HostAccounts} {r : AccountRole} {c : Call}

/-- Restarting handshakes keeps the protocol. -/
theorem restarted_host (h : HostInv s) (hR : A.Restarted B s.outbound)
    (hA : s.accounts = some A) (hA' : s'.accounts = some B)
    (ho : s'.outbound = s.outbound) (hp : s'.params = s.params) : HostInv s' ∧ HostStep s s' c := by
  refine ⟨h.of_consistent hA hA' (ho ▸ hR.consistent) hp, HostStep.of_advance_status hA hA'
    (ho ▸ Advance.retire hR.owner hR.sequence fun _ _ => id) hR.active⟩

/-- Acknowledging the opening of a channel: the account takes its address and becomes
active, or registered if it is the delegator, which may then queue its setup. -/
theorem acked_host {o addr : String} {C : HostAccounts} (h : HostInv s) (hA : s.accounts = some A)
    (hr : A.roleOf? o = some r) (hs : ¬((A.get r).status != .handshakeStarted) = true)
    (hq : Queued (A.set r { A.get r with
      address := some addr, status := if (A.rewards.ownerId == o) = true then .active else .registered })
      s.outbound C s'.outbound)
    (hA' : s'.accounts = some C) (hp : s'.params = s.params) : HostInv s' ∧ HostStep s s' c := by
  have hc := h.consistent hA
  have hst : (A.get r).status = .handshakeStarted := by simpa using hs
  have hpend := hc.pending_eq_none (r := r) (by simp [hst]) (by simp [hst])
  obtain rfl := roleOf?_ownerId hr
  -- the rewards account becomes active, the delegator registered
  have hrole : (A.rewards.ownerId == (A.get r).ownerId) = true ↔ r = .rewards := by
    cases r <;> simp [Ne.symm hc.distinct]
  have hsame := set_same (A := A) (r := r)
    (a := { A.get r with
      address := some addr,
      status := if (A.rewards.ownerId == (A.get r).ownerId) = true then .active else .registered })
    rfl rfl
  have hB := hc.setIdle (r := r) (a := { A.get r with
      address := some addr,
      status := if (A.rewards.ownerId == (A.get r).ownerId) = true then .active else .registered })
    hpend rfl hpend (by rintro rfl; simp)
  refine ⟨h.of_consistent hA hA' (hq.consistent hB) hp, HostStep.of_advance_status hA hA'
    ((Advance.retire hsame.1 hsame.2 fun _ _ => id).trans hq.advance) ?_⟩
  rw [hq.delegator_status]
  cases r <;> simp [Ne.symm hc.distinct]

/-- Suspending an account whose outstanding instruction, if any, has left the store. -/
theorem suspended_host (h : HostInv s) (hA : s.accounts = some A)
    (hA' : s'.accounts = some (A.set r { A.get r with status := .suspended, pending := none }))
    (hc : (A.set r { A.get r with status := .suspended, pending := none }).Consistent s'.outbound)
    (hsub : ∀ k i, s'.outbound.get? k = some i → s.outbound.get? k = some i)
    (hp : s'.params = s.params) : HostInv s' ∧ HostStep s s' c := by
  have hsame := set_same (A := A) (r := r) (a := { A.get r with status := .suspended, pending := none })
    rfl rfl
  exact ⟨h.of_consistent hA hA' hc hp, HostStep.of_advance_status hA hA'
    (Advance.retire hsame.1 hsame.2 hsub) (by cases r <;> simp)⟩

/-- Closing the channel of an account with nothing outstanding suspends it. -/
theorem closed_idle_host (h : HostInv s) (hA : s.accounts = some A)
    (hpend : (A.get r).pending = none)
    (hA' : s'.accounts = some (A.set r { A.get r with status := .suspended, pending := none }))
    (ho : s'.outbound = s.outbound) (hp : s'.params = s.params) : HostInv s' ∧ HostStep s s' c := by
  have hc := (h.consistent hA).setIdle (r := r)
    (a := { A.get r with status := .suspended, pending := none }) hpend rfl rfl (by simp)
  exact suspended_host h hA hA' (ho ▸ hc) (fun _ _ hk => ho ▸ hk) hp

/-- Closing the channel of an account with an instruction outstanding suspends it and takes
the instruction out of the store. -/
theorem closed_busy_host {o : String} {q : Nat} (h : HostInv s) (hA : s.accounts = some A)
    (hr : A.roleOf? o = some r) (hq : (A.get r).pending = some q)
    (hA' : s'.accounts = some (A.set r { A.get r with status := .suspended, pending := none }))
    (ho : s'.outbound = s.outbound.erase (o, q)) (hp : s'.params = s.params) :
    HostInv s' ∧ HostStep s s' c := by
  obtain rfl := roleOf?_ownerId hr
  -- settle the instruction first, then suspend the idle account
  have hc := ((h.consistent hA).settle hq).setIdle (r := r)
    (a := { A.get r with status := .suspended, pending := none }) (by simp) (by simp) rfl (by simp)
  simp only [set_set] at hc
  exact suspended_host h hA hA' (ho ▸ hc) (fun _ _ hk => Table.get?_of_get?_erase (ho ▸ hk)) hp

end Callbacks

section Governance

variable {s s' : State} {c : Call} {p : HostParams}

/-- New parameters that have every field keep the protocol while the accounts and the store
stay. -/
theorem params_host (h : HostInv s) (ha : s'.accounts = s.accounts)
    (ho : s'.outbound = s.outbound) (hp : s'.params = some p) (hm : ¬p.hasMissingField = true) :
    HostInv s' ∧ HostStep s s' c := by
  refine ⟨?_, HostStep.of_eq ha ho⟩
  unfold HostInv at h ⊢
  rw [ha, ho, hp]
  split at h
  · exact h
  · exact ⟨h.1, p, rfl, by simpa using hm⟩

/-- An accepted address is never empty. -/
theorem Address.isEmpty_of_validate {r t : String} (h : Address.validate r = .ok t) :
    t.isEmpty = false := by
  obtain rfl := Address.validate_eq h
  unfold Address.validate at h
  dsimp only at h
  split at h
  · cases h
  · next hlen =>
    have hpos : 0 < t.utf8ByteSize := by simp [Address.minLength] at hlen; omega
    simpa [String.isEmpty_iff] using fun he : t = "" => by simp [he] at hpos

/-- A new fee address keeps the protocol: registered parameters keep every field, and
before registration the store is empty whatever the parameters hold. -/
theorem feeAddress_host {fee : String} (h : HostInv s) (hfee : fee.isEmpty = false)
    (ha : s'.accounts = s.accounts) (ho : s'.outbound = s.outbound)
    (hp : s'.params = some { s.params.getD (HostParams.placeholder fee) with
      fees := { (s.params.getD (HostParams.placeholder fee)).fees with address := fee } }) :
    HostInv s' ∧ HostStep s s' c := by
  refine ⟨?_, HostStep.of_eq ha ho⟩
  unfold HostInv at h ⊢
  rw [ha, ho, hp]
  split at h
  · exact h
  · obtain ⟨hc, q, hq, hm⟩ := h
    refine ⟨hc, _, rfl, ?_⟩
    simp only [HostParams.hasMissingField, Bool.or_eq_false_iff] at hm ⊢
    simpa [hq, hfee] using hm.1

end Governance

open Std.Do Tx

section Entries

variable (env : Env) (s₀ : State)

theorem host_of_frame {s s' : State} {c : Call} (h : HostInv s) (ha : s'.accounts = s.accounts)
    (ho : s'.outbound = s.outbound) (hp : s'.params = s.params) : HostInv s' ∧ HostStep s s' c :=
  ⟨h.of_eq ha ho hp, HostStep.of_eq ha ho⟩

theorem execute_host (sender : String) (funds : List Coin) (m : ExecuteMsg) :
    ⦃fun s => ⌜s = s₀ ∧ HostInv s₀⌝⦄ Contract.execute env sender funds m
    ⦃⇓? _ s => ⌜HostInv s ∧ HostStep s₀ s (.execute sender funds m)⌝⦄ := by
  cases m
  case liquidUnstake amount =>
    mvcgen [Contract.execute, Exit.liquidUnstake, Exit.joinBatch, Transport.queue,
      Cycle.harvestNative_writes, Recording.recordAll_writes]
    all_goals (cases_type* And Exists; subst_vars)
    -- the runs ending on the native ledger keep the accounts
    any_goals exact host_of_frame ‹_› rfl rfl rfl
    -- the others queue the unstake on the delegator
    all_goals exact queued_host ‹_› ‹_› (by rfl) (.enqueue .delegator .refl ‹_› fun h => absurd h (by decide)) (by rfl)
  case jumpStart m =>
    mvcgen [Contract.execute, Admin.jumpStart, Admin.ensureAdmin, Admin.nameToken]
    all_goals (cases_type* And Exists; subst_vars)
    -- on the native ledger registration opens no accounts
    any_goals exact registered_host ‹_› (by intro q hq; simp_all) rfl rfl
    all_goals exact opened_host ‹_› (by intro q hq; simp_all) ‹_› ‹_› ‹_› ‹_› rfl rfl rfl
  case recreateIca =>
    mvcgen [Contract.execute, Admin.recreateIca, Admin.ensureAdmin] invariants
    | inv1 => ⇓? loop s => ⌜s = s₀ ∧ ∃ A, s₀.accounts = some A ∧
      A.Restarted loop.2.2.2 s₀.outbound⌝
    all_goals (cases_type* And Exists; subst_vars)
    · -- a suspended account restarts its handshake
      refine ⟨rfl, _, ?_, Restarted.restart ‹HostAccounts.Restarted _ _ _› ‹_›⟩
      assumption
    · -- the loop starts from the stored accounts
      exact ⟨rfl, _, ‹_›, Restarted.refl (HostInv.consistent ‹_› ‹_›)⟩
    · exact restarted_host ‹_› ‹_› ‹_› rfl rfl rfl
  all_goals
    mvcgen [Contract.execute, Deposit.liquidStake, Exit.redeem, Exit.claim_writes,
      Admin.changeModuleState, Admin.ensureAdmin, Admin.reportSlashing]
    all_goals (intros; cases_type* And Exists; subst_vars; exact host_of_frame ‹_› rfl rfl rfl)

theorem interchainCycle_host (config : Config) (params : HostParams) :
    ⦃fun s => ⌜s = s₀ ∧ HostInv s₀⌝⦄ Cycle.interchainCycle env config params
    ⦃⇓? _ s => ⌜HostInv s ∧ HostStep s₀ s (.privileged .endBlock)⌝⦄ := by
  mvcgen [Cycle.interchainCycle, Cycle.restakeRewards, Transport.queueSetupIfReady, Transport.queue,
    Cycle.saveAccounts, Cycle.returnMatured_writes, Cycle.shipDeposits_writes,
    Cycle.interchainDelegations_writes, Cycle.interchainRedelegations_writes]
  all_goals (cases_type* And Exists; subst_vars)
  -- the delegator queues nothing: only the restake, if any, moved the accounts
  any_goals exact queued_host ‹_› ‹_› (by rfl) .refl (by rfl)
  any_goals exact queued_host ‹_› ‹_› (by rfl) (.enqueue .rewards .refl ‹_› fun _ => ⟨_, rfl⟩) (by rfl)
  -- the delegator queues its setup or its cycle, after the restake if any
  any_goals exact queued_host ‹_› ‹_› (by rfl) (.enqueue .delegator .refl ‹_› fun h => absurd h (by decide)) (by rfl)
  all_goals
    exact queued_host ‹_› ‹_› (by rfl)
      (.enqueue .delegator (.enqueue .rewards .refl ‹_› fun _ => ⟨_, rfl⟩) ‹_› fun h => absurd h (by decide)) (by rfl)

theorem packetResult_host (ownerId : String) (seq : Nat) (outcome : PacketOutcome) :
    ⦃fun s => ⌜s = s₀ ∧ HostInv s₀⌝⦄ Transport.packetResult env ownerId seq outcome
    ⦃⇓? _ s => ⌜HostInv s ∧ HostStep s₀ s (.privileged (.packetResult ownerId seq outcome))⌝⦄ := by
  cases outcome
  case success =>
    mvcgen [Transport.packetResult, Transport.ensureInterchain, Transport.roleOf,
      Transport.takeInstruction, Transport.confirm_writes, Transport.compensate_writes]
    cases_type* And Exists
    subst_vars
    exact confirmed_host ‹_› ‹_› ‹_› ‹_› ‹_› rfl rfl rfl
  all_goals
    mvcgen [Transport.packetResult, Transport.ensureInterchain, Transport.roleOf,
      Transport.takeInstruction, Transport.confirm_writes, Transport.compensate_writes]
    cases_type* And Exists
    subst_vars
    exact settled_host ‹_› ‹_› ‹_› ‹_› rfl rfl rfl

theorem openAck_host (ownerId address : String) :
    ⦃fun s => ⌜s = s₀ ∧ HostInv s₀⌝⦄ Transport.openAck env ownerId address
    ⦃⇓? _ s => ⌜HostInv s ∧ HostStep s₀ s (.privileged (.openAck ownerId address))⌝⦄ := by
  mvcgen [Transport.openAck, Transport.ensureInterchain, Transport.roleOf,
    Transport.queueSetupIfReady, Transport.queue]
  all_goals (cases_type* And Exists; subst_vars)
  -- the delegator queues its setup once both accounts are known
  any_goals exact acked_host ‹_› ‹_› ‹_› ‹_› (.enqueue .delegator .refl ‹_› fun h => absurd h (by decide)) (by rfl) (by rfl)
  all_goals exact acked_host ‹_› ‹_› ‹_› ‹_› .refl (by rfl) (by rfl)

theorem channelClosed_host (ownerId : String) :
    ⦃fun s => ⌜s = s₀ ∧ HostInv s₀⌝⦄ Transport.channelClosed ownerId
    ⦃⇓? _ s => ⌜HostInv s ∧ HostStep s₀ s (.privileged (.channelClosed ownerId))⌝⦄ := by
  mvcgen [Transport.channelClosed, Transport.ensureInterchain, Transport.roleOf,
    Transport.takeInstruction, Transport.compensate_writes]
  all_goals (cases_type* And Exists; subst_vars)
  · exact closed_idle_host ‹_› ‹_› ‹_› (by rfl) (by rfl) (by rfl)
  · exact closed_busy_host ‹_› ‹_› ‹_› ‹_› (by rfl) (by rfl) (by rfl)

theorem privileged_host (m : SudoMsg) :
    ⦃fun s => ⌜s = s₀ ∧ HostInv s₀⌝⦄ Contract.privileged env m
    ⦃⇓? _ s => ⌜HostInv s ∧ HostStep s₀ s (.privileged m)⌝⦄ := by
  cases m
  case endBlock =>
    mvcgen [Contract.privileged, Cycle.endBlock, interchainCycle_host, Cycle.nativeCycle,
      Cycle.nativeTargets, Cycle.plan, Cycle.harvestNative_writes, Cycle.nativeDelegations_writes,
      Cycle.nativeRedelegations_writes]
    -- the interchain cycle is taken care of by its own triple; the native one writes no account
    all_goals (cases_type* And Exists; subst_vars; exact host_of_frame ‹_› rfl rfl rfl)
  case applyProposal p =>
    mvcgen [Contract.privileged, Governance.apply, Cycle.rebalanceNow, Cycle.nativeTargets,
      Cycle.plan, Cycle.harvestNative_writes, Cycle.nativeRedelegations_writes,
      Cycle.interchainRedelegations_writes, Transport.queue, Cycle.saveAccounts]
    all_goals (cases_type* And Exists; subst_vars)
    any_goals exact feeAddress_host ‹_› (Address.isEmpty_of_validate ‹_›) rfl rfl (by rfl)
    -- a new minimum deposit and new fee rates leave every field of the parameters in place
    any_goals exact params_host ‹_› rfl rfl rfl ‹_›
    any_goals exact host_of_frame ‹_› rfl rfl rfl
    -- the interchain rebalance queues its redelegations on the delegator
    all_goals exact queued_host ‹_› ‹_› (by rfl) (.enqueue .delegator .refl ‹_› fun h => absurd h (by decide)) (by rfl)
  all_goals
    mvcgen [Contract.privileged, packetResult_host, openAck_host, channelClosed_host,
      Transport.observe, Transport.ensureInterchain]
    all_goals (cases_type* And Exists; subst_vars; exact host_of_frame ‹_› rfl rfl rfl)

theorem reply_host (id : Nat) (error : Option String) :
    ⦃fun s => ⌜s = s₀ ∧ HostInv s₀⌝⦄ Contract.reply env id error
    ⦃⇓? _ s => ⌜HostInv s ∧ HostStep s₀ s (.reply id error)⌝⦄ := by
  mvcgen [Contract.reply, Cycle.handleReply, Recording.unrecord_writes]
  all_goals (cases_type* And Exists; subst_vars; exact host_of_frame ‹_› rfl rfl rfl)

theorem migrate_host :
    ⦃fun s => ⌜s = s₀ ∧ HostInv s₀⌝⦄ Contract.migrate
    ⦃⇓? _ s => ⌜HostInv s ∧ HostStep s₀ s .migrate⌝⦄ := by
  mvcgen [Contract.migrate]
  all_goals (cases_type* And Exists; subst_vars; exact host_of_frame ‹_› rfl rfl rfl)

theorem instantiate_host (m : InstantiateMsg) :
    ⦃fun s => ⌜s = s₀ ∧ HostInv s₀⌝⦄ Contract.instantiate m
    ⦃⇓? _ s => ⌜HostInv s ∧ HostStep s₀ s (.instantiate m)⌝⦄ := by
  mvcgen [Contract.instantiate]
  all_goals (cases_type* And Exists; subst_vars; exact host_of_frame ‹_› rfl rfl rfl)

/-- Every transaction keeps the protocol. -/
theorem transaction_host (c : Call) :
    ⦃fun s => ⌜s = s₀ ∧ HostInv s₀⌝⦄ Session.transaction env c
    ⦃⇓? _ s => ⌜HostInv s ∧ HostStep s₀ s c⌝⦄ := by
  cases c <;> mvcgen [Session.transaction, instantiate_host, execute_host, privileged_host,
    reply_host, migrate_host]

end Entries

/-- Empty storage keeps the protocol: nothing is opened and nothing is stored. -/
theorem HostInv.empty : HostInv State.empty := fun k => Table.get?_empty k

/-- A committed transaction keeps the protocol and moves the accounts only as its call may. -/
theorem HostInv.transaction {s s' : State} {env : Env} {c : Call} {r : Response × List String}
    (h : HostInv s) (hr : (Session.transaction env c).run s = .ok (r, s')) :
    HostInv s' ∧ HostStep s s' c :=
  Triple.run_ok (transaction_host env s c) ⟨rfl, h⟩ hr

/-- Every reachable state keeps the protocol. -/
theorem Reachable.hostInv {s : State} (h : Reachable s) : HostInv s := by
  induction h with
  | created hr => exact (HostInv.empty.transaction hr).1
  | step _ _ hr ih => exact (ih.transaction hr).1

/-- On every reachable state the host accounts agree with the outbound store, and every
committed call from it moves sequence numbers only forward, writes the store only at numbers
not used before, and makes the delegator active only by the success of its setup. -/
theorem host_account_protocol {s : State} (h : Reachable s) :
    HostInv s ∧ ∀ env c r s', (Session.transaction env c).run s = .ok (r, s') → HostStep s s' c :=
  ⟨h.hostInv, fun _ _ _ _ hr => (h.hostInv.transaction hr).2⟩

theorem host_account_protocol_created :
    Reachable ((Session.start Session.startTime).step
      (.call (.instantiate ⟨"admin", .interchain, 100, none, some "transport", none, none⟩))).1.state ∧
    HostInv ((Session.start Session.startTime).step
      (.call (.instantiate ⟨"admin", .interchain, 100, none, some "transport", none, none⟩))).1.state ∧
    ∀ env c r s', (Session.transaction env c).run ((Session.start Session.startTime).step
      (.call (.instantiate ⟨"admin", .interchain, 100, none, some "transport", none, none⟩))).1.state =
        .ok (r, s') →
      HostStep ((Session.start Session.startTime).step
        (.call (.instantiate ⟨"admin", .interchain, 100, none, some "transport", none, none⟩))).1.state
        s' c := by
  have h : Reachable ((Session.start Session.startTime).step
      (.call (.instantiate ⟨"admin", .interchain, 100, none, some "transport", none, none⟩))).1.state :=
    @Reachable.created (Session.start Session.startTime).env
      ⟨"admin", .interchain, 100, none, some "transport", none, none⟩ _ _ (by rfl)
  exact ⟨h, host_account_protocol h⟩

end LiquidStaking
