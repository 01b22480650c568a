import LiquidStaking.Proofs.Writes
import LiquidStaking.Proofs.Apportion

/-! # The parameter store

Registration stores the host chain parameters and the allow list once; afterwards
governance may change the minimum deposit and the fee rates, the fee address, or the allow
list, each after the same checks as registration. A fee address set before registration
lands in a placeholder record with no chain and zero rates.

`ParamInv` is what every reachable state keeps: a stored record has accepted fee rates and
is either a valid registration or has no chain, and a stored allow list is accepted. Only
registration and governance write either, so every other call keeps them by its frame.
Registration is permanent, so registration succeeds at most once; on the interchain ledger it
is also the only call that opens the host accounts.
-/
set_option mvcgen.warning false

namespace LiquidStaking

theorem checkTargets_eq_ok : ∀ {l : List Target} {seen : List String} {total total' : Decimal},
    checkTargets l seen total = .ok total' →
      (∀ t ∈ l, validateValoper t.validator = .ok ()) ∧ (l.map Target.validator).Nodup ∧
      (∀ t ∈ l, t.validator ∉ seen) ∧
      total'.atomics.toNat = total.atomics.toNat + (l.map fun t => t.weight.atomics.toNat).sum
  | [], seen, total, total', h => by
    simp only [checkTargets] at h
    cases h
    simp
  | t :: rest, seen, total, total', h => by
    simp only [checkTargets] at h
    cases hv : validateValoper t.validator with
    | error e => simp [hv, bind, Except.bind] at h
    | ok u =>
      simp only [hv, bind, Except.bind] at h
      split at h
      · cases h
      · next hseen =>
        cases hadd : total.add? t.weight with
        | none => simp [hadd] at h
        | some sum =>
          simp only [hadd] at h
          obtain ⟨hval, hnd, hfresh, htotal⟩ := checkTargets_eq_ok h
          have hsum : sum.atomics.toNat = total.atomics.toNat + t.weight.atomics.toNat := by
            unfold Decimal.add? at hadd
            obtain ⟨a, ha, rfl⟩ := Option.map_eq_some_iff.mp hadd
            exact Amount.add?_eq_some_iff.mp ha
          refine ⟨?_, ?_, ?_, ?_⟩
          · intro x hx
            rcases List.mem_cons.mp hx with rfl | hx
            · cases u; exact hv
            · exact hval x hx
          · refine List.nodup_cons.mpr ⟨fun hmem => ?_, hnd⟩
            obtain ⟨x, hx, hxv⟩ := List.mem_map.mp hmem
            exact hfresh x hx (by simp [hxv])
          · intro x hx
            rcases List.mem_cons.mp hx with rfl | hx
            · simpa using hseen
            · exact fun hs => hfresh x hx (List.mem_cons_of_mem _ hs)
          · simp only [List.map_cons, List.sum_cons]
            omega

/-- An accepted allow list is non-empty, names distinct accepted operator addresses, and its
weights sum to exactly one. -/
theorem validateAllowList_eq_ok {l : List Target} (h : validateAllowList l = .ok ()) :
    l ≠ [] ∧ (l.map Target.validator).Nodup ∧ (∀ t ∈ l, validateValoper t.validator = .ok ()) ∧
      (l.map fun t => t.weight.atomics.toNat).sum = Decimal.scale := by
  unfold validateAllowList at h
  simp only [bind, Except.bind] at h
  split at h
  · cases h
  · next hne =>
    cases hc : checkTargets l [] Decimal.zero with
    | error e => simp [hc] at h
    | ok total =>
      simp only [hc] at h
      split at h
      · cases h
      · next hone =>
        obtain ⟨hval, hnd, -, htotal⟩ := checkTargets_eq_ok hc
        have hone' : total = Decimal.one := by simpa using hone
        refine ⟨by simpa using hne, hnd, hval, ?_⟩
        rw [hone'] at htotal
        simpa [Decimal.one, Decimal.zero] using htotal.symm

/-- Host chain parameters are accepted exactly when every field is set, the derivative is
named after the base, the minimum deposit is positive and the fee rates are accepted. -/
theorem HostParams.validate_eq_ok_iff {p : HostParams} :
    p.validate = .ok () ↔ p.hasMissingField = false ∧ p.mintDenom = Denom.mintDenom p.baseDenom ∧
      p.minDeposit.isZero = false ∧ p.fees.rates.validate = .ok () := by
  unfold HostParams.validate
  by_cases hm : p.hasMissingField = true <;>
    by_cases hd : p.mintDenom = Denom.mintDenom p.baseDenom <;>
    by_cases hz : p.minDeposit.isZero = true <;> simp_all [bind, Except.bind]

namespace Governance

variable {p : Proposal} {u : Unit}

/-- A proposal accepted before the vote has an accepted content. -/
theorem validate_content (h : validate p = .ok u) :
    match p.content with
    | .minDepositAndFeeChange minDeposit rates => minDeposit.isZero = false ∧ rates.validate = .ok ()
    | .feeAddressChange a => ∃ a', Address.validate a = .ok a'
    | .allowListChange targets => validateAllowList targets = .ok () := by
  unfold validate at h
  simp only [bind, Except.bind] at h
  -- the title and description checks passed
  split at h
  · cases h
  split at h
  · cases h
  split at h
  · cases h
  split at h
  · cases h
  cases hc : p.content with
  | minDepositAndFeeChange md rates =>
    rw [hc] at h
    by_cases hz : md.isZero = true
    · simp [hz] at h
    · simp only [hz, Bool.false_eq_true, if_false] at h
      cases u
      exact ⟨by simpa using hz, h⟩
  | feeAddressChange a =>
    rw [hc] at h
    cases ha : Address.validate a with
    | ok a' => exact ⟨a', ha⟩
    | error e => simp [ha] at h
  | allowListChange targets =>
    rw [hc] at h
    cases u
    exact h

end Governance

section Fees

@[simp] theorem Decimal.not_le {a b : Decimal} : ¬a ≤ b ↔ b < a := Nat.not_le

@[simp] theorem Decimal.not_lt {a b : Decimal} : ¬a < b ↔ b ≤ a := Nat.not_lt

/-- The rate of one kind of fee. -/
def FeeRates.rate (r : FeeRates) : FeeKind → Decimal
  | .deposit => r.deposit
  | .restake => r.restake
  | .unstake => r.unstake
  | .redemption => r.redemption

theorem FeeKind.check_eq_ok_iff {k : FeeKind} {x : Decimal} :
    k.check x = .ok () ↔ x < k.ceiling := by
  unfold check
  split <;> simp_all

theorem FeeKind.ceiling_lt_one (k : FeeKind) : k.ceiling < Decimal.one := by
  cases k <;> decide

/-- Rates are accepted exactly when each is below its ceiling. -/
theorem FeeRates.validate_eq_ok_iff {r : FeeRates} :
    r.validate = .ok () ↔ ∀ k, r.rate k < k.ceiling := by
  have hall : (∀ k, r.rate k < k.ceiling) ↔ r.deposit < FeeKind.deposit.ceiling ∧
      r.restake < FeeKind.restake.ceiling ∧ r.unstake < FeeKind.unstake.ceiling ∧
      r.redemption < FeeKind.redemption.ceiling :=
    ⟨fun h => ⟨h .deposit, h .restake, h .unstake, h .redemption⟩,
      fun ⟨hd, hr, hu, hx⟩ k => by cases k <;> assumption⟩
  rw [hall, ← FeeKind.check_eq_ok_iff, ← FeeKind.check_eq_ok_iff, ← FeeKind.check_eq_ok_iff,
    ← FeeKind.check_eq_ok_iff]
  unfold validate
  cases FeeKind.deposit.check r.deposit <;> cases FeeKind.restake.check r.restake <;>
    cases FeeKind.unstake.check r.unstake <;> cases FeeKind.redemption.check r.redemption <;>
    simp [bind, Except.bind]

/-- A rate of at most one takes no more than the whole amount. -/
theorem Amount.mulDecimal?_le (amount : Amount) {rate : Decimal} (h : rate ≤ Decimal.one) :
    ∃ fee, amount.mulDecimal? rate = some fee ∧ fee.toNat ≤ amount.toNat := by
  unfold Amount.mulDecimal?
  split
  · exact ⟨Amount.zero, rfl, by simp [Amount.zero]⟩
  · have hq : amount.toNat * rate.atomics.toNat / Decimal.scale ≤ amount.toNat :=
      Nat.div_le_of_le_mul (Nat.mul_comm _ amount.toNat ▸ Nat.mul_le_mul_right _ h)
    have hlt := Nat.lt_of_le_of_lt hq amount.lt_bound
    exact ⟨⟨_, hlt⟩, by simp [Amount.mulDiv?, Amount.ofNat?, Amount.scale, hlt], hq⟩

/-- A rate of at most one splits every amount into a fee and a rest that add up to it. -/
theorem splitFee_eq_ok (amount : Amount) {rate : Decimal} (h : rate ≤ Decimal.one) :
    ∃ fs : FeeSplit, splitFee amount rate = .ok fs ∧ fs.fee.toNat + fs.net.toNat = amount.toNat := by
  obtain ⟨fee, hfee, hle⟩ := Amount.mulDecimal?_le amount h
  refine ⟨⟨fee, ⟨amount.toNat - fee.toNat, by have := amount.lt_bound; omega⟩⟩, ?_, by simp; omega⟩
  simp [splitFee, hfee, Amount.sub?, hle]

end Fees

/-- Registered host chain parameters: stored, with every field set. -/
def Registered (s : State) : Prop := ∃ p, s.params = some p ∧ p.hasMissingField = false

/-- What the module keeps true of its stored parameters: fee rates below their ceilings, a
record that is either a valid registration or has no chain at all, and an accepted allow
list. -/
structure ParamInv (s : State) : Prop where
  stored : ∀ p, s.params = some p →
    p.fees.rates.validate = .ok () ∧ (p.validate = .ok () ∨ p.chainId = "")
  allowList : ∀ l, s.allowList = some l → validateAllowList l = .ok ()

namespace ParamInv

variable {s s' : State}

theorem of_eq (h : ParamInv s) (hp : s'.params = s.params) (hl : s'.allowList = s.allowList) :
    ParamInv s' :=
  ⟨fun p hs => h.stored p (hp ▸ hs), fun l hs => h.allowList l (hl ▸ hs)⟩

/-- A step that leaves the parameters and the allow list keeps the invariant and the
registration. -/
theorem frame (h : ParamInv s) (hp : s'.params = s.params) (hl : s'.allowList = s.allowList) :
    ParamInv s' ∧ (Registered s → Registered s') :=
  ⟨h.of_eq hp hl, fun ⟨q, hq, hm⟩ => ⟨q, hp ▸ hq, hm⟩⟩

theorem setAllowList (h : ParamInv s) {l : List Target} (hl : validateAllowList l = .ok ()) :
    ParamInv { s with allowList := some l } :=
  ⟨h.stored, fun l' hl' => by cases hl'; exact hl⟩

/-- A stored record with every field set is a valid registration: the placeholder has no
chain. -/
theorem validate_of_registered (h : ParamInv s) {q : HostParams} (hq : s.params = some q)
    (hm : q.hasMissingField = false) : q.validate = .ok () := by
  rcases (h.stored q hq).2 with hv | hc
  · exact hv
  · simp [HostParams.hasMissingField, hc] at hm

/-- New minimum deposit and rates on a registered record keep it a valid registration. -/
theorem minDepositChange (h : ParamInv s) {q : HostParams} {md : Amount} {rates : FeeRates}
    (hq : s.params = some q) (hm : ¬q.hasMissingField = true) (hz : md.isZero = false)
    (hr : rates.validate = .ok ()) :
    ParamInv { s with params := some { q with minDeposit := md, fees := { q.fees with rates } } } ∧
      (Registered s → Registered
        { s with params := some { q with minDeposit := md, fees := { q.fees with rates } } }) := by
  have hm' : q.hasMissingField = false := by simpa using hm
  obtain ⟨-, hden, -, -⟩ := HostParams.validate_eq_ok_iff.mp (h.validate_of_registered hq hm')
  have hnew : ({ q with minDeposit := md, fees := { q.fees with rates } } : HostParams).validate =
      .ok () :=
    HostParams.validate_eq_ok_iff.mpr ⟨by simpa [HostParams.hasMissingField] using hm', hden, hz, hr⟩
  refine ⟨⟨?_, h.allowList⟩, fun _ => ⟨_, rfl, by simpa [HostParams.hasMissingField] using hm'⟩⟩
  intro p hp
  cases hp
  exact ⟨hr, .inl hnew⟩

/-- A new fee address keeps the rates, and keeps a valid registration valid; before
registration it lands in the placeholder record, whose rates are zero. -/
theorem feeAddressChange (h : ParamInv s) {a f : String} (hv : Address.validate a = .ok f) :
    let q := s.params.getD (HostParams.placeholder f)
    ParamInv { s with params := some { q with fees := { q.fees with address := f } } } ∧
      (Registered s → Registered { s with params := some { q with fees := { q.fees with address := f } } }) := by
  intro q
  have hf : f.isEmpty = false := Address.isEmpty_of_validate hv
  have hstored : q.fees.rates.validate = .ok () ∧ (q.validate = .ok () ∨ q.chainId = "") := by
    cases hq : s.params with
    | none => exact ⟨by simp [q, hq, HostParams.placeholder]; decide, .inr (by simp [q, hq, HostParams.placeholder])⟩
    | some p => simpa [q, hq] using h.stored p hq
  refine ⟨⟨?_, h.allowList⟩, ?_⟩
  · intro p hp
    cases hp
    refine ⟨hstored.1, ?_⟩
    rcases hstored.2 with hv' | hc
    · obtain ⟨hm, hden, hz, hr⟩ := HostParams.validate_eq_ok_iff.mp hv'
      refine .inl (HostParams.validate_eq_ok_iff.mpr ⟨?_, hden, hz, hr⟩)
      simp only [HostParams.hasMissingField, Bool.or_eq_false_iff] at hm ⊢
      exact ⟨hm.1, hf⟩
    · exact .inr hc
  · rintro ⟨p, hp, hm⟩
    refine ⟨_, rfl, ?_⟩
    simp only [q, hp, Option.getD_some, HostParams.hasMissingField, Bool.or_eq_false_iff] at hm ⊢
    exact ⟨hm.1, hf⟩

/-- Validated parameters and a validated allow list make a registration. -/
theorem register {p : HostParams} {l : List Target} {u v : Unit} (hs : s.params = some p)
    (hsl : s.allowList = some l) (hp : p.validate = .ok u) (hl : validateAllowList l = .ok v) :
    ParamInv s ∧ Registered s := by
  obtain ⟨hm, -, -, hr⟩ := HostParams.validate_eq_ok_iff.mp hp
  refine ⟨⟨fun q hq => ?_, fun l' hl' => ?_⟩, p, hs, hm⟩
  · rw [hs] at hq
    cases hq
    exact ⟨hr, .inl hp⟩
  · rw [hsl] at hl'
    cases hl'
    exact hl

end ParamInv

namespace Registered

variable {s : State}

/-- A record with a missing field is no registration. -/
theorem not_of_missing {q : HostParams} (hq : s.params = some q)
    (hm : ¬(!q.hasMissingField) = true) : ¬Registered s := by
  rintro ⟨p, hp, hp'⟩
  rw [hq] at hp
  cases hp
  simp [hp'] at hm

theorem not_of_none (h : ∀ q, s.params = some q → False) : ¬Registered s :=
  fun ⟨q, hq, _⟩ => h q hq

end Registered

namespace Governance

variable {s : State} {p : Proposal} {u : Unit}

theorem minDeposit_params (h : ParamInv s) (hv : validate p = .ok u) {md : Amount}
    {rates : FeeRates} (hc : p.content = .minDepositAndFeeChange md rates) {q : HostParams}
    (hq : s.params = some q) (hm : ¬q.hasMissingField = true) :
    ParamInv { s with params := some { q with minDeposit := md, fees := { q.fees with rates } } } ∧
      (Registered s → Registered
        { s with params := some { q with minDeposit := md, fees := { q.fees with rates } } }) := by
  have := validate_content hv
  rw [hc] at this
  exact h.minDepositChange hq hm this.1 this.2

theorem allowList_params (h : ParamInv s) (hv : validate p = .ok u) {targets : List Target}
    (hc : p.content = .allowListChange targets) :
    ParamInv { s with allowList := some targets } := by
  have := validate_content hv
  rw [hc] at this
  exact h.setAllowList this

end Governance

/-- Whether a call is a jump start, the registration of the host chain. -/
def Call.IsJumpStart : Call → Prop
  | .execute _ _ (.jumpStart _) => True
  | _ => False

open Std.Do Tx

section Entries

variable (env : Env) (s₀ : State)

theorem apply_params (p : Proposal) :
    ⦃fun s => ⌜s = s₀ ∧ ParamInv s₀⌝⦄ Session.transaction env (.privileged (.applyProposal p))
    ⦃⇓? _ s => ⌜ParamInv s ∧ (Registered s₀ → Registered s)⌝⦄ := by
  mvcgen [Session.transaction, Contract.privileged, Governance.apply, Cycle.rebalanceNow,
    Cycle.nativeTargets, Cycle.plan, Cycle.harvestNative_writes, Cycle.nativeRedelegations_writes,
    Cycle.interchainRedelegations_writes, Transport.queue, Cycle.saveAccounts]
  all_goals (cases_type* And Exists; subst_vars)
  -- new fee rates, or a new fee address, rewrite the record
  any_goals exact Governance.minDeposit_params ‹_› ‹_› ‹_› ‹_› ‹_›
  any_goals exact ParamInv.feeAddressChange ‹_› ‹_›
  -- a new allow list, then the redelegation pass, which writes neither
  all_goals
    have hinv := Governance.allowList_params ‹_› ‹_› ‹_›
    exact hinv.frame rfl rfl

theorem jumpStart_params (sender : String) (funds : List Coin) (m : JumpStartMsg) :
    ⦃fun s => ⌜s = s₀ ∧ ParamInv s₀⌝⦄ Session.transaction env (.execute sender funds (.jumpStart m))
    ⦃⇓? _ s => ⌜ParamInv s ∧ ¬Registered s₀ ∧ Registered s⌝⦄ := by
  mvcgen [Session.transaction, Contract.execute, Admin.jumpStart, Admin.ensureAdmin,
    Admin.nameToken]
  all_goals
    cases_type* And Exists
    subst_vars
    rw [and_left_comm]
    refine ⟨?_, ParamInv.register rfl rfl ‹_› ‹_›⟩
    -- the guard let through only an absent record or one with a missing field
    first
      | exact Registered.not_of_missing ‹_› ‹_›
      | exact Registered.not_of_none ‹_›

/-! Every call but a jump start writes the host accounts only after reading them. -/

theorem State.accounts_some_of_none {s : State} {A : HostAccounts} (hn : s.accounts = none)
    (hs : s.accounts = some A) : False := by
  rw [hn] at hs
  cases hs

theorem execute_unopened (sender : String) (funds : List Coin) (m : ExecuteMsg) :
    ⦃fun s => ⌜s = s₀ ∧ s₀.accounts = none⌝⦄ Contract.execute env sender funds m
    ⦃⇓? _ s => ⌜s.accounts = none ∨ (Call.execute sender funds m).IsJumpStart⌝⦄ := by
  cases m
  case jumpStart =>
    mvcgen [Contract.execute, Admin.jumpStart, Admin.ensureAdmin, Admin.nameToken]
    all_goals exact .inr trivial
  case recreateIca =>
    mvcgen [Contract.execute, Admin.recreateIca, Admin.ensureAdmin] invariants
    | inv1 => ⇓? _ s => ⌜s = s₀ ∧ s₀.accounts = none⌝
    cases_type* And Exists
    subst_vars
    exact (State.accounts_some_of_none ‹_› ‹_›).elim
  all_goals
    mvcgen [Contract.execute, Deposit.liquidStake, Exit.redeem, Exit.liquidUnstake, Exit.joinBatch,
      Exit.claim_writes, Admin.changeModuleState, Admin.ensureAdmin, Admin.reportSlashing,
      Transport.queue, Cycle.harvestNative_writes, Recording.recordAll_writes]
    all_goals
      intros
      (try cases_type* And Exists)
      subst_vars
      refine .inl ?_
      first
        | assumption
        | exact (State.accounts_some_of_none ‹_› ‹_›).elim

theorem privileged_unopened (m : SudoMsg) :
    ⦃fun s => ⌜s = s₀ ∧ s₀.accounts = none⌝⦄ Contract.privileged env m
    ⦃⇓? _ s => ⌜s.accounts = none⌝⦄ := by
  cases m <;>
    mvcgen [Contract.privileged, Cycle.endBlock, Cycle.nativeCycle, Cycle.interchainCycle,
      Cycle.nativeTargets, Cycle.plan, Cycle.restakeRewards, Cycle.saveAccounts,
      Cycle.harvestNative_writes, Cycle.nativeDelegations_writes, Cycle.nativeRedelegations_writes,
      Cycle.returnMatured_writes, Cycle.shipDeposits_writes, Cycle.interchainDelegations_writes,
      Cycle.interchainRedelegations_writes, Cycle.rebalanceNow, Governance.apply,
      Transport.queueSetupIfReady, Transport.queue, Transport.openAck, Transport.channelClosed,
      Transport.packetResult, Transport.observe, Transport.ensureInterchain, Transport.roleOf,
      Transport.takeInstruction, Transport.confirm_writes, Transport.compensate_writes] <;>
    ((try cases_type* And Exists); subst_vars;
      first
        | assumption
        | exact (State.accounts_some_of_none ‹_› ‹_›).elim)

theorem transaction_unopened (c : Call) :
    ⦃fun s => ⌜s = s₀ ∧ s₀.accounts = none⌝⦄ Session.transaction env c
    ⦃⇓? _ s => ⌜s.accounts = none ∨ c.IsJumpStart⌝⦄ := by
  cases c
  case execute sender funds m =>
    mvcgen [Session.transaction, execute_unopened]
    cases_type* And
    subst_vars
    exact ⟨trivial, ‹_›⟩
  case privileged m =>
    mvcgen [Session.transaction, privileged_unopened]
    · cases_type* And
      subst_vars
      exact ⟨trivial, ‹_›⟩
    · exact .inl
  all_goals
    mvcgen [Session.transaction, Contract.reply, Cycle.handleReply, Recording.unrecord_writes,
      Contract.migrate, Contract.instantiate]
    all_goals ((try cases_type* And Exists); subst_vars; exact .inl ‹_›)

end Entries

section Runs

variable {env : Env} {c : Call} {r : Response × List String} {s s' : State}

theorem registered_iff_run : Registered s ↔ ∃ p, Tx.registeredParams.run s = .ok (p, s) := by
  simp [Registered]

/-- Every committed call keeps the invariant and a registration. -/
theorem ParamInv.transaction (h : ParamInv s) (hr : (Session.transaction env c).run s = .ok (r, s')) :
    ParamInv s' ∧ (Registered s → Registered s') := by
  have hw := transaction_restrict hr
  -- only registration and governance write the parameters or the allow list
  have frame (hp : Field.params ∉ c.writes) (hl : Field.allowList ∉ c.writes) :
      ParamInv s' ∧ (Registered s → Registered s') :=
    h.frame (State.params_eq_of_restrict hw hp) (State.allowList_eq_of_restrict hw hl)
  cases c with
  | execute sender funds m =>
    cases m
    case jumpStart m =>
      have hj := Triple.run_ok (jumpStart_params env s sender funds m) ⟨rfl, h⟩ hr
      exact ⟨hj.1, fun _ => hj.2.2⟩
    all_goals apply frame <;> simp [Call.writes, ExecuteMsg.writes]
  | privileged m =>
    cases m
    case applyProposal p => exact Triple.run_ok (apply_params env s p) ⟨rfl, h⟩ hr
    all_goals apply frame <;> simp [Call.writes, SudoMsg.writes]
  | _ => apply frame <;> simp [Call.writes]

/-- A jump start commits only on a module not yet registered, and registers it. -/
theorem ParamInv.jumpStart (h : ParamInv s) {sender : String} {funds : List Coin} {m : JumpStartMsg}
    (hr : (Session.transaction env (.execute sender funds (.jumpStart m))).run s = .ok (r, s')) :
    ¬Registered s ∧ Registered s' :=
  (Triple.run_ok (jumpStart_params env s sender funds m) ⟨rfl, h⟩ hr).2

/-- Any number of later calls keep the invariant and a registration. -/
theorem ParamInv.reaches (h : ParamInv s) (hr : Reaches s s') :
    ParamInv s' ∧ (Registered s → Registered s') := by
  induction hr with
  | refl => exact ⟨h, id⟩
  | step _ hs _ ih =>
    obtain ⟨h₁, hreg₁⟩ := h.transaction hs
    obtain ⟨h₂, hreg₂⟩ := ih h₁
    exact ⟨h₂, hreg₂ ∘ hreg₁⟩

/-- From a state without host accounts, only a jump start opens them. -/
theorem opened_of_transaction (hn : s.accounts = none)
    (hr : (Session.transaction env c).run s = .ok (r, s')) (ho : s'.accounts ≠ none) :
    c.IsJumpStart :=
  (Triple.run_ok (transaction_unopened env s c) ⟨rfl, hn⟩ hr).resolve_left ho

theorem ParamInv.empty : ParamInv State.empty := by
  constructor
  · intro p h
    cases h
  · intro l h
    cases h

theorem Reachable.paramInv (h : Reachable s) : ParamInv s := by
  induction h with
  | created hr => exact (ParamInv.empty.transaction hr).1
  | step _ _ hr ih => exact (ih.transaction hr).1

namespace ParamInv

variable (h : ParamInv s)
include h

/-- Stored rates are below their ceilings, so below one, and split every amount exactly. -/
theorem feeRates {p : HostParams} (hp : s.params = some p) (k : FeeKind) :
    p.fees.rates.rate k < k.ceiling ∧ p.fees.rates.rate k < Decimal.one ∧
      ∀ a : Amount, ∃ fs, splitFee a (p.fees.rates.rate k) = .ok fs ∧
        fs.fee.toNat + fs.net.toNat = a.toNat := by
  have hk := FeeRates.validate_eq_ok_iff.mp (h.stored p hp).1 k
  have hone : p.fees.rates.rate k < Decimal.one := Nat.lt_trans hk (FeeKind.ceiling_lt_one k)
  exact ⟨hk, hone, fun a => splitFee_eq_ok a (Nat.le_of_lt hone)⟩

/-- A registration has a positive minimum deposit and names the derivative after the base. -/
theorem registration {p : HostParams} (hr : Tx.registeredParams.run s = .ok (p, s)) :
    0 < p.minDeposit.toNat ∧ p.mintDenom = "stk/" ++ p.baseDenom := by
  obtain ⟨hp, hm, -⟩ := Tx.run_registeredParams_ok.mp hr
  obtain ⟨-, hden, hz, -⟩ := HostParams.validate_eq_ok_iff.mp (h.validate_of_registered hp hm)
  refine ⟨?_, hden⟩
  simpa [Amount.isZero, Nat.pos_iff_ne_zero] using hz

/-- A stored allow list is well formed, and its desired amounts share out any total exactly. -/
theorem allowList_wf {l : List Target} (hl : s.allowList = some l) :
    l ≠ [] ∧ (l.map Target.validator).Nodup ∧ (∀ t ∈ l, validateValoper t.validator = .ok ()) ∧
      (l.map fun t => t.weight.atomics.toNat).sum = Decimal.scale ∧
      ∀ total, (Rebalance.desiredAmounts total l).sumBy (fun _ a => a.toNat) = total.toNat := by
  obtain ⟨hne, hnd, hval, hsum⟩ := validateAllowList_eq_ok (h.allowList l hl)
  have hpos : 0 < (l.map fun t => t.weight.atomics.toNat).sum := by
    rw [hsum]
    decide
  exact ⟨hne, hnd, hval, hsum, fun _ => Rebalance.sumBy_desiredAmounts hnd hpos⟩

/-- After a committed jump start no later jump start commits. -/
theorem jumpStart_last {sender : String} {funds : List Coin} {m : JumpStartMsg} {s₁ s₂ : State}
    (hr : (Session.transaction env (.execute sender funds (.jumpStart m))).run s = .ok (r, s₁))
    (hs : Reaches s₁ s₂) {env' : Env} {sender' : String} {funds' : List Coin} {m' : JumpStartMsg}
    (x : (Response × List String) × State) :
    (Session.transaction env' (.execute sender' funds' (.jumpStart m'))).run s₂ ≠ .ok x := by
  intro hr'
  have hreg₁ := (h.jumpStart hr).2
  obtain ⟨h₂, hreg⟩ := (h.transaction hr).1.reaches hs
  exact (h₂.jumpStart hr').1 (hreg hreg₁)

end ParamInv

end Runs

/-- What the parameter store guarantees of a state and of every run from it. -/
structure ParamStore (s : State) : Prop where
  /-- Every stored fee rate is below its ceiling and below one, and splits any amount into a
  fee and a rest that add up to it. -/
  feeRates : ∀ p, s.params = some p → ∀ k : FeeKind,
    p.fees.rates.rate k < k.ceiling ∧ p.fees.rates.rate k < Decimal.one ∧
      ∀ a : Amount, ∃ fs, splitFee a (p.fees.rates.rate k) = .ok fs ∧
        fs.fee.toNat + fs.net.toNat = a.toNat
  /-- A registration has a positive minimum deposit and names the derivative after the base. -/
  registration : ∀ p, Tx.registeredParams.run s = .ok (p, s) →
    0 < p.minDeposit.toNat ∧ p.mintDenom = "stk/" ++ p.baseDenom
  /-- A stored allow list is non-empty, over distinct accepted operators, with weights summing
  to one, and its desired amounts share out any total exactly. -/
  allowList : ∀ l, s.allowList = some l →
    l ≠ [] ∧ (l.map Target.validator).Nodup ∧ (∀ t ∈ l, validateValoper t.validator = .ok ()) ∧
      (l.map fun t => t.weight.atomics.toNat).sum = Decimal.scale ∧
      ∀ total, (Rebalance.desiredAmounts total l).sumBy (fun _ a => a.toNat) = total.toNat
  /-- Once the registered parameters load, they load in every later state. -/
  permanent : ∀ s', Reaches s s' → ∀ p, Tx.registeredParams.run s = .ok (p, s) →
    ∃ p', Tx.registeredParams.run s' = .ok (p', s')
  /-- A jump start that commits is the last one to. -/
  jumpStartOnce : ∀ env sender funds m r s₁,
    (Session.transaction env (.execute sender funds (.jumpStart m))).run s = .ok (r, s₁) →
    ∀ s₂, Reaches s₁ s₂ → ∀ env' sender' funds' m' x,
      (Session.transaction env' (.execute sender' funds' (.jumpStart m'))).run s₂ ≠ .ok x
  /-- Only a jump start opens the host accounts. -/
  opensAccounts : s.accounts = none → ∀ env c r s',
    (Session.transaction env c).run s = .ok (r, s') → s'.accounts ≠ none → c.IsJumpStart

/-- Every reachable state keeps the parameter store. -/
theorem parameter_store {s : State} (h : Reachable s) : ParamStore s := by
  have hinv := h.paramInv
  refine ⟨fun _ hp k => hinv.feeRates hp k, fun _ hr => hinv.registration hr,
    fun _ hl => hinv.allowList_wf hl, ?_, fun _ _ _ _ _ _ hr _ hs _ _ _ _ x =>
      hinv.jumpStart_last hr hs x, fun hn _ _ _ _ hr ho => opened_of_transaction hn hr ho⟩
  -- registration is read back as the loading of the registered parameters
  intro s' hs p hr
  have hreg : Registered s := registered_iff_run.mpr ⟨p, hr⟩
  exact registered_iff_run.mp ((hinv.reaches hs).2 hreg)

theorem parameter_store_created :
    Reachable ((Session.start Session.startTime).step
      (.call (.instantiate ⟨"admin", .native, 100, none, none, none, none⟩))).1.state ∧
    ParamStore ((Session.start Session.startTime).step
      (.call (.instantiate ⟨"admin", .native, 100, none, none, none, none⟩))).1.state := by
  have h : Reachable ((Session.start Session.startTime).step
      (.call (.instantiate ⟨"admin", .native, 100, none, none, none, none⟩))).1.state :=
    @Reachable.created (Session.start Session.startTime).env
      ⟨"admin", .native, 100, none, none, none, none⟩ _ _ (by rfl)
  exact ⟨h, parameter_store h⟩

end LiquidStaking
