import Mathlib
import LiquidStaking.Proofs.RecordedTable

/-! # Unstaking never overdraws a delegation

An unstake splits the base it unbonds over the recorded delegations in proportion to them
(`Rebalance.splitUndelegation`) and records one undelegation per part, each a checked
subtraction from its validator's entry. The split gives no validator more than it holds when
the unbonding is at most their total (`Rebalance.splitUndelegation_within`), and the unstake
checks exactly that before it records anything. Reading the table's entries as what each
validator holds needs the table sorted, and every call keeps it so
(`Reachable.delegations_sorted`). From every reachable state an unstake therefore never fails
on an overdrawn delegation, and a committed one has taken the split off the delegations,
lowering their total by the amount it records as owed to its owner.
-/
set_option mvcgen.warning false

namespace LiquidStaking

open Std.Do Tx Rebalance

/-! ## How an unstake can fail -/

/-- A checked subtraction that went below zero: how a recorded delegation that an undelegation
overdraws fails. -/
def Failure.Underflow : Failure → Prop
  | .reject (.base (.overflow .sub _ _)) => True
  | _ => False

instance (e : Failure) : Decidable e.Underflow := by
  unfold Failure.Underflow
  split <;> infer_instance

theorem Valuation.aborting_not_underflow {α : Type} {x : Except Abort α} {e : Failure}
    (h : aborting x = .error e) : ¬ e.Underflow := by
  cases x with
  | ok a => cases h
  | error a =>
    cases h
    exact id

/-- The rate fails only for want of a configuration or on an overflowing sum. -/
theorem Valuation.currentRate_not_underflow {s : State} {view : StakingView} {e : Failure}
    (h : currentRate s view = .error e) : ¬ e.Underflow := by
  unfold currentRate at h
  cases ht : totalRewards s view with
  | ok r =>
    rw [ht] at h
    exact aborting_not_underflow h
  | error e' =>
    rw [ht] at h
    obtain rfl : e' = e := by simpa [bind, Except.bind] using h
    unfold totalRewards at ht
    split at ht
    · split at ht
      · split at ht
        · simp [pure, Except.pure] at ht
        · exact aborting_not_underflow ht
      · simp [pure, Except.pure] at ht
    · cases ht
      exact id

/-- Operations fail to take a native form only as a generic error. -/
theorem HostMsg.mapM_toNative_error {d : String} {e : BaseError} :
    ∀ {ms : List HostMsg}, ms.mapM (·.toNative d) = .error e → ∃ t, e = .generic t
  | [], h => by simp [pure, Except.pure] at h
  | m :: ms, h => by
    rw [List.mapM_cons] at h
    cases hm : m.toNative d with
    | error e' =>
      rw [hm] at h
      obtain rfl : e' = e := by simpa [bind, Except.bind] using h
      cases m <;> simp [toNative] at hm ⊢ <;> exact ⟨_, hm.symm⟩
    | ok c =>
      rw [hm] at h
      cases hms : ms.mapM (·.toNative d) with
      | error e' =>
        rw [hms] at h
        obtain rfl : e' = e := by simpa [bind, Except.bind] using h
        exact mapM_toNative_error hms
      | ok cs =>
        rw [hms] at h
        simp [bind, Except.bind, pure, Except.pure] at h

theorem HostMsg.mapM_toNative_not_underflow {ms : List HostMsg} {d : String} {e : BaseError}
    (h : ms.mapM (·.toNative d) = .error e) : ¬ (Failure.reject (.base e)).Underflow := by
  obtain ⟨t, rfl⟩ := mapM_toNative_error h
  exact id

theorem Transport.ensureCanSend_not_underflow {a : HostAccount} {k : InstructionKind} {e : Error}
    (h : ensureCanSend a k = .error e) : ¬ (Failure.reject e).Underflow := by
  unfold ensureCanSend at h
  split at h
  · cases h
    exact id
  · split at h <;> simp only at h <;> split at h <;> cases h <;> exact id

@[spec] theorem Cycle.harvestNative_no_underflow {env : Env} {params : HostParams}
    {rate : ExchangeRate} {only : Option (List String)} {s₀ : State} :
    ⦃fun s => ⌜s = s₀⌝⦄ harvestNative env params rate only
    ⦃(fun _ s => ⌜∃ p t b, s = { s₀ with pendingDeposits := p, token := t, balances := b }⌝,
      fun e => ⌜¬ e.Underflow⌝, ())⦄ := by
  mvcgen [harvestNative]
  all_goals (intros; (try cases_type* And Exists); subst_vars)
  all_goals first
    | exact ⟨_, _, _, rfl⟩
    | exact id

/-! ## Recording the split -/

theorem Rebalance.foldlM_add?_toNat : ∀ {xs : List Amount} {acc d : Amount},
    xs.foldlM Amount.add? acc = some d → d.toNat = acc.toNat + (xs.map Amount.toNat).sum
  | [], acc, d, h => by
    simp only [List.foldlM_nil] at h
    cases h
    simp
  | x :: xs, acc, d, h => by
    rw [List.foldlM_cons] at h
    cases hx : acc.add? x with
    | none => simp [hx] at h
    | some c =>
      rw [hx, Option.bind_eq_bind, Option.bind_some] at h
      have hc := Amount.add?_eq_some_iff.mp hx
      rw [foldlM_add?_toNat h, hc, List.map_cons, List.sum_cons]
      omega

/-- A total that does not overflow is the sum of the delegations. -/
theorem Rebalance.total_toNat {current : List (String × Amount)} {d : Amount}
    (h : total current = .ok d) : d.toNat = (current.map (·.2.toNat)).sum := by
  unfold total Amount.sum? at h
  split at h
  · next t ht =>
    cases h
    rw [foldlM_add?_toNat ht]
    simp [List.map_map, Function.comp_def]
  · cases h

/-- An unbonding that passes the delegation check is at most what the delegations add up to. -/
theorem Rebalance.le_sum_of_check {current : List (String × Amount)} {d unbond : Amount}
    (hd : Valuation.sum (current.map Prod.snd) = .ok d) (hlt : ¬ d < unbond) :
    unbond.toNat ≤ (current.map (·.2.toNat)).sum := by
  rw [← total_toNat hd]
  exact Nat.le_of_not_lt hlt

namespace Recording

variable {g : String × Amount → HostMsg} {f : Funding}

/-- Recording undelegations that overdraw no validator commits, and each validator ends with
what it recorded less what the undelegations take from it. -/
theorem run_recordAll_undelegations (hg : ∀ e, g e = .undelegate e.1 e.2) :
    ∀ {parts : List (String × Amount)} {s : State}, s.delegations.Sorted →
      (∀ v, amountOf parts v ≤ recorded s.delegations v) →
      ∃ t, (recordAll (parts.map g) f).run s = .ok ((), { s with delegations := t }) ∧
        t.Sorted ∧ ∀ v, recorded t v + amountOf parts v = recorded s.delegations v
  | [], s, hs, _ => ⟨s.delegations, by simp [recordAll], hs, fun v => by simp⟩
  | e :: parts, s, hs, hle => by
    have he : e.2.toNat ≤ recorded s.delegations e.1 := by
      have := hle e.1
      simp only [amountOf_cons, if_pos] at this
      omega
    obtain ⟨t₁, hrun₁, hs₁, ht₁⟩ := run_subDelegation hs he
    -- what is left to take fits what the first undelegation left
    have hle₁ : ∀ v, amountOf parts v ≤ recorded t₁ v := fun v => by
      have h₁ := hle v
      have h₂ := ht₁ v
      rw [amountOf_cons] at h₁
      by_cases hv : e.1 = v
      · subst hv
        simp only [↓reduceIte] at h₁ h₂
        omega
      · simp only [hv, ↓reduceIte] at h₁ h₂
        omega
    obtain ⟨t, hrun, hst, ht⟩ :=
      run_recordAll_undelegations hg (s := { s with delegations := t₁ }) hs₁ hle₁
    refine ⟨t, ?_, hst, fun v => ?_⟩
    · rw [List.map_cons, recordAll_cons, run_bind_ok, hg]
      exact ⟨(), _, hrun₁, hrun⟩
    · have h₁ := ht v
      have h₂ := ht₁ v
      rw [amountOf_cons]
      by_cases hv : e.1 = v
      · subst hv
        simp only [↓reduceIte] at h₁ h₂ ⊢
        omega
      · simp only [hv, ↓reduceIte] at h₁ h₂ ⊢
        omega

/-- Undelegations of `parts` that a delegation table can take: the table is sorted and holds
for each validator at least what they take from it. -/
structure Undelegable (t : Table String Amount) (parts : List (String × Amount)) : Prop where
  sorted : t.Sorted
  within : ∀ v, amountOf parts v ≤ recorded t v

/-- Recording undelegations commits exactly when the table can take them. -/
@[spec] theorem recordAll_undelegations_spec {parts : List (String × Amount)} {s₀ : State}
    (hg : ∀ e, g e = .undelegate e.1 e.2) :
    ⦃fun s => ⌜s = s₀⌝⦄ recordAll (parts.map g) f
    ⦃(fun _ s => ⌜Undelegable s₀.delegations parts → ∃ t, s = { s₀ with delegations := t } ∧
        t.Sorted ∧ ∀ v, recorded t v + amountOf parts v = recorded s₀.delegations v⌝,
      fun _ => ⌜¬ Undelegable s₀.delegations parts⌝, ())⦄ := by
  intro s hs₀
  obtain rfl : s = s₀ := hs₀
  rw [wp_tx_apply]
  by_cases hu : Undelegable s.delegations parts
  · obtain ⟨t, hrun, hst, ht⟩ := run_recordAll_undelegations (f := f) hg hu.sorted hu.within
    rw [hrun]
    exact fun _ => ⟨t, rfl, hst, ht⟩
  · split
    · exact fun h => absurd h hu
    · exact hu

/-- The split of an unbonding that passed the delegation check is within the table. -/
theorem undelegable_of_check {s : State} {d unbond : Amount} (hs : s.delegations.Sorted)
    (hd : Valuation.sum (s.delegations.toList.map Prod.snd) = .ok d) (hlt : ¬ d < unbond) :
    Undelegable s.delegations (splitUndelegation unbond s.delegations.toList) := by
  refine ⟨hs, fun v => ?_⟩
  calc amountOf (splitUndelegation unbond s.delegations.toList) v
      ≤ amountOf s.delegations.toList v := (splitUndelegation_within (le_sum_of_check hd hlt)).within v
    _ = recorded s.delegations v := amountOf_entries hs v

end Recording

/-! ## The unstake -/

/-- What a committed unstake of `unbond` for `owner` from `s` leaves in `s'`: the split of
`unbond` over the delegations of `s`, which adds up to it, taken off them, and an unbonding
record of `unbond` for `owner` under the last record id. -/
structure Unstaked (s s' : State) (owner : String) (unbond : Amount) : Prop where
  split_sum : ((splitUndelegation unbond s.delegations.toList).map (·.2.toNat)).sum = unbond.toNat
  lowered : ∀ v, Recording.recorded s'.delegations v +
    amountOf (splitUndelegation unbond s.delegations.toList) v = Recording.recorded s.delegations v
  total : (s'.delegations.toList.map (·.2.toNat)).sum + unbond.toNat =
    (s.delegations.toList.map (·.2.toNat)).sum
  record : ∃ maturity, s'.records.get? (owner, s'.lastRecordId) = some ⟨owner, unbond, maturity⟩
  sorted : s'.delegations.Sorted

theorem Unstaked.of_check {s s' : State} {t : Table String Amount} {d unbond : Amount}
    {owner : String} (hs : s.delegations.Sorted)
    (hd : Valuation.sum (s.delegations.toList.map Prod.snd) = .ok d) (hlt : ¬ d < unbond)
    (ht : t.Sorted)
    (hlow : ∀ v, Recording.recorded t v +
      amountOf (splitUndelegation unbond s.delegations.toList) v = Recording.recorded s.delegations v)
    (hdel : s'.delegations = t)
    (hrec : ∃ maturity, s'.records.get? (owner, s'.lastRecordId) = some ⟨owner, unbond, maturity⟩) :
    Unstaked s s' owner unbond := by
  have hsplit := (splitUndelegation_within (le_sum_of_check hd hlt)).sum
  refine ⟨hsplit, hdel ▸ hlow, ?_, hrec, hdel ▸ ht⟩
  -- both tables are read through their sorted entries
  rw [← hsplit, hdel]
  refine (sum_eq_add_of_amountOf fun v => ?_).symm
  have hread : ∀ u : Table String Amount, u.Sorted → amountOf u.toList v = Recording.recorded u v :=
    fun u hu => amountOf_entries hu v
  rw [hread _ hs, hread _ ht]
  exact (hlow v).symm

/-! The calls an unstake makes after its checks are taken whole, by what they write and by
their failures, none of which is an underflow; opening them inside the unstake would give a
condition for every way each of them can fail. -/

theorem Token.transferDerivative_frame {sender r : String} {a : Amount} {s₀ : State} :
    ⦃fun s => ⌜s = s₀⌝⦄ Token.transferDerivative sender r a
    ⦃(fun _ s => ⌜∃ b, s = { s₀ with balances := b }⌝, fun e => ⌜¬ e.Underflow⌝, ())⦄ := by
  mvcgen [Token.transferDerivative]
  all_goals subst_vars
  all_goals first
    | exact ⟨_, rfl⟩
    | exact id

theorem Token.burnDerivative_frame {h : String} {a : Amount} {s₀ : State} :
    ⦃fun s => ⌜s = s₀⌝⦄ Token.burnDerivative h a
    ⦃(fun _ s => ⌜∃ b t, s = { s₀ with balances := b, token := t }⌝, fun e => ⌜¬ e.Underflow⌝, ())⦄ := by
  mvcgen [Token.burnDerivative]
  all_goals subst_vars
  all_goals first
    | exact ⟨_, _, rfl⟩
    | exact id

theorem Transport.queue_frame {env : Env} {config : Config} {params : HostParams}
    {a : HostAccount} {msgs : List HostMsg} {kind : InstructionKind} {s₀ : State} :
    ⦃fun s => ⌜s = s₀⌝⦄ Transport.queue env config params a msgs kind
    ⦃(fun _ s => ⌜s = { s₀ with
        outbound := s₀.outbound.insert (a.ownerId, a.nextSequence)
          ⟨a.ownerId, a.nextSequence, msgs, kind, env.block.time⟩ }⌝,
      fun e => ⌜¬ e.Underflow⌝, ())⦄ := by
  mvcgen [Transport.queue]
  all_goals (intros; (try cases_type* And Exists); subst_vars)
  all_goals first
    | rfl
    | exact id
    | exact Transport.ensureCanSend_not_underflow ‹_›

theorem Valuation.read_currentRate_spec {view : StakingView} {s₀ : State} :
    ⦃fun s => ⌜s = s₀⌝⦄ Tx.read (Valuation.currentRate · view)
    ⦃(fun r s => ⌜s = s₀ ∧ Valuation.currentRate s₀ view = .ok r⌝, fun e => ⌜¬ e.Underflow⌝, ())⦄ := by
  mvcgen [Tx.read]
  all_goals subst_vars
  all_goals first
    | exact ⟨rfl, ‹_›⟩
    | exact Valuation.currentRate_not_underflow ‹_›

theorem HostMsg.ofBase_mapM_toNative_spec {ms : List HostMsg} {d : String} {s₀ : State} :
    ⦃fun s => ⌜s = s₀⌝⦄ ofBase (ms.mapM (·.toNative d))
    ⦃(fun r s => ⌜s = s₀ ∧ ms.mapM (·.toNative d) = .ok r⌝, fun e => ⌜¬ e.Underflow⌝, ())⦄ := by
  mvcgen [Tx.ofBase]
  all_goals subst_vars
  all_goals first
    | exact ⟨rfl, ‹_›⟩
    | exact HostMsg.mapM_toNative_not_underflow ‹_›

theorem Exit.joinBatch_frame {m : Nat} {a : Amount} {s₀ : State} :
    ⦃fun s => ⌜s = s₀⌝⦄ Exit.joinBatch m a
    ⦃(fun _ s => ⌜∃ b, s = { s₀ with batches := b }⌝, fun e => ⌜¬ e.Underflow⌝, ())⦄ := by
  mvcgen [Exit.joinBatch]
  all_goals subst_vars
  exact ⟨_, rfl⟩

@[spec] theorem Exit.liquidUnstake_undelegates (env : Env) (owner : String) (amount : Amount)
    {s₀ : State} (hs : s₀.delegations.Sorted) :
    ⦃fun s => ⌜s = s₀⌝⦄ Exit.liquidUnstake env owner amount
    ⦃(fun _ s => ⌜∃ unbond, Unstaked s₀ s owner unbond⌝, fun e => ⌜¬ e.Underflow⌝, ())⦄ := by
  mvcgen -trivial [Exit.liquidUnstake, Exit.joinBatch_frame, Transport.queue_frame,
    -Token.transferDerivative, -Token.burnDerivative, Token.transferDerivative_frame,
    Token.burnDerivative_frame, -Tx.read, Valuation.read_currentRate_spec, -Tx.ofBase,
    HostMsg.ofBase_mapM_toNative_spec]
  all_goals (intros; (try cases_type* And Exists); subst_vars)
  all_goals first
    | exact True.intro
    | exact id
    | assumption
    | exact absurd (Recording.undelegable_of_check hs ‹_› ‹_›) ‹_›
    | (obtain ⟨t, rfl, hts, hlow⟩ := ‹Recording.Undelegable _ _ → _›
          (Recording.undelegable_of_check hs ‹_› ‹_›)
       refine ⟨_, Unstaked.of_check hs ‹_› ‹_› hts hlow rfl ?_⟩
       simp +zetaDelta only [Table.get?_insert, if_pos, Option.some.injEq, UnbondingRecord.mk.injEq,
         true_and, exists_eq'])

/-- A failed execute message is its entry point's failed run. -/
theorem Session.execute_run_error {env : Env} {u : String} {funds : List Coin} {m : ExecuteMsg}
    {s : State} {e : Failure} (h : (Session.transaction env (.execute u funds m)).run s = .error e) :
    (Contract.execute env u funds m).run s = .error e := by
  simp only [Session.transaction, StateT.run_map] at h
  cases hx : (Contract.execute env u funds m).run s with
  | error e' =>
    simp only [hx, Functor.map, Except.map, Except.error.injEq] at h
    rw [h]
  | ok p => simp [hx, Functor.map, Except.map] at h

/-- A triple read back on a failed run. -/
theorem Triple.run_error {α : Type} {x : Tx α} {P : Assertion (.arg State (.except Failure .pure))}
    {Q : TxPost α} (h : ⦃P⦄ x ⦃Q⦄) {s : State} {e : Failure} (hs : (P s).down)
    (hr : x.run s = .error e) : (Q.2.1 e).down := by
  have hwp := h s hs
  rw [wp_tx_apply, hr] at hwp
  exact hwp

/-! ## The delegation table in every reachable state -/

theorem State.delegations_eq_of_restrict {ws : List Field} {s s' : State}
    (h : s'.restrict ws = s.restrict ws) (hf : Field.delegations ∉ ws) :
    s'.delegations = s.delegations := by
  simpa [State.restrict, hf] using congrArg State.delegations h

section Entries

variable (env : Env)

/-- Each call that may write the delegation table keeps it sorted. -/
theorem transaction_sorted_of_writes (c : Call) (hw : Field.delegations ∈ c.writes) :
    ⦃fun s => ⌜s.delegations.Sorted⌝⦄ Session.transaction env c
    ⦃⇓? _ s => ⌜s.delegations.Sorted⌝⦄ := by
  cases c with
  | execute sender funds m =>
    cases m <;> simp [Call.writes, ExecuteMsg.writes] at hw
    case liquidUnstake a =>
      -- an unstake takes its split off a sorted table and leaves it sorted
      mvcgen [Session.transaction, Contract.execute]
      rintro ⟨_, hun⟩
      exact hun.sorted
    case reportSlashing v =>
      mvcgen [Session.transaction, Contract.execute, Admin.reportSlashing, Admin.ensureAdmin]
      all_goals grind [Table.Sorted.insert, Table.Sorted.erase]
  | privileged m =>
    cases m <;> simp [Call.writes, SudoMsg.writes] at hw
    case packetResult owner seq outcome =>
      cases outcome <;>
        mvcgen [Session.transaction, Contract.privileged, Transport.packetResult,
          Transport.ensureInterchain, Transport.roleOf, Transport.takeInstruction,
          Transport.confirm_writes]
      all_goals
        (try cases_type* And Exists)
        subst_vars
        first | exact id | assumption
    all_goals
      mvcgen [Session.transaction, Contract.privileged, Cycle.endBlock, Cycle.nativeCycle,
        Cycle.interchainCycle, Cycle.nativeTargets, Cycle.plan, Cycle.restakeRewards,
        Cycle.saveAccounts, Cycle.returnMatured_writes, Cycle.shipDeposits_writes,
        Cycle.rebalanceNow, Governance.apply, Transport.queueSetupIfReady, Transport.queue,
        Transport.channelClosed, Transport.ensureInterchain, Transport.roleOf,
        Transport.takeInstruction]
      all_goals
        (try cases_type* And Exists)
        subst_vars
        first | exact id | assumption
  | reply id error =>
    mvcgen [Session.transaction, Contract.reply, Cycle.handleReply]
    all_goals
      (try cases_type* And Exists)
      subst_vars
      first | exact id | assumption
  | instantiate | migrate => simp [Call.writes] at hw

end Entries

/-- A committed call leaves a sorted delegation table sorted. -/
theorem transaction_delegations_sorted {env : Env} {c : Call} {s s' : State}
    {r : Response × List String} (h : (Session.transaction env c).run s = .ok (r, s'))
    (hs : s.delegations.Sorted) : s'.delegations.Sorted := by
  by_cases hw : Field.delegations ∈ c.writes
  · exact Triple.run_ok (transaction_sorted_of_writes env c hw) hs h
  · rwa [State.delegations_eq_of_restrict (transaction_restrict h) hw]

/-- The delegation table of every reachable state has one entry per validator. -/
theorem Reachable.delegations_sorted {s : State} (h : Reachable s) : s.delegations.Sorted := by
  induction h with
  | created hr => exact transaction_delegations_sorted hr Table.sorted_empty
  | step _ _ hr ih => exact transaction_delegations_sorted hr ih

/-- Undelegation splits never overdraw. An unbonding of at most what a list of delegations adds
up to splits into positive parts over its validators, in their order, adding up to the
unbonding, none more than its validator holds. From every reachable state an unstake never
fails on an overdrawn delegation, and a committed one has taken the split of what it unbonds
off the recorded delegations, lowering their total by exactly that amount, and recorded the
same amount as owed to its owner. -/
theorem undelegation_never_overdraws :
    (∀ (amount : Amount) (current : List (String × Amount)),
      amount.toNat ≤ (current.map (·.2.toNat)).sum →
      SplitsWithin amount current (splitUndelegation amount current)) ∧
    ∀ s, Reachable s → ∀ (env : Env) (owner : String) (funds : List Coin) (amount : Amount),
      (∀ e, (Session.transaction env (.execute owner funds (.liquidUnstake amount))).run s =
        .error e → ¬ e.Underflow) ∧
      ∀ out s', (Session.transaction env (.execute owner funds (.liquidUnstake amount))).run s =
        .ok (out, s') → ∃ unbond, Unstaked s s' owner unbond := by
  refine ⟨fun _ _ hle => splitUndelegation_within hle, fun s hs env owner funds amount => ?_⟩
  have h := Exit.liquidUnstake_undelegates env owner amount hs.delegations_sorted
  refine ⟨fun e he => Triple.run_error h rfl (Session.execute_run_error he), fun out s' hs' => ?_⟩
  obtain ⟨resp, hresp⟩ := Session.execute_run_ok hs'
  exact Triple.run_ok h rfl hresp

set_option maxRecDepth 10000 in
/-- In the interchain module holding 300 delegated and a fresh deposit, a reachable state, the
unstake of the deposit's 100 derivative cannot fail on an overdrawn delegation, and it commits
taking what it unbonds off the delegations; 200 split over delegations of 100 and 300 stays
within them. -/
theorem undelegation_never_overdraws_deposited :
    SplitsWithin ⟨200, by decide⟩ [("a", ⟨100, by decide⟩), ("b", ⟨300, by decide⟩)]
        (splitUndelegation ⟨200, by decide⟩ [("a", ⟨100, by decide⟩), ("b", ⟨300, by decide⟩)]) ∧
      Reachable RoundTrip.deposited.state ∧
      (∀ e, (Session.transaction RoundTrip.deposited.env RoundTrip.unstake).run
        RoundTrip.deposited.state = .error e → ¬ e.Underflow) ∧
      ∃ unbond, Unstaked RoundTrip.deposited.state RoundTrip.unstaked.state "user" unbond := by
  have hcreated : Reachable RoundTrip.created.state :=
    @Reachable.created (Session.start Session.startTime).env
      ⟨"admin", .interchain, 100, none, some "transport", none, none⟩ _ _ (by rfl)
  -- the deposit and the steps before it create nothing
  have hdeposited : Reachable RoundTrip.deposited.state := by
    have h := @Session.foldl_step_reachable RoundTrip.created hcreated
      (RoundTrip.orphanedSteps ++ [.call RoundTrip.deposit]) (fun st hst m => by
        simp only [RoundTrip.orphanedSteps, RoundTrip.deposit, List.cons_append, List.nil_append,
          List.mem_cons, List.not_mem_nil, or_false] at hst
        rcases hst with rfl | rfl | rfl | rfl | rfl | rfl | rfl | rfl | rfl | rfl <;> simp)
    rwa [List.foldl_append] at h
  obtain ⟨out, hrun⟩ := Session.step_committed (by decide +kernel :
    ((Session.transaction RoundTrip.deposited.env RoundTrip.unstake).run
      RoundTrip.deposited.state).isOk = true)
  have hunstake := undelegation_never_overdraws.2 _ hdeposited RoundTrip.deposited.env "user" []
    ⟨100, by decide⟩
  exact ⟨undelegation_never_overdraws.1 _ _ (by decide), hdeposited, hunstake.1,
    hunstake.2 out _ hrun⟩

end LiquidStaking
