import Mathlib
import LiquidStaking.Proofs.Bookkeeping

/-! # The books balance along every run

An interchain module starts with empty books, and every committed call keeps them at its
block time: the calls that write no part of the books leave them as they were, and each
entry point that writes them keeps `Books`. The entry points that
record an unstake need a positive unbonding period, which creation checks and nothing
changes afterwards. So along a run whose block time never goes back, every state has its
books in balance at the time of its last call (`TimedReachable.books`).

Three facts follow about the next call. A cycle's success adds to the reserve exactly what
the cycle sends home, since an outstanding cycle's returning batches hold that much. An
unstake at a later time never adds its record to a batch that has left unbonding, since such
a batch matured before the last call. And a claim never fails on its subtraction from the
reserve, since the reserve holds what every record of a returned batch is owed.
-/
set_option mvcgen.warning false

namespace LiquidStaking

open Std.Do Tx

/-! ## Calls that leave the books -/

/-- The fields that make up the books. -/
def Field.books : List Field := [.records, .batches, .claimReserve, .lastRecordId, .outbound]

namespace State

variable {ws : List Field} {s s' : State}

theorem records_eq_of_restrict (h : s'.restrict ws = s.restrict ws) (hf : Field.records ∉ ws) :
    s'.records = s.records := by
  simpa [restrict, hf] using congrArg State.records h

theorem batches_eq_of_restrict (h : s'.restrict ws = s.restrict ws) (hf : Field.batches ∉ ws) :
    s'.batches = s.batches := by
  simpa [restrict, hf] using congrArg State.batches h

theorem claimReserve_eq_of_restrict (h : s'.restrict ws = s.restrict ws)
    (hf : Field.claimReserve ∉ ws) : s'.claimReserve = s.claimReserve := by
  simpa [restrict, hf] using congrArg State.claimReserve h

theorem lastRecordId_eq_of_restrict (h : s'.restrict ws = s.restrict ws)
    (hf : Field.lastRecordId ∉ ws) : s'.lastRecordId = s.lastRecordId := by
  simpa [restrict, hf] using congrArg State.lastRecordId h

theorem outbound_eq_of_restrict (h : s'.restrict ws = s.restrict ws) (hf : Field.outbound ∉ ws) :
    s'.outbound = s.outbound := by
  simpa [restrict, hf] using congrArg State.outbound h

end State

namespace Books

variable {ws : List Field} {s s' : State} {t t' : Timestamp}

/-- A change outside the books keeps them. -/
theorem of_restrict (h : Books s t) (ht : t ≤ t') (heq : s'.restrict ws = s.restrict ws)
    (hw : ∀ f ∈ Field.books, f ∉ ws) : Books s' t' := by
  simp only [Field.books, List.mem_cons, List.not_mem_nil, or_false, forall_eq_or_imp,
    forall_eq] at hw
  obtain ⟨hr, hb, hc, hl, ho⟩ := hw
  exact h.frame_store ht (State.records_eq_of_restrict heq hr) (State.batches_eq_of_restrict heq hb)
    (State.claimReserve_eq_of_restrict heq hc) (State.lastRecordId_eq_of_restrict heq hl)
    (State.outbound_eq_of_restrict heq ho)

/-- Empty storage has empty books. -/
theorem empty (t : Timestamp) : Books State.empty t where
  recordsSorted := Table.sorted_empty
  batchesSorted := Table.sorted_empty
  positive := fun _ _ h => by cases h
  below := fun _ _ h => by cases h
  batched := fun _ _ h => by cases h
  held := fun _ _ h => by cases h
  reserve := rfl
  settled := fun _ _ h => by cases h
  outstanding := fun _ _ h => by cases h

end Books

/-! ## One committed call -/

section Entries

variable {env : Env} {s₀ : State} {t : Timestamp}

theorem Contract.privileged_books (m : SudoMsg) (h : Books s₀ t) (ht : t ≤ env.block.time)
    (hinv : HostInv s₀) (ho : OwnedStore s₀) :
    ⦃fun s => ⌜s = s₀⌝⦄ Contract.privileged env m
    ⦃⇓? _ s => ⌜Books s env.block.time⌝⦄ := by
  cases m <;>
    mvcgen [Contract.privileged, Cycle.endBlock_books, Governance.apply_books,
      Transport.openAck_books, Transport.channelClosed_books, Transport.packetResult_books,
      Transport.observe, Transport.ensureInterchain]
  all_goals (intros; subst_vars)
  all_goals first
    | exact t
    | assumption
    | exact h.frame_store ht rfl rfl rfl rfl rfl

end Entries

/-- A committed call from an interchain state with its books keeps them at the call's time. -/
theorem Books.transaction {env : Env} {c : Call} {s s' : State} {r : Response × List String}
    {t : Timestamp} {cfg : Config} (h : Books s t) (ht : t ≤ env.block.time) (hinv : HostInv s)
    (ho : OwnedStore s) (hc : s.config = some cfg) (hl : cfg.ledger = .interchain)
    (hp : 0 < cfg.unbondingPeriod) (hr : (Session.transaction env c).run s = .ok (r, s')) :
    Books s' env.block.time := by
  cases c with
  | execute sender funds m =>
    obtain ⟨resp, hx⟩ := Session.execute_run_ok hr
    cases m
    case liquidUnstake amount =>
      exact Triple.run_ok (Exit.liquidUnstake_books h ht hinv ho hc hl hp) rfl hx
    case claim => exact Triple.run_ok (Exit.claim_books h ht hc hl) rfl hx
    all_goals
      exact h.of_restrict ht (transaction_restrict hr)
        (by simp [Field.books, Call.writes, ExecuteMsg.writes])
  | privileged m => exact Triple.run_ok (Contract.privileged_books m h ht hinv ho) rfl hr
  | _ => exact h.of_restrict ht (transaction_restrict hr) (by simp [Field.books, Call.writes])

/-! ## The configuration -/

/-- Creation stores the configuration it was given, and only with a positive unbonding
period. -/
theorem transaction_instantiate_config {env : Env} {m : InstantiateMsg} :
    ⦃fun _ => ⌜True⌝⦄ Session.transaction env (.instantiate m)
    ⦃⇓? _ s => ⌜∃ c, s.config = some c ∧ 0 < c.unbondingPeriod⌝⦄ := by
  mvcgen [Session.transaction, Contract.instantiate]
  all_goals exact ⟨_, rfl, Nat.pos_of_ne_zero (by simpa using ‹¬(_ == 0) = true›)⟩

/-- No call but creation writes the configuration. -/
theorem Call.config_not_written {c : Call} (hc : c.IsOperation) : Field.config ∉ c.writes := by
  cases c with
  | instantiate => exact absurd hc id
  | execute _ _ m => cases m <;> simp [Call.writes, ExecuteMsg.writes]
  | privileged m => cases m <;> simp [Call.writes, SudoMsg.writes]
  | reply | migrate => simp [Call.writes]

/-- A committed operation keeps the configuration. -/
theorem transaction_config {env : Env} {c : Call} {s s' : State} {r : Response × List String}
    (hc : c.IsOperation) (hr : (Session.transaction env c).run s = .ok (r, s')) :
    s'.config = s.config :=
  State.config_eq_of_restrict (transaction_restrict hr) (Call.config_not_written hc)

/-- Every reachable state is configured, with a positive unbonding period. -/
theorem Reachable.config {s : State} (h : Reachable s) :
    ∃ c, s.config = some c ∧ 0 < c.unbondingPeriod := by
  induction h with
  | created hr => exact Triple.run_ok transaction_instantiate_config trivial hr
  | step _ hc hr ih => rwa [transaction_config hc hr]

/-! ## Along a run -/

/-- Every interchain state of a run whose block time never goes back has its books in balance
at the time of its last call. -/
theorem TimedReachable.books {s : State} {t : Timestamp} (h : TimedReachable s t) {cfg : Config}
    (hc : s.config = some cfg) (hl : cfg.ledger = .interchain) : Books s t := by
  induction h generalizing cfg with
  | created hr =>
    exact (Books.empty _).of_restrict (Nat.le_refl _) (transaction_restrict hr)
      (by simp [Field.books, Call.writes])
  | step hreach hop ht hr ih =>
    -- the configuration read at the step is the one the run started with
    have hc₀ := (transaction_config hop hr).symm.trans hc
    obtain ⟨cfg', hc', hp⟩ := hreach.reachable.config
    obtain rfl : cfg' = cfg := Option.some.inj (hc'.symm.trans hc₀)
    exact (ih hc₀ hl).transaction ht hreach.reachable.hostInv hreach.reachable.ownedStore hc₀ hl
      hp hr

/-! ## What the books guarantee the next call -/

section Consequences

variable {s s₀ : State} {t : Timestamp} {i : Instruction} {shipped : Amount}
  {returning : List Nat}

/-- A success answering a cycle brings the cycle's returning batches into the reserve. -/
theorem Answered.reserve_of_success {s' : State} (h : Answered True i s s')
    (hk : i.kind = .cycle shipped returning) :
    s'.claimReserve.toNat = s.claimReserve.toNat + heldBy s.batches returning := by
  cases h with
  | returned _ hk' _ _ hc =>
    rw [hk] at hk'
    cases hk'
    exact hc
  | reverted hok => exact absurd trivial hok
  | withdrawn hok => exact absurd trivial hok
  | kept hnc => exact absurd hk (hnc _ _)

/-- An outstanding cycle's returning batches hold what it sends home. -/
theorem Books.sentBack_eq {k : String × Nat} (h : Books s t) (hi : s.outbound.get? k = some i)
    (hk : i.kind = .cycle shipped returning) :
    (i.msgs.map HostMsg.sentBack).sum = heldBy s.batches returning := by
  have ho := h.outstanding k i hi
  unfold Outstanding at ho
  rw [hk] at ho
  exact ho.2.2

theorem transaction_success_reserve {env : Env} {o : String} {q : Nat}
    (hi : s₀.outbound.get? (o, q) = some i) (hk : i.kind = .cycle shipped returning) :
    ⦃fun s => ⌜s = s₀⌝⦄ Session.transaction env (.privileged (.packetResult o q .success))
    ⦃⇓? _ s => ⌜s.claimReserve.toNat =
      s₀.claimReserve.toNat + heldBy s₀.batches returning⌝⦄ := by
  mvcgen [Session.transaction, Contract.privileged, Transport.packetResult,
    Transport.ensureInterchain, Transport.roleOf, Transport.takeInstruction,
    Transport.confirm_answered]
  cases_type* And
  -- the instruction taken is the one stored under the call's owner and number
  have hsame : ∀ j, s₀.outbound.get? (o, q) = some j → i = j :=
    fun _ hj => Option.some.inj (hi.symm.trans hj)
  clear hi
  subst_vars
  obtain rfl := hsame _ ‹_›
  -- confirming reads the books of the state with the instruction taken out
  have hres := ‹Answered True _ _ _›.reserve_of_success hk
  exact hres

/-- A record added to a table matures after `t` if the one written does. -/
theorem fresh_record_matures {rs : Table (String × Nat) UnbondingRecord} {k₀ : String × Nat}
    {r₀ : UnbondingRecord} (hlate : t.seconds < r₀.maturity.seconds) :
    ∀ k r, (rs.insert k₀ r₀).get? k = some r → rs.get? k = none →
      t.seconds < r.maturity.seconds := by
  intro k r hk hnone
  rw [Table.get?_insert] at hk
  split at hk
  · cases hk
    exact hlate
  · rw [hk] at hnone
    cases hnone

/-- The records an unstake adds mature a positive period after its time. -/
theorem Exit.liquidUnstake_matures {env : Env} {owner : String} {amount : Amount} {c : Config}
    (hc : s₀.config = some c) (hp : 0 < c.unbondingPeriod) (ht : t ≤ env.block.time) :
    ⦃fun s => ⌜s = s₀⌝⦄ Exit.liquidUnstake env owner amount
    ⦃⇓? _ s => ⌜∀ k r, s.records.get? k = some r → s₀.records.get? k = none →
      t.seconds < r.maturity.seconds⌝⦄ := by
  mvcgen [Exit.liquidUnstake, -Exit.liquidUnstake_undelegates, Exit.joinBatch_adds,
    Transport.queue_sends, -Token.transferDerivative, -Token.burnDerivative,
    Token.transferDerivative_frame, Token.burnDerivative_frame, -Tx.read,
    Valuation.read_currentRate_spec, -Recording.recordAll_undelegations_spec,
    Recording.recordAll_writes]
  all_goals ((try cases_type* And Exists); subst_vars)
  all_goals (simp only [hc, Option.some.injEq] at *; subst_vars)
  all_goals exact fresh_record_matures (Timestamp.seconds_lt_plusSeconds ht hp ‹_›)

/-- A batch past the second of the last call has not left unbonding. -/
theorem Books.unbonding_of_late {m : Nat} {b : Batch} (h : Books s t) (hm : t.seconds < m)
    (hb : s.batches.get? m = some b) : b.status = .unbonding := by
  by_contra hne
  exact absurd (h.settled m b hb hne) (Nat.not_le.mpr hm)

end Consequences

/-- What the books of an interchain state reached at time `t` guarantee, and what follows for
the next call. -/
structure BooksBalance (s : State) (t : Timestamp) : Prop where
  /-- Every record has the batch of its maturity's second. -/
  batched : ∀ k r, s.records.get? k = some r → ∃ b, s.batches.get? r.maturity.seconds = some b
  /-- A batch still unbonding or travelling back holds what the records maturing at its second
  owe. -/
  held : ∀ m b, s.batches.get? m = some b → b.status ≠ .returned →
    b.amount.toNat = owedAt s.records m
  /-- The reserve holds what the records of the returned batches owe. -/
  reserve : s.claimReserve.toNat = owedReturned s.records s.batches
  /-- The success of a stored cycle adds to the reserve what the cycle transfers home. -/
  cycleReturns : ∀ env o q i shipped returning r s', s.outbound.get? (o, q) = some i →
    i.kind = .cycle shipped returning →
    (Session.transaction env (.privileged (.packetResult o q .success))).run s = .ok (r, s') →
    s'.claimReserve.toNat = s.claimReserve.toNat + (i.msgs.map HostMsg.sentBack).sum
  /-- An unstake no earlier than `t` adds its record to no batch that has left unbonding. -/
  joinsUnbonding : ∀ env owner funds amount r s', t ≤ env.block.time →
    (Session.transaction env (.execute owner funds (.liquidUnstake amount))).run s = .ok (r, s') →
    ∀ k rec, s'.records.get? k = some rec → s.records.get? k = none →
      ∀ b, s.batches.get? rec.maturity.seconds = some b → b.status = .unbonding
  /-- A claim never fails on its subtraction from the reserve. -/
  claimCovered : ∀ env sender funds e,
    (Session.transaction env (.execute sender funds .claim)).run s = .error e → ¬ e.Underflow

/-- Interchain unbonding books balance along every run whose block time never goes back: the
records, batches and reserve agree, a cycle's success returns exactly what it transfers home,
an unstake joins only unbonding batches, and a claim's payment is always covered. -/
theorem books_balance {s : State} {t : Timestamp} {cfg : Config} (h : TimedReachable s t)
    (hc : s.config = some cfg) (hl : cfg.ledger = .interchain) : BooksBalance s t := by
  have hb := h.books hc hl
  obtain ⟨cfg', hc', hp⟩ := h.reachable.config
  obtain rfl : cfg' = cfg := Option.some.inj (hc'.symm.trans hc)
  refine ⟨hb.batched, hb.held, hb.reserve, ?_, ?_, ?_⟩
  · intro env o q i shipped returning r s' hi hk hr
    rw [hb.sentBack_eq hi hk]
    exact Triple.run_ok (transaction_success_reserve hi hk) rfl hr
  · intro env owner funds amount r s' ht hr k rec hk hnone b hbatch
    obtain ⟨resp, hx⟩ := Session.execute_run_ok hr
    -- the new record matures after `t`, past every batch that has left unbonding
    have hlate := Triple.run_ok (Exit.liquidUnstake_matures hc hp ht) rfl hx k rec hk hnone
    exact hb.unbonding_of_late hlate hbatch
  · intro env sender funds e he
    exact Triple.run_error (Exit.claim_books hb (Nat.le_refl _) hc hl) rfl
      (Session.execute_run_error he)

theorem books_balance_created :
    TimedReachable RoundTrip.created.state RoundTrip.created.env.block.time ∧
      BooksBalance RoundTrip.created.state RoundTrip.created.env.block.time := by
  have h : TimedReachable RoundTrip.created.state RoundTrip.created.env.block.time :=
    @TimedReachable.created (Session.start Session.startTime).env
      ⟨"admin", .interchain, 100, none, some "transport", none, none⟩ _ _ (by rfl)
  exact ⟨h, books_balance h rfl rfl⟩

end LiquidStaking
