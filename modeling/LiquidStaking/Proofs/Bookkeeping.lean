import Mathlib
import LiquidStaking.Proofs.Books
import LiquidStaking.Proofs.Unstake

/-! # Every entry point keeps the books

`Books` lists what the unbonding records, the batches and the claim reserve owe each other,
and its step lemmas say how each move of them keeps it. Here each entry point that writes
them is shown to make only such moves, as a triple from a state with the books to a state
with the books at the call's time:

* a packet result or a closed channel answers the one instruction the account has
  outstanding (`Answered`): a success brings a cycle's batches home into the reserve, a
  failure sends them back to unbonding or withdraws an unstake's record;
* the end-block cycle marks the matured batches as travelling back and queues, at most, one
  cycle that sends home what they hold; a new allow list and an opened channel store only
  instructions the books ask nothing of, or a cycle that sends nothing home;
* an unstake records a fresh record in the batch of its maturity, which lies past every
  batch that already left unbonding since the unbonding period is positive;
* a claim pays only records whose batch has come back, so the reserve always covers it and
  its checked subtraction never fails.

Answering an instruction needs that every other stored one is a restake, which holds because
the store is keyed by the owners of the host accounts (`OwnedStore`) and each account has at
most one instruction outstanding.
-/
set_option mvcgen.warning false

namespace LiquidStaking

open Std.Do Tx Table

section Settle
variable {st : BatchStatus} {bs bs₀ : Table Nat Batch} {pre : List Nat} {m : Nat} {b : Batch}

theorem heldBy_concat_of_get? (hb : (pre.foldl (withStatus st) bs).get? m = some b) :
    heldBy bs (pre ++ [m]) = heldBy bs pre + b.amount.toNat := by
  rw [get?_foldl_withStatus] at hb
  have hm : (bs.get? m).map (·.amount.toNat) = some b.amount.toNat := by
    split at hb
    · obtain ⟨b₀, hb₀, rfl⟩ := Option.map_eq_some_iff.mp hb
      simp [hb₀]
    · simp [hb]
  simp [heldBy, hm]

/-- One more batch settled in the loop over a cycle's returning batches. -/
theorem settle_concat (hbs : bs = pre.foldl (withStatus st) bs₀) (hb : bs.get? m = some b) :
    bs.insert m { b with status := st } = (pre ++ [m]).foldl (withStatus st) bs₀ := by
  subst hbs
  rw [List.foldl_append, List.foldl_cons, List.foldl_nil, withStatus, hb]

theorem heldBy_settle_concat {r c : Amount} (hbs : bs = pre.foldl (withStatus st) bs₀)
    (hb : bs.get? m = some b) (hret : r.toNat = heldBy bs₀ pre) (hadd : r.add? b.amount = some c) :
    c.toNat = heldBy bs₀ (pre ++ [m]) := by
  subst hbs
  rw [heldBy_concat_of_get? hb, ← hret]
  exact Amount.add?_eq_some_iff.mp hadd

end Settle

section Answers
variable {i : Instruction} {s₀ s s' : State}

theorem Answered.of_not_cycle {ok : Prop} {k : InstructionKind} (hk : i.kind = k)
    (hnc : ∀ shipped returning, k ≠ .cycle shipped returning) (hr : s'.records = s.records)
    (hb : s'.batches = s.batches) (hc : s'.claimReserve = s.claimReserve) : Answered ok i s s' :=
  .kept (hk ▸ hnc) hr hb hc

theorem Answered.of_confirmed {shipped r c : Amount} {returning : List Nat}
    (hk : i.kind = .cycle shipped returning) (hr : s.records = s₀.records)
    (hc : s.claimReserve = s₀.claimReserve)
    (hbs : s.batches = returning.foldl (withStatus .returned) s₀.batches)
    (hret : r.toNat = heldBy s₀.batches returning) (hadd : s.claimReserve.add? r = some c)
    (hr' : s'.records = s.records) (hb' : s'.batches = s.batches) (hc' : s'.claimReserve = c) :
    Answered True i s₀ s' := by
  refine .returned trivial hk (hr'.trans hr) (hb'.trans hbs) ?_
  rw [hc', Amount.add?_eq_some_iff.mp hadd, hc, hret]

end Answers

theorem Transport.confirm_answered {env : Env} {i : Instruction} {s₀ : State} :
    ⦃fun s => ⌜s = s₀⌝⦄ Transport.confirm env i
    ⦃⇓? _ s => ⌜Answered True i s₀ s ∧ s.outbound = s₀.outbound ∧
      s.lastRecordId = s₀.lastRecordId⌝⦄ := by
  mvcgen [Transport.confirm, Transport.batch] invariants
  | inv1 => ⇓? x s => ⌜s.records = s₀.records ∧ s.claimReserve = s₀.claimReserve ∧
      s.outbound = s₀.outbound ∧ s.lastRecordId = s₀.lastRecordId ∧
      s.batches = x.fst.prefix.foldl (withStatus .returned) s₀.batches ∧
      x.2.toNat = heldBy s₀.batches x.fst.prefix⌝
  all_goals ((try cases_type* And Exists); subst_vars)
  all_goals first
    | exact ⟨rfl, rfl, rfl, rfl, rfl, rfl⟩
    | exact ⟨Answered.of_not_cycle ‹_› (by simp) rfl rfl rfl, rfl, rfl⟩
    | exact ⟨‹_›, ‹_›, ‹_›, ‹_›, settle_concat ‹_› ‹_›,
        heldBy_settle_concat ‹_› ‹_› ‹_› ‹_›⟩
    | exact ⟨Answered.of_confirmed ‹_› ‹_› ‹_› ‹_› ‹_› ‹_› (by rfl) (by rfl) (by rfl), ‹_›,
        ‹_›⟩

section Withdraw
variable {rs : Table (String × Nat) UnbondingRecord} {bs : Table Nat Batch} {k : String × Nat}
  {r : UnbondingRecord} {b : Batch}

theorem withdrawRecord_of_none (h : rs.get? k = none) : withdrawRecord rs bs k = (rs, bs) := by
  simp [withdrawRecord, h]

theorem withdrawRecord_of_unbatched (h : rs.get? k = some r)
    (hb : bs.get? r.maturity.seconds = none) :
    withdrawRecord rs bs k = (rs.erase k, bs) := by
  simp [withdrawRecord, h, hb]

theorem withdrawRecord_of_batched (h : rs.get? k = some r)
    (hb : bs.get? r.maturity.seconds = some b) :
    withdrawRecord rs bs k = (rs.erase k, if (b.amount.satSub r.amount).isZero then
      bs.erase r.maturity.seconds
    else bs.insert r.maturity.seconds { b with amount := b.amount.satSub r.amount }) := by
  simp [withdrawRecord, h, hb]

end Withdraw

theorem Token.mintDerivative_frame {h : String} {a : Amount} {s₀ : State} :
    ⦃fun s => ⌜s = s₀⌝⦄ Token.mintDerivative h a
    ⦃⇓? _ s => ⌜∃ b t, s = { s₀ with balances := b, token := t }⌝⦄ := by
  mvcgen [Token.mintDerivative]
  all_goals subst_vars
  all_goals exact ⟨_, _, rfl⟩

theorem Transport.compensate_answered {i : Instruction} {s₀ : State} :
    ⦃fun s => ⌜s = s₀⌝⦄ Transport.compensate i
    ⦃⇓? _ s => ⌜Answered False i s₀ s ∧ s.outbound = s₀.outbound ∧
      s.lastRecordId = s₀.lastRecordId⌝⦄ := by
  mvcgen [Transport.compensate, -Transport.compensate_sorted, Transport.batch,
    -Recording.unrecordAll_sorted, Recording.unrecordAll_writes,
    -Token.mintDerivative, Token.mintDerivative_frame] invariants
  | inv1 => ⇓? x s => ⌜s.records = s₀.records ∧ s.claimReserve = s₀.claimReserve ∧
      s.outbound = s₀.outbound ∧ s.lastRecordId = s₀.lastRecordId ∧
      s.batches = x.fst.prefix.foldl (withStatus .unbonding) s₀.batches⌝
  all_goals (intros; (try cases_type* And Exists); subst_vars)
  all_goals first
    | exact ⟨rfl, rfl, rfl, rfl, rfl⟩
    | exact ⟨Answered.of_not_cycle ‹_› (by simp) rfl rfl rfl, rfl, rfl⟩
    | exact ⟨‹_›, ‹_›, ‹_›, ‹_›, settle_concat ‹_› ‹_›⟩
    | exact ⟨.reverted id ‹_› ‹_› ‹_› ‹_›, ‹_›, ‹_›⟩
    | exact ⟨.withdrawn id ‹_› (withdrawRecord_of_none ‹_›).symm rfl, rfl, rfl⟩
    | exact ⟨.withdrawn id ‹_› (withdrawRecord_of_unbatched ‹_› ‹_›).symm rfl, rfl, rfl⟩
    | exact ⟨.withdrawn id ‹_› (withdrawRecord_of_batched ‹_› ‹_›).symm rfl, rfl, rfl⟩

/-- Every instruction in the outbound store is kept under the owner id of one of the host
accounts. -/
def OwnedStore (s : State) : Prop :=
  ∀ k i, s.outbound.get? k = some i → ∃ A r, s.accounts = some A ∧ k.1 = (A.get r).ownerId

section Owners
variable {s s' : State} {c : Call} {A : HostAccounts} {r : AccountRole} {q : Nat}
  {k : String × Nat} {i : Instruction}

theorem OwnedStore.empty : OwnedStore State.empty := fun k i h => by
  rw [HostInv.empty k] at h
  cases h

/-- A call writes the store only under the owners of accounts, which stay. -/
theorem OwnedStore.step (h : OwnedStore s) (hinv : HostInv s) (hstep : HostStep s s' c) :
    OwnedStore s' := by
  intro k i hk
  cases hA : s.accounts with
  | none =>
    -- nothing was stored before the accounts were opened, and nothing is written then
    have hold := hstep.unopened hA k i hk
    unfold HostInv at hinv
    rw [hA] at hinv
    rw [hinv k] at hold
    cases hold
  | some A =>
    obtain ⟨A', hA', hadv⟩ := hstep.advance A hA
    by_cases hold : s.outbound.get? k = some i
    · obtain ⟨A₀, r, hA₀, hown⟩ := h k i hold
      rw [hA] at hA₀
      cases hA₀
      exact ⟨A', r, hA', hown.trans (hadv.owner r).symm⟩
    · obtain ⟨r, hown, -, -⟩ := hadv.fresh k i hk hold
      exact ⟨A', r, hA', hown.trans (hadv.owner r).symm⟩

theorem Reachable.ownedStore (h : Reachable s) : OwnedStore s := by
  induction h with
  | created hr => exact OwnedStore.empty.step HostInv.empty (HostInv.empty.transaction hr).2
  | step hreach _ hr ih => exact ih.step hreach.hostInv (hreach.hostInv.transaction hr).2

/-- Besides the rewards account's restakes, the store holds only the delegator's outstanding
instruction. -/
theorem HostInv.restake_or_pending (h : HostInv s) (ho : OwnedStore s) (hA : s.accounts = some A)
    (hk : s.outbound.get? k = some i) :
    (∃ x, i.kind = .restake x) ∨ (k.1 = A.delegator.ownerId ∧ A.delegator.pending = some k.2) := by
  obtain ⟨A₀, r, hA₀, hown⟩ := ho k i hk
  rw [hA] at hA₀
  cases hA₀
  have hc := h.consistent hA
  have hk' : s.outbound.get? ((A.get r).ownerId, k.2) = some i := by
    rw [← hown]
    exact hk
  cases r with
  | delegator => exact .inr ⟨hown, (hc.stored .delegator k.2).mp (by rw [hk']; rfl)⟩
  | rewards => exact .inl (hc.restake k.2 i hk')

/-- With an account's instruction outstanding, every other stored instruction is a restake
unless that instruction is one. -/
theorem HostInv.others_restake (h : HostInv s) (ho : OwnedStore s) (hA : s.accounts = some A)
    (hq : (A.get r).pending = some q) (hi : s.outbound.get? ((A.get r).ownerId, q) = some i) :
    (∀ x, i.kind ≠ .restake x) →
      ∀ k j, s.outbound.get? k = some j → k ≠ ((A.get r).ownerId, q) →
        ∃ x, j.kind = .restake x := by
  intro hni k j hk hne
  rcases h.restake_or_pending ho hA hk with hx | ⟨hown, hpend⟩
  · exact hx
  · cases r with
    | delegator =>
      -- the delegator has one instruction outstanding, the one answered
      have : k.2 = q := Option.some.inj (hpend.symm.trans hq)
      exact absurd (Prod.ext hown this) hne
    | rewards =>
      rcases h.restake_or_pending ho hA hi with hx | ⟨hown', -⟩
      · exact absurd hx.choose_spec (hni _)
      · exact absurd hown' (h.consistent hA).distinct.symm

/-- With the delegator idle, every stored instruction is a restake. -/
theorem HostInv.restakes_of_idle (h : HostInv s) (ho : OwnedStore s) (hA : s.accounts = some A)
    (hp : A.delegator.pending = none) :
    ∀ k j, s.outbound.get? k = some j → ∃ x, j.kind = .restake x := by
  intro k j hk
  rcases h.restake_or_pending ho hA hk with hx | ⟨-, hpend⟩
  · exact hx
  · rw [hp] at hpend
    cases hpend

end Owners

section Congr
variable {ok : Prop} {i : Instruction} {s₀ s₁ s₂ s' : State}

/-- An answer reads only the books of its two states. -/
theorem Answered.congr (h : Answered ok i s₁ s₂) (hr : s₁.records = s₀.records)
    (hb : s₁.batches = s₀.batches) (hc : s₁.claimReserve = s₀.claimReserve)
    (hr' : s'.records = s₂.records) (hb' : s'.batches = s₂.batches)
    (hc' : s'.claimReserve = s₂.claimReserve) : Answered ok i s₀ s' := by
  cases h with
  | returned hok hk h₁ h₂ h₃ =>
    exact .returned hok hk (by rw [hr', h₁, hr]) (by rw [hb', h₂, hb]) (by rw [hc', h₃, hc, hb])
  | reverted hok hk h₁ h₂ h₃ =>
    exact .reverted hok hk (by rw [hr', h₁, hr]) (by rw [hb', h₂, hb]) (by rw [hc', h₃, hc])
  | withdrawn hok hk h₁ h₂ =>
    exact .withdrawn hok hk (by rw [hr', hb', h₁, hr, hb]) (by rw [hc', h₂, hc])
  | kept hk h₁ h₂ h₃ =>
    exact .kept hk (by rw [hr', h₁, hr]) (by rw [hb', h₂, hb]) (by rw [hc', h₃, hc])

end Congr

namespace Books
variable {s₀ s s' s₂ : State} {t t' : Timestamp}

/-- A call that writes none of the books and leaves the store as it was keeps them. -/
theorem frame_store (h : Books s t) (ht : t ≤ t') (hr : s'.records = s.records)
    (hb : s'.batches = s.batches) (hc : s'.claimReserve = s.claimReserve)
    (hl : s'.lastRecordId = s.lastRecordId) (ho : s'.outbound = s.outbound) : Books s' t' :=
  h.frame ht hr hb hc hl fun k i hk => h.outstanding k i (ho ▸ hk)

/-- Answering an account's outstanding instruction, the one stored under its owner id and
pending number, keeps the books whatever the answer. -/
theorem answer_account {A : HostAccounts} {r : AccountRole} {o : String} {q : Nat}
    {i : Instruction} {ok : Prop} {acc : Option HostAccounts} (h : Books s₀ t) (ht : t ≤ t')
    (hinv : HostInv s₀) (ho : OwnedStore s₀) (hA : s₀.accounts = some A)
    (hr : A.roleOf? o = some r) (hq : (A.get r).pending = some q)
    (hi : s₀.outbound.get? (o, q) = some i)
    (ha : Answered ok i { s₀ with outbound := s₀.outbound.erase (o, q) } s₂)
    (hout : s₂.outbound = s₀.outbound.erase (o, q)) (hlast : s₂.lastRecordId = s₀.lastRecordId) :
    Books { s₂ with accounts := acc } t' := by
  have hown := HostAccounts.roleOf?_ownerId hr
  subst hown
  exact h.answer ht hi (hinv.others_restake ho hA hq hi) (ha.congr rfl rfl rfl rfl rfl rfl) hlast hout

end Books

section Callbacks
variable {env : Env} {s₀ : State} {t : Timestamp}

theorem Transport.packetResult_books {o : String} {q : Nat} {outcome : PacketOutcome}
    (h : Books s₀ t) (ht : t ≤ env.block.time) (hinv : HostInv s₀) (ho : OwnedStore s₀) :
    ⦃fun s => ⌜s = s₀⌝⦄ Transport.packetResult env o q outcome
    ⦃⇓? _ s => ⌜Books s env.block.time⌝⦄ := by
  mvcgen [Transport.packetResult, Transport.ensureInterchain, Transport.roleOf,
    Transport.takeInstruction,
    Transport.confirm_answered, -Transport.compensate_sorted, Transport.compensate_answered]
  all_goals (try cases_type* And); subst_vars
  all_goals
    exact h.answer_account ht hinv ho ‹_› ‹_› (pending_of_not_bne ‹_›) ‹_› ‹_› ‹_› ‹_›

theorem Transport.channelClosed_books {o : String} (h : Books s₀ t) (ht : t ≤ env.block.time)
    (hinv : HostInv s₀) (ho : OwnedStore s₀) :
    ⦃fun s => ⌜s = s₀⌝⦄ Transport.channelClosed o ⦃⇓? _ s => ⌜Books s env.block.time⌝⦄ := by
  mvcgen [Transport.channelClosed, Transport.ensureInterchain, Transport.roleOf,
    Transport.takeInstruction, -Transport.compensate_sorted, Transport.compensate_answered]
  all_goals (try cases_type* And); subst_vars
  · -- nothing outstanding: only the accounts change
    exact h.frame_store ht rfl rfl rfl rfl rfl
  · exact h.answer_account ht hinv ho ‹_› ‹_› ‹_› ‹_› ‹_› ‹_› ‹_›

end Callbacks

/-- The store `o` holds what `o₀` held and otherwise only instructions that `P` allows. -/
def StoreGrows (P : Instruction → Prop) (o₀ o : Table (String × Nat) Instruction) : Prop :=
  ∀ k j, o.get? k = some j → o₀.get? k = some j ∨ P j

namespace StoreGrows
variable {P Q : Instruction → Prop} {o₀ o₁ o : Table (String × Nat) Instruction}

theorem refl : StoreGrows P o o := fun _ _ h => .inl h

theorem insert (h : StoreGrows P o₀ o) {k : String × Nat} {i : Instruction} (hi : P i) :
    StoreGrows P o₀ (o.insert k i) := by
  intro k' j hk
  rw [Table.get?_insert] at hk
  split at hk
  · cases hk
    exact .inr hi
  · exact h k' j hk

theorem trans (h₁ : StoreGrows P o₀ o₁) (h₂ : StoreGrows P o₁ o) : StoreGrows P o₀ o := by
  intro k j hk
  rcases h₂ k j hk with h | h
  · exact h₁ k j h
  · exact .inr h

/-- What every instruction of the first store satisfies, every one of the second does. -/
theorem all (h : StoreGrows P o₀ o) (h₀ : ∀ k j, o₀.get? k = some j → P j) :
    ∀ k j, o.get? k = some j → P j := by
  intro k j hk
  rcases h k j hk with h | h
  · exact h₀ k j h
  · exact h

theorem mono (h : StoreGrows P o₀ o) (hPQ : ∀ i, P i → Q i) : StoreGrows Q o₀ o :=
  fun k j hk => (h k j hk).imp_right (hPQ j)

end StoreGrows

/-- An instruction the books ask nothing of: a setup or a restake. -/
def Instruction.Bookless (i : Instruction) : Prop := i.kind = .setup ∨ ∃ x, i.kind = .restake x

theorem Outstanding.of_bookless {rs : Table (String × Nat) UnbondingRecord} {bs : Table Nat Batch}
    {i : Instruction} (h : i.Bookless) : Outstanding rs bs i := by
  rcases h with h | ⟨x, h⟩
  · exact Outstanding.of_setup h
  · exact Outstanding.of_restake h

namespace Books
variable {s s' : State} {t t' : Timestamp}

/-- A call that writes none of the books keeps them while it stores only instructions they
ask nothing of. -/
theorem grow (h : Books s t) (ht : t ≤ t') (hr : s'.records = s.records)
    (hb : s'.batches = s.batches) (hc : s'.claimReserve = s.claimReserve)
    (hl : s'.lastRecordId = s.lastRecordId)
    (ho : StoreGrows Instruction.Bookless s.outbound s'.outbound) : Books s' t' := by
  refine h.frame ht hr hb hc hl fun k i hk => ?_
  rcases ho k i hk with hold | hnew
  · exact h.outstanding k i hold
  · exact Outstanding.of_bookless hnew

end Books

section Cycle
variable {env : Env} {s₀ : State} {config : Config} {params : HostParams} {A : HostAccounts}

theorem Cycle.restakeRewards_stores :
    ⦃fun s => ⌜s = s₀⌝⦄ Cycle.restakeRewards env config params A
    ⦃⇓? x s => ⌜x.1.delegator = A.delegator ∧ ∃ o, s = { s₀ with outbound := o } ∧
      StoreGrows (fun i => ∃ x, i.kind = .restake x) s₀.outbound o⌝⦄ := by
  mvcgen [Cycle.restakeRewards, Transport.queue_spec]
  all_goals ((try cases_type* And); subst_vars)
  · exact ⟨trivial, _, rfl, StoreGrows.refl.insert ⟨_, rfl⟩⟩
  · exact ⟨trivial, _, rfl, StoreGrows.refl⟩

theorem Transport.queueSetupIfReady_stores :
    ⦃fun s => ⌜s = s₀⌝⦄ Transport.queueSetupIfReady env config params A
    ⦃⇓? x s => ⌜∃ o, s = { s₀ with outbound := o } ∧
      StoreGrows (fun i => x.isSome ∧ i.kind = .setup) s₀.outbound o⌝⦄ := by
  mvcgen [Transport.queueSetupIfReady, Transport.queue_spec]
  all_goals ((try cases_type* And); subst_vars)
  all_goals first
    | exact ⟨_, rfl, StoreGrows.refl⟩
    | exact ⟨_, rfl, StoreGrows.refl.insert ⟨rfl, rfl⟩⟩

theorem foldl_markReturning_concat {bs : Table Nat Batch} {pre : List (Nat × Amount)}
    {e : Nat × Amount} :
    (pre ++ [e]).foldl markReturning bs =
      (pre.foldl markReturning bs).insert e.1 ⟨e.2, .returning⟩ := by
  rw [List.foldl_append, List.foldl_cons, List.foldl_nil, markReturning]

theorem sum_concat_of_add? {r c : Amount} {pre : List (Nat × Amount)} {e : Nat × Amount}
    (hret : r.toNat = (pre.map (·.2.toNat)).sum) (hadd : r.add? e.2 = some c) :
    c.toNat = ((pre ++ [e]).map (·.2.toNat)).sum := by
  rw [List.map_append, List.sum_append, ← hret, Amount.add?_eq_some_iff.mp hadd]
  simp

theorem Cycle.returnMatured_marks {now : Timestamp} :
    ⦃fun s => ⌜s = s₀⌝⦄ Cycle.returnMatured now
    ⦃⇓? x s => ⌜s =
        { s₀ with batches := (maturedBatches s₀ now).foldl markReturning s₀.batches } ∧
      x.1 = (maturedBatches s₀ now).map Prod.fst ∧
      x.2.toNat = ((maturedBatches s₀ now).map (·.2.toNat)).sum⌝⦄ := by
  mvcgen [Cycle.returnMatured] invariants
  | inv1 => ⇓? x s => ⌜s = { s₀ with batches := x.fst.prefix.foldl markReturning s₀.batches } ∧
      x.2.toNat = (List.map (·.2.toNat) x.fst.prefix).sum⌝
  all_goals ((try cases_type* And); subst_vars)
  · exact ⟨by rw [foldl_markReturning_concat], sum_concat_of_add? ‹_› ‹_›⟩
  · exact ⟨rfl, rfl, ‹_›⟩

theorem Cycle.interchainRedelegations_sendsBack {targets : List Target} :
    ⦃fun s => ⌜s = s₀⌝⦄ Cycle.interchainRedelegations env config targets
    ⦃⇓? x s => ⌜(∃ d pd h,
        s = { s₀ with delegations := d, pendingDeposits := pd, hostIdle := h }) ∧
      ∀ m ∈ x.1, m.sentBack = 0⌝⦄ := by
  mvcgen [Cycle.interchainRedelegations, -Cycle.interchainRedelegations_sorted, Cycle.plan,
    Recording.record_writes] invariants
  | inv1 => ⇓? x s => ⌜(∃ d pd h,
        s = { s₀ with delegations := d, pendingDeposits := pd, hostIdle := h }) ∧
      ∀ m ∈ x.2, m.sentBack = 0⌝
  all_goals ((try cases_type* And Exists); subst_vars)
  · exact ⟨⟨_, _, _, rfl⟩, List.forall_mem_append.mpr ⟨‹_›, fun _ hm => by
      rw [List.mem_singleton.mp hm]
      rfl⟩⟩
  · exact ⟨⟨_, _, _, rfl⟩, fun _ h => absurd h List.not_mem_nil⟩

theorem HostAccount.pending_of_ready {a : HostAccount} (h : ¬(!a.isReady) = true) :
    a.pending = none := by
  simp only [HostAccount.isReady, Bool.not_eq_true', Bool.not_eq_false, Bool.and_eq_true] at h
  exact Option.isNone_iff_eq_none.mp h.2

/-- The operations of a host cycle send back exactly the matured funds. -/
theorem sentBack_cycleMsgs {returned : Amount} {current : List (String × Amount)}
    {ds rs : List HostMsg}
    (hd : ∀ m ∈ ds, ∃ v a, m = .delegate v a) (hr : ∀ m ∈ rs, m.sentBack = 0) :
    (((if returned.isZero then [] else [HostMsg.transferToController returned]) ++
      current.map (fun x => HostMsg.withdrawRewards x.1) ++ ds ++ rs).map HostMsg.sentBack).sum =
      returned.toNat := by
  have hds : (ds.map HostMsg.sentBack).sum = 0 := List.sum_eq_zero fun n hn => by
    obtain ⟨m, hm, rfl⟩ := List.mem_map.mp hn
    obtain ⟨v, a, rfl⟩ := hd m hm
    rfl
  have hrs : (rs.map HostMsg.sentBack).sum = 0 := List.sum_eq_zero fun n hn => by
    obtain ⟨m, hm, rfl⟩ := List.mem_map.mp hn
    exact hr m hm
  have hw : ((current.map (fun x => HostMsg.withdrawRewards x.1)).map HostMsg.sentBack).sum = 0 := by
    rw [List.map_map]
    exact List.sum_eq_zero fun n hn => by
      obtain ⟨x, -, rfl⟩ := List.mem_map.mp hn
      rfl
  simp only [List.map_append, List.sum_append, hds, hrs, hw, Nat.add_zero]
  split
  · next hz => simpa [Amount.isZero] using (beq_iff_eq.mp hz).symm
  · simp [HostMsg.sentBack]

theorem HostInv.restakes_of_ready {s : State} (h : HostInv s) (ho : OwnedStore s)
    (hA : s.accounts = some A) {d : HostAccount} (hd : d = A.delegator) (hr : ¬(!d.isReady) = true) :
    ∀ k j, s.outbound.get? k = some j → ∃ x, j.kind = .restake x :=
  h.restakes_of_idle ho hA (hd ▸ HostAccount.pending_of_ready hr)

/-- Only restakes stored, and one cycle queued that sends back what the batches of `L` hold. -/
theorem cycle_queued {o : Table (String × Nat) Instruction} {k₀ : String × Nat} {i : Instruction}
    {shipped : Amount} {returning : List Nat} {L : List (Nat × Amount)}
    (hall : ∀ k j, o.get? k = some j → ∃ x, j.kind = .restake x)
    (hk : i.kind = .cycle shipped returning) (hret : returning = L.map Prod.fst)
    (hsum : (i.msgs.map HostMsg.sentBack).sum = (L.map (·.2.toNat)).sum) :
    ∀ k j, (o.insert k₀ i).get? k = some j → (∃ x, j.kind = .restake x) ∨
      ∃ shipped, j.kind = .cycle shipped (L.map Prod.fst) ∧
        (j.msgs.map HostMsg.sentBack).sum = (L.map (·.2.toNat)).sum := by
  intro k j hj
  rw [Table.get?_insert] at hj
  split at hj
  · cases hj
    exact .inr ⟨shipped, hret ▸ hk, hsum⟩
  · exact .inl (hall k j hj)

theorem Cycle.interchainCycle_books {t : Timestamp} (h : Books s₀ t) (ht : t ≤ env.block.time)
    (hinv : HostInv s₀) (ho : OwnedStore s₀) :
    ⦃fun s => ⌜s = s₀⌝⦄ Cycle.interchainCycle env config params
    ⦃⇓? _ s => ⌜Books s env.block.time⌝⦄ := by
  mvcgen [Cycle.interchainCycle, Cycle.restakeRewards_stores, Transport.queueSetupIfReady_stores,
    Cycle.saveAccounts, Cycle.returnMatured_marks, Cycle.shipDeposits_writes,
    -Cycle.interchainDelegations_sorted, Cycle.interchainDelegations_spec,
    -Cycle.interchainRedelegations_sorted, Cycle.interchainRedelegations_sendsBack,
    Transport.queue_spec]
  all_goals ((try cases_type* And Exists); subst_vars)
  -- the delegator's setup queued, or the delegator busy: the restake and the setup are new
  iterate 2
    exact h.grow ht rfl rfl rfl rfl
      ((‹StoreGrows (fun i => ∃ x, i.kind = .restake x) _ _›.mono fun _ hi => .inr hi).trans
        (‹StoreGrows (fun i => _ ∧ i.kind = .setup) _ _›.mono fun _ hi => .inl hi.2))
  -- the matured batches marked: only restakes are stored, and perhaps the cycle sending them home
  all_goals
    have hrestakes := ((‹StoreGrows (fun i => ∃ x, i.kind = .restake x) _ _›).trans
      (‹StoreGrows (fun i => _ ∧ i.kind = .setup) _ _›.mono
        fun _ hi => (Bool.false_ne_true hi.1).elim)).all
      (hinv.restakes_of_ready ho ‹_› ‹_› ‹_›)
  · exact h.returnMatured ht (by rfl) (by rfl) (by rfl) (by rfl) fun k j hk => .inl (hrestakes k j hk)
  all_goals
    exact h.returnMatured ht (by rfl) (by rfl) (by rfl) (by rfl)
      (cycle_queued hrestakes rfl ‹_› ((sentBack_cycleMsgs ‹_› ‹_›).trans ‹_›))

theorem Outstanding.of_cycle_nil {rs : Table (String × Nat) UnbondingRecord} {bs : Table Nat Batch}
    {i : Instruction} {x : Amount} (hk : i.kind = .cycle x []) (hs : ∀ m ∈ i.msgs, m.sentBack = 0) :
    Outstanding rs bs i := by
  unfold Outstanding
  rw [hk]
  refine ⟨List.nodup_nil, fun m hm => absurd hm List.not_mem_nil, ?_⟩
  rw [heldBy, List.map_nil, List.sum_nil]
  exact List.sum_eq_zero fun n hn => by
    obtain ⟨m, hm, rfl⟩ := List.mem_map.mp hn
    exact hs m hm

theorem Cycle.rebalanceNow_books {t : Timestamp} (ht : t ≤ env.block.time) :
    ⦃fun s => ⌜Books s t⌝⦄ Cycle.rebalanceNow env ⦃⇓? _ s => ⌜Books s env.block.time⌝⦄ := by
  mvcgen [Cycle.rebalanceNow, Cycle.nativeTargets, Cycle.plan, -Cycle.nativeRedelegations_sorted,
    Cycle.nativeRedelegations_writes, -Cycle.interchainRedelegations_sorted,
    Cycle.interchainRedelegations_sendsBack, Transport.queue_spec, Cycle.saveAccounts]
  all_goals ((try cases_type* And Exists); subst_vars)
  all_goals first
    | exact ‹Books _ t›.frame_store ht (by rfl) (by rfl) (by rfl) (by rfl) (by rfl)
    | -- the redelegations travel as a cycle that brings nothing back
      exact ‹Books _ t›.frame ht (by rfl) (by rfl) (by rfl) (by rfl)
        (‹Books _ t›.outstanding_of_insert (by rfl) (Outstanding.of_cycle_nil rfl ‹_›))

theorem Cycle.endBlock_books {t : Timestamp} (h : Books s₀ t) (ht : t ≤ env.block.time)
    (hinv : HostInv s₀) (ho : OwnedStore s₀) :
    ⦃fun s => ⌜s = s₀⌝⦄ Cycle.endBlock env ⦃⇓? _ s => ⌜Books s env.block.time⌝⦄ := by
  mvcgen [Cycle.endBlock, Cycle.nativeCycle, Cycle.nativeTargets, Cycle.plan,
    -Cycle.nativeDelegations_sorted, Cycle.nativeDelegations_writes,
    -Cycle.nativeRedelegations_sorted, Cycle.nativeRedelegations_writes,
    Cycle.interchainCycle_books]
  all_goals ((try cases_type* And Exists); subst_vars)
  all_goals first
    | assumption
    | exact h.frame_store ht (by rfl) (by rfl) (by rfl) (by rfl) (by rfl)

theorem Governance.apply_books {p : Proposal} {t : Timestamp} (h : Books s₀ t)
    (ht : t ≤ env.block.time) :
    ⦃fun s => ⌜s = s₀⌝⦄ Governance.apply env p ⦃⇓? _ s => ⌜Books s env.block.time⌝⦄ := by
  mvcgen [Governance.apply, Cycle.rebalanceNow_books]
  all_goals subst_vars
  all_goals first
    | exact h.frame_store ht (by rfl) (by rfl) (by rfl) (by rfl) (by rfl)
    | exact h.frame_store (Nat.le_refl _) (by rfl) (by rfl) (by rfl) (by rfl) (by rfl)

theorem Transport.openAck_books {o addr : String} {t : Timestamp} (h : Books s₀ t)
    (ht : t ≤ env.block.time) :
    ⦃fun s => ⌜s = s₀⌝⦄ Transport.openAck env o addr ⦃⇓? _ s => ⌜Books s env.block.time⌝⦄ := by
  mvcgen [Transport.openAck, Transport.ensureInterchain, Transport.roleOf,
    Transport.queueSetupIfReady_stores]
  all_goals ((try cases_type* And Exists); subst_vars)
  all_goals
    exact h.grow ht (by rfl) (by rfl) (by rfl) (by rfl)
      (‹StoreGrows (fun i => _ ∧ i.kind = .setup) _ _›.mono fun _ hi => .inl hi.2)

end Cycle

section Unstake
variable {env : Env} {s₀ : State}

theorem Exit.joinBatch_adds {m : Nat} {a : Amount} :
    ⦃fun s => ⌜s = s₀⌝⦄ Exit.joinBatch m a
    ⦃⇓? _ s => ⌜∃ total,
      total.toNat = (s₀.batches.getD m ⟨Amount.zero, .unbonding⟩).amount.toNat + a.toNat ∧
      s = { s₀ with batches :=
        s₀.batches.insert m ⟨total, (s₀.batches.getD m ⟨Amount.zero, .unbonding⟩).status⟩ }⌝⦄ := by
  mvcgen [Exit.joinBatch]
  subst_vars
  exact ⟨_, Amount.add?_eq_some_iff.mp ‹_›, rfl⟩

theorem Transport.queue_sends {config : Config} {params : HostParams} {a : HostAccount}
    {msgs : List HostMsg} {kind : InstructionKind} :
    ⦃fun s => ⌜s = s₀⌝⦄ Transport.queue env config params a msgs kind
    ⦃⇓? _ s => ⌜Transport.ensureCanSend a kind = .ok () ∧ s = { s₀ with
        outbound := s₀.outbound.insert (a.ownerId, a.nextSequence)
          ⟨a.ownerId, a.nextSequence, msgs, kind, env.block.time⟩ }⌝⦄ := by
  mvcgen [Transport.queue]
  cases_type* And
  subst_vars
  exact ⟨‹Transport.ensureCanSend a kind = _›.trans rfl, rfl⟩

theorem Timestamp.seconds_plusSeconds {a u : Timestamp} {n : Nat} (h : a.plusSeconds n = .ok u) :
    u.seconds = a.seconds + n := by
  simp only [Timestamp.plusSeconds] at h
  split at h
  · split at h
    · cases h
      simp [Timestamp.seconds, Timestamp.nanosPerSecond, Nat.add_mul_div_right]
    · cases h
  · cases h

/-- A maturity a positive period after the current time lies past every earlier second. -/
theorem Timestamp.seconds_lt_plusSeconds {t a u : Timestamp} {n : Nat} (ht : t ≤ a) (hn : 0 < n)
    (h : a.plusSeconds n = .ok u) : t.seconds < u.seconds := by
  rw [Timestamp.seconds_plusSeconds h]
  have := Timestamp.seconds_le_seconds ht
  omega

theorem Amount.pos_of_not_isZero {a : Amount} (h : ¬a.isZero = true) : 0 < a.toNat := by
  simp only [Amount.isZero, beq_iff_eq] at h
  omega

theorem Exit.liquidUnstake_books {owner : String} {amount : Amount} {t : Timestamp} {c : Config}
    (h : Books s₀ t) (ht : t ≤ env.block.time) (hinv : HostInv s₀) (ho : OwnedStore s₀)
    (hc : s₀.config = some c) (hl : c.ledger = .interchain) (hp : 0 < c.unbondingPeriod) :
    ⦃fun s => ⌜s = s₀⌝⦄ Exit.liquidUnstake env owner amount
    ⦃⇓? _ s => ⌜Books s env.block.time⌝⦄ := by
  mvcgen [Exit.liquidUnstake, -Exit.liquidUnstake_undelegates, Exit.joinBatch_adds,
    Transport.queue_sends,
    -Token.transferDerivative, -Token.burnDerivative, Token.transferDerivative_frame,
    Token.burnDerivative_frame, -Tx.read, Valuation.read_currentRate_spec,
    -Recording.recordAll_undelegations_spec, Recording.recordAll_writes]
  all_goals ((try cases_type* And Exists); subst_vars)
  -- one configuration is read throughout, and it is the interchain one
  all_goals (simp only [hc, Option.some.injEq] at *; subst_vars)
  all_goals first
    | exact absurd (‹_ = LedgerKind.native›.symm.trans hl) (by decide)
    | exact h.unstake ht (Amount.pos_of_not_isZero ‹_›) (Timestamp.seconds_lt_plusSeconds ht hp ‹_›)
        (hinv.restakes_of_idle ho ‹_› (Transport.ensureCanSend_eq_ok.mp ‹_›).1) ‹_›
        (by rfl) (by rfl) (by rfl) (by rfl) (by rfl) (by rfl)

end Unstake

section Claim
variable {env : Env} {s₀ : State}

theorem Amount.sub?_eq_none_iff {a b : Amount} : a.sub? b = none ↔ a.toNat < b.toNat := by
  unfold Amount.sub?
  split <;> simp_all

theorem Amount.toNat_add_of_sub? {a b c : Amount} (h : a.sub? b = some c) :
    c.toNat + b.toNat = a.toNat := by
  have := Amount.sub?_eq_some_iff.mp h
  omega

/-- The claim's loop so far: the records it paid left and the claimed total is what they were
owed; the records still to visit wait under their keys; nothing else of the books moved. -/
structure ClaimLoop (s₀ s : State) (rest : List ((String × Nat) × UnbondingRecord)) (n : Nat) :
    Prop where
  claimed : Claimed s₀.batches s₀.records s.records n
  nodup : (rest.map (·.1)).Nodup
  waiting : ∀ e ∈ rest, s.records.get? e.1 = some e.2
  batches : s.batches = s₀.batches
  reserve : s.claimReserve = s₀.claimReserve
  lastRecordId : s.lastRecordId = s₀.lastRecordId
  outbound : s.outbound = s₀.outbound

namespace ClaimLoop
variable {s : State} {e : (String × Nat) × UnbondingRecord}
  {rest : List ((String × Nat) × UnbondingRecord)} {n : Nat}

theorem start (hs : s₀.records.Sorted) (p : (String × Nat) × UnbondingRecord → Bool) :
    ClaimLoop s₀ s₀ (s₀.records.toList.filter p) 0 where
  claimed := .refl hs
  nodup := hs.nodup_keys.sublist (List.filter_sublist.map _)
  waiting := fun _ he => hs.get?_eq_some_iff.mpr (List.mem_of_mem_filter he)
  batches := rfl
  reserve := rfl
  lastRecordId := rfl
  outbound := rfl

theorem skip (h : ClaimLoop s₀ s (e :: rest) n) : ClaimLoop s₀ s rest n where
  claimed := h.claimed
  nodup := (List.nodup_cons.mp h.nodup).2
  waiting := fun e' he' => h.waiting e' (List.mem_cons_of_mem _ he')
  batches := h.batches
  reserve := h.reserve
  lastRecordId := h.lastRecordId
  outbound := h.outbound

/-- Paying the next record, whose batch has come back. -/
theorem pay {claimed c : Amount} (h : ClaimLoop s₀ s (e :: rest) claimed.toNat)
    (hret : returnedAt s₀.batches e.2.maturity.seconds = true)
    (hadd : claimed.add? e.2.amount = some c) :
    ClaimLoop s₀ { s with records := s.records.erase e.1 } rest c.toNat where
  claimed := by
    rw [Amount.add?_eq_some_iff.mp hadd]
    exact h.claimed.erase (h.waiting e List.mem_cons_self) hret
  nodup := (List.nodup_cons.mp h.nodup).2
  waiting := by
    intro e' he'
    -- the keys still to visit differ from the one paid
    have hne : e.1 ≠ e'.1 := fun heq =>
      (List.nodup_cons.mp h.nodup).1 (List.mem_map.mpr ⟨e', he', heq.symm⟩)
    rw [Table.get?_erase, if_neg hne]
    exact h.waiting e' (List.mem_cons_of_mem _ he')
  batches := h.batches
  reserve := h.reserve
  lastRecordId := h.lastRecordId
  outbound := h.outbound

/-- What a claim pays is covered by the reserve. -/
theorem le_reserve {t : Timestamp} (h : ClaimLoop s₀ s [] n) (hb : Books s₀ t) :
    n ≤ s.claimReserve.toNat := by
  have hpaid := h.claimed.paid
  rw [h.reserve, hb.reserve]
  omega

/-- A finished claim loop keeps the books once the reserve gives up what was paid. -/
theorem books {t t' : Timestamp} {reserve : Amount} (h : ClaimLoop s₀ s [] n) (hb : Books s₀ t)
    (ht : t ≤ t') (hres : reserve.toNat + n = s.claimReserve.toNat) :
    Books { s with claimReserve := reserve } t' :=
  hb.claim ht h.claimed (by rw [← h.reserve]; exact hres) h.batches h.lastRecordId h.outbound

end ClaimLoop

/-- On the interchain ledger a record is claimable only once its batch has come back. -/
theorem returnedAt_of_claimableNow {s : State} {c : Config} {now : Timestamp} {r : UnbondingRecord}
    (h : Exit.claimableNow s c now r = true) (hl : c.ledger = .interchain) :
    returnedAt s.batches r.maturity.seconds = true := by
  simp only [Exit.claimableNow, hl, Bool.and_eq_true, Bool.or_eq_true, beq_iff_eq, reduceCtorEq,
    false_or] at h
  exact h.2

theorem Exit.claim_books {sender : String} {t t' : Timestamp} {c : Config} (h : Books s₀ t)
    (ht : t ≤ t') (hc : s₀.config = some c) (hl : c.ledger = .interchain) :
    ⦃fun s => ⌜s = s₀⌝⦄ Exit.claim env sender
    ⦃(fun _ s => ⌜Books s t'⌝, fun e => ⌜¬ e.Underflow⌝, ())⦄ := by
  mvcgen [Exit.claim, -Exit.claim_writes] invariants
  | inv1 => (fun x s => ⌜ClaimLoop s₀ s x.1.suffix x.2.1.toNat⌝, fun e => ⌜¬ e.Underflow⌝, ())
  all_goals subst_vars
  all_goals (simp only [hc, Option.some.injEq] at *; subst_vars)
  · -- a record whose batch has come back is paid
    exact ‹ClaimLoop _ _ _ _›.pay
      (‹ClaimLoop _ _ _ _›.batches ▸ returnedAt_of_claimableNow ‹_› hl) ‹_›
  · exact ‹ClaimLoop _ _ _ _›.skip
  · exact ClaimLoop.start h.recordsSorted _
  · exact ‹ClaimLoop _ _ _ _›.books h ht (add_eq_left.mpr (beq_iff_eq.mp ‹_›))
  · exact ‹ClaimLoop _ _ _ _›.books h ht (Amount.toNat_add_of_sub? ‹_›)
  · -- the reserve covers what the records paid were owed
    exact absurd (Amount.sub?_eq_none_iff.mp ‹_›)
      (Nat.not_lt.mpr (‹ClaimLoop _ _ _ _›.le_reserve h))
  · exact absurd (beq_iff_eq.mpr hl) ‹_›

end Claim

end LiquidStaking
