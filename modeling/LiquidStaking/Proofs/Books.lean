import Mathlib
import LiquidStaking.Cycle
import LiquidStaking.Proofs.Table

/-! # Unbonding books

On the interchain ledger three stores keep the base owed to unstakers: the unbonding records,
the batches that gather the records maturing at one second, and the claim reserve, which holds
the base of the batches that have come back. `Books` says that they agree: every record has
its batch; a batch that has not come back holds exactly what its records owe; the reserve
holds exactly what the records of the returned batches owe. It also says what an outstanding
instruction needs of them: a cycle's returning batches are travelling back and hold what the
cycle sends home, and an unstake's record waits in an unbonding batch.

Each move of the books keeps the invariant, given what it reads of the other stores:
recording an unstake, paying claims, marking matured batches as travelling back, confirming
or reversing a cycle, reversing an unstake. What records owe is a sum over the record table,
`owed`, which moves under an insert or an erase by the one record written.
-/
namespace LiquidStaking

open Table

section Owed

variable {p q : Nat → Bool} {rs : Table (String × Nat) UnbondingRecord}
  {k : String × Nat} {r : UnbondingRecord}

/-- What the records maturing at the seconds that `p` picks owe. -/
def owed (p : Nat → Bool) (rs : Table (String × Nat) UnbondingRecord) : Nat :=
  rs.sumBy fun _ r => if p r.maturity.seconds then r.amount.toNat else 0

/-- What the records maturing at one second owe: what its batch must hold. -/
def owedAt (rs : Table (String × Nat) UnbondingRecord) (m : Nat) : Nat := owed (· == m) rs

/-- Whether the batch of a second has come back, as a claim reads it. -/
def returnedAt (bs : Table Nat Batch) (m : Nat) : Bool := (bs.get? m).any (·.status == .returned)

/-- What the records of the returned batches owe: what the claim reserve must hold. -/
def owedReturned (rs : Table (String × Nat) UnbondingRecord) (bs : Table Nat Batch) : Nat :=
  owed (returnedAt bs) rs

theorem owed_congr (h : ∀ m, p m = q m) : owed p rs = owed q rs := by
  rw [funext h]

/-- Seconds picked by one of two tests that never both pick owe the sum. -/
theorem owed_or (h : ∀ m, p m = true → q m = false) :
    owed (fun m => p m || q m) rs = owed p rs + owed q rs := by
  unfold owed
  rw [← sumBy_add]
  congr 1
  funext _ r
  cases hp : p r.maturity.seconds
  · simp [hp]
  · simp [hp, h _ hp]

theorem owed_insert (hs : rs.Sorted) (hk : rs.get? k = none) :
    owed p (rs.insert k r) = owed p rs + if p r.maturity.seconds then r.amount.toNat else 0 := by
  unfold owed
  simpa [weightOf, hk] using hs.sumBy_insert (fun _ r => if p r.maturity.seconds then r.amount.toNat else 0) k r

theorem owed_erase (hs : rs.Sorted) (hk : rs.get? k = some r) :
    owed p (rs.erase k) + (if p r.maturity.seconds then r.amount.toNat else 0) = owed p rs := by
  unfold owed
  simpa [weightOf, hk] using hs.sumBy_erase (fun _ r => if p r.maturity.seconds then r.amount.toNat else 0) k

/-- A picked record owes no more than all the picked ones. -/
theorem amount_le_owed (hs : rs.Sorted) (hk : rs.get? k = some r) (hp : p r.maturity.seconds = true) :
    r.amount.toNat ≤ owed p rs := by
  have := owed_erase (p := p) hs hk
  rw [if_pos hp] at this
  omega

/-- Nothing is owed at seconds no record matures at. -/
theorem owed_eq_zero (hs : rs.Sorted) (h : ∀ k r, rs.get? k = some r → p r.maturity.seconds = false) :
    owed p rs = 0 := by
  have hz : owed p rs = rs.sumBy fun _ _ => 0 :=
    hs.sumBy_congr fun k r hk => by simp [h k r hk]
  simp [hz, sumBy]

/-- Where nothing is owed, no record of a positive amount matures. -/
theorem not_picked_of_owed_eq_zero (hs : rs.Sorted) (hpos : 0 < r.amount.toNat)
    (hk : rs.get? k = some r) (h0 : owed p rs = 0) : p r.maturity.seconds = false := by
  cases hp : p r.maturity.seconds
  · rfl
  · have := amount_le_owed hs hk hp
    omega

/-- What the seconds of a list without repeats are owed one by one sums to what the list is
owed. -/
theorem sum_owedAt {L : List Nat} (hL : L.Nodup) :
    (L.map (owedAt rs)).sum = owed (fun m => decide (m ∈ L)) rs := by
  have hfun : owedAt rs = fun m => rs.sumBy fun _ r =>
      if r.maturity.seconds = m then r.amount.toNat else 0 := by
    funext m
    simp [owedAt, owed]
  rw [hfun]
  simpa [owed] using sumBy_sum_indicator rs (fun _ r => r.maturity.seconds) (fun _ r => r.amount.toNat) hL

end Owed

section Statuses

variable {st : BatchStatus} {bs : Table Nat Batch} {m j : Nat}

/-- The batches with the one of a second, if there is one, given a new status. -/
def withStatus (st : BatchStatus) (bs : Table Nat Batch) (m : Nat) : Table Nat Batch :=
  match bs.get? m with
  | some b => bs.insert m { b with status := st }
  | none => bs

theorem get?_withStatus : (withStatus st bs m).get? j =
    if m = j then (bs.get? j).map fun b => { b with status := st } else bs.get? j := by
  unfold withStatus
  split
  · next b hb =>
    rw [get?_insert]
    by_cases h : m = j
    · subst h
      simp [hb]
    · simp [h]
  · next hb =>
    by_cases h : m = j
    · subst h
      simp [hb]
    · simp [h]

/-- Setting the status of the batches of some seconds, one after the other. -/
theorem get?_foldl_withStatus (ms : List Nat) : ∀ bs : Table Nat Batch,
    (ms.foldl (withStatus st) bs).get? j =
      if j ∈ ms then (bs.get? j).map (fun b => { b with status := st }) else bs.get? j := by
  induction ms with
  | nil => simp
  | cons m ms ih =>
    intro bs
    rw [List.foldl_cons, ih, get?_withStatus]
    by_cases hj : j ∈ ms <;> by_cases hm : m = j
    · subst hm
      simp [hj, Option.map_map, Function.comp_def]
    · simp [hj, hm]
    · subst hm
      simp [hj]
    · simp [hj, hm, Ne.symm hm]

theorem Table.Sorted.foldl_withStatus (ms : List Nat) :
    ∀ {bs : Table Nat Batch}, bs.Sorted → (ms.foldl (withStatus st) bs).Sorted := by
  induction ms with
  | nil => exact fun h => h
  | cons m ms ih =>
    intro bs h
    apply ih
    unfold withStatus
    split
    · exact h.insert _ _
    · exact h

/-- What the batches of some seconds hold. -/
def heldBy (bs : Table Nat Batch) (ms : List Nat) : Nat :=
  (ms.map fun m => ((bs.get? m).map (·.amount.toNat)).getD 0).sum

/-- A new status moves no base. -/
theorem heldBy_foldl_withStatus (ms ms' : List Nat) (bs : Table Nat Batch) :
    heldBy (ms'.foldl (withStatus st) bs) ms = heldBy bs ms := by
  unfold heldBy
  congr 1
  refine List.map_congr_left fun m _ => ?_
  rw [get?_foldl_withStatus]
  split <;> simp [Option.map_map, Function.comp_def]

/-- A matured batch marked as travelling back, as the cycle marks it. -/
def markReturning (bs : Table Nat Batch) (e : Nat × Amount) : Table Nat Batch :=
  bs.insert e.1 ⟨e.2, .returning⟩

theorem get?_foldl_markReturning_of_not_mem {L : List (Nat × Amount)} (hj : j ∉ L.map Prod.fst) :
    ∀ bs : Table Nat Batch, (L.foldl markReturning bs).get? j = bs.get? j := by
  induction L with
  | nil => exact fun _ => rfl
  | cons e L ih =>
    intro bs
    simp only [List.map_cons, List.mem_cons, not_or] at hj
    rw [List.foldl_cons, ih hj.2, markReturning, get?_insert, if_neg (Ne.symm hj.1)]

theorem get?_foldl_markReturning_of_mem {L : List (Nat × Amount)} (hnd : (L.map Prod.fst).Nodup)
    {e : Nat × Amount} (he : e ∈ L) :
    ∀ bs : Table Nat Batch, (L.foldl markReturning bs).get? e.1 = some ⟨e.2, .returning⟩ := by
  induction L with
  | nil => exact absurd he List.not_mem_nil
  | cons d L ih =>
    intro bs
    rw [List.map_cons, List.nodup_cons] at hnd
    obtain ⟨hd, hnd⟩ := hnd
    rw [List.foldl_cons]
    rcases List.mem_cons.mp he with rfl | he
    · rw [get?_foldl_markReturning_of_not_mem hd, markReturning, get?_insert, if_pos rfl]
    · exact ih hnd he _

theorem Table.Sorted.foldl_markReturning (L : List (Nat × Amount)) :
    ∀ {bs : Table Nat Batch}, bs.Sorted → (L.foldl markReturning bs).Sorted := by
  induction L with
  | nil => exact fun h => h
  | cons e L ih => exact fun h => ih (h.insert _ _)

end Statuses

section Matured

variable {s : State} {now : Timestamp} {e : Nat × Amount}

theorem mem_maturedBatches (hs : s.batches.Sorted) :
    e ∈ Cycle.maturedBatches s now ↔
      ∃ b, s.batches.get? e.1 = some b ∧ e.1 ≤ now.seconds ∧ b.status = .unbonding ∧ e.2 = b.amount := by
  unfold Cycle.maturedBatches
  rw [List.mem_filterMap]
  constructor
  · rintro ⟨⟨m, b⟩, hm, he⟩
    simp only at he
    split at he
    · next hc =>
      cases he
      simp only [Bool.and_eq_true, decide_eq_true_eq, beq_iff_eq] at hc
      exact ⟨b, hs.get?_eq_some_iff.mpr hm, hc.1, hc.2, rfl⟩
    · cases he
  · rintro ⟨b, hb, hle, hst, he⟩
    refine ⟨(e.1, b), hs.get?_eq_some_iff.mp hb, ?_⟩
    simp [hle, hst, ← he]

theorem nodup_maturedBatches (hs : s.batches.Sorted) :
    ((Cycle.maturedBatches s now).map Prod.fst).Nodup := by
  unfold Cycle.maturedBatches
  rw [List.Nodup, List.pairwise_map]
  refine List.Pairwise.filterMap _ (fun a a' hlt b hb b' hb' heq => ?_) hs
  -- each kept entry keeps its key, and the keys of the table are strictly ascending
  obtain ⟨m, x⟩ := a
  obtain ⟨m', x'⟩ := a'
  simp only at hb hb'
  split at hb <;> split at hb' <;> cases hb <;> cases hb'
  dsimp only at heq hlt
  rw [compare_eq_iff.mpr heq] at hlt
  cases hlt

/-- Marking the matured batches changes only the status of the unbonding batches matured by
the time. -/
theorem get?_returnMatured (hs : s.batches.Sorted) (j : Nat) :
    ((Cycle.maturedBatches s now).foldl markReturning s.batches).get? j =
      (s.batches.get? j).map fun b =>
        if j ≤ now.seconds ∧ b.status = .unbonding then { b with status := .returning } else b := by
  by_cases hj : j ∈ (Cycle.maturedBatches s now).map Prod.fst
  · obtain ⟨e, he, rfl⟩ := List.mem_map.mp hj
    obtain ⟨b, hb, hle, hst, hamt⟩ := (mem_maturedBatches hs).mp he
    rw [get?_foldl_markReturning_of_mem (nodup_maturedBatches hs) he, hb]
    simp [hle, hst, hamt]
  · rw [get?_foldl_markReturning_of_not_mem hj]
    cases hb : s.batches.get? j with
    | none => rfl
    | some b =>
      -- an unbonding batch matured by the time would have been marked
      have hc : ¬(j ≤ now.seconds ∧ b.status = .unbonding) := fun hc =>
        hj (List.mem_map.mpr ⟨(j, b.amount), (mem_maturedBatches hs).mpr ⟨b, hb, hc.1, hc.2, rfl⟩, rfl⟩)
      simp [hc]

end Matured

/-- The base an operation sends back to this chain. -/
def HostMsg.sentBack : HostMsg → Nat
  | .transferToController a => a.toNat
  | _ => 0

/-- What the books need of an outstanding instruction: a cycle's returning batches are
distinct, travelling back, and hold what it sends back; an unstake's record, while it is
stored, waits in an unbonding batch. -/
def Outstanding (rs : Table (String × Nat) UnbondingRecord) (bs : Table Nat Batch)
    (i : Instruction) : Prop :=
  match i.kind with
  | .cycle _ returning =>
    returning.Nodup ∧ (∀ m ∈ returning, ∃ b, bs.get? m = some b ∧ b.status = .returning) ∧
      (i.msgs.map HostMsg.sentBack).sum = heldBy bs returning
  | .unstake owner id _ =>
    ∀ r, rs.get? (owner, id) = some r →
      ∃ b, bs.get? r.maturity.seconds = some b ∧ b.status = .unbonding
  | .setup | .restake _ => True

theorem Outstanding.of_restake {rs : Table (String × Nat) UnbondingRecord} {bs : Table Nat Batch}
    {i : Instruction} {x : Amount} (h : i.kind = .restake x) : Outstanding rs bs i := by
  unfold Outstanding
  rw [h]
  trivial

/-- The unbonding books of a state, with `t` the time of the last call. -/
structure Books (s : State) (t : Timestamp) : Prop where
  recordsSorted : s.records.Sorted
  batchesSorted : s.batches.Sorted
  /-- Every record is owed something. -/
  positive : ∀ k r, s.records.get? k = some r → 0 < r.amount.toNat
  /-- Record ids are handed out above every stored one. -/
  below : ∀ k r, s.records.get? k = some r → k.2 ≤ s.lastRecordId
  /-- Every record has the batch of its maturity. -/
  batched : ∀ k r, s.records.get? k = some r → ∃ b, s.batches.get? r.maturity.seconds = some b
  /-- A batch that has not come back holds what its records owe. -/
  held : ∀ m b, s.batches.get? m = some b → b.status ≠ .returned →
    b.amount.toNat = owedAt s.records m
  /-- The reserve holds what the records of the returned batches owe. -/
  reserve : s.claimReserve.toNat = owedReturned s.records s.batches
  /-- Batches leave unbonding only once matured. -/
  settled : ∀ m b, s.batches.get? m = some b → b.status ≠ .unbonding → m ≤ t.seconds
  /-- Every stored instruction is outstanding as the books need. -/
  outstanding : ∀ k i, s.outbound.get? k = some i → Outstanding s.records s.batches i

theorem Timestamp.seconds_le_seconds {a b : Timestamp} (h : a ≤ b) : a.seconds ≤ b.seconds :=
  Nat.div_le_div_right h

section Moves

variable {rs rs₀ rs' : Table (String × Nat) UnbondingRecord} {bs : Table Nat Batch}
  {i : Instruction} {k : String × Nat} {r : UnbondingRecord} {n : Nat}

/-- Paying records only takes away what an unstake's instruction reads. -/
theorem Outstanding.mono_records (h : Outstanding rs bs i)
    (hsub : ∀ k r, rs'.get? k = some r → rs.get? k = some r) : Outstanding rs' bs i := by
  unfold Outstanding at h ⊢
  split at h
  · exact h
  · exact fun r hr => h r (hsub _ r hr)
  · trivial
  · trivial

/-- The records left after paying `n` of those whose batch has come back. -/
structure Claimed (bs : Table Nat Batch) (rs₀ rs : Table (String × Nat) UnbondingRecord) (n : Nat) :
    Prop where
  sorted : rs.Sorted
  sub : ∀ k r, rs.get? k = some r → rs₀.get? k = some r
  owedAt_eq : ∀ m, returnedAt bs m = false → owedAt rs m = owedAt rs₀ m
  paid : n + owedReturned rs bs = owedReturned rs₀ bs

theorem Claimed.refl (hs : rs.Sorted) : Claimed bs rs rs 0 :=
  ⟨hs, fun _ _ h => h, fun _ _ => rfl, Nat.zero_add _⟩

/-- Paying one more record of a returned batch. -/
theorem Claimed.erase (h : Claimed bs rs₀ rs n) (hk : rs.get? k = some r)
    (hret : returnedAt bs r.maturity.seconds = true) :
    Claimed bs rs₀ (rs.erase k) (n + r.amount.toNat) := by
  refine ⟨h.sorted.erase k, fun k' r' hk' => h.sub k' r' (get?_of_get?_erase hk'), fun m hm => ?_, ?_⟩
  · -- the paid record matures at a returned second, so not at `m`
    have hne : r.maturity.seconds ≠ m := by
      rintro rfl
      rw [hret] at hm
      cases hm
    have herase := owed_erase (p := (· == m)) h.sorted hk
    simp only [beq_iff_eq, hne, if_false, Nat.add_zero] at herase
    rw [owedAt, herase]
    exact h.owedAt_eq m hm
  · have herase := owed_erase (p := returnedAt bs) h.sorted hk
    rw [if_pos hret] at herase
    have hpaid := h.paid
    unfold owedReturned at hpaid ⊢
    omega

end Moves

theorem Outstanding.of_setup {rs : Table (String × Nat) UnbondingRecord} {bs : Table Nat Batch}
    {i : Instruction} (h : i.kind = .setup) : Outstanding rs bs i := by
  unfold Outstanding
  rw [h]
  trivial

/-- The records and batches once the record under `k` is withdrawn: its amount leaves the
batch of its maturity, which goes once empty. -/
def withdrawRecord (rs : Table (String × Nat) UnbondingRecord) (bs : Table Nat Batch)
    (k : String × Nat) : Table (String × Nat) UnbondingRecord × Table Nat Batch :=
  match rs.get? k with
  | none => (rs, bs)
  | some r =>
    (rs.erase k, match bs.get? r.maturity.seconds with
      | none => bs
      | some b =>
        if (b.amount.satSub r.amount).isZero then bs.erase r.maturity.seconds
        else bs.insert r.maturity.seconds { b with amount := b.amount.satSub r.amount })

/-- How the answer to an instruction moves the books, `ok` saying whether it was a success: a
success brings a cycle's batches back into the reserve, a failure sends them back to
unbonding or withdraws an unstake's record, and the answer to any other kind leaves them. -/
inductive Answered (ok : Prop) (i : Instruction) (s s' : State) : Prop
  | returned {shipped : Amount} {returning : List Nat} : ok → i.kind = .cycle shipped returning →
      s'.records = s.records → s'.batches = returning.foldl (withStatus .returned) s.batches →
      s'.claimReserve.toNat = s.claimReserve.toNat + heldBy s.batches returning → Answered ok i s s'
  | reverted {shipped : Amount} {returning : List Nat} : ¬ok → i.kind = .cycle shipped returning →
      s'.records = s.records → s'.batches = returning.foldl (withStatus .unbonding) s.batches →
      s'.claimReserve = s.claimReserve → Answered ok i s s'
  | withdrawn {owner : String} {id : Nat} {burned : Amount} : ¬ok →
      i.kind = .unstake owner id burned →
      (s'.records, s'.batches) = withdrawRecord s.records s.batches (owner, id) →
      s'.claimReserve = s.claimReserve → Answered ok i s s'
  | kept : (∀ shipped returning, i.kind ≠ .cycle shipped returning) → s'.records = s.records →
      s'.batches = s.batches → s'.claimReserve = s.claimReserve → Answered ok i s s'

namespace Books

variable {s s' : State} {t t' : Timestamp}

/-- A call that writes none of the books keeps them, provided every instruction it leaves
stored is outstanding as the books need. -/
theorem frame (h : Books s t) (ht : t ≤ t') (hr : s'.records = s.records)
    (hb : s'.batches = s.batches) (hc : s'.claimReserve = s.claimReserve)
    (hl : s'.lastRecordId = s.lastRecordId)
    (ho : ∀ k i, s'.outbound.get? k = some i → Outstanding s.records s.batches i) : Books s' t' := by
  obtain ⟨h₁, h₂, h₃, h₄, h₅, h₆, h₇, h₈, -⟩ := h
  have hsec := Timestamp.seconds_le_seconds ht
  refine ⟨?_, ?_, ?_, ?_, ?_, ?_, ?_, ?_, ?_⟩ <;> simp only [hr, hb, hc, hl]
  · exact h₁
  · exact h₂
  · exact h₃
  · exact h₄
  · exact h₅
  · exact h₆
  · exact h₇
  · exact fun m b hm hs => Nat.le_trans (h₈ m b hm hs) hsec
  · exact ho

theorem outstanding_of_erase (h : Books s t) {k₀ : String × Nat}
    (ho : s'.outbound = s.outbound.erase k₀) :
    ∀ k i, s'.outbound.get? k = some i → Outstanding s.records s.batches i :=
  fun k i hk => h.outstanding k i (get?_of_get?_erase (ho ▸ hk))

theorem outstanding_of_insert (h : Books s t) {k₀ : String × Nat} {i₀ : Instruction}
    (ho : s'.outbound = s.outbound.insert k₀ i₀) (hi : Outstanding s.records s.batches i₀) :
    ∀ k i, s'.outbound.get? k = some i → Outstanding s.records s.batches i := by
  intro k i hk
  rw [ho, get?_insert] at hk
  split at hk
  · cases hk
    exact hi
  · exact h.outstanding k i hk

/-- Paying claims: the records of returned batches paid leave, and the reserve gives up what
they were owed. -/
theorem claim (h : Books s t) (ht : t ≤ t') {n : Nat}
    (hcl : Claimed s.batches s.records s'.records n)
    (hc : s'.claimReserve.toNat + n = s.claimReserve.toNat) (hb : s'.batches = s.batches)
    (hl : s'.lastRecordId = s.lastRecordId) (ho : s'.outbound = s.outbound) : Books s' t' := by
  refine ⟨hcl.sorted, hb ▸ h.batchesSorted, fun k r hk => h.positive k r (hcl.sub k r hk),
    fun k r hk => hl ▸ h.below k r (hcl.sub k r hk), fun k r hk => hb ▸ h.batched k r (hcl.sub k r hk),
    ?held, ?reserve, ?settled, ?outstanding⟩
  case held =>
    intro m b hm hne
    rw [hb] at hm
    have hret : returnedAt s.batches m = false := by simp [returnedAt, hm, hne]
    rw [hcl.owedAt_eq m hret]
    exact h.held m b hm hne
  case reserve =>
    have hpaid := hcl.paid
    have hres := h.reserve
    rw [hb]
    omega
  case settled =>
    intro m b hm hne
    rw [hb] at hm
    exact Nat.le_trans (h.settled m b hm hne) (Timestamp.seconds_le_seconds ht)
  case outstanding =>
    intro k i hk
    rw [hb]
    exact (h.outstanding k i (ho ▸ hk)).mono_records hcl.sub

/-- Recording an unstake: a record under a fresh id, its amount added to the batch of its
maturity, which lies past every batch that left unbonding, and its undelegation stored while
every other stored instruction is a restake. -/
theorem unstake (h : Books s t) {sender : String} {unbond burned total : Amount} {u : Timestamp}
    {k : String × Nat} {i : Instruction} (ht : t ≤ t') (hpos : 0 < unbond.toNat)
    (hlate : t.seconds < u.seconds)
    (hfree : ∀ k j, s.outbound.get? k = some j → ∃ x, j.kind = .restake x)
    (htotal : total.toNat =
      (s.batches.getD u.seconds ⟨Amount.zero, .unbonding⟩).amount.toNat + unbond.toNat)
    (hr : s'.records = s.records.insert (sender, s.lastRecordId + 1) ⟨sender, unbond, u⟩)
    (hl : s'.lastRecordId = s.lastRecordId + 1)
    (hb : s'.batches = s.batches.insert u.seconds
      { s.batches.getD u.seconds ⟨Amount.zero, .unbonding⟩ with amount := total })
    (hc : s'.claimReserve = s.claimReserve) (ho : s'.outbound = s.outbound.insert k i)
    (hi : i.kind = .unstake sender (s.lastRecordId + 1) burned) : Books s' t' := by
  set K := u.seconds with hK
  set b₀ := s.batches.getD K ⟨Amount.zero, .unbonding⟩ with hb₀
  have hfresh : s.records.get? (sender, s.lastRecordId + 1) = none := by
    cases hk : s.records.get? (sender, s.lastRecordId + 1) with
    | none => rfl
    | some r =>
      have := h.below _ r hk
      simp at this
  -- the batch the record joins is still unbonding, and holds what is owed at its second
  have hst : b₀.status = .unbonding := by
    cases hKb : s.batches.get? K with
    | none => simp [hb₀, Table.getD, hKb]
    | some b =>
      have hbb : b₀ = b := by simp [hb₀, Table.getD, hKb]
      rw [hbb]
      by_contra hne
      have := h.settled K b hKb hne
      omega
  have hheld : b₀.amount.toNat = owedAt s.records K := by
    cases hKb : s.batches.get? K with
    | none =>
      -- no record matures at a second without a batch
      have hbb : b₀ = ⟨Amount.zero, .unbonding⟩ := by simp [hb₀, Table.getD, hKb]
      rw [hbb, owedAt, owed_eq_zero h.recordsSorted]
      · rfl
      · intro k r hk
        obtain ⟨b, hb'⟩ := h.batched k r hk
        simp only [beq_eq_false_iff_ne]
        rintro heq
        rw [heq, hKb] at hb'
        cases hb'
    | some b =>
      have hbb : b₀ = b := by simp [hb₀, Table.getD, hKb]
      rw [hbb] at hst ⊢
      exact h.held K b hKb (by rw [hst]; decide)
  have howed : ∀ m, owedAt s'.records m = owedAt s.records m + if K = m then unbond.toNat else 0 := by
    intro m
    rw [hr, owedAt, owed_insert h.recordsSorted hfresh]
    simp [owedAt, hK]
  have hnotret : returnedAt s.batches K = false := by
    cases hKb : s.batches.get? K with
    | none => simp [returnedAt, hKb]
    | some b =>
      have hbb : b₀ = b := by simp [hb₀, Table.getD, hKb]
      simp [returnedAt, hKb, ← hbb, hst]
  have hret : ∀ m, returnedAt s'.batches m = returnedAt s.batches m := by
    intro m
    by_cases hm : K = m
    · subst hm
      rw [hnotret, hb]
      simp [returnedAt, get?_insert, hst]
    · rw [hb]
      simp [returnedAt, get?_insert, hm]
  refine ⟨?_, ?_, ?positive, ?below, ?batched, ?held, ?reserve, ?settled, ?outstanding⟩
  · rw [hr]
    exact h.recordsSorted.insert _ _
  · rw [hb]
    exact h.batchesSorted.insert _ _
  case positive =>
    intro k' r hk
    rw [hr, get?_insert] at hk
    split at hk
    · cases hk
      exact hpos
    · exact h.positive k' r hk
  case below =>
    intro k' r hk
    rw [hr, get?_insert] at hk
    rw [hl]
    split at hk
    · next heq =>
      subst heq
      exact Nat.le_refl _
    · exact Nat.le_succ_of_le (h.below k' r hk)
  case batched =>
    intro k' r hk
    rw [hb, get?_insert]
    rw [hr, get?_insert] at hk
    split
    · exact ⟨_, rfl⟩
    · split at hk
      · cases hk
        contradiction
      · exact h.batched k' r hk
  case held =>
    intro m b hm hne
    rw [hb, get?_insert] at hm
    rw [howed]
    split at hm
    · next heq =>
      subst heq
      cases hm
      simp only [if_true]
      rw [htotal, hheld]
    · next hne' =>
      rw [if_neg hne']
      exact h.held m b hm hne
  case reserve =>
    rw [hc, h.reserve, owedReturned, owedReturned, owed_congr hret, hr,
      owed_insert h.recordsSorted hfresh]
    simp [hnotret, ← hK]
  case settled =>
    intro m b hm hne
    rw [hb, get?_insert] at hm
    split at hm
    · cases hm
      exact absurd hst hne
    · exact Nat.le_trans (h.settled m b hm hne) (Timestamp.seconds_le_seconds ht)
  case outstanding =>
    intro k' j hk
    rw [ho, get?_insert] at hk
    split at hk
    · -- the new undelegation: its record waits in the batch it joined
      cases hk
      unfold Outstanding
      rw [hi]
      intro r hr'
      rw [hr, get?_insert, if_pos rfl] at hr'
      cases hr'
      refine ⟨{ b₀ with amount := total }, ?_, hst⟩
      rw [hb, get?_insert, if_pos rfl]
    · obtain ⟨x, hx⟩ := hfree k' j hk
      exact Outstanding.of_restake hx

/-- Marking the matured batches as travelling back, when every instruction left stored is a
restake or the cycle sending them home. -/
theorem returnMatured (h : Books s t) {now : Timestamp} (ht : t ≤ now)
    (hr : s'.records = s.records) (hc : s'.claimReserve = s.claimReserve)
    (hl : s'.lastRecordId = s.lastRecordId)
    (hb : s'.batches = (Cycle.maturedBatches s now).foldl markReturning s.batches)
    (ho : ∀ k j, s'.outbound.get? k = some j → (∃ x, j.kind = .restake x) ∨
      ∃ shipped, j.kind = .cycle shipped ((Cycle.maturedBatches s now).map Prod.fst) ∧
        (j.msgs.map HostMsg.sentBack).sum = ((Cycle.maturedBatches s now).map (·.2.toNat)).sum) :
    Books s' now := by
  have hget := @get?_returnMatured s now h.batchesSorted
  rw [← hb] at hget
  -- a marked batch keeps its amount, does not come back, and has matured
  have hmark : ∀ m b', s'.batches.get? m = some b' → ∃ b, s.batches.get? m = some b ∧
      b'.amount = b.amount ∧ (b'.status = .returned ↔ b.status = .returned) ∧
      (b'.status ≠ .unbonding → b.status ≠ .unbonding ∨ m ≤ now.seconds) := by
    intro m b' hm
    rw [hget] at hm
    obtain ⟨b, hbm, rfl⟩ := Option.map_eq_some_iff.mp hm
    refine ⟨b, hbm, ?_⟩
    split
    · next hcond => simp [hcond.1, hcond.2]
    · exact ⟨rfl, Iff.rfl, Or.inl⟩
  have hret : ∀ m, returnedAt s'.batches m = returnedAt s.batches m := by
    intro m
    rw [returnedAt, returnedAt, hget]
    cases s.batches.get? m with
    | none => rfl
    | some b => by_cases hcond : m ≤ now.seconds ∧ b.status = .unbonding <;> simp [hcond]
  have hnd := @nodup_maturedBatches s now h.batchesSorted
  refine ⟨?_, ?_, ?positive, ?below, ?batched, ?held, ?reserve, ?settled, ?outstanding⟩
  · rw [hr]
    exact h.recordsSorted
  · rw [hb]
    exact Table.Sorted.foldl_markReturning _ h.batchesSorted
  case positive => exact fun k r hk => h.positive k r (hr ▸ hk)
  case below => exact fun k r hk => hl ▸ h.below k r (hr ▸ hk)
  case batched =>
    intro k r hk
    obtain ⟨b, hbm⟩ := h.batched k r (hr ▸ hk)
    rw [hget, hbm]
    exact ⟨_, rfl⟩
  case held =>
    intro m b' hm hne
    obtain ⟨b, hbm, hamt, hst, -⟩ := hmark m b' hm
    rw [hamt, hr]
    exact h.held m b hbm fun h' => hne (hst.mpr h')
  case reserve =>
    rw [hc, h.reserve, owedReturned, owedReturned, owed_congr hret, hr]
  case settled =>
    intro m b' hm hne
    obtain ⟨b, hbm, -, -, hmat⟩ := hmark m b' hm
    rcases hmat hne with hne' | hle
    · exact Nat.le_trans (h.settled m b hbm hne') (Timestamp.seconds_le_seconds ht)
    · exact hle
  case outstanding =>
    intro k j hk
    rcases ho k j hk with ⟨x, hx⟩ | ⟨shipped, hkind, hsent⟩
    · exact Outstanding.of_restake hx
    · -- the cycle sends home exactly what the batches it marked hold
      have hmarked : ∀ e ∈ Cycle.maturedBatches s now, s'.batches.get? e.1 = some ⟨e.2, .returning⟩ :=
        fun e he => hb ▸ get?_foldl_markReturning_of_mem hnd he s.batches
      unfold Outstanding
      rw [hkind]
      refine ⟨hnd, fun m hm => ?_, ?_⟩
      · obtain ⟨e, he, rfl⟩ := List.mem_map.mp hm
        exact ⟨_, hmarked e he, rfl⟩
      · rw [hsent, heldBy, List.map_map]
        congr 1
        refine List.map_congr_left fun e he => ?_
        simp [hmarked e he]

/-- Settling the batches a cycle marked as travelling back, all still travelling: to returned
on its success, the reserve taking what they hold, or back to unbonding on its failure, when
its entry leaves the store and every other stored instruction is a restake. -/
theorem settleReturning (h : Books s t) (ht : t ≤ t') {st : BatchStatus} {returning : List Nat}
    {k₀ : String × Nat} (hnd : returning.Nodup)
    (hretn : ∀ m ∈ returning, ∃ b, s.batches.get? m = some b ∧ b.status = .returning)
    (hothers : ∀ k j, s.outbound.get? k = some j → k ≠ k₀ → ∃ x, j.kind = .restake x)
    (hr : s'.records = s.records) (hl : s'.lastRecordId = s.lastRecordId)
    (hb : s'.batches = returning.foldl (withStatus st) s.batches)
    (hc : s'.claimReserve.toNat =
      s.claimReserve.toNat + if st = .returned then heldBy s.batches returning else 0)
    (ho : s'.outbound = s.outbound.erase k₀) : Books s' t' := by
  have hget : ∀ m, s'.batches.get? m = if m ∈ returning then
      (s.batches.get? m).map (fun b => { b with status := st }) else s.batches.get? m :=
    fun m => by rw [hb, get?_foldl_withStatus]
  have hsec := Timestamp.seconds_le_seconds ht
  -- what the travelling batches hold is what their records owe
  have hheld : heldBy s.batches returning = (returning.map (owedAt s.records)).sum := by
    unfold heldBy
    congr 1
    refine List.map_congr_left fun m hm => ?_
    obtain ⟨b, hbm, hst⟩ := hretn m hm
    rw [hbm]
    exact h.held m b hbm (by rw [hst]; decide)
  have hret : ∀ m, returnedAt s'.batches m =
      (returnedAt s.batches m || (decide (m ∈ returning) && st == .returned)) := by
    intro m
    rw [returnedAt, returnedAt, hget]
    by_cases hm : m ∈ returning
    · obtain ⟨b, hbm, hst⟩ := hretn m hm
      simp [hm, hbm, hst]
    · simp [hm]
  have hdisj : ∀ m, returnedAt s.batches m = true →
      (decide (m ∈ returning) && st == .returned) = false := by
    intro m hm
    cases hin : decide (m ∈ returning)
    · rfl
    · obtain ⟨b, hbm, hst⟩ := hretn m (of_decide_eq_true hin)
      simp [returnedAt, hbm, hst] at hm
  have hnew : owed (fun m => decide (m ∈ returning) && st == .returned) s.records =
      if st = .returned then heldBy s.batches returning else 0 := by
    rw [hheld, sum_owedAt hnd]
    cases st <;> simp [owed, sumBy]
  refine ⟨?_, ?_, ?positive, ?below, ?batched, ?held, ?reserve, ?settled, ?outstanding⟩
  · rw [hr]
    exact h.recordsSorted
  · rw [hb]
    exact Table.Sorted.foldl_withStatus _ h.batchesSorted
  case positive => exact fun k r hk => h.positive k r (hr ▸ hk)
  case below => exact fun k r hk => hl ▸ h.below k r (hr ▸ hk)
  case batched =>
    intro k r hk
    obtain ⟨b, hbm⟩ := h.batched k r (hr ▸ hk)
    rw [hget]
    split <;> simp [hbm]
  case held =>
    intro m b' hm hne
    rw [hget] at hm
    rw [hr]
    split at hm
    · next hin =>
      obtain ⟨b, hbm, hst⟩ := hretn m hin
      rw [hbm] at hm
      cases hm
      exact h.held m b hbm (by rw [hst]; decide)
    · exact h.held m b' hm hne
  case reserve =>
    rw [hc, h.reserve, owedReturned, owedReturned, owed_congr hret, owed_or hdisj, hr, hnew]
  case settled =>
    intro m b' hm hne
    rw [hget] at hm
    split at hm
    · next hin =>
      obtain ⟨b, hbm, hst⟩ := hretn m hin
      exact Nat.le_trans (h.settled m b hbm (by rw [hst]; decide)) hsec
    · exact Nat.le_trans (h.settled m b' hm hne) hsec
  case outstanding =>
    intro k j hk
    rw [ho, get?_erase] at hk
    split at hk
    · cases hk
    · next hne =>
      obtain ⟨x, hx⟩ := hothers k j hk (Ne.symm hne)
      exact Outstanding.of_restake hx

/-- Taking out a record that waits in an unbonding batch, and its amount out of the batch,
which goes once empty, when every instruction left stored is a restake. -/
theorem withdrawFrom (h : Books s t) (ht : t ≤ t') {k : String × Nat} {r : UnbondingRecord}
    {b : Batch} (hrec : s.records.get? k = some r) (hb : s.batches.get? r.maturity.seconds = some b)
    (hst : b.status = .unbonding) (hr : s'.records = s.records.erase k)
    (hbs : s'.batches = if (b.amount.satSub r.amount).isZero then s.batches.erase r.maturity.seconds
      else s.batches.insert r.maturity.seconds { b with amount := b.amount.satSub r.amount })
    (hl : s'.lastRecordId = s.lastRecordId) (hc : s'.claimReserve = s.claimReserve)
    (hfree : ∀ k j, s'.outbound.get? k = some j → ∃ x, j.kind = .restake x) : Books s' t' := by
  set K := r.maturity.seconds with hK
  have hsec := Timestamp.seconds_le_seconds ht
  -- the record owed part of what its batch holds, and the batch keeps the rest
  have herase : ∀ m, owedAt s'.records m + (if K = m then r.amount.toNat else 0) =
      owedAt s.records m := by
    intro m
    have := owed_erase (p := (· == m)) h.recordsSorted hrec
    simpa [owedAt, hr, hK] using this
  have hheld : b.amount.toNat = owedAt s.records K := h.held K b hb (by rw [hst]; decide)
  have hleft : (b.amount.satSub r.amount).toNat = owedAt s'.records K := by
    have := herase K
    rw [if_pos rfl] at this
    change b.amount.toNat - r.amount.toNat = _
    omega
  have hat : s'.batches.get? K = if (b.amount.satSub r.amount).isZero then none
      else some { b with amount := b.amount.satSub r.amount } := by
    rw [hbs]
    split <;> simp [get?_erase, get?_insert]
  have hoff : ∀ m, K ≠ m → s'.batches.get? m = s.batches.get? m := by
    intro m hm
    rw [hbs]
    split <;> simp [get?_erase, get?_insert, hm]
  have hret : ∀ m, returnedAt s'.batches m = returnedAt s.batches m := by
    intro m
    by_cases hm : K = m
    · subst hm
      rw [returnedAt, returnedAt, hat, hb]
      split <;> simp [hst]
    · rw [returnedAt, returnedAt, hoff m hm]
  have hsub : ∀ k' r', s'.records.get? k' = some r' → s.records.get? k' = some r' :=
    fun k' r' hk' => get?_of_get?_erase (hr ▸ hk')
  refine ⟨?_, ?_, ?positive, ?below, ?batched, ?held, ?reserve, ?settled, ?outstanding⟩
  · rw [hr]
    exact h.recordsSorted.erase k
  · rw [hbs]
    split
    · exact h.batchesSorted.erase _
    · exact h.batchesSorted.insert _ _
  case positive => exact fun k' r' hk' => h.positive k' r' (hsub k' r' hk')
  case below => exact fun k' r' hk' => hl ▸ h.below k' r' (hsub k' r' hk')
  case batched =>
    intro k' r' hk'
    by_cases hm : K = r'.maturity.seconds
    · -- a record left at the maturity keeps the batch from emptying
      rw [← hm, hat]
      split
      · next hz =>
        have hpos := h.positive k' r' (hsub k' r' hk')
        have hle := amount_le_owed (p := (· == K)) (hr ▸ h.recordsSorted.erase k) hk' (by simp [hm])
        simp only [Amount.isZero, beq_iff_eq, hleft] at hz
        change r'.amount.toNat ≤ owedAt s'.records K at hle
        omega
      · exact ⟨_, rfl⟩
    · rw [hoff _ hm]
      exact h.batched k' r' (hsub k' r' hk')
  case held =>
    intro m b' hm hne
    by_cases hKm : K = m
    · subst hKm
      rw [hat] at hm
      split at hm
      · cases hm
      · cases hm
        exact hleft
    · rw [hoff m hKm] at hm
      have := herase m
      rw [if_neg hKm] at this
      rw [h.held m b' hm hne]
      omega
  case reserve =>
    have := owed_erase (p := returnedAt s.batches) h.recordsSorted hrec
    have hnot : returnedAt s.batches K = false := by simp [returnedAt, hb, hst]
    rw [← hK, hnot] at this
    rw [hc, h.reserve, owedReturned, owedReturned, owed_congr hret, hr]
    simpa using this.symm
  case settled =>
    intro m b' hm hne
    by_cases hKm : K = m
    · subst hKm
      rw [hat] at hm
      split at hm
      · cases hm
      · cases hm
        exact absurd hst hne
    · rw [hoff m hKm] at hm
      exact Nat.le_trans (h.settled m b' hm hne) hsec
  case outstanding =>
    intro k' j hk'
    obtain ⟨x, hx⟩ := hfree k' j hk'
    exact Outstanding.of_restake hx

/-- Withdrawing the record of a failed unstake, when its entry leaves the store and every other
stored instruction is a restake. -/
theorem withdraw (h : Books s t) (ht : t ≤ t') {k₀ : String × Nat} {i : Instruction}
    {owner : String} {id : Nat} {burned : Amount}
    (hi : s.outbound.get? k₀ = some i) (hkind : i.kind = .unstake owner id burned)
    (hothers : ∀ k j, s.outbound.get? k = some j → k ≠ k₀ → ∃ x, j.kind = .restake x)
    (hw : (s'.records, s'.batches) = withdrawRecord s.records s.batches (owner, id))
    (hl : s'.lastRecordId = s.lastRecordId) (hc : s'.claimReserve = s.claimReserve)
    (ho : s'.outbound = s.outbound.erase k₀) : Books s' t' := by
  have hfree : ∀ k j, s'.outbound.get? k = some j → ∃ x, j.kind = .restake x := by
    intro k j hk
    rw [ho, get?_erase] at hk
    split at hk
    · cases hk
    · next hne => exact hothers k j hk (Ne.symm hne)
  unfold withdrawRecord at hw
  split at hw
  · simp only [Prod.mk.injEq] at hw
    exact h.frame ht hw.1 hw.2 hc hl fun k j hk => by
      obtain ⟨x, hx⟩ := hfree k j hk
      exact Outstanding.of_restake hx
  · next r hrec =>
    -- the unstake's record waits in an unbonding batch
    have hwait := h.outstanding k₀ i hi
    unfold Outstanding at hwait
    rw [hkind] at hwait
    obtain ⟨b, hb, hst⟩ := hwait r hrec
    rw [hb] at hw
    simp only [Prod.mk.injEq] at hw
    exact h.withdrawFrom ht hrec hb hst hw.1 hw.2 hl hc hfree

/-- Answering the instruction stored under `k₀`, when its entry leaves the store and, unless it
is a restake, every other stored instruction is a restake. -/
theorem answer (h : Books s t) (ht : t ≤ t') {ok : Prop} {k₀ : String × Nat} {i : Instruction}
    (hi : s.outbound.get? k₀ = some i)
    (hothers : (∀ x, i.kind ≠ .restake x) →
      ∀ k j, s.outbound.get? k = some j → k ≠ k₀ → ∃ x, j.kind = .restake x)
    (ha : Answered ok i s s') (hl : s'.lastRecordId = s.lastRecordId)
    (ho : s'.outbound = s.outbound.erase k₀) : Books s' t' := by
  have hcycle := h.outstanding k₀ i hi
  cases ha with
  | returned _ hkind hr hb hc =>
    unfold Outstanding at hcycle
    rw [hkind] at hcycle
    exact h.settleReturning ht hcycle.1 hcycle.2.1 (hothers (by simp [hkind])) hr hl hb
      (by simp [hc]) ho
  | reverted _ hkind hr hb hc =>
    unfold Outstanding at hcycle
    rw [hkind] at hcycle
    exact h.settleReturning ht hcycle.1 hcycle.2.1 (hothers (by simp [hkind])) hr hl hb
      (by simp [hc]) ho
  | withdrawn _ hkind hw hc =>
    exact h.withdraw ht hi hkind (hothers (by simp [hkind])) hw hl hc ho
  | kept _ hr hb hc => exact h.frame ht hr hb hc hl (h.outstanding_of_erase ho)

end Books

end LiquidStaking
