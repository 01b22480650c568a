import Mathlib
import LiquidStaking.Proofs.Reversal

/-! # Recorded operations as flows

Recording an operation moves amounts in the module's view of the ledger: a delegation draws
on its funding source and adds to its validator, an undelegation takes from its validator,
and a redelegation takes from its source and adds to its destination. Summed over a list of
operations these are the list's inflow to each validator, its outflow from each validator
and what it draws on funding.

Main statements: recording a list commits whenever no validator is asked for more than it
held to begin with and none would leave the amount range even if every addition came first
(`recordAll_commits`), and a committed recording leaves each validator what it held plus
the inflow less the outflow (`recordAll_flow`); reversing one operation commits under the
mirror conditions (`unrecord_flow`). These are statements about sums, so they do not depend
on the order of the operations: that is what lets the replies to emitted operations arrive
in any order.
-/
namespace LiquidStaking

namespace HostMsg

/-- What recording the operation adds to a validator's delegation. -/
def inflow : HostMsg → String → Nat
  | .delegate v a, w | .redelegate _ v a, w => if v = w then a.toNat else 0
  | _, _ => 0

/-- What recording the operation takes from a validator's delegation. -/
def outflow : HostMsg → String → Nat
  | .undelegate v a, w | .redelegate v _ a, w => if v = w then a.toNat else 0
  | _, _ => 0

/-- What recording the operation draws on its funding source. -/
def drawn : HostMsg → Nat
  | .delegate _ a => a.toNat
  | _ => 0

end HostMsg

namespace Recording

open Tx Rebalance

/-- What recording the operations adds to a validator's delegation in all. -/
def inflows (ms : List HostMsg) (w : String) : Nat := (ms.map (·.inflow w)).sum

/-- What recording the operations takes from a validator's delegation in all. -/
def outflows (ms : List HostMsg) (w : String) : Nat := (ms.map (·.outflow w)).sum

/-- What recording the operations draws on their funding source in all. -/
def drawns (ms : List HostMsg) : Nat := (ms.map HostMsg.drawn).sum

section Sums

variable {m : HostMsg} {ms ms' : List HostMsg} {w : String}

@[simp] theorem inflows_nil : inflows [] w = 0 := rfl

@[simp] theorem outflows_nil : outflows [] w = 0 := rfl

@[simp] theorem drawns_nil : drawns [] = 0 := rfl

@[simp] theorem inflows_cons : inflows (m :: ms) w = m.inflow w + inflows ms w := by
  simp [inflows]

@[simp] theorem outflows_cons : outflows (m :: ms) w = m.outflow w + outflows ms w := by
  simp [outflows]

@[simp] theorem drawns_cons : drawns (m :: ms) = m.drawn + drawns ms := by
  simp [drawns]

@[simp] theorem inflows_append : inflows (ms ++ ms') w = inflows ms w + inflows ms' w := by
  simp [inflows]

@[simp] theorem outflows_append : outflows (ms ++ ms') w = outflows ms w + outflows ms' w := by
  simp [outflows]

@[simp] theorem drawns_append : drawns (ms ++ ms') = drawns ms + drawns ms' := by
  simp [drawns]

/-- The flows of a list do not depend on its order. -/
theorem Perm.flows (h : ms.Perm ms') :
    inflows ms w = inflows ms' w ∧ outflows ms w = outflows ms' w ∧ drawns ms = drawns ms' :=
  ⟨(h.map _).sum_eq, (h.map _).sum_eq, (h.map _).sum_eq⟩

/-- Dropping operations lowers every flow. -/
theorem Sublist.flows_le (h : ms.Sublist ms') :
    inflows ms w ≤ inflows ms' w ∧ outflows ms w ≤ outflows ms' w ∧ drawns ms ≤ drawns ms' :=
  ⟨(h.map _).sum_le_sum fun _ _ => Nat.zero_le _, (h.map _).sum_le_sum fun _ _ => Nat.zero_le _,
    (h.map _).sum_le_sum fun _ _ => Nat.zero_le _⟩

/-- Each operation of a list is part of its flows. -/
theorem flows_le_of_mem (h : m ∈ ms) :
    m.inflow w ≤ inflows ms w ∧ m.outflow w ≤ outflows ms w ∧ m.drawn ≤ drawns ms :=
  Sublist.flows_le (List.singleton_sublist.mpr h)

@[simp] theorem drawns_redelegations (rs : List Redelegation) :
    drawns (rs.map fun r => .redelegate r.src r.dst r.amount) = 0 := by
  induction rs with
  | nil => rfl
  | cons r rs ih => simp [HostMsg.drawn, ih]

end Sums

/-! ## One operation -/

section Single

variable {m : HostMsg} {s s' : State} {f : Funding}

/-- A committed recording moves exactly the operation's amounts: each validator ends with
what it held plus what flowed in less what flowed out, the funding source gives up what was
drawn, and nothing outside the view is written. -/
theorem record_flow (h : (record m f).run s = .ok ((), s')) :
    (∀ w, recorded s'.delegations w + m.outflow w = recorded s.delegations w + m.inflow w) ∧
      (fundingOf s' f).toNat + m.drawn = (fundingOf s f).toNat ∧
      s' = { setFunding s f (fundingOf s' f) with delegations := s'.delegations } := by
  cases m with
  | delegate v a =>
    obtain ⟨hle, p, n, hp, hn, rfl⟩ := run_record_delegate_ok.mp h
    refine ⟨fun w => ?_, ?_, by simp⟩
    · simp only [recorded_insert, HostMsg.outflow, HostMsg.inflow]
      split
      · next hvw => subst hvw; omega
      · rfl
    · simp only [fundingOf_with_delegations, fundingOf_setFunding, HostMsg.drawn]
      omega
  | undelegate v a =>
    obtain ⟨hle, n, hn, rfl⟩ := run_subDelegation_ok.mp h
    refine ⟨fun w => ?_, by simp [HostMsg.drawn], by simp⟩
    simp only [recorded_setOrErase, HostMsg.outflow, HostMsg.inflow]
    split
    · next hvw => subst hvw; omega
    · rfl
  | redelegate src dst a =>
    obtain ⟨hle, n₁, n₂, hn₁, hn₂, rfl⟩ := run_record_redelegate_ok.mp h
    refine ⟨fun w => ?_, by simp [HostMsg.drawn], by simp⟩
    simp only [recorded_insert, recorded_setOrErase, HostMsg.outflow, HostMsg.inflow] at hn₂ ⊢
    -- a source that is its own destination gives the amount and takes it back
    by_cases hsw : src = w <;> by_cases hdw : dst = w <;> by_cases hsd : src = dst <;>
      simp only [hsw, hdw, hsd, ↓reduceIte] at hn₂ ⊢ <;> subst_vars <;> omega
  | withdrawRewards _ | setWithdrawAddress _ | sendToDelegator _ | transferToController _ =>
    obtain ⟨-, rfl⟩ := run_pure_ok.mp h
    exact ⟨fun w => rfl, rfl, by simp⟩

/-- An operation that asks no validator for more than it holds and takes none out of the
amount range, and draws at most what its funding holds, is recorded. -/
theorem record_commits_of_flow (ho : ∀ w, m.outflow w ≤ recorded s.delegations w)
    (hi : ∀ w, recorded s.delegations w + m.inflow w < Amount.bound)
    (hd : m.drawn ≤ (fundingOf s f).toNat) : ∃ s', (record m f).run s = .ok ((), s') := by
  refine record_commits_iff.mpr ?_
  cases m with
  | delegate v a => exact ⟨hd, by simpa [HostMsg.inflow] using hi v⟩
  | undelegate v a => simpa [Fits, HostMsg.outflow] using ho v
  | redelegate src dst a =>
    exact ⟨by simpa [HostMsg.outflow] using ho src, fun _ => by simpa [HostMsg.inflow] using hi dst⟩
  | withdrawRewards _ | setWithdrawAddress _ | sendToDelegator _ | transferToController _ => trivial

/-- Reversing an operation commits when each validator holds what the operation added to it,
none leaves the amount range getting back what the operation took, and the funding source
can take back what was drawn. Each validator then loses its inflow and regains its outflow,
and the funding source regains what was drawn. -/
theorem unrecord_flow (hi : ∀ w, m.inflow w ≤ recorded s.delegations w)
    (ho : ∀ w, recorded s.delegations w + m.outflow w < Amount.bound)
    (hd : (fundingOf s f).toNat + m.drawn < Amount.bound) :
    ∃ s', (unrecord m f).run s = .ok ((), s') ∧
      (∀ w, recorded s'.delegations w + m.inflow w = recorded s.delegations w + m.outflow w) ∧
      (fundingOf s' f).toNat = (fundingOf s f).toNat + m.drawn ∧
      s' = { setFunding s f (fundingOf s' f) with delegations := s'.delegations } := by
  cases m with
  | delegate v a =>
    have hle : a.toNat ≤ recorded s.delegations v := by simpa [HostMsg.inflow] using hi v
    obtain ⟨n, hn⟩ := exists_amount (k := recorded s.delegations v - a.toNat)
      (by have := recorded_lt_bound s.delegations v; omega)
    obtain ⟨p, hp⟩ := exists_amount hd
    refine ⟨_, run_unrecord_delegate_ok.mpr ⟨hle, n, p, hn, hp, rfl⟩, fun w => ?_,
      by simpa [HostMsg.drawn] using hp, by simp⟩
    simp only [recorded_setOrErase, HostMsg.inflow, HostMsg.outflow]
    split
    · next hvw => subst hvw; omega
    · rfl
  | undelegate v a =>
    obtain ⟨n, hn⟩ := exists_amount (k := recorded s.delegations v + a.toNat)
      (by simpa [HostMsg.outflow] using ho v)
    refine ⟨_, run_addDelegation_ok.mpr ⟨n, hn, rfl⟩, fun w => ?_, by simp [HostMsg.drawn],
      by simp⟩
    simp only [recorded_insert, HostMsg.inflow, HostMsg.outflow]
    split
    · next hvw => subst hvw; omega
    · rfl
  | redelegate src dst a =>
    have hle : a.toNat ≤ recorded s.delegations dst := by simpa [HostMsg.inflow] using hi dst
    obtain ⟨n₁, hn₁⟩ := exists_amount (k := recorded s.delegations dst - a.toNat)
      (by have := recorded_lt_bound s.delegations dst; omega)
    -- the source takes back the amount: a source that is its own destination gave it first
    have hlt : recorded (setOrErase s.delegations dst n₁) src + a.toNat < Amount.bound := by
      rw [recorded_setOrErase]
      split
      · have := recorded_lt_bound s.delegations dst; omega
      · simpa [HostMsg.outflow] using ho src
    obtain ⟨n₂, hn₂⟩ := exists_amount hlt
    refine ⟨_, run_unrecord_redelegate_ok.mpr ⟨hle, n₁, n₂, hn₁, hn₂, rfl⟩, fun w => ?_,
      by simp [HostMsg.drawn], by simp⟩
    simp only [recorded_insert, recorded_setOrErase, HostMsg.outflow, HostMsg.inflow] at hn₂ ⊢
    by_cases hsw : src = w <;> by_cases hdw : dst = w <;> by_cases hsd : dst = src <;>
      simp only [hsw, hdw, hsd, ↓reduceIte] at hn₂ ⊢ <;> subst_vars <;> omega
  | withdrawRewards _ | setWithdrawAddress _ | sendToDelegator _ | transferToController _ =>
    exact ⟨s, rfl, fun w => rfl, rfl, by simp⟩

end Single

/-! ## A list of operations -/

section List

variable {f : Funding}

theorem recordAll_nil {s : State} : (recordAll [] f).run s = .ok ((), s) := by
  simp [recordAll]

/-- A committed recording of a list moves exactly the list's flows. -/
theorem recordAll_flow : ∀ {ms : List HostMsg} {s s' : State},
    (recordAll ms f).run s = .ok ((), s') →
      (∀ w, recorded s'.delegations w + outflows ms w = recorded s.delegations w + inflows ms w) ∧
      (fundingOf s' f).toNat + drawns ms = (fundingOf s f).toNat ∧
      s' = { setFunding s f (fundingOf s' f) with delegations := s'.delegations }
  | [], s, s', h => by
    rw [recordAll_nil] at h
    cases h
    exact ⟨fun w => rfl, rfl, by simp⟩
  | m :: ms, s, s', h => by
    rw [recordAll_cons, run_bind_ok] at h
    obtain ⟨_, s₁, h₁, h₂⟩ := h
    obtain ⟨hf₁, hd₁, he₁⟩ := record_flow h₁
    obtain ⟨hf₂, hd₂, he₂⟩ := recordAll_flow h₂
    refine ⟨fun w => ?_, ?_, he₂.trans ?_⟩
    · have := hf₁ w
      have := hf₂ w
      simp only [outflows_cons, inflows_cons]
      omega
    · simp only [drawns_cons]
      omega
    · rw [he₁]
      cases f <;> rfl

/-- A list is recorded when no validator gives more than it held to begin with, none would
leave the amount range even if every addition came first, and the funding source holds what
the list draws. -/
theorem recordAll_commits : ∀ {ms : List HostMsg} {s : State},
    (∀ w, outflows ms w ≤ recorded s.delegations w) →
    (∀ w, recorded s.delegations w + inflows ms w < Amount.bound) →
    drawns ms ≤ (fundingOf s f).toNat → ∃ s', (recordAll ms f).run s = .ok ((), s')
  | [], s, _, _, _ => ⟨s, recordAll_nil⟩
  | m :: ms, s, ho, hi, hd => by
    simp only [outflows_cons, inflows_cons, drawns_cons] at ho hi hd
    obtain ⟨s₁, h₁⟩ := record_commits_of_flow (m := m) (s := s) (f := f)
      (fun w => by have := ho w; omega) (fun w => by have := hi w; omega) (by omega)
    obtain ⟨hf₁, hd₁, -⟩ := record_flow h₁
    -- what is left to record fits what the first operation left
    have ho₁ : ∀ w, outflows ms w ≤ recorded s₁.delegations w := fun w => by
      have := ho w
      have := hf₁ w
      omega
    have hi₁ : ∀ w, recorded s₁.delegations w + inflows ms w < Amount.bound := fun w => by
      have := hi w
      have := hf₁ w
      omega
    obtain ⟨s', h'⟩ := recordAll_commits ho₁ hi₁ (by omega)
    exact ⟨s', by rw [recordAll_cons, run_bind_ok]; exact ⟨(), s₁, h₁, h'⟩⟩

theorem recordAll_sorted : ∀ {ms : List HostMsg} {s s' : State}, s.delegations.Sorted →
    (recordAll ms f).run s = .ok ((), s') → s'.delegations.Sorted
  | [], s, s', hs, h => by
    rw [recordAll_nil] at h
    cases h
    exact hs
  | m :: ms, s, s', hs, h => by
    rw [recordAll_cons, run_bind_ok] at h
    obtain ⟨_, s₁, h₁, h₂⟩ := h
    exact recordAll_sorted (record_sorted hs h₁) h₂

/-- Recording operations of positive amount leaves no zero delegation. -/
theorem recordAll_clean : ∀ {ms : List HostMsg} {s s' : State}, NoZeroEntry s.delegations →
    (∀ m ∈ ms, m.Positive) → (recordAll ms f).run s = .ok ((), s') → NoZeroEntry s'.delegations
  | [], s, s', hz, _, h => by
    rw [recordAll_nil] at h
    cases h
    exact hz
  | m :: ms, s, s', hz, hpos, h => by
    rw [recordAll_cons, run_bind_ok] at h
    obtain ⟨_, s₁, h₁, h₂⟩ := h
    exact recordAll_clean (record_clean hz (hpos m List.mem_cons_self) h₁).1
      (fun m' hm' => hpos m' (List.mem_cons_of_mem _ hm')) h₂

end List

end Recording

end LiquidStaking
