import Mathlib
import LiquidStaking.Rebalance
import LiquidStaking.Proofs.Table

/-! # Largest-remainder apportionment

The parts of a total split by positive shares sum to exactly the total. The floors of the
exact portions fall short of the total by the sum of the remainders divided by the share
sum, which is less than the number of shares because every remainder is below the share
sum; that shortfall is the number of units handed out, each to a distinct share. The parts
keep the keys of the shares in their order, so a split over distinct keys read as a table
loses nothing: the desired amounts of an allow list with distinct validators and positive
weights sum to the total they split.
-/
namespace LiquidStaking.Apportion

variable {T : Nat} {shares : List (String × Nat)}

abbrev shareSum (shares : List (String × Nat)) : Nat := (shares.map Prod.snd).sum

/-- The portions, with the share sum written as a sum. -/
theorem portions_eq : portions T shares =
    shares.map fun (k, s) => ⟨k, T * s / shareSum shares, T * s % shareSum shares⟩ := rfl

/-- The parts, with the share sum and the floors' total written as sums. -/
theorem parts_eq : parts T shares =
    if shareSum shares = 0 then [] else
      let ps := portions T shares
      let bonus := (order ps).take (T - (ps.map Portion.floor).sum)
      (List.range ps.length).zipWith
        (fun i p => (p.key, if bonus.contains i then p.floor + 1 else p.floor)) ps := rfl

@[simp] theorem length_portions : (portions T shares).length = shares.length := by
  simp [portions]

@[simp] theorem map_key_portions : (portions T shares).map Portion.key = shares.map Prod.fst := by
  simp [portions_eq, Function.comp_def]

@[simp] theorem map_floor_portions :
    (portions T shares).map Portion.floor = shares.map fun x => T * x.2 / shareSum shares := by
  simp [portions_eq, Function.comp_def]

@[simp] theorem map_remainder_portions :
    (portions T shares).map Portion.remainder = shares.map fun x => T * x.2 % shareSum shares := by
  simp [portions_eq, Function.comp_def]

theorem floors_mul_add_remainders (T : Nat) (shares : List (String × Nat)) :
    shareSum shares * ((portions T shares).map Portion.floor).sum +
      ((portions T shares).map Portion.remainder).sum = T * shareSum shares := by
  have hsplit : ∀ x : String × Nat,
      shareSum shares * (T * x.2 / shareSum shares) + T * x.2 % shareSum shares = T * x.2 :=
    fun x => Nat.div_add_mod _ _
  rw [map_floor_portions, map_remainder_portions,
    ← List.sum_map_mul_left shares _ (shareSum shares), ← List.sum_map_add]
  simp only [hsplit]
  exact List.sum_map_mul_left shares Prod.snd T

theorem floors_le_total : ((portions T shares).map Portion.floor).sum ≤ T := by
  rcases Nat.eq_zero_or_pos (shareSum shares) with h0 | hpos
  · simp [h0]
  · have h := floors_mul_add_remainders T shares
    have hle : shareSum shares * ((portions T shares).map Portion.floor).sum ≤
        shareSum shares * T := by rw [Nat.mul_comm _ T]; omega
    exact Nat.le_of_mul_le_mul_left hle hpos

/-- Fewer units are left over than there are shares. -/
theorem leftover_lt (hpos : 0 < shareSum shares) :
    T - ((portions T shares).map Portion.floor).sum < shares.length := by
  set F := ((portions T shares).map Portion.floor).sum
  have hrec := floors_mul_add_remainders T shares
  have hF : F ≤ T := floors_le_total
  rw [map_remainder_portions, Nat.mul_comm T] at hrec
  -- every remainder is below the share sum
  have hR : (shares.map fun x => T * x.2 % shareSum shares).sum ≤
      shares.length * (shareSum shares - 1) := by
    have := List.sum_le_card_nsmul (shares.map fun x => T * x.2 % shareSum shares)
      (shareSum shares - 1) (by
        intro r hr
        obtain ⟨x, -, rfl⟩ := List.mem_map.mp hr
        have := Nat.mod_lt (T * x.2) hpos
        omega)
    simpa only [nsmul_eq_mul, Nat.cast_id, List.length_map] using this
  have hne : 0 < shares.length := by
    rcases shares with _ | ⟨x, xs⟩
    · simp [shareSum] at hpos
    · simp
  have hgap : shareSum shares * (T - F) = (shares.map fun x => T * x.2 % shareSum shares).sum := by
    rw [Nat.mul_sub]
    exact Nat.sub_eq_of_eq_add (by rw [← hrec, Nat.add_comm])
  have hlt : shareSum shares * (T - F) < shareSum shares * shares.length := by
    rw [hgap]
    calc _ ≤ shares.length * (shareSum shares - 1) := hR
      _ < shares.length * shareSum shares := Nat.mul_lt_mul_of_pos_left (by omega) hne
      _ = shareSum shares * shares.length := Nat.mul_comm _ _
  exact Nat.lt_of_mul_lt_mul_left hlt

/-- The order of hand-out lists every index once. -/
theorem order_perm (ps : List Portion) : (order ps).Perm (List.range ps.length) :=
  List.mergeSort_perm _ _

/-- Tagging consecutive indices onto portions keeps the keys. -/
theorem map_fst_zipWith_range' (v : Nat → Portion → Nat) :
    ∀ (ps : List Portion) (k : Nat),
      ((List.range' k ps.length).zipWith (fun i p => (p.key, v i p)) ps).map Prod.fst =
        ps.map Portion.key
  | [], _ => by simp
  | p :: ps, k => by
    rw [List.length_cons, List.range'_succ, List.zipWith_cons_cons, List.map_cons, List.map_cons,
      map_fst_zipWith_range' v ps (k + 1)]

/-- A zip of consecutive indices with portions, adding one where a test holds, sums to the
floors plus the number of indices passing. -/
theorem sum_zipWith_bonus (b : Nat → Bool) :
    ∀ (ps : List Portion) (k : Nat),
      ((List.range' k ps.length).zipWith
          (fun i p => if b i then p.floor + 1 else p.floor) ps).sum =
        (ps.map Portion.floor).sum + ((List.range' k ps.length).filter b).length
  | [], _ => by simp
  | p :: ps, k => by
    have ih := sum_zipWith_bonus b ps (k + 1)
    simp only [List.length_cons, List.range'_succ, List.zipWith_cons_cons, List.sum_cons,
      List.map_cons, List.filter_cons, ih]
    by_cases hb : b k <;> simp [hb] <;> omega

/-- The indices below `n` that a duplicate-free list of such indices holds number its
length. -/
theorem length_filter_range {bonus : List Nat} {n : Nat} (hnd : bonus.Nodup)
    (hlt : ∀ i ∈ bonus, i < n) :
    ((List.range n).filter (fun i => bonus.contains i)).length = bonus.length := by
  have hperm : ((List.range n).filter (fun i => bonus.contains i)).Perm bonus := by
    refine (List.perm_ext_iff_of_nodup ((List.nodup_range).filter _) hnd).mpr fun i => ?_
    simp only [List.mem_filter, List.mem_range, List.contains_iff_mem]
    exact ⟨fun h => h.2, fun h => ⟨hlt i h, h⟩⟩
  exact hperm.length_eq

/-- The parts carry the keys of the shares, in order. -/
@[simp] theorem map_fst_parts (hpos : 0 < shareSum shares) :
    (parts T shares).map Prod.fst = shares.map Prod.fst := by
  rw [parts_eq, if_neg (Nat.pos_iff_ne_zero.mp hpos)]
  dsimp only
  rw [List.range_eq_range', map_fst_zipWith_range', map_key_portions]

/-- The parts sum to exactly the total. -/
theorem sum_parts (hpos : 0 < shareSum shares) : ((parts T shares).map Prod.snd).sum = T := by
  rw [parts_eq, if_neg (Nat.pos_iff_ne_zero.mp hpos)]
  dsimp only
  rw [List.map_zipWith]
  set ps := portions T shares
  set bonus := (order ps).take (T - (ps.map Portion.floor).sum)
  have hperm := order_perm ps
  have hnd : bonus.Nodup :=
    (hperm.nodup_iff.mpr List.nodup_range).sublist (List.take_sublist _ _)
  have hlt : ∀ i ∈ bonus, i < ps.length := fun i hi =>
    List.mem_range.mp (hperm.mem_iff.mp (List.mem_of_mem_take hi))
  have hlen : bonus.length = T - (ps.map Portion.floor).sum := by
    rw [List.length_take, hperm.length_eq, List.length_range, length_portions]
    exact Nat.min_eq_left (Nat.le_of_lt (leftover_lt hpos))
  have hsum := sum_zipWith_bonus (fun i => bonus.contains i) ps 0
  rw [← List.range_eq_range', length_filter_range hnd hlt, hlen] at hsum
  have hF : (ps.map Portion.floor).sum ≤ T := floors_le_total
  simp only [hsum]
  omega

theorem le_total_of_mem_parts {kv : String × Nat} (h : kv ∈ parts T shares) : kv.2 ≤ T := by
  rcases Nat.eq_zero_or_pos (shareSum shares) with h0 | hpos
  · simp [parts_eq, h0] at h
  · rw [← sum_parts hpos (T := T)]
    exact List.le_sum_of_mem (List.mem_map_of_mem h)

end LiquidStaking.Apportion

namespace LiquidStaking.Amount

open Apportion

variable {total : Amount} {shares : List (String × Amount)}

/-- The shares as natural numbers. -/
abbrev natShares (shares : List (String × Amount)) : List (String × Nat) :=
  shares.map fun (k, s) => (k, s.toNat)

theorem toNat_saturate {n : Nat} (h : n < bound) : (saturate n).toNat = n := by
  simp [saturate, ofNat?, h]

/-- Every part is at most the total, so no part saturates. -/
theorem map_toNat_apportion :
    (total.apportion shares).map (·.2.toNat) = (parts total.toNat (natShares shares)).map Prod.snd := by
  unfold apportion
  rw [List.map_map]
  refine List.map_congr_left fun kv hkv => ?_
  exact toNat_saturate (Nat.lt_of_le_of_lt (le_total_of_mem_parts hkv) total.lt_bound)

@[simp] theorem map_fst_apportion (hpos : 0 < shareSum (natShares shares)) :
    (total.apportion shares).map Prod.fst = shares.map Prod.fst := by
  unfold apportion
  rw [List.map_map]
  have := map_fst_parts (T := total.toNat) hpos
  simp only [natShares, List.map_map] at this
  simpa [Function.comp_def] using this

/-- The parts of an amount sum to it exactly. -/
theorem sum_apportion (hpos : 0 < shareSum (natShares shares)) :
    ((total.apportion shares).map (·.2.toNat)).sum = total.toNat := by
  rw [map_toNat_apportion, sum_parts hpos]

theorem apportion_eq_nil (h0 : shareSum (natShares shares) = 0) : total.apportion shares = [] := by
  unfold apportion
  rw [parts_eq, if_pos h0]
  rfl

end LiquidStaking.Amount

namespace LiquidStaking.Rebalance

open Apportion

@[simp] theorem shareSum_shares (targets : List Target) :
    shareSum (Amount.natShares (Target.shares targets)) =
      (targets.map fun t => t.weight.atomics.toNat).sum := by
  simp [shareSum, Target.shares, Function.comp_def]

/-- The desired amounts over distinct validators with positive total weight sum to the
total they split. -/
theorem sumBy_desiredAmounts {total : Amount} {targets : List Target}
    (hnd : (targets.map Target.validator).Nodup)
    (hpos : 0 < (targets.map fun t => t.weight.atomics.toNat).sum) :
    (desiredAmounts total targets).sumBy (fun _ a => a.toNat) = total.toNat := by
  have hpos' : 0 < shareSum (Amount.natShares (Target.shares targets)) := by simpa using hpos
  have hkeys : ((total.apportion (Target.shares targets)).map Prod.fst).Nodup := by
    rw [Amount.map_fst_apportion hpos']
    simpa [Target.shares, Function.comp_def] using hnd
  unfold desiredAmounts
  rw [Table.sumBy_ofList _ hkeys]
  exact Amount.sum_apportion hpos'

end LiquidStaking.Rebalance
