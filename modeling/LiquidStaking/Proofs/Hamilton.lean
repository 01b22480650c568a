import Mathlib
import LiquidStaking.Proofs.Apportion

/-! # Apportionment by the largest-remainder method

`Hamilton T shares parts bonus` says that `parts` splits `T` by `shares` the way Hamilton's
method does, handing its leftover units to the indices in `bonus`: every part is the floor of
its exact portion, one more on `bonus`; `bonus` has as many indices as the floors leave units
over, each with a positive remainder, and each of them ranks before every other index, by
remainder descending and then by key. From this alone a larger share never gets a smaller
part.

The hand-out order sorts the indices by a total preorder, so the units it hands out, a prefix
of it, rank before the rest. The remainders sum to the share sum times the leftover, and none
reaches the share sum, so at least as many remainders as units are positive; a zero remainder
among the first units would leave too few. Over distinct keys the apportionment of amounts is
therefore Hamilton's method, with no part clipped.
-/
namespace LiquidStaking.Apportion

variable {T : Nat} {shares : List (String × Nat)}

/-- A largest-remainder split of `T` by `shares` whose leftover units go to `bonus`. -/
structure Hamilton (T : Nat) (shares parts : List (String × Nat)) (bonus : Finset Nat) :
    Prop where
  length : parts.length = shares.length
  part : ∀ i k s, shares[i]? = some (k, s) →
    parts[i]? = some (k, T * s / shareSum shares + if i ∈ bonus then 1 else 0)
  bonus_lt : ∀ i ∈ bonus, i < shares.length
  card : bonus.card = T - (shares.map fun x => T * x.2 / shareSum shares).sum
  positive : ∀ i ∈ bonus, ∀ k s, shares[i]? = some (k, s) → 0 < T * s % shareSum shares
  largest : ∀ i ∈ bonus, ∀ j ∉ bonus, ∀ ki si kj sj,
    shares[i]? = some (ki, si) → shares[j]? = some (kj, sj) →
      T * sj % shareSum shares < T * si % shareSum shares ∨
        (T * sj % shareSum shares = T * si % shareSum shares ∧ ki < kj)

section Order

variable {ps : List Portion} {i j : Nat}

theorem precedes_iff : precedes ps i j = true ↔
    (ps.getD j ⟨"", 0, 0⟩).remainder < (ps.getD i ⟨"", 0, 0⟩).remainder ∨
      ((ps.getD i ⟨"", 0, 0⟩).remainder = (ps.getD j ⟨"", 0, 0⟩).remainder ∧
        (ps.getD i ⟨"", 0, 0⟩).key ≤ (ps.getD j ⟨"", 0, 0⟩).key) := by
  unfold precedes
  rw [Bool.or_eq_true, Bool.and_eq_true, decide_eq_true_eq, beq_iff_eq, bne_iff_ne, ne_eq,
    compare_gt_iff_gt, not_lt]

theorem precedes_trans (ps : List Portion) (i j k : Nat) :
    precedes ps i j = true → precedes ps j k = true → precedes ps i k = true := by
  simp only [precedes_iff]
  rintro (hij | ⟨hij, kij⟩) (hjk | ⟨hjk, kjk⟩)
  · exact .inl (hjk.trans hij)
  · exact .inl (hjk ▸ hij)
  · exact .inl (hij ▸ hjk)
  · exact .inr ⟨hij.trans hjk, kij.trans kjk⟩

theorem precedes_total (ps : List Portion) (i j : Nat) :
    (precedes ps i j || precedes ps j i) = true := by
  rw [Bool.or_eq_true, precedes_iff, precedes_iff]
  rcases Nat.lt_trichotomy (ps.getD i ⟨"", 0, 0⟩).remainder (ps.getD j ⟨"", 0, 0⟩).remainder
    with h | h | h
  · exact .inr (.inl h)
  · rcases le_total (ps.getD i ⟨"", 0, 0⟩).key (ps.getD j ⟨"", 0, 0⟩).key with hk | hk
    · exact .inl (.inr ⟨h, hk⟩)
    · exact .inr (.inr ⟨h.symm, hk⟩)
  · exact .inl (.inl h)

/-- The hand-out order is sorted: each index precedes every later one. -/
theorem pairwise_order (ps : List Portion) : (order ps).Pairwise (precedes ps · · = true) :=
  List.pairwise_mergeSort (precedes_trans ps) (precedes_total ps) _

/-- An index handed a unit precedes every index left without one. -/
theorem precedes_of_mem_take {n : Nat} (hi : i ∈ (order ps).take n)
    (hj : j ∈ (order ps).drop n) : precedes ps i j = true := by
  have h := pairwise_order ps
  rw [← List.take_append_drop n (order ps), List.pairwise_append] at h
  exact h.2.2 i hi j hj

theorem mem_take_or_drop (hj : j < ps.length) (n : Nat) :
    j ∈ (order ps).take n ∨ j ∈ (order ps).drop n := by
  have hmem : j ∈ order ps := (order_perm ps).mem_iff.mpr (List.mem_range.mpr hj)
  rw [← List.take_append_drop n (order ps), List.mem_append] at hmem
  exact hmem

end Order

section Remainders

/-- A list of numbers each below `S` sums to at most `S - 1` per positive member. -/
theorem sum_le_countP_mul {S : Nat} :
    ∀ {l : List Nat}, (∀ r ∈ l, r < S) → l.sum ≤ l.countP (0 < ·) * (S - 1)
  | [], _ => by simp
  | r :: l, h => by
    have ih := sum_le_countP_mul fun x hx => h x (List.mem_cons_of_mem r hx)
    have hr := h r List.mem_cons_self
    rw [List.sum_cons, List.countP_cons]
    by_cases hpos : 0 < r
    · simp only [hpos, decide_true, if_true]
      rw [Nat.add_mul, Nat.one_mul]
      omega
    · simp only [hpos, decide_false, if_false, Bool.false_eq_true, Nat.add_zero]
      omega

/-- The remainders of the portions, indexed. -/
theorem map_range_remainder (ps : List Portion) :
    (List.range ps.length).map (fun j => (ps.getD j ⟨"", 0, 0⟩).remainder) =
      ps.map Portion.remainder := by
  refine List.ext_getElem (by simp) fun n h₁ h₂ => ?_
  simp only [List.getElem_map, List.getElem_range, List.getD_eq_getElem?_getD,
    List.getElem?_eq_getElem (by simpa using h₁), Option.getD_some]

/-- At least as many remainders are positive as units are left over. -/
theorem leftover_le_positive (hpos : 0 < shareSum shares) :
    T - ((portions T shares).map Portion.floor).sum ≤
      ((portions T shares).map Portion.remainder).countP (0 < ·) := by
  set F := ((portions T shares).map Portion.floor).sum
  set R := (portions T shares).map Portion.remainder
  have hrec : shareSum shares * F + R.sum = T * shareSum shares := floors_mul_add_remainders T shares
  have hF : F ≤ T := floors_le_total
  have hR : R.sum ≤ R.countP (0 < ·) * (shareSum shares - 1) := by
    refine sum_le_countP_mul fun r hr => ?_
    obtain ⟨p, hp, rfl⟩ := List.mem_map.mp hr
    rw [portions_eq] at hp
    obtain ⟨x, -, rfl⟩ := List.mem_map.mp hp
    exact Nat.mod_lt _ hpos
  -- the remainders make up the share sum times the leftover
  have hgap : shareSum shares * (T - F) = R.sum := by
    rw [Nat.mul_sub, Nat.mul_comm _ T]
    exact Nat.sub_eq_of_eq_add (by rw [← hrec, Nat.add_comm])
  have hle : shareSum shares * (T - F) ≤ shareSum shares * R.countP (0 < ·) :=
    calc shareSum shares * (T - F) = R.sum := hgap
      _ ≤ R.countP (0 < ·) * (shareSum shares - 1) := hR
      _ ≤ R.countP (0 < ·) * shareSum shares := Nat.mul_le_mul_left _ (Nat.sub_le _ _)
      _ = shareSum shares * R.countP (0 < ·) := Nat.mul_comm _ _
  exact Nat.le_of_mul_le_mul_left hle hpos

/-- Every index handed a unit has a positive remainder. -/
theorem remainder_pos_of_mem_take (hpos : 0 < shareSum shares) {i : Nat}
    (hi : i ∈ (order (portions T shares)).take (T - ((portions T shares).map Portion.floor).sum)) :
    0 < ((portions T shares).getD i ⟨"", 0, 0⟩).remainder := by
  set ps := portions T shares
  set L := T - (ps.map Portion.floor).sum
  set rem := fun j => (ps.getD j ⟨"", 0, 0⟩).remainder
  by_contra h0
  have hi0 : rem i = 0 := Nat.eq_zero_of_not_pos h0
  -- every index after the units then has a zero remainder too
  have hdrop : ((order ps).drop L).countP (fun j => 0 < rem j) = 0 := by
    refine List.countP_eq_zero.mpr fun j hj hposj => ?_
    have hj0 : 0 < rem j := of_decide_eq_true hposj
    simp only [rem] at hi0 hj0
    rcases precedes_iff.mp (precedes_of_mem_take hi hj) with h | ⟨h, -⟩ <;> omega
  have htake : ((order ps).take L).countP (fun j => 0 < rem j) < ((order ps).take L).length := by
    rw [List.countP_eq_length_filter, List.length_filter_lt_length_iff_exists]
    exact ⟨i, hi, by simp [hi0]⟩
  have hlen : ((order ps).take L).length ≤ L := List.length_take_le _ _
  have hcount : (ps.map Portion.remainder).countP (0 < ·) =
      ((order ps).take L).countP (fun j => 0 < rem j) +
        ((order ps).drop L).countP (fun j => 0 < rem j) := by
    rw [← map_range_remainder, List.countP_map, ← List.countP_append, List.take_append_drop]
    exact ((order_perm ps).countP_eq _).symm
  have hle : L ≤ (ps.map Portion.remainder).countP (0 < ·) := leftover_le_positive hpos
  omega

end Remainders

section Parts

/-- The indices handed a leftover unit: the first of the hand-out order, as many as the floors
leave units over. -/
def handed (T : Nat) (shares : List (String × Nat)) : List Nat :=
  (order (portions T shares)).take (T - ((portions T shares).map Portion.floor).sum)

theorem getD_portions {i : Nat} {k : String} {s : Nat} (h : shares[i]? = some (k, s)) :
    (portions T shares).getD i ⟨"", 0, 0⟩ = ⟨k, T * s / shareSum shares, T * s % shareSum shares⟩ := by
  rw [List.getD_eq_getElem?_getD, portions_eq, List.getElem?_map, h]
  rfl

/-- The part at each index is its floor, one more where a unit is handed. -/
theorem getElem?_parts (hpos : 0 < shareSum shares) (i : Nat) :
    (parts T shares)[i]? = shares[i]?.map fun x =>
      (x.1, T * x.2 / shareSum shares + if i ∈ handed T shares then 1 else 0) := by
  rw [parts_eq, if_neg (Nat.pos_iff_ne_zero.mp hpos)]
  dsimp only
  rw [show (order (portions T shares)).take (T - ((portions T shares).map Portion.floor).sum) =
    handed T shares from rfl, List.getElem?_zipWith']
  by_cases hi : i < shares.length
  · rw [List.getElem?_range (by simpa using hi), portions_eq, List.getElem?_map,
      List.getElem?_eq_getElem hi]
    by_cases hb : i ∈ handed T shares <;> simp [hb]
  · have hn : shares.length ≤ i := Nat.le_of_not_lt hi
    rw [List.getElem?_eq_none (by simpa using hn), List.getElem?_eq_none hn]
    rfl

theorem nodup_handed (T : Nat) (shares : List (String × Nat)) : (handed T shares).Nodup :=
  ((order_perm _).nodup_iff.mpr List.nodup_range).sublist (List.take_sublist _ _)

theorem lt_of_mem_handed {i : Nat} (h : i ∈ handed T shares) : i < shares.length := by
  have := List.mem_range.mp ((order_perm _).mem_iff.mp (List.mem_of_mem_take h))
  simpa using this

theorem length_handed (hpos : 0 < shareSum shares) :
    (handed T shares).length = T - ((portions T shares).map Portion.floor).sum := by
  rw [handed, List.length_take, (order_perm _).length_eq, List.length_range, length_portions]
  exact Nat.min_eq_left (Nat.le_of_lt (leftover_lt hpos))

/-- Two entries with one key are one entry. -/
theorem eq_of_key_eq (hkeys : (shares.map Prod.fst).Nodup) {i j : Nat} {ki kj : String}
    {si sj : Nat} (hi : shares[i]? = some (ki, si)) (hj : shares[j]? = some (kj, sj))
    (hk : ki = kj) : i = j := by
  have hlt : i < (shares.map Prod.fst).length := by
    simpa using (List.getElem?_eq_some_iff.mp hi).1
  refine (List.getElem?_inj hlt hkeys).mp ?_
  rw [List.getElem?_map, List.getElem?_map, hi, hj, hk]
  rfl

/-- Over distinct keys the parts are a largest-remainder split, the handed indices taking
the leftover units. -/
theorem hamilton_parts (hpos : 0 < shareSum shares) (hkeys : (shares.map Prod.fst).Nodup) :
    Hamilton T shares (parts T shares) (handed T shares).toFinset where
  length := by simpa using congrArg List.length (map_fst_parts (T := T) hpos)
  part i k s h := by simp [getElem?_parts hpos, h]
  bonus_lt i hi := lt_of_mem_handed (List.mem_toFinset.mp hi)
  card := by
    rw [List.toFinset_card_of_nodup (nodup_handed T shares), length_handed hpos,
      map_floor_portions]
  positive i hi k s h := by
    have := remainder_pos_of_mem_take (T := T) hpos (List.mem_toFinset.mp hi)
    rwa [getD_portions h] at this
  largest i hi j hj ki si kj sj hsi hsj := by
    have hjlt : j < (portions T shares).length := by
      simpa using (List.getElem?_eq_some_iff.mp hsj).1
    rcases mem_take_or_drop hjlt (T - ((portions T shares).map Portion.floor).sum) with htj | hdj
    · exact absurd (List.mem_toFinset.mpr htj) hj
    · have hne : ki ≠ kj := fun hk =>
        hj (eq_of_key_eq hkeys hsi hsj hk ▸ hi)
      have hprec := precedes_iff.mp (precedes_of_mem_take (List.mem_toFinset.mp hi) hdj)
      rw [getD_portions hsi, getD_portions hsj] at hprec
      rcases hprec with hlt | ⟨heq, hle⟩
      · exact .inl hlt
      · exact .inr ⟨heq.symm, lt_of_le_of_ne hle hne⟩

end Parts

section Monotone

variable {parts : List (String × Nat)} {bonus : Finset Nat}

/-- With nothing to split, no unit is handed out. -/
theorem Hamilton.bonus_eq_empty (h : Hamilton 0 shares parts bonus) : bonus = ∅ := by
  rw [← Finset.card_eq_zero, h.card, Nat.zero_sub]

/-- A larger share never gets a smaller part. -/
theorem Hamilton.le_of_mem_zip (h : Hamilton T shares parts bonus)
    {x y : (String × Nat) × (String × Nat)} (hx : x ∈ shares.zip parts)
    (hy : y ∈ shares.zip parts) (hlt : y.1.2 < x.1.2) : y.2.2 ≤ x.2.2 := by
  obtain ⟨⟨kx, sx⟩, px⟩ := x
  obtain ⟨⟨ky, sy⟩, py⟩ := y
  obtain ⟨i, hxi⟩ := List.mem_iff_getElem?.mp hx
  obtain ⟨j, hyj⟩ := List.mem_iff_getElem?.mp hy
  rw [List.getElem?_zip_eq_some] at hxi hyj
  dsimp only at hxi hyj hlt ⊢
  have hpi := h.part i kx sx hxi.1
  have hpj := h.part j ky sy hyj.1
  rw [hxi.2, Option.some_inj] at hpi
  rw [hyj.2, Option.some_inj] at hpj
  rw [hpi, hpj]
  dsimp only
  rcases Nat.eq_zero_or_pos T with rfl | hT
  · simp [h.bonus_eq_empty]
  have hprod : T * sy < T * sx := Nat.mul_lt_mul_of_pos_left hlt hT
  have hfloor : T * sy / shareSum shares ≤ T * sx / shareSum shares :=
    Nat.div_le_div_right hprod.le
  have hdi := Nat.div_add_mod (T * sx) (shareSum shares)
  have hdj := Nat.div_add_mod (T * sy) (shareSum shares)
  rcases Nat.lt_or_eq_of_le hfloor with hf | hf
  · split <;> split <;> omega
  -- with equal floors the larger share has the strictly larger remainder
  rw [← hf] at hdi
  have hrem : T * sy % shareSum shares < T * sx % shareSum shares := by omega
  by_cases hbj : j ∈ bonus
  · by_cases hbi : i ∈ bonus
    · simp [hbi, hbj, hf]
    · rcases h.largest j hbj i hbi ky sy kx sx hyj.1 hxi.1 with hr | ⟨hr, -⟩ <;> omega
  · simp [hbj, hf]

end Monotone

end LiquidStaking.Apportion

namespace LiquidStaking.Amount

open Apportion

variable {total : Amount} {shares : List (String × Amount)}

/-- No part of an apportionment of amounts is clipped: read as numbers, the parts are the
parts of the numbers. -/
theorem natShares_apportion :
    natShares (total.apportion shares) = parts total.toNat (natShares shares) := by
  unfold apportion
  rw [natShares, List.map_map]
  refine (List.map_congr_left fun kv hkv => ?_).trans (List.map_id _)
  have hlt := Nat.lt_of_le_of_lt (le_total_of_mem_parts hkv) total.lt_bound
  simp [toNat_saturate hlt]

/-- What apportioning `total` by `shares` gives: with a positive share sum, a
largest-remainder split, read exactly as numbers, that sums to the total; a larger share never
gets a smaller part; with a zero share sum, nothing. -/
structure SplitsByLargestRemainder (total : Amount) (shares : List (String × Amount)) : Prop where
  hamilton : 0 < shareSum (natShares shares) →
    ∃ bonus, Hamilton total.toNat (natShares shares) (natShares (total.apportion shares)) bonus
  sum : 0 < shareSum (natShares shares) →
    ((total.apportion shares).map (·.2.toNat)).sum = total.toNat
  monotone : ∀ x ∈ (natShares shares).zip (natShares (total.apportion shares)),
    ∀ y ∈ (natShares shares).zip (natShares (total.apportion shares)),
      y.1.2 < x.1.2 → y.2.2 ≤ x.2.2
  empty : shareSum (natShares shares) = 0 → total.apportion shares = []

/-- Over distinct keys, apportioning an amount is Hamilton's method: the parts are the floors
of the exact portions, one more for each leftover unit, and those go to the largest
remainders, ties to the smaller key, never to a zero remainder. -/
theorem apportion_largest_remainder (total : Amount) (shares : List (String × Amount))
    (hkeys : (shares.map Prod.fst).Nodup) : SplitsByLargestRemainder total shares := by
  have hkeys' : ((natShares shares).map Prod.fst).Nodup := by
    simpa [natShares, Function.comp_def] using hkeys
  rcases Nat.eq_zero_or_pos (shareSum (natShares shares)) with h0 | hpos
  · -- nothing is split, so there is no pair of parts to compare
    have hnil : total.apportion shares = [] := apportion_eq_nil h0
    refine ⟨fun h => absurd h0 h.ne', fun h => absurd h0 h.ne', ?_, fun _ => hnil⟩
    simp [hnil]
  · have hH := hamilton_parts (T := total.toNat) hpos hkeys'
    rw [← natShares_apportion] at hH
    exact ⟨fun _ => ⟨_, hH⟩, fun _ => sum_apportion hpos,
      fun x hx y hy => hH.le_of_mem_zip hx hy, fun h => absurd h hpos.ne'⟩

/-- Three equal shares of a hundred: the one leftover unit goes to the smallest key. -/
theorem apportion_largest_remainder_thirds :
    (([("a", ⟨1, by decide⟩), ("b", ⟨1, by decide⟩), ("c", ⟨1, by decide⟩)] :
      List (String × Amount)).map Prod.fst).Nodup ∧
    SplitsByLargestRemainder ⟨100, by decide⟩
      [("a", ⟨1, by decide⟩), ("b", ⟨1, by decide⟩), ("c", ⟨1, by decide⟩)] :=
  ⟨by decide, apportion_largest_remainder _ _ (by decide)⟩

end LiquidStaking.Amount
