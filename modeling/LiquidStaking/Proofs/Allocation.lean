import Mathlib
import LiquidStaking.Proofs.Convergence

/-! # Allocating deposits and splitting undelegations

Both split an amount by largest remainders, and both rest on one bound: apportioning no more
than the shares add up to gives no share more than itself. A part is the floor of its exact
portion, at most the share, and a leftover unit goes only to a positive remainder, whose floor
is below the share.

A deposit is split over the deficits against the desired amounts of the delegations plus the
deposit. The desired amounts add up to that whole and the allow-listed validators hold at most
all of the delegations, so the deficits add up to at least the deposit: the split by weight,
kept for when nothing is lacking, only ever splits a zero deposit, and no recipient gets more
than it lacks. Added to the delegations, the parts leave no recipient above its desired amount,
and a plan takes only from validators above theirs, so no recipient is a source of the next
plan.

An undelegation of at most what is delegated is split over the delegations themselves, so no
validator gives more than it holds.
-/
namespace LiquidStaking.Apportion

variable {T : Nat} {shares : List (String × Nat)}

/-- Splitting no more than the shares add up to gives no share more than itself: a floor of
an exact portion is at most its share, and a leftover unit goes only to a positive remainder,
whose floor is below its share. -/
theorem part_le_share (hpos : 0 < shareSum shares) (hT : T ≤ shareSum shares) {i : Nat}
    {k k' : String} {s p : Nat} (hs : shares[i]? = some (k, s))
    (hp : (parts T shares)[i]? = some (k', p)) : p ≤ s := by
  rw [getElem?_parts hpos, hs, Option.map_some, Option.some_inj, Prod.mk.injEq] at hp
  obtain ⟨-, rfl⟩ := hp
  dsimp only
  have hprod : T * s ≤ shareSum shares * s := Nat.mul_le_mul_right s hT
  split
  · next hi =>
    -- the floor times the share sum falls short of `T * s` by the positive remainder
    have hrem := remainder_pos_of_mem_take hpos hi
    rw [getD_portions hs] at hrem
    dsimp only at hrem
    have hdiv := Nat.div_add_mod (T * s) (shareSum shares)
    have hlt : shareSum shares * (T * s / shareSum shares) < shareSum shares * s := by omega
    have := Nat.lt_of_mul_lt_mul_left hlt
    omega
  · have := Nat.div_le_of_le_mul hprod
    omega

end LiquidStaking.Apportion

namespace LiquidStaking.Amount

/-- The share sum of amount shares is the sum of their amounts. -/
theorem shareSum_natShares (shares : List (String × Amount)) :
    Apportion.shareSum (natShares shares) = (shares.map (·.2.toNat)).sum := by
  simp [Apportion.shareSum, Function.comp_def]

end LiquidStaking.Amount

namespace LiquidStaking.Rebalance

open Table

section Parts

variable {l l' : List (String × Amount)}

/-- Entries with the same keys in the same order, each at most its counterpart, give each
validator at most what the others give it. -/
theorem amountOf_le_of_getElem? (hkeys : l.map Prod.fst = l'.map Prod.fst)
    (hle : ∀ (i : Nat) (e e' : String × Amount), l[i]? = some e → l'[i]? = some e' → e.2.toNat ≤ e'.2.toNat) (v : String) :
    amountOf l v ≤ amountOf l' v := by
  induction l generalizing l' with
  | nil => simp [amountOf]
  | cons e l ih =>
    obtain _ | ⟨e', l'⟩ := l'
    · cases hkeys
    obtain ⟨hk, hkeys⟩ := List.cons.inj hkeys
    have hhead := hle 0 e e' rfl rfl
    have htail := ih hkeys fun i x x' hx hx' => hle (i + 1) x x' hx hx'
    rw [amountOf_cons, amountOf_cons, hk]
    split <;> omega

/-- Dropping zero entries changes what no validator gets. -/
theorem amountOf_filter_nonzero (l : List (String × Amount)) (v : String) :
    amountOf (l.filter fun e => !e.2.isZero) v = amountOf l v := by
  induction l with
  | nil => rfl
  | cons e l ih =>
    by_cases hz : e.2.isZero = true
    · rw [List.filter_cons_of_neg (by simp [hz]), ih, amountOf_cons]
      rw [Amount.isZero_eq_true] at hz
      split <;> omega
    · rw [List.filter_cons_of_pos (by rw [Bool.eq_false_iff.mpr hz]; rfl), amountOf_cons, amountOf_cons, ih]

theorem sum_filter_nonzero (l : List (String × Amount)) :
    ((l.filter fun e => !e.2.isZero).map (·.2.toNat)).sum = (l.map (·.2.toNat)).sum := by
  induction l with
  | nil => rfl
  | cons e l ih =>
    by_cases hz : e.2.isZero = true
    · rw [List.filter_cons_of_neg (by simp [hz]), ih, List.map_cons, List.sum_cons]
      rw [Amount.isZero_eq_true] at hz
      omega
    · rw [List.filter_cons_of_pos (by rw [Bool.eq_false_iff.mpr hz]; rfl), List.map_cons, List.map_cons,
        List.sum_cons, List.sum_cons, ih]

theorem pos_of_mem_filter_nonzero {e : String × Amount} (he : e ∈ l.filter fun e => !e.2.isZero) :
    0 < e.2.toNat := by
  have := (List.mem_filter.mp he).2
  simp only [Bool.not_eq_true', Amount.isZero, beq_eq_false_iff_ne] at this
  omega

/-- Apportioning no more than the shares add up to gives no validator more than its share. -/
theorem amountOf_apportion_le {total : Amount} {shares : List (String × Amount)}
    (hT : total.toNat ≤ (shares.map (·.2.toNat)).sum) (v : String) :
    amountOf (total.apportion shares) v ≤ amountOf shares v := by
  rcases Nat.eq_zero_or_pos (Apportion.shareSum (Amount.natShares shares)) with h0 | hpos
  · rw [Amount.apportion_eq_nil h0]
    exact Nat.zero_le _
  refine amountOf_le_of_getElem? (Amount.map_fst_apportion hpos) (fun i e e' he he' => ?_) v
  -- read as numbers, the apportioned entries are the parts of the shares
  have hp : (Apportion.parts total.toNat (Amount.natShares shares))[i]? = some (e.1, e.2.toNat) := by
    rw [← Amount.natShares_apportion, List.getElem?_map, he]
    rfl
  have hs : (Amount.natShares shares)[i]? = some (e'.1, e'.2.toNat) := by
    rw [List.getElem?_map, he']
    rfl
  exact Apportion.part_le_share hpos (Amount.shareSum_natShares shares ▸ hT) hs hp

end Parts

section Allocation

variable {amount G : Amount} {current : List (String × Amount)} {targets : List Target}

/-- The shortfalls an allocation fills are the planner's deficits. -/
theorem shortfalls_eq_deficits (desired held : Table String Amount) :
    (desired.toList.filterMap fun (v, want) =>
      let d := want.satSub (held.getD v Amount.zero)
      if d.isZero then none else some (v, d)) = deficits desired held := by
  unfold deficits
  refine List.filterMap_congr fun ⟨v, want⟩ _ => ?_
  dsimp only
  by_cases hlt : held.getD v Amount.zero < want
  · have hz : (want.satSub (held.getD v Amount.zero)).isZero = false := by
      rw [Amount.lt_iff_toNat] at hlt
      exact Bool.eq_false_iff.mpr fun h => by
        rw [Amount.isZero_eq_true, Amount.toNat_satSub] at h
        omega
    rw [if_pos hlt, if_neg (by simp [hz])]
  · have hz : (want.satSub (held.getD v Amount.zero)).isZero = true := by
      rw [Amount.lt_iff_toNat] at hlt
      rw [Amount.isZero_eq_true, Amount.toNat_satSub]
      omega
    rw [if_neg hlt, if_pos hz]

/-- A deposit over delegations adding up to `G` less the deposit is split over the deficits
against the desired amounts of `G`, and by weight only when there are none. -/
theorem allocateDelegations_eq (hG : G.toNat = (current.map (·.2.toNat)).sum + amount.toNat) :
    allocateDelegations amount current targets =
      .ok ((if (deficits (desiredAmounts G targets) (Table.ofList current)).isEmpty then
          amount.apportion (Target.shares targets)
        else amount.apportion (deficits (desiredAmounts G targets) (Table.ofList current))).filter
          fun e => !e.2.isZero) := by
  have hlt : (current.map (·.2.toNat)).sum < Amount.bound := by
    have := G.lt_bound
    omega
  have hadd : (⟨(current.map (·.2.toNat)).sum, hlt⟩ : Amount).add? amount = some G :=
    Amount.add?_eq_some_iff.mpr hG
  simp only [allocateDelegations, total_eq_ok hlt, bind, Except.bind, hadd, pure, Except.pure,
    shortfalls_eq_deficits]

/-- The deficits against the desired amounts of the delegations plus a deposit add up to at
least the deposit: the desired amounts add up to the whole, and the allow-listed validators
hold no more than all of the delegations. -/
theorem le_sum_deficits (hkeys : (current.map Prod.fst).Nodup)
    (hvals : (targets.map Target.validator).Nodup)
    (hweight : 0 < (targets.map fun t => t.weight.atomics.toNat).sum)
    (hG : G.toNat = (current.map (·.2.toNat)).sum + amount.toNat) :
    amount.toNat ≤ ((deficits (desiredAmounts G targets) (Table.ofList current)).map (·.2.toNat)).sum := by
  set K := (current.map Prod.fst ++ targets.map Target.validator).dedup
  have hK : K.Nodup := List.nodup_dedup _
  have hcurK : ∀ v ∈ current.map Prod.fst, v ∈ K := fun v hv =>
    List.mem_dedup.mpr (List.mem_append_left _ hv)
  have htarK : ∀ v ∈ targets.map Target.validator, v ∈ K := fun v hv =>
    List.mem_dedup.mpr (List.mem_append_right _ hv)
  rw [sum_deficits_eq hkeys hweight hK htarK]
  set d := fun v => ((desiredAmounts G targets).getD v Amount.zero).toNat
  show amount.toNat ≤ (K.map fun v => d v - amountOf current v).sum
  have hheld : (K.map (amountOf current)).sum = (current.map (·.2.toNat)).sum :=
    (sum_eq_sum_amountOf hK fun e he => hcurK _ (List.mem_map_of_mem he)).symm
  have hwant : (K.map d).sum = G.toNat := sum_desired hvals hweight hK htarK
  -- per validator, what it lacks and what it holds make at least its desired amount
  have hle : (K.map d).sum ≤ (K.map fun v => (d v - amountOf current v) + amountOf current v).sum :=
    List.sum_le_sum fun v _ => by omega
  rw [List.sum_map_add, hheld, hwant] at hle
  omega

/-- Lists that give each validator what two others give it together add up to what those add
up to. -/
theorem sum_eq_add_of_amountOf {l l₁ l₂ : List (String × Amount)}
    (h : ∀ v, amountOf l v = amountOf l₁ v + amountOf l₂ v) :
    (l.map (·.2.toNat)).sum = (l₁.map (·.2.toNat)).sum + (l₂.map (·.2.toNat)).sum := by
  set K := (l.map Prod.fst ++ l₁.map Prod.fst ++ l₂.map Prod.fst).dedup
  have hK : K.Nodup := List.nodup_dedup _
  rw [sum_eq_sum_amountOf hK fun e he => List.mem_dedup.mpr
      (List.mem_append_left _ (List.mem_append_left _ (List.mem_map_of_mem he))),
    sum_eq_sum_amountOf hK fun e he => List.mem_dedup.mpr
      (List.mem_append_left _ (List.mem_append_right _ (List.mem_map_of_mem he))),
    sum_eq_sum_amountOf hK fun e he => List.mem_dedup.mpr
      (List.mem_append_right _ (List.mem_map_of_mem he)),
    funext h, List.sum_map_add]

variable {inCooldown : String → Bool} {maxEntries : Nat} {T : Amount} {p : Plan}

/-- Every move of a plan takes from a validator holding more than its desired amount. -/
theorem desired_lt_of_mem_plan (htotal : total current = .ok T)
    (hkeys : (current.map Prod.fst).Nodup)
    (hp : planRedelegations current targets inCooldown maxEntries = .ok p) {r : Redelegation}
    (hr : r ∈ p.redelegations) :
    ((desiredAmounts T targets).getD r.src Amount.zero).toNat < amountOf current r.src := by
  rw [planRedelegations_eq htotal, Except.ok.injEq] at hp
  subst hp
  have hdes : (desiredAmounts T targets).Sorted := sorted_ofList _
  -- the walk takes only from the sources it has examined
  obtain ⟨done, rest, ds, heq, hw, -⟩ := walk_walked (fun _ => trivial)
    ((pairwise_deficits hdes).imp le_of_lt) (List.pairwise_of_forall fun _ _ => trivial)
    (@Walked.start inCooldown maxEntries (fun _ _ => True)
      (deficits (desiredAmounts T targets) (Table.ofList current))
      (surpluses (desiredAmounts T targets) (Table.ofList current))
      fun _ he => pos_of_mem_deficits he)
  have hsrc : r.src ∈ (surpluses (desiredAmounts T targets) (Table.ofList current)).map Prod.fst := by
    rw [List.nil_append] at heq
    rw [heq, List.map_append]
    exact List.mem_append_left _ (hw.src r hr).1
  have hpos := pos_amountOf_of_mem (fun _ he => pos_of_mem_surpluses he) hsrc
  rw [amountOf_surpluses (sorted_ofList _), getD_ofList hkeys] at hpos
  omega

end Allocation

section Fills

/-- What allocating a deposit `amount` over the delegations `current` guarantees, against the
desired amounts of the whole `G` the two come to. -/
structure FillsDeficits (amount : Amount) (current : List (String × Amount))
    (targets : List Target) (G : Amount) (parts : List (String × Amount)) : Prop where
  /-- The parts are positive amounts for distinct allow-listed validators, and make up the
  deposit. -/
  positive : ∀ e ∈ parts, 0 < e.2.toNat
  nodup : (parts.map Prod.fst).Nodup
  allowListed : ∀ e ∈ parts, e.1 ∈ targets.map Target.validator
  sum : (parts.map (·.2.toNat)).sum = amount.toNat
  /-- No validator gets more than it lacks of its desired amount. -/
  within : ∀ v, amountOf parts v ≤
    ((desiredAmounts G targets).getD v Amount.zero).toNat - amountOf current v
  /-- The split by weight, taken when no validator lacks anything, runs only on a zero
  deposit. -/
  byWeight_zero : deficits (desiredAmounts G targets) (Table.ofList current) = [] →
    amount.toNat = 0
  /-- No recipient ends above its desired amount. -/
  capped : ∀ v ∈ parts.map Prod.fst,
    amountOf current v + amountOf parts v ≤ ((desiredAmounts G targets).getD v Amount.zero).toNat
  /-- Planning over the delegations with the parts added moves nothing out of a recipient. -/
  not_source : ∀ next : List (String × Amount), (next.map Prod.fst).Nodup →
    (∀ v, amountOf next v = amountOf current v + amountOf parts v) →
    ∀ inCooldown maxEntries, ∃ p, planRedelegations next targets inCooldown maxEntries = .ok p ∧
      ∀ r ∈ p.redelegations, r.src ∉ parts.map Prod.fst

variable {amount G : Amount} {current : List (String × Amount)} {targets : List Target}
  {parts : List (String × Amount)}

/-- Positive parts for distinct validators that make up the deposit, each at most its
validator's deficit, fill the deficits. -/
theorem FillsDeficits.of_le_deficits (hkeys : (current.map Prod.fst).Nodup)
    (hvals : (targets.map Target.validator).Nodup)
    (hweight : 0 < (targets.map fun t => t.weight.atomics.toNat).sum)
    (hG : G.toNat = (current.map (·.2.toNat)).sum + amount.toNat)
    (hpos : ∀ e ∈ parts, 0 < e.2.toNat) (hnodup : (parts.map Prod.fst).Nodup)
    (hsum : (parts.map (·.2.toNat)).sum = amount.toNat)
    (hle : ∀ v, amountOf parts v ≤
      amountOf (deficits (desiredAmounts G targets) (Table.ofList current)) v) :
    FillsDeficits amount current targets G parts := by
  have hdes : (desiredAmounts G targets).Sorted := sorted_ofList _
  have hwithin : ∀ v, amountOf parts v ≤
      ((desiredAmounts G targets).getD v Amount.zero).toNat - amountOf current v := fun v => by
    rw [← getD_ofList hkeys, ← amountOf_deficits hdes]
    exact hle v
  have hcapped : ∀ v ∈ parts.map Prod.fst, amountOf current v + amountOf parts v ≤
      ((desiredAmounts G targets).getD v Amount.zero).toNat := fun v hv => by
    have := pos_amountOf_of_mem hpos hv
    have := hwithin v
    omega
  refine ⟨hpos, hnodup, fun e he => ?_, hsum, hwithin, fun hnil => ?_, hcapped,
    fun next hnext hadd inCooldown maxEntries => ?_⟩
  · -- a recipient lacks something, so it has a desired amount
    have := pos_amountOf_of_mem hpos (List.mem_map_of_mem he)
    have := hwithin e.1
    exact mem_targets_of_desired_pos (T := G) hweight (by omega)
  · have := le_sum_deficits hkeys hvals hweight hG
    rw [hnil] at this
    simpa using this
  · -- the delegations with the parts added come to `G`, so the plan is against the same
    -- desired amounts, and a plan takes only from validators above theirs
    have hnsum : (next.map (·.2.toNat)).sum = G.toNat := by
      rw [sum_eq_add_of_amountOf hadd, hsum, hG]
    have htotal : total next = .ok G := by
      rw [total_eq_ok (hnsum ▸ G.lt_bound)]
      exact congrArg Except.ok (Amount.ext_toNat hnsum)
    refine ⟨_, planRedelegations_eq htotal, fun r hr hsrc => ?_⟩
    have hover := desired_lt_of_mem_plan htotal hnext (planRedelegations_eq htotal) hr
    have := hcapped r.src hsrc
    rw [hadd] at hover
    omega

/-- A deposit is allocated over the deficits. Over delegations for distinct validators and an
allow list of distinct validators with positive total weight, where the delegations and the
deposit come to an amount `G`, the allocation succeeds with positive parts for distinct
allow-listed validators that make up the deposit, none more than its validator lacks of its
desired amount of `G`; the split by weight runs only on a zero deposit, and planning over the
delegations with the parts added takes nothing from a recipient. -/
theorem allocation_fills_deficits (amount : Amount) (current : List (String × Amount))
    (targets : List Target) (G : Amount) (hkeys : (current.map Prod.fst).Nodup)
    (hvals : (targets.map Target.validator).Nodup)
    (hweight : 0 < (targets.map fun t => t.weight.atomics.toNat).sum)
    (hG : G.toNat = (current.map (·.2.toNat)).sum + amount.toNat) :
    ∃ parts, allocateDelegations amount current targets = .ok parts ∧
      FillsDeficits amount current targets G parts := by
  refine ⟨_, allocateDelegations_eq hG, ?_⟩
  have hdes : (desiredAmounts G targets).Sorted := sorted_ofList _
  set defs := deficits (desiredAmounts G targets) (Table.ofList current)
  have hcover : amount.toNat ≤ (defs.map (·.2.toNat)).sum := le_sum_deficits hkeys hvals hweight hG
  by_cases hnil : defs = []
  · -- with nothing lacking the deposit is zero, and its split by weight is all zeros
    have hzero : amount.toNat = 0 := by simpa [hnil] using hcover
    have hsplit : (amount.apportion (Target.shares targets)).filter (fun e => !e.2.isZero) = [] :=
      eq_nil_of_sum_eq_zero (fun _ he => pos_of_mem_filter_nonzero he)
        (by rw [sum_filter_nonzero, Amount.sum_apportion (by simpa using hweight), hzero])
    rw [hnil, List.isEmpty_nil, if_pos rfl, hsplit]
    exact .of_le_deficits hkeys hvals hweight hG (by simp) List.nodup_nil (by simp [hzero])
      fun v => by simp [amountOf]
  · -- the deficits are positive, so the deposit is split over them
    have hdpos : 0 < Apportion.shareSum (Amount.natShares defs) := by
      obtain ⟨e, he⟩ := List.exists_mem_of_ne_nil _ hnil
      have := Nat.lt_of_lt_of_le (pos_of_mem_deficits he) (le_amountOf_of_mem he)
      have := amountOf_le_sum defs e.1
      rw [Amount.shareSum_natShares]
      omega
    rw [if_neg (by simpa using hnil)]
    refine .of_le_deficits hkeys hvals hweight hG (fun _ he => pos_of_mem_filter_nonzero he) ?_
      (by rw [sum_filter_nonzero, Amount.sum_apportion hdpos]) fun v => ?_
    · refine (List.filter_sublist.map Prod.fst).nodup ?_
      rw [Amount.map_fst_apportion hdpos]
      exact (pairwise_deficits hdes).imp ne_of_lt
    · rw [amountOf_filter_nonzero]
      exact amountOf_apportion_le hcover v

/-- A deposit of 200 over 100 held by `a`, against two validators of equal weight: it fills
the deficits of both. -/
theorem allocation_fills_deficits_halves :
    ([("a", (⟨100, by decide⟩ : Amount))].map Prod.fst).Nodup ∧
    ([(⟨"a", Decimal.percent 50 (by decide)⟩ : Target), ⟨"b", Decimal.percent 50 (by decide)⟩].map
      Target.validator).Nodup ∧
    0 < ([(⟨"a", Decimal.percent 50 (by decide)⟩ : Target), ⟨"b", Decimal.percent 50 (by decide)⟩].map
      fun t => t.weight.atomics.toNat).sum ∧
    (⟨300, by decide⟩ : Amount).toNat =
      ([("a", (⟨100, by decide⟩ : Amount))].map (·.2.toNat)).sum + (⟨200, by decide⟩ : Amount).toNat ∧
    ∃ parts, allocateDelegations ⟨200, by decide⟩ [("a", ⟨100, by decide⟩)]
        [⟨"a", Decimal.percent 50 (by decide)⟩, ⟨"b", Decimal.percent 50 (by decide)⟩] = .ok parts ∧
      FillsDeficits ⟨200, by decide⟩ [("a", ⟨100, by decide⟩)]
        [⟨"a", Decimal.percent 50 (by decide)⟩, ⟨"b", Decimal.percent 50 (by decide)⟩]
        ⟨300, by decide⟩ parts :=
  ⟨by decide, by decide, by decide, rfl,
    allocation_fills_deficits _ _ _ _ (by decide) (by decide) (by decide) rfl⟩

end Fills

section Split

/-- What splitting an undelegation of `amount` over the delegations `current` gives: positive
parts for validators of the delegations, in their order, that make up the amount, none more
than its validator holds. -/
structure SplitsWithin (amount : Amount) (current parts : List (String × Amount)) : Prop where
  positive : ∀ e ∈ parts, 0 < e.2.toNat
  keys : (parts.map Prod.fst).Sublist (current.map Prod.fst)
  sum : (parts.map (·.2.toNat)).sum = amount.toNat
  within : ∀ v, amountOf parts v ≤ amountOf current v

variable {amount : Amount} {current : List (String × Amount)}

/-- An undelegation of at most what is delegated is split within the delegations. -/
theorem splitUndelegation_within (hle : amount.toNat ≤ (current.map (·.2.toNat)).sum) :
    SplitsWithin amount current (splitUndelegation amount current) := by
  unfold splitUndelegation
  refine ⟨fun _ he => pos_of_mem_filter_nonzero he, ?_, ?_, fun v => ?_⟩
  · refine (List.filter_sublist.map Prod.fst).trans ?_
    rcases Nat.eq_zero_or_pos (Apportion.shareSum (Amount.natShares current)) with h0 | hpos
    · rw [Amount.apportion_eq_nil h0]
      exact List.nil_sublist _
    · rw [Amount.map_fst_apportion hpos]
  · rw [sum_filter_nonzero]
    rcases Nat.eq_zero_or_pos (Apportion.shareSum (Amount.natShares current)) with h0 | hpos
    · -- nothing is delegated, so nothing is undelegated
      have hsum := (Amount.shareSum_natShares current).symm.trans h0
      rw [Amount.apportion_eq_nil h0]
      simp only [List.map_nil, List.sum_nil]
      omega
    · exact Amount.sum_apportion hpos
  · rw [amountOf_filter_nonzero]
    exact amountOf_apportion_le hle v

end Split

end LiquidStaking.Rebalance
