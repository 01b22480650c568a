import Mathlib
import LiquidStaking.Proofs.Cooldowns
import LiquidStaking.Proofs.Hamilton

/-! # Redelegation plans

The planner walks the validators holding more than their desired amount, each with its
surplus, and fills the validators holding less, each with its deficit, in ascending address
order, one move per pair of cursors. What it may do is bounded by two budgets: a source never
gives more than its surplus, and a destination never receives more than its deficit.

`fill` spends one source's surplus on the open deficits; what it moves into a validator plus
what stays open for it is what was open for it before, and the open deficits keep their
order, so the moves reach the destinations in ascending order. `Walked` collects what holds
of the plan after the walk has examined some of the sources: each walk step, a skipped source
in cooldown or a filled one, keeps it. The walk stops early only once every deficit is met
or the plan is full.

The budgets are read off the recorded delegations and the desired amounts: the surplus of a
validator is what it holds above its desired amount, its deficit what it lacks, and no
validator has both. So a plan never moves more out of a validator than it holds above its
target, nor more into it than it lacks.
-/
namespace LiquidStaking.Table

variable {κ α : Type} [Ord κ] [Std.LawfulEqOrd κ]

theorem Sorted.foldl_insert [Std.TransOrd κ] :
    ∀ (l : List (κ × α)) {t : Table κ α}, t.Sorted → (l.foldl (fun t e => t.insert e.1 e.2) t).Sorted
  | [], _, h => h
  | e :: l, _, h => Sorted.foldl_insert l (h.insert e.1 e.2)

theorem sorted_ofList [Std.TransOrd κ] (l : List (κ × α)) : (ofList l).Sorted :=
  Sorted.foldl_insert l sorted_empty

theorem isSome_get?_foldl_insert [DecidableEq κ] (k : κ) :
    ∀ (l : List (κ × α)) (t : Table κ α),
      ((l.foldl (fun t e => t.insert e.1 e.2) t).get? k).isSome ↔
        k ∈ l.map Prod.fst ∨ (t.get? k).isSome
  | [], _ => by simp
  | e :: l, t => by
    rw [List.foldl_cons, isSome_get?_foldl_insert k l, get?_insert, List.map_cons, List.mem_cons]
    by_cases hk : e.1 = k
    · subst hk
      simp
    · have hk' : k ≠ e.1 := fun h => hk h.symm
      rw [if_neg hk]
      simp only [hk', false_or]

/-- A table built from entries binds exactly their keys. -/
theorem isSome_get?_ofList [DecidableEq κ] {l : List (κ × α)} {k : κ} :
    ((ofList l).get? k).isSome ↔ k ∈ l.map Prod.fst := by
  simp [ofList, isSome_get?_foldl_insert, get?_empty]

/-- In a sorted table the entries of one key measure what its binding measures. -/
theorem Sorted.sumBy_key [Std.TransOrd κ] [DecidableEq κ] {t : Table κ α} (h : t.Sorted) (f : κ → α → Nat) (k : κ) :
    t.sumBy (fun k' a => if k' = k then f k' a else 0) = t.weightOf f k := by
  have herase := h.sumBy_erase f k
  have hrest : (t.erase k).sumBy f = t.sumBy fun k' a => if k' = k then 0 else f k' a := by
    rw [show t.erase k = t.filter (fun k' _ => compare k' k != .eq) from rfl, sumBy_filter]
    congr 1
    funext k' a
    by_cases hk : k' = k <;> simp [hk]
  have hsplit := sumBy_add t (fun k' a => if k' = k then f k' a else 0)
    (fun k' a => if k' = k then 0 else f k' a)
  have hone : (fun k' a => (if k' = k then f k' a else 0) + if k' = k then 0 else f k' a) = f := by
    funext k' a
    split <;> simp
  rw [hone] at hsplit
  omega

end LiquidStaking.Table

namespace LiquidStaking.Rebalance

/-- What a list of entries gives a validator: the sum of its entries. -/
def amountOf (l : List (String × Amount)) (v : String) : Nat :=
  ((l.filter (·.1 == v)).map (·.2.toNat)).sum

/-- What redelegations move out of a validator. -/
def movedOut (rs : List Redelegation) (v : String) : Nat :=
  ((rs.filter (·.src == v)).map (·.amount.toNat)).sum

/-- What redelegations move into a validator. -/
def movedIn (rs : List Redelegation) (v : String) : Nat :=
  ((rs.filter (·.dst == v)).map (·.amount.toNat)).sum

section Measures

variable {l l' : List (String × Amount)} {e : String × Amount} {rs rs' : List Redelegation}
  {r : Redelegation} {v : String}

@[simp] theorem amountOf_nil : amountOf [] v = 0 := rfl

@[simp] theorem amountOf_cons : amountOf (e :: l) v = (if e.1 = v then e.2.toNat else 0) + amountOf l v := by
  by_cases h : e.1 = v <;> simp [amountOf, h]

@[simp] theorem amountOf_append : amountOf (l ++ l') v = amountOf l v + amountOf l' v := by
  simp [amountOf, List.filter_append]

@[simp] theorem movedOut_nil : movedOut [] v = 0 := rfl

@[simp] theorem movedOut_cons : movedOut (r :: rs) v = (if r.src = v then r.amount.toNat else 0) + movedOut rs v := by
  by_cases h : r.src = v <;> simp [movedOut, h]

@[simp] theorem movedOut_append : movedOut (rs ++ rs') v = movedOut rs v + movedOut rs' v := by
  simp [movedOut, List.filter_append]

@[simp] theorem movedIn_nil : movedIn [] v = 0 := rfl

@[simp] theorem movedIn_cons : movedIn (r :: rs) v = (if r.dst = v then r.amount.toNat else 0) + movedIn rs v := by
  by_cases h : r.dst = v <;> simp [movedIn, h]

@[simp] theorem movedIn_append : movedIn (rs ++ rs') v = movedIn rs v + movedIn rs' v := by
  simp [movedIn, List.filter_append]

theorem amountOf_eq_sum (l : List (String × Amount)) (v : String) :
    amountOf l v = (l.map fun e => if e.1 = v then e.2.toNat else 0).sum := by
  induction l with
  | nil => rfl
  | cons e l ih => simp [ih]

theorem le_amountOf_of_mem (he : e ∈ l) : e.2.toNat ≤ amountOf l e.1 := by
  induction l with
  | nil => cases he
  | cons e' l ih =>
    rw [amountOf_cons]
    rcases List.mem_cons.mp he with rfl | he
    · simp
    · have := ih he
      omega

/-- What a table of amounts gives a key is what it binds to it. -/
theorem amountOf_entries {t : Table String Amount} (h : t.Sorted) (v : String) :
    amountOf t.entries v = (t.getD v Amount.zero).toNat := by
  rw [amountOf_eq_sum]
  have := h.sumBy_key (fun _ a => a.toNat) v
  simp only [Table.sumBy, Table.weightOf] at this
  rw [this, Table.getD]
  cases t.get? v <;> rfl

/-- A table built from entries with distinct keys gives each key what the entries give it. -/
theorem amountOf_ofList (hkeys : (l.map Prod.fst).Nodup) (v : String) :
    amountOf (Table.ofList l).entries v = amountOf l v := by
  rw [amountOf_eq_sum, amountOf_eq_sum]
  exact Table.sumBy_ofList (fun k a => if k = v then a.toNat else 0) hkeys

/-- Entries rewritten without changing their keys give a key what its rewritten entries do. -/
theorem amountOf_filterMap {f : String × Amount → Option (String × Amount)}
    (hf : ∀ e e', f e = some e' → e'.1 = e.1) (l : List (String × Amount)) (v : String) :
    amountOf (l.filterMap f) v =
      (l.map fun e => if e.1 = v then ((f e).map (·.2.toNat)).getD 0 else 0).sum := by
  induction l with
  | nil => rfl
  | cons e l ih =>
    rw [List.map_cons, List.sum_cons, ← ih]
    cases he : f e with
    | none =>
      rw [List.filterMap_cons_none he]
      by_cases hv : e.1 = v <;> simp [hv]
    | some e' =>
      rw [List.filterMap_cons_some he, amountOf_cons, hf e e' he]
      by_cases hv : e.1 = v <;> simp [hv]

/-- Moves that all leave one source move out of it what they move in total. -/
theorem movedOut_of_src (h : ∀ r ∈ rs, r.src = v) (w : String) :
    movedOut rs w = if v = w then (rs.map (·.amount.toNat)).sum else 0 := by
  induction rs with
  | nil => simp
  | cons r rs ih =>
    rw [movedOut_cons, ih fun r' hr' => h r' (List.mem_cons_of_mem r hr'), h r List.mem_cons_self]
    by_cases hvw : v = w <;> simp [hvw]

end Measures

section Amounts

variable {a b : Amount}

@[simp] theorem Amount.isZero_eq_true : a.isZero = true ↔ a.toNat = 0 := by
  simp [Amount.isZero]

@[simp] theorem Amount.toNat_min : (a.min b).toNat = min a.toNat b.toNat := by
  unfold Amount.min
  split <;> omega

@[simp] theorem Amount.toNat_satSub : (a.satSub b).toNat = a.toNat - b.toNat := rfl

theorem Amount.beq_iff_toNat : (a == b) = true ↔ a.toNat = b.toNat :=
  beq_iff_eq.trans ⟨congrArg Amount.toNat, Amount.ext_toNat⟩

end Amounts

section Fill

/-! Filling from one source walks the open deficits in order. It moves the smaller of what
is left of the surplus and the deficit, closes the deficit when that is all of it, and
otherwise spends the surplus and leaves the deficit open for less. -/

variable (src : String) (room : Nat) (surplus : Amount) (ds : List (String × Amount))

/-- The moves fit the room, spend at most the surplus, and are positive when the open
deficits are, which stay so. -/
theorem fill_budget :
    (fill src room surplus ds).1.length ≤ room ∧
      ((fill src room surplus ds).1.map (·.amount.toNat)).sum ≤ surplus.toNat ∧
      ((∀ e ∈ ds, 0 < e.2.toNat) →
        (∀ r ∈ (fill src room surplus ds).1, 0 < r.amount.toNat) ∧
          ∀ e ∈ (fill src room surplus ds).2, 0 < e.2.toNat) := by
  fun_induction fill src room surplus ds with
  | case1 => simp
  | case2 => simp_all
  | case3 room surplus dst deficit rest hgo amount heq moves open_ hrec ih =>
    simp only [hrec] at ih
    obtain ⟨hlen, hspent, hpos⟩ := ih
    have hgo' : 0 < surplus.toNat ∧ 0 < room := by simpa [Nat.pos_iff_ne_zero] using hgo
    have hamt : amount.toNat = deficit.toNat := Amount.beq_iff_toNat.mp heq
    have hmin : amount.toNat = min surplus.toNat deficit.toNat := Amount.toNat_min
    simp only [Amount.toNat_satSub] at hspent
    refine ⟨?_, ?_, fun hds => ?_⟩
    · simp only [List.length_cons]
      omega
    · simp only [List.map_cons, List.sum_cons]
      omega
    have hd := hds (dst, deficit) List.mem_cons_self
    obtain ⟨hm, ho⟩ := hpos fun e he => hds e (List.mem_cons_of_mem _ he)
    refine ⟨fun r hr => ?_, ho⟩
    rcases List.mem_cons.mp hr with rfl | hr
    · dsimp only at hd ⊢
      omega
    · exact hm r hr
  | case4 room surplus dst deficit rest hgo amount hne =>
    have hgo' : 0 < surplus.toNat ∧ 0 < room := by simpa [Nat.pos_iff_ne_zero] using hgo
    have hamt : amount.toNat ≠ deficit.toNat := fun h => hne (Amount.beq_iff_toNat.mpr h)
    have hmin : amount.toNat = min surplus.toNat deficit.toNat := Amount.toNat_min
    refine ⟨?_, ?_, fun hds => ?_⟩
    · simp only [List.length_singleton]
      omega
    · simp only [List.map_singleton, List.sum_singleton]
      omega
    have hd := hds (dst, deficit) List.mem_cons_self
    refine ⟨fun r hr => ?_, fun e he => ?_⟩
    · rw [List.mem_singleton.mp hr]
      dsimp only at hd ⊢
      omega
    · rcases List.mem_cons.mp he with rfl | he
      · dsimp only at hd ⊢
        rw [Amount.toNat_satSub]
        omega
      · exact hds e (List.mem_cons_of_mem _ he)

/-- What the moves put into a validator and what stays open for it make what was open for it;
the open deficits that remain are a tail of the open ones, and every move goes to one of them. -/
theorem fill_flow :
    (∀ v, movedIn (fill src room surplus ds).1 v + amountOf (fill src room surplus ds).2 v =
      amountOf ds v) ∧
      ((fill src room surplus ds).2.map Prod.fst <:+ ds.map Prod.fst) ∧
      ∀ r ∈ (fill src room surplus ds).1, r.dst ∈ ds.map Prod.fst := by
  fun_induction fill src room surplus ds with
  | case1 => simp
  | case2 => simp
  | case3 room surplus dst deficit rest hgo amount heq moves open_ hrec ih =>
    simp only [hrec] at ih
    obtain ⟨hin, hsuf, hdst⟩ := ih
    have hamt : amount.toNat = deficit.toNat := Amount.beq_iff_toNat.mp heq
    refine ⟨fun v => ?_, hsuf.trans (List.suffix_cons _ _), fun r hr => ?_⟩
    · have := hin v
      by_cases hv : dst = v <;> simp [hv] <;> omega
    · rcases List.mem_cons.mp hr with rfl | hr
      · exact List.mem_cons_self
      · exact List.mem_cons_of_mem _ (hdst r hr)
  | case4 room surplus dst deficit rest hgo amount hne =>
    have hmin : amount.toNat = min surplus.toNat deficit.toNat := Amount.toNat_min
    refine ⟨fun v => ?_, by simp, fun r hr => ?_⟩
    · by_cases hv : dst = v <;> simp [hv]
      omega
    · rw [List.mem_singleton.mp hr]
      exact List.mem_cons_self

/-- Over open deficits in ascending order, the moves reach their destinations in ascending
order, and none after a deficit that stays open. -/
theorem fill_order (hds : (ds.map Prod.fst).Pairwise (· ≤ ·)) :
    (fill src room surplus ds).1.Pairwise (·.dst ≤ ·.dst) ∧
      ∀ r ∈ (fill src room surplus ds).1, ∀ e ∈ (fill src room surplus ds).2, r.dst ≤ e.1 := by
  fun_induction fill src room surplus ds with
  | case1 => simp
  | case2 => simp
  | case3 room surplus dst deficit rest hgo amount heq moves open_ hrec ih =>
    have hflow := fill_flow src (room - 1) (surplus.satSub amount) rest
    simp only [hrec] at ih hflow
    obtain ⟨-, hsuf, hdst⟩ := hflow
    rw [List.map_cons, List.pairwise_cons] at hds
    obtain ⟨hsorted, hle⟩ := ih hds.2
    -- the first move goes to the first deficit, which comes no later than all the others
    have hfirst : ∀ w ∈ rest.map Prod.fst, dst ≤ w := hds.1
    refine ⟨List.pairwise_cons.mpr ⟨fun r hr => hfirst _ (hdst r hr), hsorted⟩, fun r hr e he => ?_⟩
    rcases List.mem_cons.mp hr with rfl | hr
    · exact hfirst _ (hsuf.subset (List.mem_map_of_mem he))
    · exact hle r hr e he
  | case4 room surplus dst deficit rest hgo amount hne =>
    rw [List.map_cons, List.pairwise_cons] at hds
    refine ⟨List.pairwise_singleton _ _, fun r hr e he => ?_⟩
    rw [List.mem_singleton.mp hr]
    rcases List.mem_cons.mp he with rfl | he
    · exact le_refl _
    · exact hds.1 _ (List.mem_map_of_mem he)

end Fill

section Inputs

/-! The planner's inputs read as budgets: the deficits and the surpluses give each validator
what it lacks of, and what it holds above, its desired amount. -/

variable {desired held : Table String Amount} {e : String × Amount}

theorem Amount.lt_iff_toNat {a b : Amount} : a < b ↔ a.toNat < b.toNat := Iff.rfl

/-- The deficits give each validator what it lacks of its desired amount. -/
theorem amountOf_deficits (hd : desired.Sorted) (v : String) :
    amountOf (deficits desired held) v =
      (desired.getD v Amount.zero).toNat - (held.getD v Amount.zero).toNat := by
  unfold deficits Table.toList
  rw [amountOf_filterMap (by
    rintro ⟨k, a⟩ e' h
    dsimp only at h
    split at h <;> cases h
    rfl)]
  -- a validator that is not short contributes a zero difference
  have hterm : ∀ x : String × Amount,
      (if x.1 = v then
        ((if held.getD x.1 Amount.zero < x.2 then some (x.1, x.2.satSub (held.getD x.1 Amount.zero))
          else none).map (·.2.toNat)).getD 0 else 0) =
        if x.1 = v then x.2.toNat - (held.getD x.1 Amount.zero).toNat else 0 := by
    intro x
    by_cases hlt : held.getD x.1 Amount.zero < x.2
    · simp [hlt]
    · rw [Amount.lt_iff_toNat] at hlt
      simp only [Amount.lt_iff_toNat, hlt, if_false]
      split <;> simp
      omega
  simp only [hterm]
  have := hd.sumBy_key (fun k a => a.toNat - (held.getD k Amount.zero).toNat) v
  simp only [Table.sumBy, Table.weightOf] at this
  rw [this]
  simp only [Table.getD]
  cases desired.get? v <;> simp

theorem pos_of_mem_deficits (he : e ∈ deficits desired held) : 0 < e.2.toNat := by
  obtain ⟨⟨k, a⟩, -, h⟩ := List.mem_filterMap.mp he
  dsimp only at h
  split at h
  · next hlt =>
    cases h
    simp only [Amount.toNat_satSub]
    rw [Amount.lt_iff_toNat] at hlt
    omega
  · cases h

/-- The deficits come in ascending address order. -/
theorem pairwise_deficits (hd : desired.Sorted) :
    ((deficits desired held).map Prod.fst).Pairwise (· < ·) := by
  unfold deficits Table.toList
  rw [List.pairwise_map]
  refine List.Pairwise.filterMap _ (fun a a' hlt b hb b' hb' => ?_) hd
  obtain ⟨k, x⟩ := a
  obtain ⟨k', x'⟩ := a'
  dsimp only at hb hb' hlt
  split at hb <;> split at hb' <;> cases hb <;> cases hb'
  exact compare_lt_iff_lt.mp hlt

/-- The validators holding more than desired, each with its surplus and whether it has a
desired amount, in ascending address order. -/
def surplusEntries (desired held : Table String Amount) : List (Bool × String × Amount) :=
  held.toList.filterMap fun (v, have_) =>
    let want := desired.get? v
    let surplus := have_.satSub (want.getD Amount.zero)
    if surplus.isZero then none else some (want.isSome, v, surplus)

theorem surpluses_eq : surpluses desired held =
    ((surplusEntries desired held).filter (!·.1) ++ (surplusEntries desired held).filter (·.1)).map
      fun x => (x.2.1, x.2.2) := rfl

/-- The surpluses are the surplus entries, those without a desired amount moved first. -/
theorem surpluses_perm :
    (surpluses desired held).Perm ((surplusEntries desired held).map fun x => (x.2.1, x.2.2)) := by
  rw [surpluses_eq]
  refine List.Perm.map _ ?_
  have := List.filter_append_perm (fun x : Bool × String × Amount => !x.1) (surplusEntries desired held)
  simpa only [Bool.not_not] using this

theorem amountOf_perm {l l' : List (String × Amount)} (h : l.Perm l') (v : String) :
    amountOf l v = amountOf l' v :=
  ((h.filter _).map _).sum_eq

/-- The surpluses give each validator what it holds above its desired amount. -/
theorem amountOf_surpluses (hh : held.Sorted) (v : String) :
    amountOf (surpluses desired held) v =
      (held.getD v Amount.zero).toNat - (desired.getD v Amount.zero).toNat := by
  rw [amountOf_perm surpluses_perm, surplusEntries, Table.toList, List.map_filterMap,
    amountOf_filterMap (by
      rintro ⟨k, a⟩ e' h
      dsimp only at h
      split at h <;> cases h
      rfl)]
  -- a validator without a surplus contributes a zero difference
  have hterm : ∀ x : String × Amount,
      (if x.1 = v then
        (((if (x.2.satSub ((desired.get? x.1).getD Amount.zero)).isZero then none
          else some ((desired.get? x.1).isSome, x.1,
            x.2.satSub ((desired.get? x.1).getD Amount.zero))).map fun y => (y.2.1, y.2.2)).map
              (·.2.toNat)).getD 0 else 0) =
        if x.1 = v then x.2.toNat - (desired.getD x.1 Amount.zero).toNat else 0 := by
    intro x
    by_cases hz : (x.2.satSub ((desired.get? x.1).getD Amount.zero)).isZero
    · rw [if_pos hz]
      rw [Amount.isZero_eq_true, Amount.toNat_satSub] at hz
      simp only [Table.getD, Option.map_none, Option.getD_none]
      split <;> omega
    · rw [if_neg hz]
      simp [Table.getD]
  simp only [hterm]
  have := hh.sumBy_key (fun k a => a.toNat - (desired.getD k Amount.zero).toNat) v
  simp only [Table.sumBy, Table.weightOf] at this
  rw [this]
  simp only [Table.getD]
  cases held.get? v <;> simp

theorem pos_of_mem_surpluses (he : e ∈ surpluses desired held) : 0 < e.2.toNat := by
  rw [surpluses_eq] at he
  obtain ⟨x, hx, rfl⟩ := List.mem_map.mp he
  have hx' : x ∈ surplusEntries desired held := by
    rcases List.mem_append.mp hx with hx | hx <;> exact List.mem_of_mem_filter hx
  obtain ⟨⟨k, a⟩, -, h⟩ := List.mem_filterMap.mp hx'
  dsimp only at h
  split at h
  · cases h
  · next hz =>
    cases h
    rw [Amount.isZero_eq_true] at hz
    exact Nat.pos_of_ne_zero hz

/-- The order sources are drained in: validators off the allow list before those on it, each
group in ascending address order. -/
def DrainsBefore (allowed : String → Prop) (a b : String) : Prop :=
  (¬allowed a ∧ allowed b) ∨ ((allowed a ↔ allowed b) ∧ a ≤ b)

theorem DrainsBefore.refl (allowed : String → Prop) (a : String) : DrainsBefore allowed a a :=
  .inr ⟨Iff.rfl, le_refl a⟩

/-- The sources are distinct, those without a desired amount first, each group in ascending
address order. -/
theorem pairwise_surpluses (hh : held.Sorted) :
    ((surpluses desired held).map Prod.fst).Pairwise
      (fun a b => a ≠ b ∧ DrainsBefore (fun v => (desired.get? v).isSome) a b) := by
  -- each surplus entry records whether its validator has a desired amount
  have htag : ∀ x ∈ surplusEntries desired held, x.1 = (desired.get? x.2.1).isSome := by
    intro x hx
    obtain ⟨⟨k, a⟩, -, h⟩ := List.mem_filterMap.mp hx
    dsimp only at h
    split at h <;> cases h
    rfl
  have hsorted : (surplusEntries desired held).Pairwise (fun x y => x.2.1 < y.2.1) := by
    refine List.Pairwise.filterMap _ (fun a a' hlt b hb b' hb' => ?_) hh
    obtain ⟨k, x⟩ := a
    obtain ⟨k', x'⟩ := a'
    dsimp only at hb hb' hlt
    split at hb <;> split at hb' <;> cases hb <;> cases hb'
    exact compare_lt_iff_lt.mp hlt
  rw [surpluses_eq, List.map_map, List.map_append, List.pairwise_append]
  refine ⟨?_, ?_, ?_⟩
  · refine List.pairwise_map.mpr ((hsorted.filter _).imp_of_mem fun hx hy hlt => ?_)
    have hx' := List.mem_filter.mp hx
    have hy' := List.mem_filter.mp hy
    refine ⟨ne_of_lt hlt, .inr ⟨?_, le_of_lt hlt⟩⟩
    simp only [Function.comp_def, ← htag _ hx'.1, ← htag _ hy'.1]
    simp only [Bool.not_eq_true'] at hx' hy'
    simp [hx'.2, hy'.2]
  · refine List.pairwise_map.mpr ((hsorted.filter _).imp_of_mem fun hx hy hlt => ?_)
    have hx' := List.mem_filter.mp hx
    have hy' := List.mem_filter.mp hy
    refine ⟨ne_of_lt hlt, .inr ⟨?_, le_of_lt hlt⟩⟩
    simp only [Function.comp_def, ← htag _ hx'.1, ← htag _ hy'.1]
    simp [hx'.2, hy'.2]
  · intro a ha b hb
    obtain ⟨x, hx, rfl⟩ := List.mem_map.mp ha
    obtain ⟨y, hy, rfl⟩ := List.mem_map.mp hb
    have hx' := List.mem_filter.mp hx
    have hy' := List.mem_filter.mp hy
    have hxa := htag _ hx'.1
    have hyb := htag _ hy'.1
    simp only [Bool.not_eq_true'] at hx'
    rw [hx'.2] at hxa
    rw [hy'.2] at hyb
    simp only [Function.comp_def]
    refine ⟨fun heq => ?_, .inl ⟨by simp [← hxa], by simp [← hyb]⟩⟩
    rw [heq] at hxa
    rw [← hxa] at hyb
    cases hyb

/-- Entries rewritten to no more than they hold add up to no more. -/
theorem sum_filterMap_le {β : Type} {f : String × Amount → Option β} {g : β → Nat}
    (hf : ∀ x y, f x = some y → g y ≤ x.2.toNat) :
    ∀ l : List (String × Amount), ((l.filterMap f).map g).sum ≤ (l.map (·.2.toNat)).sum
  | [] => by simp
  | x :: l => by
    have ih := sum_filterMap_le hf l
    cases hx : f x with
    | none =>
      rw [List.filterMap_cons_none hx, List.map_cons, List.sum_cons]
      omega
    | some y =>
      rw [List.filterMap_cons_some hx, List.map_cons, List.sum_cons, List.map_cons, List.sum_cons]
      have := hf x y hx
      omega

/-- The surpluses add up to no more than what is held. -/
theorem sum_surpluses_le :
    ((surpluses desired held).map (·.2.toNat)).sum ≤ (held.entries.map (·.2.toNat)).sum := by
  rw [(surpluses_perm.map _).sum_eq, List.map_map, surplusEntries, Table.toList]
  refine sum_filterMap_le (fun x y h => ?_) _
  -- each kept surplus is part of what its validator holds
  obtain ⟨k, a⟩ := x
  dsimp only at h
  split at h
  · cases h
  · cases h
    simp

end Inputs

section Walk

/-- What holds of the plan once the walk has examined the sources `done`, with `rest` still to
come and the deficits `ds` still open out of `defs`; `R` orders the sources. -/
structure Walked (inCooldown : String → Bool) (maxEntries : Nat) (R : String → String → Prop)
    (defs done rest ds : List (String × Amount)) (p : Plan) : Prop where
  capped : p.redelegations.length ≤ maxEntries
  positive : ∀ r ∈ p.redelegations, 0 < r.amount.toNat
  src : ∀ r ∈ p.redelegations, r.src ∈ done.map Prod.fst ∧ inCooldown r.src = false
  dst : ∀ r ∈ p.redelegations, r.dst ∈ defs.map Prod.fst
  skipped : p.skipped = (done.map Prod.fst).filter inCooldown
  out : ∀ v, movedOut p.redelegations v ≤ amountOf done v
  spent : (p.redelegations.map (·.amount.toNat)).sum ≤ (done.map (·.2.toNat)).sum
  inflow : ∀ v, movedIn p.redelegations v + amountOf ds v = amountOf defs v
  suffix : ds.map Prod.fst <:+ defs.map Prod.fst
  open_pos : ∀ e ∈ ds, 0 < e.2.toNat
  dst_sorted : p.redelegations.Pairwise (·.dst ≤ ·.dst)
  dst_le : ∀ r ∈ p.redelegations, ∀ e ∈ ds, r.dst ≤ e.1
  src_sorted : p.redelegations.Pairwise (fun r r' => R r.src r'.src)
  src_le : ∀ r ∈ p.redelegations, ∀ e ∈ rest, R r.src e.1

namespace Walked

variable {inCooldown : String → Bool} {maxEntries : Nat} {R : String → String → Prop}
  {defs done rest ds : List (String × Amount)} {p : Plan} {src : String} {s : Amount}

/-- Before the walk nothing is planned and every deficit is open. -/
theorem start (hpos : ∀ e ∈ defs, 0 < e.2.toNat) :
    Walked inCooldown maxEntries R defs [] rest defs ⟨[], []⟩ where
  capped := Nat.zero_le _
  positive := by simp
  src := by simp
  dst := by simp
  skipped := rfl
  out := by simp
  spent := by simp
  inflow := by simp
  suffix := List.suffix_refl _
  open_pos := hpos
  dst_sorted := List.Pairwise.nil
  dst_le := by simp
  src_sorted := List.Pairwise.nil
  src_le := by simp

/-- A source in cooldown is listed and nothing else changes. -/
theorem skip (h : Walked inCooldown maxEntries R defs done ((src, s) :: rest) ds p)
    (hcool : inCooldown src = true) :
    Walked inCooldown maxEntries R defs (done ++ [(src, s)]) rest ds
      { p with skipped := p.skipped ++ [src] } where
  capped := h.capped
  positive := h.positive
  src r hr := ⟨by simpa using Or.inl (h.src r hr).1, (h.src r hr).2⟩
  dst := h.dst
  skipped := by simp [h.skipped, hcool]
  out v := (h.out v).trans (by simp)
  spent := h.spent.trans (by simp)
  inflow := h.inflow
  suffix := h.suffix
  open_pos := h.open_pos
  dst_sorted := h.dst_sorted
  dst_le := h.dst_le
  src_sorted := h.src_sorted
  src_le r hr e he := h.src_le r hr e (List.mem_cons_of_mem _ he)

/-- Filling from a source that is not cooling keeps every fact, when the source comes no later
than the sources after it. -/
theorem fill (h : Walked inCooldown maxEntries R defs done ((src, s) :: rest) ds p)
    (hcool : inCooldown src = false) (hR : ∀ w, R w w) (hnext : ∀ e ∈ rest, R src e.1)
    (hdefs : (defs.map Prod.fst).Pairwise (· ≤ ·)) {moves : List Redelegation}
    {open_ : List (String × Amount)}
    (hfill : Rebalance.fill src (maxEntries - p.redelegations.length) s ds = (moves, open_)) :
    Walked inCooldown maxEntries R defs (done ++ [(src, s)]) rest open_
      { p with redelegations := p.redelegations ++ moves } := by
  obtain ⟨hlen, hspent, hpos⟩ := fill_budget src (maxEntries - p.redelegations.length) s ds
  obtain ⟨hin, hsuf, hdst⟩ := fill_flow src (maxEntries - p.redelegations.length) s ds
  have hsorted : (ds.map Prod.fst).Pairwise (· ≤ ·) := hdefs.sublist h.suffix.sublist
  obtain ⟨hmsorted, hmle⟩ := fill_order src (maxEntries - p.redelegations.length) s ds hsorted
  simp only [hfill] at hlen hspent hpos hin hsuf hdst hmsorted hmle
  obtain ⟨hmpos, hopen⟩ := hpos h.open_pos
  have hsrc : ∀ r ∈ moves, r.src = src := fun r hr => src_of_mem_fill (by rw [hfill]; exact hr)
  have hcap := h.capped
  refine ⟨?capped, ?positive, ?src, ?dst, ?skipped, ?out, ?spent, ?inflow, hsuf.trans h.suffix,
    hopen, ?dst_sorted, ?dst_le, ?src_sorted, ?src_le⟩
  case capped =>
    simp only [List.length_append]
    omega
  case positive =>
    intro r hr
    rcases List.mem_append.mp hr with hr | hr
    · exact h.positive r hr
    · exact hmpos r hr
  case src =>
    intro r hr
    rcases List.mem_append.mp hr with hr | hr
    · exact ⟨by simpa using Or.inl (h.src r hr).1, (h.src r hr).2⟩
    · rw [hsrc r hr]
      exact ⟨by simp, hcool⟩
  case dst =>
    intro r hr
    rcases List.mem_append.mp hr with hr | hr
    · exact h.dst r hr
    · exact h.suffix.subset (hdst r hr)
  case skipped => simp [h.skipped, hcool]
  case out =>
    intro v
    have := h.out v
    rw [movedOut_append, movedOut_of_src hsrc v]
    by_cases hv : src = v <;> simp [hv] <;> omega
  case spent =>
    have := h.spent
    simp only [List.map_append, List.sum_append, List.map_cons, List.map_nil, List.sum_cons,
      List.sum_nil]
    omega
  case inflow =>
    intro v
    have := h.inflow v
    have := hin v
    rw [movedIn_append]
    omega
  case dst_sorted =>
    -- the earlier moves reach destinations no later than any deficit still open
    refine List.pairwise_append.mpr ⟨h.dst_sorted, hmsorted, fun r hr r' hr' => ?_⟩
    obtain ⟨e, he, hkey⟩ := List.mem_map.mp (hdst r' hr')
    rw [← hkey]
    exact h.dst_le r hr e he
  case dst_le =>
    intro r hr e he
    rcases List.mem_append.mp hr with hr | hr
    · obtain ⟨e', he', hkey⟩ := List.mem_map.mp (hsuf.subset (List.mem_map_of_mem he))
      rw [← hkey]
      exact h.dst_le r hr e' he'
    · exact hmle r hr e he
  case src_sorted =>
    refine List.pairwise_append.mpr ⟨h.src_sorted, ?_, fun r hr r' hr' => ?_⟩
    · -- the new moves all leave the one source
      refine List.pairwise_of_forall_mem_list fun r hr r' hr' => ?_
      rw [hsrc r hr, hsrc r' hr']
      exact hR src
    · rw [hsrc r' hr']
      exact h.src_le r hr (src, s) List.mem_cons_self
  case src_le =>
    intro r hr e he
    rcases List.mem_append.mp hr with hr | hr
    · exact h.src_le r hr e (List.mem_cons_of_mem _ he)
    · rw [hsrc r hr]
      exact hnext e he

end Walked

variable {inCooldown : String → Bool} {maxEntries : Nat} {R : String → String → Prop}
  {defs : List (String × Amount)}

/-- The walk keeps `Walked` as it examines a leading part of the sources, and it stops before
the last source only once every deficit is met or the plan is full. -/
theorem walk_walked (hR : ∀ w, R w w) (hdefs : (defs.map Prod.fst).Pairwise (· ≤ ·))
    {rest ds : List (String × Amount)} {p : Plan} :
    ∀ {done}, (rest.map Prod.fst).Pairwise R →
      Walked inCooldown maxEntries R defs done rest ds p →
      ∃ done' rest' ds', done ++ rest = done' ++ rest' ∧
        Walked inCooldown maxEntries R defs done' rest' ds'
          (walk inCooldown maxEntries rest ds p) ∧
        (rest' ≠ [] → ds' = [] ∨
          maxEntries ≤ (walk inCooldown maxEntries rest ds p).redelegations.length) := by
  fun_induction walk inCooldown maxEntries rest ds p with
  | case1 plan =>
    intro done _ h
    exact ⟨done, [], _, rfl, h, fun hne => absurd rfl hne⟩
  | case2 src surplus rest deficits plan hstop =>
    intro done _ h
    refine ⟨done, _, deficits, rfl, h, fun _ => ?_⟩
    simpa using hstop
  | case3 src surplus rest deficits plan hgo hcool ih =>
    intro done hsorted h
    obtain ⟨done', rest', ds', heq, hw, hstop⟩ :=
      ih (List.pairwise_cons.mp hsorted).2 (h.skip hcool)
    exact ⟨done', rest', ds', by simpa using heq, hw, hstop⟩
  | case4 src surplus rest deficits plan hgo hcool moves open_ hfill ih =>
    intro done hsorted h
    have hnext : ∀ e ∈ rest, R src e.1 :=
      fun e he => (List.pairwise_cons.mp hsorted).1 _ (List.mem_map_of_mem he)
    obtain ⟨done', rest', ds', heq, hw, hstop⟩ :=
      ih (List.pairwise_cons.mp hsorted).2
        (h.fill (by simpa using hcool) hR hnext hdefs hfill)
    exact ⟨done', rest', ds', by simpa using heq, hw, hstop⟩

end Walk

section Plan

/-- Summing amounts whose running sum stays below the bound gives their sum. -/
theorem foldlM_add? : ∀ (xs : List Amount) (acc : Amount)
    (h : acc.toNat + (xs.map Amount.toNat).sum < Amount.bound),
    xs.foldlM Amount.add? acc = some ⟨acc.toNat + (xs.map Amount.toNat).sum, h⟩
  | [], acc, _ => by
    simp only [List.foldlM_nil, List.map_nil, List.sum_nil, Nat.add_zero]
    rfl
  | x :: xs, acc, h => by
    have hx : acc.toNat + x.toNat < Amount.bound := by
      simp only [List.map_cons, List.sum_cons] at h
      omega
    have hadd : acc.add? x = some ⟨acc.toNat + x.toNat, hx⟩ := Amount.add?_eq_some_iff.mpr rfl
    have hrest : (acc.toNat + x.toNat) + (xs.map Amount.toNat).sum < Amount.bound := by
      simp only [List.map_cons, List.sum_cons] at h
      omega
    rw [List.foldlM_cons, hadd, Option.bind_eq_bind, Option.bind_some,
      foldlM_add? xs ⟨acc.toNat + x.toNat, hx⟩ hrest]
    simp only [List.map_cons, List.sum_cons, Nat.add_assoc]

/-- The total of delegations below the bound is their sum. -/
theorem total_eq_ok {current : List (String × Amount)}
    (h : (current.map (·.2.toNat)).sum < Amount.bound) :
    total current = .ok ⟨(current.map (·.2.toNat)).sum, h⟩ := by
  have h' : Amount.zero.toNat + ((current.map Prod.snd).map Amount.toNat).sum < Amount.bound := by
    simpa [List.map_map, Function.comp_def] using h
  unfold total Amount.sum?
  rw [foldlM_add? _ _ h']
  simp [List.map_map, Function.comp_def]

variable {current : List (String × Amount)} {targets : List Target}
  {inCooldown : String → Bool} {maxEntries : Nat} {T : Amount}

theorem planRedelegations_eq (h : total current = .ok T) :
    planRedelegations current targets inCooldown maxEntries =
      .ok (walk inCooldown maxEntries
        (surpluses (desiredAmounts T targets) (Table.ofList current))
        (deficits (desiredAmounts T targets) (Table.ofList current)) ⟨[], []⟩) := by
  simp [planRedelegations, h, bind, Except.bind, pure, Except.pure]

/-- With a positive total weight, the validators with a desired amount are the allow list. -/
theorem isSome_get?_desiredAmounts (hpos : 0 < (targets.map fun t => t.weight.atomics.toNat).sum)
    (v : String) : ((desiredAmounts T targets).get? v).isSome ↔ v ∈ targets.map Target.validator := by
  unfold desiredAmounts
  rw [Table.isSome_get?_ofList,
    Amount.map_fst_apportion (by simpa using hpos)]
  simp [Target.shares, Function.comp_def]

/-- With no weight at all, no validator has a desired amount. -/
theorem desiredAmounts_eq_empty (h0 : (targets.map fun t => t.weight.atomics.toNat).sum = 0) :
    (desiredAmounts T targets).entries = [] := by
  unfold desiredAmounts
  rw [Amount.apportion_eq_nil (by simpa using h0)]
  rfl

theorem DrainsBefore.of_iff {P Q : String → Prop} (h : ∀ v, P v ↔ Q v) {a b : String}
    (hab : DrainsBefore P a b) : DrainsBefore Q a b := by
  unfold DrainsBefore at hab ⊢
  rwa [← h a, ← h b]

theorem pos_amountOf_of_mem {l : List (String × Amount)} (hpos : ∀ e ∈ l, 0 < e.2.toNat)
    {v : String} (hv : v ∈ l.map Prod.fst) : 0 < amountOf l v := by
  obtain ⟨e, he, rfl⟩ := List.mem_map.mp hv
  exact Nat.lt_of_lt_of_le (hpos e he) (le_amountOf_of_mem he)

/-- What a redelegation plan over the delegations `current` guarantees, given the desired
amounts `desired` of their total and the sources `sources` the planner walks. -/
structure SafePlan (current : List (String × Amount)) (targets : List Target)
    (desired : Table String Amount) (sources : List (String × Amount))
    (inCooldown : String → Bool) (maxEntries : Nat) (p : Plan) : Prop where
  capped : p.redelegations.length ≤ maxEntries
  /-- Every move is positive, between two validators, and leaves one that is not cooling. -/
  moves : ∀ r ∈ p.redelegations, 0 < r.amount.toNat ∧ r.src ≠ r.dst ∧ inCooldown r.src = false
  /-- The sources give each validator what it holds above its desired amount. -/
  sources_amount : ∀ v, amountOf sources v = amountOf current v - (desired.getD v Amount.zero).toNat
  /-- The sources are distinct, those without a desired amount first, each group by address. -/
  sources_order : (sources.map Prod.fst).Pairwise
    fun a b => a ≠ b ∧ DrainsBefore (fun v => (desired.get? v).isSome) a b
  /-- The planner examines a leading part of the sources and lists exactly the cooling ones
  among them; it stops before the last only when the plan is full or every deficit is met. -/
  examined : ∃ k, p.skipped = ((sources.take k).map Prod.fst).filter inCooldown ∧
    (∀ r ∈ p.redelegations, r.src ∈ (sources.take k).map Prod.fst) ∧
    (k < sources.length → p.redelegations.length = maxEntries ∨
      ∀ v, movedIn p.redelegations v = (desired.getD v Amount.zero).toNat - amountOf current v)
  out_le : ∀ v, movedOut p.redelegations v ≤ amountOf current v - (desired.getD v Amount.zero).toNat
  in_le : ∀ v, movedIn p.redelegations v ≤ (desired.getD v Amount.zero).toNat - amountOf current v
  total_le : (p.redelegations.map (·.amount.toNat)).sum ≤ (current.map (·.2.toNat)).sum
  /-- Applied to the delegations, the plan overdraws no validator and takes none past the
  larger of what it held and what it should hold. -/
  applied : ∀ v, movedOut p.redelegations v ≤ amountOf current v ∧
    amountOf current v + movedIn p.redelegations v - movedOut p.redelegations v ≤
      max (amountOf current v) (desired.getD v Amount.zero).toNat
  drained : p.redelegations.Pairwise
    fun r r' => DrainsBefore (· ∈ targets.map Target.validator) r.src r'.src
  filled : p.redelegations.Pairwise fun r r' => r.dst ≤ r'.dst

/-- Planning redelegations over delegations with distinct validators whose total is an
amount succeeds, and the plan is safe: within the entry cap, positive, never from a cooling
source or to itself, moving out of each validator at most its surplus and into each at most
its deficit, draining validators off the allow list first and filling in address order. -/
theorem plan_redelegations_safe (current : List (String × Amount)) (targets : List Target)
    (inCooldown : String → Bool) (maxEntries : Nat) (T : Amount)
    (hkeys : (current.map Prod.fst).Nodup) (hT : T.toNat = (current.map (·.2.toNat)).sum) :
    ∃ p, planRedelegations current targets inCooldown maxEntries = .ok p ∧
      SafePlan current targets (desiredAmounts T targets)
        (surpluses (desiredAmounts T targets) (Table.ofList current)) inCooldown maxEntries p := by
  set desired := desiredAmounts T targets
  set held : Table String Amount := Table.ofList current
  have htotal : total current = .ok T := by
    rw [total_eq_ok (hT ▸ T.lt_bound)]
    exact congrArg Except.ok (Amount.ext_toNat hT.symm)
  have hdes : desired.Sorted := Table.sorted_ofList _
  have hheld : held.Sorted := Table.sorted_ofList _
  have hcur : ∀ v, (held.getD v Amount.zero).toNat = amountOf current v := fun v =>
    (amountOf_entries hheld v).symm.trans (amountOf_ofList hkeys v)
  have hsrcs : ∀ v, amountOf (surpluses desired held) v =
      amountOf current v - (desired.getD v Amount.zero).toNat := fun v => by
    rw [amountOf_surpluses hheld, hcur]
  have hdefs : ∀ v, amountOf (deficits desired held) v =
      (desired.getD v Amount.zero).toNat - amountOf current v := fun v => by
    rw [amountOf_deficits hdes, hcur]
  have horder : ((surpluses desired held).map Prod.fst).Pairwise
      (fun a b => a ≠ b ∧ DrainsBefore (fun v => (desired.get? v).isSome) a b) :=
    pairwise_surpluses hheld
  have hstart : Walked inCooldown maxEntries (DrainsBefore fun v => (desired.get? v).isSome)
      (deficits desired held) [] (surpluses desired held) (deficits desired held) ⟨[], []⟩ :=
    Walked.start fun _ he => pos_of_mem_deficits he
  obtain ⟨done, rest, ds, hsplit, hw, hstop⟩ :=
    walk_walked (DrainsBefore.refl _) ((pairwise_deficits hdes).imp le_of_lt)
      (horder.imp And.right) hstart
  rw [List.nil_append] at hsplit
  refine ⟨_, planRedelegations_eq htotal, ?_⟩
  set p := walk inCooldown maxEntries (surpluses desired held) (deficits desired held) ⟨[], []⟩
  -- what the walk has examined is a leading part of the sources
  have hout : ∀ v, movedOut p.redelegations v ≤
      amountOf current v - (desired.getD v Amount.zero).toNat := fun v => by
    have := hw.out v
    rw [← hsrcs, hsplit, amountOf_append]
    omega
  have hin : ∀ v, movedIn p.redelegations v ≤
      (desired.getD v Amount.zero).toNat - amountOf current v := fun v => by
    have := hw.inflow v
    rw [← hdefs]
    omega
  refine ⟨hw.capped, fun r hr => ⟨hw.positive r hr, fun hsd => ?_, (hw.src r hr).2⟩, hsrcs,
    horder, ⟨done.length, ?_, ?_, ?_⟩, hout, hin, ?_, fun v => ?_, ?_, hw.dst_sorted⟩
  · -- a source holds more than it should and a destination less
    have hsrc := pos_amountOf_of_mem (fun _ he => pos_of_mem_surpluses he)
      (v := r.src) (by rw [hsplit, List.map_append]; exact List.mem_append_left _ (hw.src r hr).1)
    have hdst := pos_amountOf_of_mem (fun _ he => pos_of_mem_deficits he) (hw.dst r hr)
    rw [hsrcs] at hsrc
    rw [hdefs, ← hsd] at hdst
    omega
  · rw [hsplit, List.take_left, hw.skipped]
  · intro r hr
    rw [hsplit, List.take_left]
    exact (hw.src r hr).1
  · intro hlt
    have hne : rest ≠ [] := by
      rintro rfl
      rw [hsplit, List.append_nil] at hlt
      exact lt_irrefl _ hlt
    rcases hstop hne with rfl | hfull
    · exact .inr fun v => by simpa [hdefs] using hw.inflow v
    · exact .inl (le_antisymm hw.capped hfull)
  · calc (p.redelegations.map (·.amount.toNat)).sum ≤ (done.map (·.2.toNat)).sum := hw.spent
      _ ≤ ((surpluses desired held).map (·.2.toNat)).sum := by
        rw [hsplit, List.map_append, List.sum_append]
        exact Nat.le_add_right _ _
      _ ≤ (held.entries.map (·.2.toNat)).sum := sum_surpluses_le
      _ = (current.map (·.2.toNat)).sum := by
        simpa [Table.sumBy] using Table.sumBy_ofList (fun _ a => a.toNat) hkeys
  · have := hout v
    have := hin v
    omega
  · rcases Nat.eq_zero_or_pos (targets.map fun t => t.weight.atomics.toNat).sum with h0 | hpos
    · -- with no weight there are no deficits, so no moves
      have hnil : p.redelegations = [] := by
        refine List.eq_nil_iff_forall_not_mem.mpr fun r hr => ?_
        have := hw.dst r hr
        simp [deficits, Table.toList, desired, desiredAmounts_eq_empty h0] at this
      rw [hnil]
      exact List.Pairwise.nil
    · exact hw.src_sorted.imp (DrainsBefore.of_iff fun v => isSome_get?_desiredAmounts hpos v)

/-- A thousand held by one of two validators of equal weight: the plan is safe. -/
theorem plan_redelegations_safe_halves :
    ([("a", (⟨1000, by decide⟩ : Amount))].map Prod.fst).Nodup ∧
    (⟨1000, by decide⟩ : Amount).toNat = ([("a", (⟨1000, by decide⟩ : Amount))].map (·.2.toNat)).sum ∧
    ∃ p, planRedelegations [("a", ⟨1000, by decide⟩)]
        [⟨"a", Decimal.percent 50 (by decide)⟩, ⟨"b", Decimal.percent 50 (by decide)⟩]
        (fun _ => false) 7 = .ok p ∧
      SafePlan [("a", ⟨1000, by decide⟩)]
        [⟨"a", Decimal.percent 50 (by decide)⟩, ⟨"b", Decimal.percent 50 (by decide)⟩]
        (desiredAmounts ⟨1000, by decide⟩
          [⟨"a", Decimal.percent 50 (by decide)⟩, ⟨"b", Decimal.percent 50 (by decide)⟩])
        (surpluses (desiredAmounts ⟨1000, by decide⟩
            [⟨"a", Decimal.percent 50 (by decide)⟩, ⟨"b", Decimal.percent 50 (by decide)⟩])
          (Table.ofList [("a", ⟨1000, by decide⟩)]))
        (fun _ => false) 7 p :=
  ⟨by decide, rfl, plan_redelegations_safe _ _ _ _ _ (by decide) rfl⟩

end Plan

end LiquidStaking.Rebalance
