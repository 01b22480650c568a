import LiquidStaking.Table
import Mathlib

/-! # Sorted tables

Every table the module keeps starts empty and changes only by inserts, erases and filters,
so its entries stand in strictly ascending key order. On such a table a key has at most one
entry, a lookup returns exactly that entry, and a sum over the entries moves under an insert
or an erase by the one value the key held.
-/
namespace LiquidStaking.Table

variable {κ α : Type} [Ord κ]

/-- Entries in strictly ascending key order. -/
def Sorted (t : Table κ α) : Prop := t.entries.Pairwise (fun a b => compare a.1 b.1 = .lt)

/-- The sum over the entries of a measure of key and value. -/
def sumBy (f : κ → α → Nat) (t : Table κ α) : Nat := (t.entries.map (fun e => f e.1 e.2)).sum

/-- What a key contributes to a sum: its measure if it is bound, nothing otherwise. -/
def weightOf (f : κ → α → Nat) (t : Table κ α) (k : κ) : Nat := ((t.get? k).map (f k)).getD 0

theorem sorted_empty : (empty : Table κ α).Sorted := List.Pairwise.nil

omit [Ord κ] in
theorem sumBy_add (t : Table κ α) (f g : κ → α → Nat) :
    t.sumBy (fun k v => f k v + g k v) = t.sumBy f + t.sumBy g := by
  simp [sumBy, List.sum_map_add]

omit [Ord κ] in
/-- Filtering keeps the measure of the entries that pass. -/
theorem sumBy_filter (t : Table κ α) (p : κ → α → Bool) (f : κ → α → Nat) :
    (t.filter p).sumBy f = t.sumBy fun k v => if p k v then f k v else 0 := by
  obtain ⟨es⟩ := t
  simp only [sumBy, filter]
  induction es with
  | nil => rfl
  | cons e es ih =>
    by_cases hp : p e.1 e.2 <;> simp [hp, ih]

omit [Ord κ] in
/-- Summing the part of each entry that falls on each key of a list without repeats is
summing the part that falls on the list. -/
theorem sumBy_sum_indicator {β : Type} [DecidableEq β] (t : Table κ α) (g : κ → α → β)
    (f : κ → α → Nat) {L : List β} (hL : L.Nodup) :
    (L.map fun m => t.sumBy fun k v => if g k v = m then f k v else 0).sum =
      t.sumBy fun k v => if g k v ∈ L then f k v else 0 := by
  induction L with
  | nil => simp [sumBy]
  | cons m L ih =>
    obtain ⟨hm, hL⟩ := List.nodup_cons.mp hL
    rw [List.map_cons, List.sum_cons, ih hL, ← sumBy_add]
    congr 1
    funext k v
    by_cases hk : g k v = m
    · subst hk
      simp [hm]
    · simp [hk]

theorem mem_insertList {k : κ} {v : α} {e : κ × α} :
    ∀ {es : List (κ × α)}, e ∈ insertList k v es → e = (k,v) ∨ e ∈ es
  | [], h => by simp_all [insertList]
  | d :: es, h => by
    simp only [insertList] at h
    split at h
    · simpa using h
    · rcases List.mem_cons.mp h with h | h
      · exact .inl h
      · exact .inr (List.mem_cons_of_mem _ h)
    · rcases List.mem_cons.mp h with h | h
      · exact .inr (h ▸ List.mem_cons_self)
      · rcases mem_insertList h with h | h
        · exact .inl h
        · exact .inr (List.mem_cons_of_mem _ h)

theorem Sorted.erase {t : Table κ α} (h : t.Sorted) (k : κ) : (t.erase k).Sorted :=
  List.Pairwise.filter _ h

theorem Sorted.filter {t : Table κ α} (h : t.Sorted) (p : κ → α → Bool) : (t.filter p).Sorted :=
  List.Pairwise.filter _ h

section Lawful

variable [Std.TransOrd κ] [Std.LawfulEqOrd κ]

omit [Std.TransOrd κ] in
theorem compare_eq_iff {a b : κ} : compare a b = .eq ↔ a = b :=
  ⟨Std.LawfulEqCmp.eq_of_compare, fun h => h ▸ Std.ReflCmp.compare_self⟩

theorem sorted_insertList {k : κ} {v : α} :
    ∀ {es : List (κ × α)}, es.Pairwise (fun a b => compare a.1 b.1 = .lt) →
      (insertList k v es).Pairwise (fun a b => compare a.1 b.1 = .lt)
  | [], _ => by simp [insertList]
  | d :: es, h => by
    obtain ⟨hd,hs⟩ := List.pairwise_cons.mp h
    simp only [insertList]
    split
    · next hlt =>
      refine List.Pairwise.cons (fun x hx => ?_) h
      rcases List.mem_cons.mp hx with rfl | hx
      · exact hlt
      · exact Std.TransCmp.lt_trans hlt (hd x hx)
    · next heq =>
      have hk : k = d.1 := Std.LawfulEqCmp.eq_of_compare heq
      exact List.Pairwise.cons (fun x hx => hk ▸ hd x hx) hs
    · next hgt =>
      refine List.Pairwise.cons (fun x hx => ?_) (sorted_insertList hs)
      rcases mem_insertList hx with rfl | hx
      · exact Std.OrientedCmp.gt_iff_lt.mp hgt
      · exact hd x hx

theorem Sorted.insert {t : Table κ α} (h : t.Sorted) (k : κ) (v : α) : (t.insert k v).Sorted :=
  sorted_insertList h

omit [Std.TransOrd κ] in
/-- On a sorted table a lookup finds exactly the entries present. -/
theorem Sorted.get?_eq_some_iff {t : Table κ α} (h : t.Sorted) {k : κ} {v : α} :
    t.get? k = some v ↔ (k,v) ∈ t.entries := by
  obtain ⟨es⟩ := t
  simp only [get?]
  induction es with
  | nil => simp
  | cons d es ih =>
    obtain ⟨hd,hs⟩ := List.pairwise_cons.mp h
    by_cases hk : d.1 = k
    · have hne : ∀ x ∈ es, x.1 ≠ k := fun x hx hx' => by
        have hlt := hd x hx
        rw [compare_eq_iff.mpr (hx'.trans hk.symm).symm] at hlt
        cases hlt
      constructor
      · intro hv
        simp [hk] at hv
        exact hv ▸ (by rw [← hk]; exact List.mem_cons_self)
      · intro hm
        rcases List.mem_cons.mp hm with hm | hm
        · simp [← hm]
        · exact absurd rfl (hne _ hm)
    · have hf : (compare d.1 k == .eq) = false := by simpa [compare_eq_iff] using hk
      rw [List.find?_cons, hf]
      rw [ih hs]
      constructor
      · exact List.mem_cons_of_mem _
      · intro hm
        rcases List.mem_cons.mp hm with hm | hm
        · exact absurd (congrArg Prod.fst hm).symm hk
        · exact hm

theorem sumBy_insertList (f : κ → α → Nat) (k : κ) (v : α) :
    ∀ {es : List (κ × α)}, es.Pairwise (fun a b => compare a.1 b.1 = .lt) →
      ((insertList k v es).map (fun e => f e.1 e.2)).sum +
          (((es.find? (fun e => compare e.1 k == .eq)).map Prod.snd).map (f k)).getD 0 =
        (es.map (fun e => f e.1 e.2)).sum + f k v
  | [], _ => by simp [insertList]
  | d :: es, h => by
    obtain ⟨hd,hs⟩ := List.pairwise_cons.mp h
    simp only [insertList]
    split
    · next hlt =>
      have hk : (compare d.1 k == .eq) = false := by
        have : compare d.1 k = .gt := Std.OrientedCmp.gt_iff_lt.mpr hlt
        simp [this]
      have hnone : (es.find? (fun e => compare e.1 k == .eq)) = none := by
        rw [List.find?_eq_none]
        intro x hx
        have : compare k x.1 = .lt := Std.TransCmp.lt_trans hlt (hd x hx)
        have : compare x.1 k = .gt := Std.OrientedCmp.gt_iff_lt.mpr this
        simp [this]
      simp only [List.find?_cons, hk, hnone, List.map_cons, List.sum_cons]
      simp
      omega
    · next heq =>
      have hk : k = d.1 := Std.LawfulEqCmp.eq_of_compare heq
      subst hk
      simp
      omega
    · next hgt =>
      have hk : (compare d.1 k == .eq) = false := by
        have : compare d.1 k = .lt := Std.OrientedCmp.gt_iff_lt.mp hgt
        simp [this]
      have ih := sumBy_insertList f k v hs
      simp only [List.find?_cons, hk, List.map_cons, List.sum_cons] at ih ⊢
      omega

omit [Std.TransOrd κ] in
/-- Measures that agree on the bindings of a sorted table sum alike over it. -/
theorem Sorted.sumBy_congr {t : Table κ α} (h : t.Sorted) {f g : κ → α → Nat}
    (hfg : ∀ k v, t.get? k = some v → f k v = g k v) : t.sumBy f = t.sumBy g := by
  unfold sumBy
  congr 1
  apply List.map_congr_left
  intro e he
  exact hfg e.1 e.2 (h.get?_eq_some_iff.mpr he)

/-- Inserting replaces what the key held. -/
theorem Sorted.sumBy_insert {t : Table κ α} (_h : t.Sorted) (f : κ → α → Nat) (k : κ) (v : α) :
    (t.insert k v).sumBy f + t.weightOf f k = t.sumBy f + f k v :=
  sumBy_insertList f k v _h

theorem sumBy_eraseList (f : κ → α → Nat) (k : κ) :
    ∀ {es : List (κ × α)}, es.Pairwise (fun a b => compare a.1 b.1 = .lt) →
      ((es.filter (fun e => compare e.1 k != .eq)).map (fun e => f e.1 e.2)).sum +
          (((es.find? (fun e => compare e.1 k == .eq)).map Prod.snd).map (f k)).getD 0 =
        (es.map (fun e => f e.1 e.2)).sum
  | [], _ => by simp
  | d :: es, h => by
    obtain ⟨hd,hs⟩ := List.pairwise_cons.mp h
    by_cases hk : d.1 = k
    · subst hk
      have hall : es.filter (fun e => compare e.1 d.1 != .eq) = es := by
        rw [List.filter_eq_self]
        intro x hx
        have : compare x.1 d.1 = .gt := Std.OrientedCmp.gt_iff_lt.mpr (hd x hx)
        simp [this]
      simp [hall]
      omega
    · have hf : (compare d.1 k == .eq) = false := by simpa [compare_eq_iff] using hk
      have hf' : (compare d.1 k != .eq) = true := by simpa [compare_eq_iff] using hk
      have ih := sumBy_eraseList f k hs
      simp only [List.filter_cons, hf', List.find?_cons, hf, List.map_cons, List.sum_cons,
        if_true] at ih ⊢
      omega

/-- Erasing removes what the key held. -/
theorem Sorted.sumBy_erase {t : Table κ α} (h : t.Sorted) (f : κ → α → Nat) (k : κ) :
    (t.erase k).sumBy f + t.weightOf f k = t.sumBy f :=
  sumBy_eraseList f k h

end Lawful

section Erase

variable [Std.LawfulEqOrd κ] [DecidableEq κ]

/-- An erase only takes bindings away. -/
theorem get?_of_get?_erase {t : Table κ α} {k j : κ} {v : α} (h : (t.erase k).get? j = some v) :
    t.get? j = some v := by
  rw [get?_erase] at h
  split at h
  · cases h
  · exact h

end Erase

section Build

variable [Std.TransOrd κ] [Std.LawfulEqOrd κ] [DecidableEq κ]

/-- Inserting entries whose keys are new and distinct adds their measures. -/
theorem sumBy_foldl_insert (f : κ → α → Nat) :
    ∀ (l : List (κ × α)) (t : Table κ α), t.Sorted → (l.map Prod.fst).Nodup →
      (∀ e ∈ l, t.get? e.1 = none) →
      (l.foldl (fun t e => t.insert e.1 e.2) t).sumBy f = t.sumBy f + (l.map fun e => f e.1 e.2).sum
  | [], t, _, _, _ => by simp
  | e :: l, t, hs, hnd, hfresh => by
    obtain ⟨hnotin, hnd⟩ := List.nodup_cons.mp hnd
    have hw : t.weightOf f e.1 = 0 := by simp [weightOf, hfresh e List.mem_cons_self]
    have hins := hs.sumBy_insert f e.1 e.2
    have hrest : ∀ d ∈ l, (t.insert e.1 e.2).get? d.1 = none := by
      intro d hd
      have hne : e.1 ≠ d.1 := fun h => hnotin (h ▸ List.mem_map_of_mem hd)
      rw [get?_insert, if_neg hne]
      exact hfresh d (List.mem_cons_of_mem _ hd)
    rw [List.foldl_cons, sumBy_foldl_insert f l _ (hs.insert _ _) hnd hrest, List.map_cons,
      List.sum_cons]
    omega

/-- A table built from entries with distinct keys measures what the entries measure. -/
theorem sumBy_ofList (f : κ → α → Nat) {l : List (κ × α)} (hnd : (l.map Prod.fst).Nodup) :
    (ofList l).sumBy f = (l.map fun e => f e.1 e.2).sum := by
  have := sumBy_foldl_insert f l empty sorted_empty hnd fun e _ => get?_empty e.1
  simpa [ofList, sumBy, empty] using this

end Build

end LiquidStaking.Table
