import Mathlib
import LiquidStaking.Proofs.RecordedTable

/-! # Reversing a recorded operation

The module records an operation's effect on its view of the ledger when it emits the
operation, and reverses that effect when the ledger rejects it. The view is the table of
recorded delegations and the two funding sources. Main statement
(`unrecord_reverses_record`): on a view with no zero delegation, an operation of positive
amount is recorded exactly when it overdraws nothing and takes no delegation out of the
amount range, and reversing a recorded operation commits and gives back the delegations,
as a map, and every other stored item; neither direction leaves a zero delegation or
writes outside the view.

Reading a table through `recorded` forgets the difference between a missing entry and a
zero one. Taking from a delegation drops an entry that reaches zero and adding to one
creates it, so the two readings agree on every table the operations leave
(`NoZeroEntry.get?_eq`), and the exact restoration of the map comes down to arithmetic on
`recorded`.
-/
namespace LiquidStaking

namespace Table

variable {κ α : Type} [Ord κ] [Std.TransOrd κ] [Std.LawfulEqOrd κ]

/-- Sorted tables with the same bindings are the same table. -/
theorem Sorted.ext {t t' : Table κ α} (h : t.Sorted) (h' : t'.Sorted) (he : t.get? = t'.get?) :
    t = t' := by
  obtain ⟨es⟩ := t
  obtain ⟨es'⟩ := t'
  congr 1
  have hperm : es.Perm es' := by
    refine (List.perm_ext_iff_of_nodup (h.nodup_keys.of_map _) (h'.nodup_keys.of_map _)).mpr
      fun e => ?_
    rw [← h.get?_eq_some_iff, ← h'.get?_eq_some_iff, he]
  -- two strictly ascending orders of the same entries agree
  refine hperm.eq_of_pairwise (fun a b _ _ hab hba => ?_) h h'
  rw [← Std.OrientedCmp.gt_iff_lt, hab] at hba
  cases hba

end Table

/-- Every amount the operation carries is positive. -/
def HostMsg.Positive : HostMsg → Prop
  | .delegate _ a | .undelegate _ a | .redelegate _ _ a
  | .sendToDelegator a | .transferToController a => 0 < a.toNat
  | .withdrawRewards _ | .setWithdrawAddress _ => True

instance (m : HostMsg) : Decidable m.Positive :=
  match m with
  | .delegate _ a | .undelegate _ a | .redelegate _ _ a
  | .sendToDelegator a | .transferToController a => inferInstanceAs (Decidable (0 < a.toNat))
  | .withdrawRewards _ | .setWithdrawAddress _ => inferInstanceAs (Decidable True)

/-- Whether the operation changes a delegation. -/
def HostMsg.movesDelegation : HostMsg → Bool
  | .delegate .. | .undelegate .. | .redelegate .. => true
  | _ => false

namespace Recording

open Tx Rebalance

/-- No validator is recorded with a zero delegation. -/
def NoZeroEntry (t : Table String Amount) : Prop := ∀ e ∈ t.entries, 0 < e.2.toNat

instance (t : Table String Amount) : Decidable (NoZeroEntry t) :=
  inferInstanceAs (Decidable (∀ e ∈ t.entries, 0 < e.2.toNat))

/-- The table with `v` set to `n`, or without `v` when `n` is zero: what taking from a
delegation writes. -/
def setOrErase (t : Table String Amount) (v : String) (n : Amount) : Table String Amount :=
  if n.isZero then t.erase v else t.insert v n

/-- Recording the operation overdraws nothing and takes no delegation out of the amount
range: a delegation draws at most what its funding source holds, an undelegation and a
redelegation take at most what their source validator holds, and what a delegation or a
redelegation adds to another validator keeps it an amount. -/
def Fits (s : State) (f : Funding) : HostMsg → Prop
  | .delegate v a =>
    a.toNat ≤ (fundingOf s f).toNat ∧ recorded s.delegations v + a.toNat < Amount.bound
  | .undelegate v a => a.toNat ≤ recorded s.delegations v
  | .redelegate src dst a =>
    a.toNat ≤ recorded s.delegations src ∧
      (src ≠ dst → recorded s.delegations dst + a.toNat < Amount.bound)
  | _ => True

/-- The second state differs from the first at most in the recorded view. -/
def ViewOnly (s s' : State) : Prop :=
  ∃ d p h, s' = { s with delegations := d, pendingDeposits := p, hostIdle := h }

/-- What recording an operation and reversing it do to the state. -/
structure Reversible (s : State) (m : HostMsg) (f : Funding) : Prop where
  /-- Recording commits exactly when the operation fits the view. -/
  record_iff : (∃ s₁, (record m f).run s = .ok ((), s₁)) ↔ Fits s f m
  /-- Reversing a recorded operation commits, gives back the delegations as a map, and
  leaves every other item as it was before the operation was recorded. -/
  unrecord_record : ∀ s₁, (record m f).run s = .ok ((), s₁) →
    ∃ s₂, (unrecord m f).run s₁ = .ok ((), s₂) ∧ s₂.delegations.get? = s.delegations.get? ∧
      s₂ = { s with delegations := s₂.delegations }
  /-- Recording leaves no zero delegation and writes only the view. -/
  record_clean : ∀ s₁, (record m f).run s = .ok ((), s₁) →
    NoZeroEntry s₁.delegations ∧ ViewOnly s s₁
  /-- Reversing leaves no zero delegation and writes only the view. -/
  unrecord_clean : ∀ s₁, (unrecord m f).run s = .ok ((), s₁) →
    NoZeroEntry s₁.delegations ∧ ViewOnly s s₁
  /-- An operation that moves no delegation is recorded and reversed as nothing. -/
  inert : m.movesDelegation = false →
    (record m f).run s = .ok ((), s) ∧ (unrecord m f).run s = .ok ((), s)

variable {s s' : State} {t t' : Table String Amount} {v w : String} {a n : Amount}
  {f : Funding} {u : Unit}

/-! ## Tables without zero entries -/

theorem recorded_lt_bound (t : Table String Amount) (v : String) : recorded t v < Amount.bound :=
  (t.getD v Amount.zero).lt_bound

/-- What taking from a delegation leaves: the rest, or no entry when nothing is left. -/
theorem recorded_setOrErase :
    recorded (setOrErase t v n) w = if v = w then n.toNat else recorded t w := by
  unfold setOrErase
  split
  · next hz =>
    rw [recorded_erase]
    rw [Amount.isZero_eq_true] at hz
    simp [hz]
  · exact recorded_insert t n

theorem sorted_setOrErase (h : t.Sorted) : (setOrErase t v n).Sorted := by
  unfold Recording.setOrErase
  split
  · exact h.erase v
  · exact h.insert v n

theorem NoZeroEntry.pos_of_get? (h : NoZeroEntry t) (hv : t.get? v = some n) : 0 < n.toNat := by
  obtain ⟨e, he, rfl⟩ := Option.map_eq_some_iff.mp hv
  exact h e (List.mem_of_find?_eq_some he)

theorem NoZeroEntry.insert (h : NoZeroEntry t) (hn : 0 < n.toNat) : NoZeroEntry (t.insert v n) := by
  intro e he
  rcases Table.mem_insertList he with rfl | he
  · exact hn
  · exact h e he

theorem NoZeroEntry.erase (h : NoZeroEntry t) : NoZeroEntry (t.erase v) :=
  fun e he => h e (List.mem_of_mem_filter he)

theorem NoZeroEntry.setOrErase (h : NoZeroEntry t) : NoZeroEntry (setOrErase t v n) := by
  unfold Recording.setOrErase
  split
  · exact h.erase
  · next hz =>
    rw [Amount.isZero_eq_true] at hz
    exact h.insert (Nat.pos_of_ne_zero hz)

/-- Without zero entries a table is determined, as a map, by what it records. -/
theorem NoZeroEntry.get?_eq (h : NoZeroEntry t) (h' : NoZeroEntry t')
    (hr : ∀ w, recorded t w = recorded t' w) : t.get? = t'.get? := by
  funext w
  have hw := hr w
  simp only [recorded, Table.getD] at hw
  cases hg : t.get? w with
  | none =>
    cases hg' : t'.get? w with
    | none => rfl
    | some y =>
      have := h'.pos_of_get? hg'
      simp [hg, hg'] at hw
      omega
  | some x =>
    have hx := h.pos_of_get? hg
    cases hg' : t'.get? w with
    | none =>
      simp [hg, hg'] at hw
      omega
    | some y =>
      simp only [hg, hg', Option.getD_some] at hw
      rw [Amount.ext_toNat hw]

/-! ## What each write commits to -/

theorem exists_amount {k : Nat} (hk : k < Amount.bound) : ∃ n : Amount, n.toNat = k :=
  ⟨⟨k, hk⟩, rfl⟩

@[simp] theorem fundingOf_setFunding : fundingOf (setFunding s f n) f = n := by
  cases f <;> rfl

@[simp] theorem setFunding_setFunding {p : Amount} :
    setFunding (setFunding s f p) f n = setFunding s f n := by
  cases f <;> rfl

@[simp] theorem setFunding_fundingOf : setFunding s f (fundingOf s f) = s := by
  cases f <;> rfl

@[simp] theorem fundingOf_with_delegations : fundingOf { s with delegations := t } f = fundingOf s f := by
  cases f <;> rfl

theorem setFunding_with_delegations :
    setFunding { s with delegations := t } f n = { setFunding s f n with delegations := t } := by
  cases f <;> rfl

theorem ViewOnly.refl : ViewOnly s s :=
  ⟨s.delegations, s.pendingDeposits, s.hostIdle, rfl⟩

theorem ViewOnly.delegations : ViewOnly s { s with delegations := t } :=
  ⟨t, s.pendingDeposits, s.hostIdle, rfl⟩

theorem ViewOnly.setFunding : ViewOnly s (setFunding s f n) := by
  cases f
  · exact ⟨s.delegations, n, s.hostIdle, rfl⟩
  · exact ⟨s.delegations, s.pendingDeposits, n, rfl⟩

theorem ViewOnly.trans {s'' : State} (h : ViewOnly s s') (h' : ViewOnly s' s'') :
    ViewOnly s s'' := by
  obtain ⟨d, p, i, rfl⟩ := h
  obtain ⟨d', p', i', rfl⟩ := h'
  exact ⟨d', p', i', rfl⟩

/-- Adding to a delegation commits exactly when the sum is an amount, and writes the sum. -/
theorem run_addDelegation_ok :
    (addDelegation v a).run s = .ok (u, s') ↔ ∃ n : Amount,
      n.toNat = recorded s.delegations v + a.toNat ∧
        s' = { s with delegations := s.delegations.insert v n } := by
  simp only [addDelegation, run_get_bind, run_bind_ok, run_checkedAdd_ok, run_modify_ok,
    Amount.add?_eq_some_iff]
  constructor
  · rintro ⟨n, _, ⟨hn, rfl⟩, rfl⟩
    exact ⟨n, hn, rfl⟩
  · rintro ⟨n, hn, rfl⟩
    exact ⟨n, s, ⟨hn, rfl⟩, rfl⟩

/-- Taking from a delegation commits exactly when it holds the amount, and writes the rest,
dropping the entry when nothing is left. -/
theorem run_subDelegation_ok :
    (subDelegation v a).run s = .ok (u, s') ↔ a.toNat ≤ recorded s.delegations v ∧
      ∃ n : Amount, n.toNat = recorded s.delegations v - a.toNat ∧
        s' = { s with delegations := setOrErase s.delegations v n } := by
  simp only [subDelegation, run_get_bind, run_bind_ok, run_checkedSub_ok, run_modify_ok,
    Amount.sub?_eq_some_iff]
  constructor
  · rintro ⟨n, _, ⟨⟨hle, hn⟩, rfl⟩, rfl⟩
    exact ⟨hle, n, hn, rfl⟩
  · rintro ⟨hle, n, hn, rfl⟩
    exact ⟨n, s, ⟨⟨hle, hn⟩, rfl⟩, rfl⟩

/-- Adding to a funding source commits exactly when the sum is an amount. -/
theorem run_addFunding_ok :
    (addFunding f a).run s = .ok (u, s') ↔ ∃ n : Amount,
      n.toNat = (fundingOf s f).toNat + a.toNat ∧ s' = setFunding s f n := by
  simp only [addFunding, run_get_bind, run_bind_ok, run_checkedAdd_ok, run_modify_ok,
    Amount.add?_eq_some_iff]
  constructor
  · rintro ⟨n, _, ⟨hn, rfl⟩, rfl⟩
    exact ⟨n, hn, rfl⟩
  · rintro ⟨n, hn, rfl⟩
    exact ⟨n, s, ⟨hn, rfl⟩, rfl⟩

/-- Drawing on a funding source commits exactly when it holds the amount. -/
theorem run_subFunding_ok :
    (subFunding f a).run s = .ok (u, s') ↔ a.toNat ≤ (fundingOf s f).toNat ∧
      ∃ n : Amount, n.toNat = (fundingOf s f).toNat - a.toNat ∧ s' = setFunding s f n := by
  simp only [subFunding, run_get_bind, run_bind_ok, run_checkedSub_ok, run_modify_ok,
    Amount.sub?_eq_some_iff]
  constructor
  · rintro ⟨n, _, ⟨⟨hle, hn⟩, rfl⟩, rfl⟩
    exact ⟨hle, n, hn, rfl⟩
  · rintro ⟨hle, n, hn, rfl⟩
    exact ⟨n, s, ⟨⟨hle, hn⟩, rfl⟩, rfl⟩

/-! ## Recording and reversing each operation -/

section Operations

variable {src dst : String}

theorem run_record_delegate_ok :
    (record (.delegate v a) f).run s = .ok (u, s') ↔ a.toNat ≤ (fundingOf s f).toNat ∧
      ∃ p n : Amount, p.toNat = (fundingOf s f).toNat - a.toNat ∧
        n.toNat = recorded s.delegations v + a.toNat ∧
        s' = { setFunding s f p with delegations := s.delegations.insert v n } := by
  simp only [record, run_bind_ok, run_subFunding_ok, run_addDelegation_ok]
  constructor
  · rintro ⟨_, _, ⟨hle, p, hp, rfl⟩, n, hn, rfl⟩
    rw [setFunding_delegations] at hn ⊢
    exact ⟨hle, p, n, hp, hn, rfl⟩
  · rintro ⟨hle, p, n, hp, hn, rfl⟩
    exact ⟨(), _, ⟨hle, p, hp, rfl⟩, n, by rw [setFunding_delegations]; exact hn,
      by rw [setFunding_delegations]⟩

theorem run_unrecord_delegate_ok :
    (unrecord (.delegate v a) f).run s = .ok (u, s') ↔ a.toNat ≤ recorded s.delegations v ∧
      ∃ n p : Amount, n.toNat = recorded s.delegations v - a.toNat ∧
        p.toNat = (fundingOf s f).toNat + a.toNat ∧
        s' = { setFunding s f p with delegations := setOrErase s.delegations v n } := by
  simp only [unrecord, run_bind_ok, run_subDelegation_ok, run_addFunding_ok]
  constructor
  · rintro ⟨_, _, ⟨hle, n, hn, rfl⟩, p, hp, rfl⟩
    exact ⟨hle, n, p, hn, hp, setFunding_with_delegations⟩
  · rintro ⟨hle, n, p, hn, hp, rfl⟩
    exact ⟨(), _, ⟨hle, n, hn, rfl⟩, p, hp, setFunding_with_delegations.symm⟩

theorem run_record_redelegate_ok :
    (record (.redelegate src dst a) f).run s = .ok (u, s') ↔ a.toNat ≤ recorded s.delegations src ∧
      ∃ n₁ n₂ : Amount, n₁.toNat = recorded s.delegations src - a.toNat ∧
        n₂.toNat = recorded (setOrErase s.delegations src n₁) dst + a.toNat ∧
        s' = { s with delegations := (setOrErase s.delegations src n₁).insert dst n₂ } := by
  simp only [record, run_bind_ok, run_subDelegation_ok, run_addDelegation_ok]
  constructor
  · rintro ⟨_, _, ⟨hle, n₁, hn₁, rfl⟩, n₂, hn₂, rfl⟩
    exact ⟨hle, n₁, n₂, hn₁, hn₂, rfl⟩
  · rintro ⟨hle, n₁, n₂, hn₁, hn₂, rfl⟩
    exact ⟨(), _, ⟨hle, n₁, hn₁, rfl⟩, n₂, hn₂, rfl⟩

theorem run_unrecord_redelegate_ok :
    (unrecord (.redelegate src dst a) f).run s = .ok (u, s') ↔
      a.toNat ≤ recorded s.delegations dst ∧
      ∃ n₁ n₂ : Amount, n₁.toNat = recorded s.delegations dst - a.toNat ∧
        n₂.toNat = recorded (setOrErase s.delegations dst n₁) src + a.toNat ∧
        s' = { s with delegations := (setOrErase s.delegations dst n₁).insert src n₂ } := by
  simp only [unrecord, run_bind_ok, run_subDelegation_ok, run_addDelegation_ok]
  constructor
  · rintro ⟨_, _, ⟨hle, n₁, hn₁, rfl⟩, n₂, hn₂, rfl⟩
    exact ⟨hle, n₁, n₂, hn₁, hn₂, rfl⟩
  · rintro ⟨hle, n₁, n₂, hn₁, hn₂, rfl⟩
    exact ⟨(), _, ⟨hle, n₁, hn₁, rfl⟩, n₂, hn₂, rfl⟩

end Operations

/-! ## Recording and reversing any operation -/

section Facts

variable {m : HostMsg}

/-- Recording commits exactly when the operation fits the view. -/
theorem record_commits_iff : (∃ s₁, (record m f).run s = .ok ((), s₁)) ↔ Fits s f m := by
  cases m with
  | delegate v a =>
    simp only [run_record_delegate_ok, Fits]
    constructor
    · rintro ⟨_, hle, p, n, -, hn, rfl⟩
      exact ⟨hle, hn ▸ n.lt_bound⟩
    · rintro ⟨hle, hlt⟩
      have hF := (fundingOf s f).lt_bound
      obtain ⟨p, hp⟩ := exists_amount (k := (fundingOf s f).toNat - a.toNat) (by omega)
      obtain ⟨n, hn⟩ := exists_amount hlt
      exact ⟨_, hle, p, n, hp, hn, rfl⟩
  | undelegate v a =>
    simp only [record, run_subDelegation_ok, Fits]
    constructor
    · rintro ⟨_, hle, -⟩
      exact hle
    · intro hle
      have hR := recorded_lt_bound s.delegations v
      obtain ⟨n, hn⟩ := exists_amount (k := recorded s.delegations v - a.toNat) (by omega)
      exact ⟨_, hle, n, hn, rfl⟩
  | redelegate src dst a =>
    simp only [run_record_redelegate_ok, Fits]
    constructor
    · rintro ⟨_, hle, n₁, n₂, -, hn₂, rfl⟩
      refine ⟨hle, fun hne => ?_⟩
      rw [recorded_setOrErase, if_neg hne] at hn₂
      exact hn₂ ▸ n₂.lt_bound
    · rintro ⟨hle, hlt⟩
      have hR := recorded_lt_bound s.delegations src
      obtain ⟨n₁, hn₁⟩ := exists_amount (k := recorded s.delegations src - a.toNat) (by omega)
      -- the destination can take the amount: a source that is its own destination gave it first
      have hlt₂ : recorded (setOrErase s.delegations src n₁) dst + a.toNat < Amount.bound := by
        rw [recorded_setOrErase]
        split
        · omega
        · exact hlt ‹_›
      obtain ⟨n₂, hn₂⟩ := exists_amount hlt₂
      exact ⟨_, hle, n₁, n₂, hn₁, hn₂, rfl⟩
  | withdrawRewards _ | setWithdrawAddress _ | sendToDelegator _ | transferToController _ =>
    exact ⟨fun _ => trivial, fun _ => ⟨s, rfl⟩⟩

/-- Recording an operation of positive amount keeps the delegations free of zero entries and
writes only the view. -/
theorem record_clean (hz : NoZeroEntry s.delegations) (hm : m.Positive)
    (h : (record m f).run s = .ok ((), s')) : NoZeroEntry s'.delegations ∧ ViewOnly s s' := by
  cases m with
  | delegate v a =>
    obtain ⟨-, p, n, -, hn, rfl⟩ := run_record_delegate_ok.mp h
    have ha : 0 < a.toNat := hm
    exact ⟨hz.insert (by omega), ViewOnly.setFunding.trans ViewOnly.delegations⟩
  | undelegate v a =>
    obtain ⟨-, n, -, rfl⟩ := run_subDelegation_ok.mp h
    exact ⟨hz.setOrErase, ViewOnly.delegations⟩
  | redelegate src dst a =>
    obtain ⟨-, n₁, n₂, -, hn₂, rfl⟩ := run_record_redelegate_ok.mp h
    have ha : 0 < a.toNat := hm
    exact ⟨hz.setOrErase.insert (by omega), ViewOnly.delegations⟩
  | withdrawRewards _ | setWithdrawAddress _ | sendToDelegator _ | transferToController _ =>
    obtain ⟨-, rfl⟩ := run_pure_ok.mp h
    exact ⟨hz, ViewOnly.refl⟩

/-- Reversing an operation of positive amount keeps the delegations free of zero entries and
writes only the view. -/
theorem unrecord_clean (hz : NoZeroEntry s.delegations) (hm : m.Positive)
    (h : (unrecord m f).run s = .ok ((), s')) : NoZeroEntry s'.delegations ∧ ViewOnly s s' := by
  cases m with
  | delegate v a =>
    obtain ⟨-, n, p, -, -, rfl⟩ := run_unrecord_delegate_ok.mp h
    exact ⟨hz.setOrErase, ViewOnly.setFunding.trans ViewOnly.delegations⟩
  | undelegate v a =>
    obtain ⟨n, hn, rfl⟩ := run_addDelegation_ok.mp h
    have ha : 0 < a.toNat := hm
    exact ⟨hz.insert (by omega), ViewOnly.delegations⟩
  | redelegate src dst a =>
    obtain ⟨-, n₁, n₂, -, hn₂, rfl⟩ := run_unrecord_redelegate_ok.mp h
    have ha : 0 < a.toNat := hm
    exact ⟨hz.setOrErase.insert (by omega), ViewOnly.delegations⟩
  | withdrawRewards _ | setWithdrawAddress _ | sendToDelegator _ | transferToController _ =>
    obtain ⟨-, rfl⟩ := run_pure_ok.mp h
    exact ⟨hz, ViewOnly.refl⟩

/-- Reversing a recorded operation of positive amount commits; it gives back the delegations
as a map, and every other item as it was before the operation was recorded. -/
theorem unrecord_after_record (hz : NoZeroEntry s.delegations) (hm : m.Positive)
    (h : (record m f).run s = .ok ((), s')) :
    ∃ s₂, (unrecord m f).run s' = .ok ((), s₂) ∧ s₂.delegations.get? = s.delegations.get? ∧
      s₂ = { s with delegations := s₂.delegations } := by
  cases m with
  | delegate v a =>
    obtain ⟨hle, p, n, hp, hn, rfl⟩ := run_record_delegate_ok.mp h
    have ha : 0 < a.toNat := hm
    -- the validator gets back what it recorded, the funding source what it held
    obtain ⟨n', hn'⟩ := exists_amount (recorded_lt_bound s.delegations v)
    refine ⟨{ s with delegations := setOrErase (s.delegations.insert v n) v n' }, ?_, ?_, rfl⟩
    · refine run_unrecord_delegate_ok.mpr ⟨?_, n', fundingOf s f, ?_, ?_, ?_⟩
      · simp [recorded_insert]
        omega
      · simp [recorded_insert]
        omega
      · simp
        omega
      · rw [setFunding_with_delegations, setFunding_setFunding, setFunding_fundingOf]
    · refine (hz.insert (by omega)).setOrErase.get?_eq hz fun w => ?_
      rw [recorded_setOrErase, recorded_insert]
      by_cases hvw : v = w
      · subst hvw
        simp [hn']
      · simp [hvw]
  | undelegate v a =>
    obtain ⟨hle, n, hn, rfl⟩ := run_subDelegation_ok.mp h
    have ha : 0 < a.toNat := hm
    obtain ⟨n', hn'⟩ := exists_amount (recorded_lt_bound s.delegations v)
    refine ⟨{ s with delegations := (setOrErase s.delegations v n).insert v n' }, ?_, ?_, rfl⟩
    · refine run_addDelegation_ok.mpr ⟨n', ?_, rfl⟩
      simp [recorded_setOrErase]
      omega
    · refine (hz.setOrErase.insert (by omega)).get?_eq hz fun w => ?_
      rw [recorded_insert, recorded_setOrErase]
      by_cases hvw : v = w
      · subst hvw
        simp [hn']
      · simp [hvw]
  | redelegate src dst a =>
    obtain ⟨hle, n₁, n₂, hn₁, hn₂, rfl⟩ := run_record_redelegate_ok.mp h
    have ha : 0 < a.toNat := hm
    -- the destination drops back to what it held once the source had given the amount, and
    -- the source then gets back what it held before
    obtain ⟨n₃, hn₃⟩ := exists_amount (recorded_lt_bound (setOrErase s.delegations src n₁) dst)
    obtain ⟨n₄, hn₄⟩ := exists_amount (recorded_lt_bound s.delegations src)
    refine ⟨{ s with delegations :=
      (setOrErase ((setOrErase s.delegations src n₁).insert dst n₂) dst n₃).insert src n₄ },
      ?_, ?_, rfl⟩
    · refine run_unrecord_redelegate_ok.mpr ⟨?_, n₃, n₄, ?_, ?_, rfl⟩
      · simp [recorded_insert]
        omega
      · simp [recorded_insert]
        omega
      · simp only [recorded_setOrErase, recorded_insert] at hn₂ hn₃ ⊢
        by_cases hsd : src = dst
        · subst hsd
          simp at hn₂ hn₃ ⊢
          omega
        · simp [hsd, Ne.symm hsd] at hn₂ hn₃ ⊢
          omega
    · refine ((hz.setOrErase.insert (by omega)).setOrErase.insert (by omega)).get?_eq hz
        fun w => ?_
      simp only [recorded_setOrErase, recorded_insert] at hn₂ hn₃ ⊢
      by_cases hsw : src = w
      · subst hsw
        simp [hn₄]
      · by_cases hdw : dst = w
        · subst hdw
          simp [hsw] at hn₂ hn₃ ⊢
          omega
        · simp [hsw, hdw]
  | withdrawRewards _ | setWithdrawAddress _ | sendToDelegator _ | transferToController _ =>
    obtain ⟨-, rfl⟩ := run_pure_ok.mp h
    exact ⟨s, rfl, rfl, rfl⟩

/-- An operation that moves no delegation is recorded and reversed as nothing. -/
theorem record_inert (hmv : m.movesDelegation = false) :
    (record m f).run s = .ok ((), s) ∧ (unrecord m f).run s = .ok ((), s) := by
  cases m with
  | delegate | undelegate | redelegate => cases hmv
  | withdrawRewards _ | setWithdrawAddress _ | sendToDelegator _ | transferToController _ =>
    exact ⟨rfl, rfl⟩

theorem record_sorted (hs : s.delegations.Sorted) (h : (record m f).run s = .ok ((), s')) :
    s'.delegations.Sorted := by
  cases m with
  | delegate v a =>
    obtain ⟨-, p, n, -, -, rfl⟩ := run_record_delegate_ok.mp h
    exact hs.insert v n
  | undelegate v a =>
    obtain ⟨-, n, -, rfl⟩ := run_subDelegation_ok.mp h
    exact sorted_setOrErase hs
  | redelegate src dst a =>
    obtain ⟨-, n₁, n₂, -, -, rfl⟩ := run_record_redelegate_ok.mp h
    exact (sorted_setOrErase hs).insert dst n₂
  | withdrawRewards _ | setWithdrawAddress _ | sendToDelegator _ | transferToController _ =>
    obtain ⟨-, rfl⟩ := run_pure_ok.mp h
    exact hs

/-- On a sorted delegation table, reversing a recorded operation of positive amount gives
back the very state it was recorded in. -/
theorem unrecord_record_eq (hs : s.delegations.Sorted) (hz : NoZeroEntry s.delegations)
    (hm : m.Positive) (h : (record m f).run s = .ok ((), s')) :
    (unrecord m f).run s' = .ok ((), s) := by
  obtain ⟨s₂, hrun, hget, heq⟩ := unrecord_after_record hz hm h
  have hs₂ : s₂.delegations.Sorted := Triple.run_ok unrecord_sorted (record_sorted hs h) hrun
  rw [hrun, heq, hs₂.ext hs hget]

end Facts

/-- Recording and reversing an operation are inverse on the recorded view. On a view with no
zero delegation, for an operation whose amount is positive and either funding source:
recording commits exactly when the operation fits the view; reversing a recorded operation
commits and gives back the delegations as a map and every other item; neither leaves a zero
delegation or writes outside the view; and an operation that moves no delegation is nothing
to either. -/
theorem unrecord_reverses_record {s : State} {m : HostMsg} (f : Funding)
    (hz : NoZeroEntry s.delegations) (hm : m.Positive) : Reversible s m f where
  record_iff := record_commits_iff
  unrecord_record _ h := unrecord_after_record hz hm h
  record_clean _ h := record_clean hz hm h
  unrecord_clean _ h := unrecord_clean hz hm h
  inert := record_inert

/-- A redelegation of everything its source holds: recording drops the source's entry and
reversing has to create it again. -/
theorem unrecord_reverses_record_drained :
    NoZeroEntry (Table.mk [("a", ⟨200, by decide⟩)]) ∧
      (HostMsg.redelegate "a" "b" ⟨200, by decide⟩).Positive ∧
      Reversible { State.empty with
          delegations := ⟨[("a", ⟨200, by decide⟩)]⟩, pendingDeposits := ⟨1000, by decide⟩ }
        (.redelegate "a" "b" ⟨200, by decide⟩) .pending :=
  ⟨by decide, by decide, unrecord_reverses_record .pending (by decide) (by decide)⟩

end Recording

end LiquidStaking
