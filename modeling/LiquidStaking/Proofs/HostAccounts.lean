import LiquidStaking.Transport
import LiquidStaking.Proofs.Table

/-! # Host accounts and the outbound store

On the interchain ledger each host account has at most one outstanding instruction, kept in
the outbound store under the account's owner id and the instruction's sequence number.
`HostAccounts.Consistent` says that the accounts and the store agree: an account's entries in
the store are exactly its outstanding instruction, whose number is below the account's next
one; an account with an instruction outstanding is registered or active; a registered
delegator's instruction is its setup; the rewards account is never registered and only
carries restakes.

Each move of the protocol keeps the agreement: queuing an instruction (`Queued`), settling
it, suspending an account, restarting a handshake (`Restarted`). `Advance` says how the
accounts and the store move forward: owners stay, sequence numbers never go back, and the
store is written only at numbers an account has just moved past.
-/
namespace LiquidStaking

/-- An account may take an instruction when nothing is outstanding and its status allows the
kind: a setup needs a registered or active account, every other kind an active one. -/
theorem Transport.ensureCanSend_eq_ok {a : HostAccount} {k : InstructionKind} :
    Transport.ensureCanSend a k = .ok () ↔ a.pending = none ∧
      (a.status = .active ∨ (k = .setup ∧ a.status = .registered)) := by
  unfold Transport.ensureCanSend
  cases hp : a.pending with
  | some q => simp
  | none =>
    cases k <;> cases hs : a.status <;> simp

namespace HostAccounts

variable {A : HostAccounts} {r r' : AccountRole} {a b : HostAccount}

@[simp] theorem get_set_self : (A.set r a).get r = a := by
  cases r <;> rfl

theorem get_set_of_ne (h : r' ≠ r) : (A.set r a).get r' = A.get r' := by
  cases r <;> cases r' <;> first | rfl | exact absurd rfl h

@[simp] theorem set_set : (A.set r a).set r b = A.set r b := by
  cases r <;> rfl

@[simp] theorem set_delegator : A.set .delegator a = { A with delegator := a } := rfl

@[simp] theorem set_rewards : A.set .rewards a = { A with rewards := a } := rfl

@[simp] theorem get_delegator : A.get .delegator = A.delegator := rfl

@[simp] theorem get_rewards : A.get .rewards = A.rewards := rfl

theorem role_eq_or_ne (r r' : AccountRole) : r' = r ∨ r' ≠ r := by
  cases r <;> cases r' <;> simp

/-- The accounts agree with the outbound store. -/
structure Consistent (A : HostAccounts) (out : Table (String × Nat) Instruction) : Prop where
  distinct : A.delegator.ownerId ≠ A.rewards.ownerId
  stored : ∀ r q, (out.get? ((A.get r).ownerId, q)).isSome ↔ (A.get r).pending = some q
  below : ∀ r q, (A.get r).pending = some q → q < (A.get r).nextSequence
  busy : ∀ r q, (A.get r).pending = some q →
    (A.get r).status = .registered ∨ (A.get r).status = .active
  setup : ∀ q, A.delegator.status = .registered → A.delegator.pending = some q →
    ∃ i, out.get? (A.delegator.ownerId, q) = some i ∧ i.kind = .setup
  rewardsNotRegistered : A.rewards.status ≠ .registered
  restake : ∀ q i, out.get? (A.rewards.ownerId, q) = some i → ∃ x, i.kind = .restake x

namespace Consistent

variable {out : Table (String × Nat) Instruction} {i : Instruction}

theorem ownerId_ne (h : A.Consistent out) (hr : r' ≠ r) : (A.get r').ownerId ≠ (A.get r).ownerId := by
  cases r <;> cases r'
  · exact absurd rfl hr
  · exact fun e => h.distinct e.symm
  · exact h.distinct
  · exact absurd rfl hr

/-- An account that is neither registered nor active has nothing outstanding. -/
theorem pending_eq_none (h : A.Consistent out) (hs : (A.get r).status ≠ .registered)
    (ha : (A.get r).status ≠ .active) : (A.get r).pending = none := by
  cases hp : (A.get r).pending with
  | none => rfl
  | some q => exact ((h.busy r q hp).elim hs ha).elim

/-- Queuing an instruction on an account that may take it: the instruction is stored under
the account's next number, which the account moves past. -/
theorem enqueue (h : A.Consistent out) (hcan : Transport.ensureCanSend (A.get r) i.kind = .ok ())
    (hkind : r = .rewards → ∃ x, i.kind = .restake x) :
    (A.set r { A.get r with
        nextSequence := (A.get r).nextSequence + 1, pending := some (A.get r).nextSequence }).Consistent
      (out.insert ((A.get r).ownerId, (A.get r).nextSequence) i) := by
  obtain ⟨hfree, hallowed⟩ := Transport.ensureCanSend_eq_ok.mp hcan
  set a' : HostAccount := { A.get r with
    nextSequence := (A.get r).nextSequence + 1, pending := some (A.get r).nextSequence }
  have hown : ∀ r', ((A.set r a').get r').ownerId = (A.get r').ownerId := by
    intro r'
    rcases role_eq_or_ne r r' with rfl | hr
    · simp [a']
    · rw [get_set_of_ne hr]
  have hget : ∀ r' q, (out.insert ((A.get r).ownerId, (A.get r).nextSequence) i).get?
      ((A.get r').ownerId, q) = if r' = r ∧ q = (A.get r).nextSequence then some i
        else out.get? ((A.get r').ownerId, q) := by
    intro r' q
    rw [Table.get?_insert]
    rcases role_eq_or_ne r r' with rfl | hr
    · by_cases hq : q = (A.get r').nextSequence <;> simp [hq, eq_comm]
    · simp [hr, Ne.symm (h.ownerId_ne hr)]
  refine ⟨?distinct, ?stored, ?below, ?busy, ?setup, ?rewardsNotRegistered, ?restake⟩
  case distinct =>
    have hd := hown .delegator
    have hw := hown .rewards
    simp only [get_delegator, get_rewards] at hd hw
    rw [hd, hw]
    exact h.distinct
  case stored =>
    intro r' q
    rw [hown, hget]
    rcases role_eq_or_ne r r' with rfl | hr
    · by_cases hq : q = (A.get r').nextSequence
      · simp [a', hq]
      · have hnone : out.get? ((A.get r').ownerId, q) = none := by
          cases hq' : out.get? ((A.get r').ownerId, q) with
          | none => rfl
          | some j =>
            have := (h.stored r' q).mp (by simp [hq'])
            rw [hfree] at this
            cases this
        simp [a', hq, hnone, Ne.symm hq]
    · simp [hr, get_set_of_ne hr, h.stored r' q]
  case below =>
    intro r' q hq
    rcases role_eq_or_ne r r' with rfl | hr
    · simp only [get_set_self, a', Option.some.injEq] at hq ⊢
      omega
    · rw [get_set_of_ne hr] at hq ⊢
      exact h.below r' q hq
  case busy =>
    intro r' q hq
    rcases role_eq_or_ne r r' with rfl | hr
    · simp only [get_set_self, a']
      rcases hallowed with ha | ⟨-, hr⟩
      · exact .inr ha
      · exact .inl hr
    · rw [get_set_of_ne hr] at hq ⊢
      exact h.busy r' q hq
  case setup =>
    intro q hreg hq
    have hd := hget .delegator q
    have hown' := hown .delegator
    simp only [get_delegator] at hd hown'
    rw [hown', hd]
    rcases role_eq_or_ne r .delegator with rfl | hr
    · simp only [set_delegator, a', get_delegator, Option.some.injEq] at hreg hq hallowed
      have hk : i.kind = .setup := by
        rcases hallowed with ha | ⟨hk, -⟩
        · rw [ha] at hreg; cases hreg
        · exact hk
      exact ⟨i, by simp [hq], hk⟩
    · have hr' : r = .rewards := by cases r <;> simp_all
      subst hr'
      simp only [set_rewards] at hreg hq
      simpa using h.setup q hreg hq
  case rewardsNotRegistered =>
    rcases role_eq_or_ne r .rewards with rfl | hr
    · simpa [a'] using h.rewardsNotRegistered
    · have hr' : r = .delegator := by cases r <;> simp_all
      subst hr'
      exact h.rewardsNotRegistered
  case restake =>
    intro q j hj
    have hw := hget .rewards q
    have hown' := hown .rewards
    simp only [get_rewards] at hw hown' hj
    rw [hown', hw] at hj
    split at hj
    · next hq =>
      cases hj
      exact hkind hq.1.symm
    · exact h.restake q j hj

/-- An account with nothing outstanding may take any form that keeps its owner and takes
nothing outstanding, unless it would make the rewards account registered. -/
theorem setIdle (h : A.Consistent out) (hpend : (A.get r).pending = none)
    (howner : a.ownerId = (A.get r).ownerId) (hfree : a.pending = none)
    (hst : r = .rewards → a.status ≠ .registered) : (A.set r a).Consistent out := by
  have hown : ∀ r', ((A.set r a).get r').ownerId = (A.get r').ownerId := by
    intro r'
    rcases role_eq_or_ne r r' with rfl | hr
    · simpa using howner
    · rw [get_set_of_ne hr]
  refine ⟨?distinct, ?stored, ?below, ?busy, ?setup, ?rewardsNotRegistered, ?restake⟩
  case distinct =>
    have hd := hown .delegator
    have hw := hown .rewards
    simp only [get_delegator, get_rewards] at hd hw
    rw [hd, hw]
    exact h.distinct
  case stored =>
    intro r' q
    rw [hown]
    rcases role_eq_or_ne r r' with rfl | hr
    · simp [hfree, h.stored r' q, hpend]
    · rw [get_set_of_ne hr]
      exact h.stored r' q
  case below =>
    intro r' q hq
    rcases role_eq_or_ne r r' with rfl | hr
    · simp [hfree] at hq
    · rw [get_set_of_ne hr] at hq ⊢
      exact h.below r' q hq
  case busy =>
    intro r' q hq
    rcases role_eq_or_ne r r' with rfl | hr
    · simp [hfree] at hq
    · rw [get_set_of_ne hr] at hq ⊢
      exact h.busy r' q hq
  case setup =>
    intro q hreg hq
    cases r with
    | delegator => simp [hfree] at hq
    | rewards => simpa using h.setup q hreg hq
  case rewardsNotRegistered =>
    cases r with
    | delegator => exact h.rewardsNotRegistered
    | rewards => simpa using hst rfl
  case restake =>
    intro q j hj
    have hw := hown .rewards
    simp only [get_rewards] at hw
    rw [hw] at hj
    exact h.restake q j hj

/-- Settling an account's outstanding instruction takes it out of the store. -/
theorem settle (h : A.Consistent out) {q : Nat} (hq : (A.get r).pending = some q) :
    (A.set r { A.get r with pending := none }).Consistent (out.erase ((A.get r).ownerId, q)) := by
  have hown : ∀ r', ((A.set r { A.get r with pending := none }).get r').ownerId =
      (A.get r').ownerId := by
    intro r'
    rcases role_eq_or_ne r r' with rfl | hr
    · simp
    · rw [get_set_of_ne hr]
  have hget : ∀ r' q', (out.erase ((A.get r).ownerId, q)).get? ((A.get r').ownerId, q') =
      if r' = r ∧ q' = q then none else out.get? ((A.get r').ownerId, q') := by
    intro r' q'
    rw [Table.get?_erase]
    rcases role_eq_or_ne r r' with rfl | hr
    · by_cases hq' : q' = q
      · simp [hq']
      · simp [hq', Ne.symm hq']
    · simp [hr, Ne.symm (h.ownerId_ne hr)]
  refine ⟨?distinct, ?stored, ?below, ?busy, ?setup, ?rewardsNotRegistered, ?restake⟩
  case distinct =>
    have hd := hown .delegator
    have hw := hown .rewards
    simp only [get_delegator, get_rewards] at hd hw
    rw [hd, hw]
    exact h.distinct
  case stored =>
    intro r' q'
    rw [hown, hget]
    rcases role_eq_or_ne r r' with rfl | hr
    · by_cases hq' : q' = q
      · simp [hq']
      · simp only [hq', and_false, if_false, get_set_self, reduceCtorEq, iff_false]
        rw [h.stored r' q', hq]
        simpa using Ne.symm hq'
    · simp [hr, get_set_of_ne hr, h.stored r' q']
  case below =>
    intro r' q' hq'
    rcases role_eq_or_ne r r' with rfl | hr
    · simp at hq'
    · rw [get_set_of_ne hr] at hq' ⊢
      exact h.below r' q' hq'
  case busy =>
    intro r' q' hq'
    rcases role_eq_or_ne r r' with rfl | hr
    · simp at hq'
    · rw [get_set_of_ne hr] at hq' ⊢
      exact h.busy r' q' hq'
  case setup =>
    intro q' hreg hq'
    cases r with
    | delegator => simp at hq'
    | rewards =>
      have hd := hget .delegator q'
      simp only [get_delegator, reduceCtorEq, false_and, if_false] at hd
      simp only [set_rewards] at hreg hq' ⊢
      rw [hd]
      exact h.setup q' hreg hq'
  case rewardsNotRegistered =>
    cases r with
    | delegator => exact h.rewardsNotRegistered
    | rewards => simpa using h.rewardsNotRegistered
  case restake =>
    intro q' j hj
    have hw := hown .rewards
    have hg := hget .rewards q'
    simp only [get_rewards] at hw hg
    rw [hw, hg] at hj
    split at hj
    · cases hj
    · exact h.restake q' j hj

/-- Fresh accounts with nothing outstanding agree with a store that holds nothing. -/
theorem fresh (hempty : ∀ k, out.get? k = none) (hdistinct : A.delegator.ownerId ≠ A.rewards.ownerId)
    (hd : A.delegator.pending = none) (hw : A.rewards.pending = none)
    (hwr : A.rewards.status ≠ .registered) : A.Consistent out := by
  refine ⟨hdistinct, ?stored, ?below, ?busy, ?setup, hwr, ?restake⟩
  case stored =>
    intro r q
    cases r <;> simp [hempty, hd, hw]
  case below =>
    intro r q hq
    cases r <;> simp [hd, hw] at hq
  case busy =>
    intro r q hq
    cases r <;> simp [hd, hw] at hq
  case setup =>
    intro q _ hq
    simp [hd] at hq
  case restake =>
    intro q j hj
    simp [hempty] at hj

end Consistent

/-- The accounts and the store move forward: owners stay, sequence numbers never go back,
and the store is written only at numbers an account has moved past. -/
structure Advance (A : HostAccounts) (out : Table (String × Nat) Instruction)
    (A' : HostAccounts) (out' : Table (String × Nat) Instruction) : Prop where
  owner : ∀ r, (A'.get r).ownerId = (A.get r).ownerId
  sequence : ∀ r, (A.get r).nextSequence ≤ (A'.get r).nextSequence
  fresh : ∀ k i, out'.get? k = some i → out.get? k ≠ some i →
    ∃ r, k.1 = (A.get r).ownerId ∧ (A.get r).nextSequence ≤ k.2 ∧ k.2 < (A'.get r).nextSequence

namespace Advance

variable {out out₁ out' : Table (String × Nat) Instruction} {A₁ A' : HostAccounts}

theorem refl : Advance A out A out :=
  ⟨fun _ => rfl, fun _ => Nat.le_refl _, fun _ _ h hne => absurd h hne⟩

theorem trans (h₁ : Advance A out A₁ out₁) (h₂ : Advance A₁ out₁ A' out') : Advance A out A' out' := by
  refine ⟨fun r => (h₂.owner r).trans (h₁.owner r), fun r => Nat.le_trans (h₁.sequence r) (h₂.sequence r), ?_⟩
  intro k i hk hne
  by_cases h₁k : out₁.get? k = some i
  · -- written by the first move, and the second only moved the numbers further
    obtain ⟨r, hown, hlo, hhi⟩ := h₁.fresh k i h₁k hne
    exact ⟨r, hown, hlo, Nat.lt_of_lt_of_le hhi (h₂.sequence r)⟩
  · obtain ⟨r, hown, hlo, hhi⟩ := h₂.fresh k i hk h₁k
    refine ⟨r, ?_, Nat.le_trans (h₁.sequence r) hlo, hhi⟩
    rw [hown, h₁.owner r]

/-- Queuing an instruction writes the store at the account's next number. -/
theorem enqueue {i : Instruction} :
    Advance A out (A.set r { A.get r with
        nextSequence := (A.get r).nextSequence + 1, pending := some (A.get r).nextSequence })
      (out.insert ((A.get r).ownerId, (A.get r).nextSequence) i) := by
  refine ⟨?owner, ?sequence, ?fresh⟩
  case owner =>
    intro r'
    rcases role_eq_or_ne r r' with rfl | hr
    · simp
    · rw [get_set_of_ne hr]
  case sequence =>
    intro r'
    rcases role_eq_or_ne r r' with rfl | hr
    · simp
    · simp [get_set_of_ne hr]
  case fresh =>
    intro k j hk hne
    rw [Table.get?_insert] at hk
    split at hk
    · next hkey =>
      subst hkey
      exact ⟨r, rfl, Nat.le_refl _, by simp⟩
    · exact absurd hk hne

/-- Changing accounts without moving their numbers, while the store only loses entries. -/
theorem retire (hown : ∀ r, (A'.get r).ownerId = (A.get r).ownerId)
    (hseq : ∀ r, (A'.get r).nextSequence = (A.get r).nextSequence)
    (hsub : ∀ k i, out'.get? k = some i → out.get? k = some i) : Advance A out A' out' :=
  ⟨hown, fun r => Nat.le_of_eq (hseq r).symm, fun k i hk hne => absurd (hsub k i hk) hne⟩

end Advance

/-- Replacing one account by one with the same owner and next number keeps both for every
role. -/
theorem set_same (howner : a.ownerId = (A.get r).ownerId)
    (hseq : a.nextSequence = (A.get r).nextSequence) :
    (∀ r', ((A.set r a).get r').ownerId = (A.get r').ownerId) ∧
      ∀ r', ((A.set r a).get r').nextSequence = (A.get r').nextSequence := by
  constructor
  all_goals
    intro r'
    rcases role_eq_or_ne r r' with rfl | hr
    · simpa
    · rw [get_set_of_ne hr]

theorem roleOf?_ownerId {o : String} (h : A.roleOf? o = some r) : (A.get r).ownerId = o := by
  unfold roleOf? at h
  split at h
  · next hd =>
    cases h
    simpa using hd
  · split at h
    · next hw =>
      cases h
      simpa using hw
    · cases h

end HostAccounts

/-- Starting a handshake keeps the account and only moves its status. -/
theorem Transport.startHandshake_eq_ok {a : HostAccount} {conn : String} {x : HostAccount × Event}
    (h : Transport.startHandshake a conn = .ok x) :
    x.1 = { a with status := .handshakeStarted } ∧ (a.status = .uninitialized ∨ a.status = .suspended) := by
  unfold Transport.startHandshake at h
  split at h
  · next hs =>
    cases h
    exact ⟨rfl, .inl hs⟩
  · next hs =>
    cases h
    exact ⟨rfl, .inr hs⟩
  · cases h

namespace HostAccounts

/-- The accounts and the store after queuing instructions, each on an account that may take
it, and on the rewards account only restakes. -/
inductive Queued : HostAccounts → Table (String × Nat) Instruction → HostAccounts →
    Table (String × Nat) Instruction → Prop
  | refl {A out} : Queued A out A out
  | enqueue {A out B out'} (r : AccountRole) {i : Instruction} {u : Unit} :
      Queued A out B out' → Transport.ensureCanSend (B.get r) i.kind = .ok u →
      (r = .rewards → ∃ x, i.kind = .restake x) →
      Queued A out (B.set r { B.get r with
          nextSequence := (B.get r).nextSequence + 1, pending := some (B.get r).nextSequence })
        (out'.insert ((B.get r).ownerId, (B.get r).nextSequence) i)

namespace Queued

variable {A B : HostAccounts} {out out' : Table (String × Nat) Instruction}

theorem consistent (hq : Queued A out B out') (h : A.Consistent out) : B.Consistent out' := by
  induction hq with
  | refl => exact h
  | enqueue r _ hcan hkind ih => exact ih.enqueue hcan hkind

theorem advance (hq : Queued A out B out') : Advance A out B out' := by
  induction hq with
  | refl => exact Advance.refl
  | enqueue r _ _ _ ih => exact ih.trans Advance.enqueue

theorem delegator_status (hq : Queued A out B out') : B.delegator.status = A.delegator.status := by
  induction hq with
  | refl => rfl
  | enqueue r _ _ _ ih => cases r <;> simpa using ih

end Queued

end HostAccounts

namespace HostAccounts

variable {A B : HostAccounts} {out : Table (String × Nat) Instruction} {r : AccountRole}

/-- Accounts reached from `A` by restarting handshakes: they agree with the store, keep the
owners and the numbers, and the delegator is active only if it was. -/
structure Restarted (A B : HostAccounts) (out : Table (String × Nat) Instruction) : Prop where
  consistent : B.Consistent out
  owner : ∀ r, (B.get r).ownerId = (A.get r).ownerId
  sequence : ∀ r, (B.get r).nextSequence = (A.get r).nextSequence
  active : B.delegator.status = .active → A.delegator.status = .active

theorem Restarted.refl (h : A.Consistent out) : Restarted A A out :=
  ⟨h, fun _ => rfl, fun _ => rfl, id⟩

/-- Restarting the handshake of a suspended account. -/
theorem Restarted.restart {conn : String} {x : HostAccount × Event} (h : Restarted A B out)
    (hx : Transport.startHandshake (B.get r) conn = .ok x) : Restarted A (B.set r x.1) out := by
  obtain ⟨hx1, hs⟩ := Transport.startHandshake_eq_ok hx
  have hpend : (B.get r).pending = none := by
    apply h.consistent.pending_eq_none <;> rcases hs with hs | hs <;> simp [hs]
  have hsame := set_same (A := B) (r := r) (a := x.1) (by simp [hx1]) (by simp [hx1])
  refine ⟨h.consistent.setIdle hpend (by simp [hx1]) (by simp [hx1, hpend]) (by simp [hx1]),
    fun r' => (hsame.1 r').trans (h.owner r'), fun r' => (hsame.2 r').trans (h.sequence r'), ?_⟩
  intro ha
  cases r
  · simp [hx1] at ha
  · exact h.active ha

end HostAccounts

end LiquidStaking
