import LiquidStaking.Tx

/-! # Committed transactions

A transaction that commits is a chain of steps each of which committed. These lemmas take a
committed run apart: one lemma for binding, and one for each primitive of `Tx` saying when it
commits and which state it leaves. Lemmas about the module's own functions are built from
them and never unfold a primitive again.
-/
namespace LiquidStaking.Tx

variable {α β : Type} {s s' s'' : State}

@[simp] theorem except_pure_eq_ok {ε : Type} {a b : α} : (pure a : Except ε α) = .ok b ↔ a = b := by
  show Except.ok a = Except.ok b ↔ a = b
  simp

@[simp] theorem ok_eq_except_pure {ε : Type} {a b : α} : (.ok b : Except ε α) = pure a ↔ b = a := by
  show Except.ok b = Except.ok a ↔ b = a
  simp

theorem run_bind_ok {x : Tx α} {f : α → Tx β} {b : β} :
    (x >>= f).run s = .ok (b,s'') ↔ ∃ a s', x.run s = .ok (a,s') ∧ (f a).run s' = .ok (b,s'') := by
  simp only [StateT.run_bind]
  cases x.run s with
  | error e => simp [bind, Except.bind]
  | ok p =>
    obtain ⟨a,s'⟩ := p
    simp only [bind, Except.bind]
    constructor
    · intro h
      exact ⟨a, s', rfl, h⟩
    · rintro ⟨a', s1, h1, h2⟩
      cases h1
      exact h2

@[simp] theorem run_pure_ok {a b : α} : (pure a : Tx α).run s = .ok (b,s') ↔ a = b ∧ s = s' := by
  simp [StateT.run_pure]

@[simp] theorem run_get_bind {f : State → Tx α} : (get >>= f).run s = (f s).run s := rfl

@[simp] theorem run_modify_bind {g : State → State} {f : PUnit → Tx α} :
    (modify g >>= f).run s = (f PUnit.unit).run (g s) := rfl

@[simp] theorem run_modifyGet_bind {g : State → β × State} {f : β → Tx α} :
    (modifyGet g >>= f).run s = (f (g s).1).run (g s).2 := rfl

@[simp] theorem run_get_ok {t : State} : (get : Tx State).run s = .ok (t,s') ↔ s = t ∧ s = s' := by
  simp [pure, Except.pure]

@[simp] theorem run_modify_ok {f : State → State} {u : PUnit} :
    (modify f : Tx PUnit).run s = .ok (u,s') ↔ f s = s' := by
  simp [pure, Except.pure]

@[simp] theorem run_modifyGet_ok {f : State → α × State} {a : α} :
    (modifyGet f : Tx α).run s = .ok (a,s') ↔ (f s).1 = a ∧ (f s).2 = s' := by
  simp [pure, Except.pure, Prod.ext_iff]

@[simp] theorem run_throw_ok {e : Failure} {p : α × State} : (throw e : Tx α).run s ≠ .ok p := by
  simp [throw, throwThe, MonadExceptOf.throw, bind, Except.bind]

@[simp] theorem run_reject_ok {e : Error} {p : α × State} : (reject e : Tx α).run s ≠ .ok p :=
  run_throw_ok

@[simp] theorem run_abort_ok {a : Abort} {p : α × State} : (abort a : Tx α).run s ≠ .ok p :=
  run_throw_ok

/-- A guard that rejects commits exactly when its condition fails, and changes nothing. -/
@[simp] theorem run_guard_ok {p : Prop} [Decidable p] {e : Error} {u : PUnit} :
    ((if p then reject e else pure PUnit.unit) : Tx PUnit).run s = .ok (u,s') ↔ ¬p ∧ s = s' := by
  by_cases h : p <;> simp [h]

@[simp] theorem run_ofAbort_ok {x : Except Abort α} {a : α} :
    (ofAbort x).run s = .ok (a,s') ↔ x = .ok a ∧ s = s' := by
  cases x <;> simp [ofAbort]

@[simp] theorem run_ofError_ok {x : Except Error α} {a : α} :
    (ofError x).run s = .ok (a,s') ↔ x = .ok a ∧ s = s' := by
  cases x <;> simp [ofError]

@[simp] theorem run_ofBase_ok {x : Except BaseError α} {a : α} :
    (ofBase x).run s = .ok (a,s') ↔ x = .ok a ∧ s = s' := by
  cases x <;> simp [ofBase]

@[simp] theorem run_read_ok {f : State → Except Failure α} {a : α} :
    (read f).run s = .ok (a,s') ↔ f s = .ok a ∧ s = s' := by
  unfold read
  simp only [run_bind_ok, run_get_ok]
  constructor
  · rintro ⟨_, _, ⟨rfl, rfl⟩, h⟩
    split at h
    · next a' hf =>
      obtain ⟨rfl, rfl⟩ := run_pure_ok.mp h
      exact ⟨hf, rfl⟩
    · cases h
  · rintro ⟨hf, rfl⟩
    exact ⟨s, s, ⟨rfl, rfl⟩, by simp [hf]⟩

@[simp] theorem run_add_ok {a b c : Amount} : (add a b).run s = .ok (c,s') ↔ a.add? b = some c ∧ s = s' := by
  unfold add; cases a.add? b <;> simp

@[simp] theorem run_sub_ok {a b c : Amount} : (sub a b).run s = .ok (c,s') ↔ a.sub? b = some c ∧ s = s' := by
  unfold sub; cases a.sub? b <;> simp

@[simp] theorem run_checkedAdd_ok {a b c : Amount} :
    (checkedAdd a b).run s = .ok (c,s') ↔ a.add? b = some c ∧ s = s' := by
  unfold checkedAdd; cases a.add? b <;> simp

@[simp] theorem run_checkedSub_ok {a b c : Amount} :
    (checkedSub a b).run s = .ok (c,s') ↔ a.sub? b = some c ∧ s = s' := by
  unfold checkedSub; cases a.sub? b <;> simp

@[simp] theorem run_config_ok {c : Config} : Tx.config.run s = .ok (c,s') ↔ s.config = some c ∧ s = s' := by
  unfold Tx.config
  simp only [run_bind_ok, run_get_ok]
  constructor
  · rintro ⟨_, _, ⟨rfl, rfl⟩, h⟩
    split at h <;> simp_all
  · rintro ⟨hc, rfl⟩
    exact ⟨s, s, ⟨rfl, rfl⟩, by simp [hc]⟩

@[simp] theorem run_ensureEnabled_ok {u : Unit} :
    ensureEnabled.run s = .ok (u,s') ↔ s.enabled.getD true = true ∧ s = s' := by
  unfold ensureEnabled
  simp only [run_bind_ok, run_get_ok]
  constructor
  · rintro ⟨_, _, ⟨rfl, rfl⟩, h⟩
    split at h <;> simp_all
  · rintro ⟨hc, rfl⟩
    exact ⟨s, s, ⟨rfl, rfl⟩, by simp [hc]⟩

@[simp] theorem run_registeredParams_ok {p : HostParams} :
    registeredParams.run s = .ok (p,s') ↔ s.params = some p ∧ p.hasMissingField = false ∧ s = s' := by
  unfold registeredParams
  simp only [run_bind_ok, run_get_ok]
  constructor
  · rintro ⟨_, _, ⟨rfl, rfl⟩, h⟩
    split at h
    · next q hq => split at h <;> simp_all
    · simp_all
  · rintro ⟨hp, hm, rfl⟩
    exact ⟨s, s, ⟨rfl, rfl⟩, by simp [hp, hm]⟩

@[simp] theorem run_operational_ok {p : HostParams} :
    operational.run s = .ok (p,s') ↔
      s.enabled.getD true = true ∧ s.params = some p ∧ p.hasMissingField = false ∧ s = s' := by
  unfold operational
  simp only [run_bind_ok, run_ensureEnabled_ok, run_registeredParams_ok]
  constructor
  · rintro ⟨_, _, ⟨he, rfl⟩, hp, hm, rfl⟩
    exact ⟨he, hp, hm, rfl⟩
  · rintro ⟨he, hp, hm, rfl⟩
    exact ⟨(), s, ⟨he, rfl⟩, hp, hm, rfl⟩

@[simp] theorem run_accounts_ok {a : HostAccounts} :
    Tx.accounts.run s = .ok (a,s') ↔ s.accounts = some a ∧ s = s' := by
  unfold Tx.accounts
  simp only [run_bind_ok, run_get_ok]
  constructor
  · rintro ⟨_, _, ⟨rfl, rfl⟩, h⟩
    split at h <;> simp_all
  · rintro ⟨hc, rfl⟩
    exact ⟨s, s, ⟨rfl, rfl⟩, by simp [hc]⟩

@[simp] theorem run_allowList_ok {l : List Target} :
    Tx.allowList.run s = .ok (l,s') ↔ s.allowList = some l ∧ s = s' := by
  unfold Tx.allowList
  simp only [run_bind_ok, run_get_ok]
  constructor
  · rintro ⟨_, _, ⟨rfl, rfl⟩, h⟩
    split at h <;> simp_all
  · rintro ⟨hc, rfl⟩
    exact ⟨s, s, ⟨rfl, rfl⟩, by simp [hc]⟩

@[simp] theorem run_validateAddress_ok {a b : String} :
    (validateAddress a).run s = .ok (b,s') ↔ Address.validate a = .ok b ∧ s = s' := by
  simp [validateAddress]

@[simp] theorem run_freshRecordId_ok {n : Nat} :
    freshRecordId.run s = .ok (n,s') ↔ n = s.lastRecordId + 1 ∧ s' = { s with lastRecordId := n } := by
  simp only [freshRecordId, run_modifyGet_ok]
  constructor
  · rintro ⟨rfl, rfl⟩; exact ⟨rfl, rfl⟩
  · rintro ⟨rfl, rfl⟩; exact ⟨rfl, rfl⟩

/-- Every committed run of the transaction leaves the view unchanged. -/
def Keeps {γ : Type} (v : State → γ) (x : Tx α) : Prop :=
  ∀ ⦃s : State⦄ ⦃a : α⦄ ⦃s' : State⦄, x.run s = .ok (a,s') → v s' = v s

namespace Keeps

variable {γ : Type} {v : State → γ}

theorem pure {a : α} : Keeps v (Pure.pure a : Tx α) := by
  intro s b s' h
  rw [(run_pure_ok.mp h).2]

theorem bind {x : Tx α} {f : α → Tx β} (hx : Keeps v x) (hf : ∀ a, Keeps v (f a)) :
    Keeps v (x >>= f) := by
  intro s b s'' h
  obtain ⟨a, s', h1, h2⟩ := run_bind_ok.mp h
  rw [hf a h2, hx h1]

theorem map {x : Tx α} {g : α → β} (hx : Keeps v x) : Keeps v (g <$> x) := by
  rw [map_eq_pure_bind]
  exact hx.bind fun _ => pure

theorem get : Keeps v (MonadState.get : Tx State) := by
  intro s t s' h
  rw [(run_get_ok.mp h).2]

theorem modify {f : State → State} (hf : ∀ s, v (f s) = v s) : Keeps v (modify f : Tx PUnit) := by
  intro s u s' h
  rw [← run_modify_ok.mp h, hf]

theorem modifyGet {f : State → α × State} (hf : ∀ s, v (f s).2 = v s) :
    Keeps v (modifyGet f : Tx α) := by
  intro s a s' h
  rw [← (run_modifyGet_ok.mp h).2, hf]

theorem throw {e : Failure} : Keeps v (MonadExcept.throw e : Tx α) :=
  fun _ _ _ h => absurd h run_throw_ok

/-- A computation that only reads the state keeps every view. -/
theorem of_readOnly {x : Tx α} (hx : ∀ ⦃s a s'⦄, x.run s = .ok (a,s') → s = s') : Keeps v x :=
  fun _ _ _ h => by rw [hx h]

theorem forIn {xs : List β} {init : α} {f : β → α → Tx (ForInStep α)}
    (hf : ∀ x b, Keeps v (f x b)) : Keeps v (ForIn.forIn xs init f) := by
  induction xs generalizing init with
  | nil => exact pure
  | cons x xs ih =>
    rw [List.forIn_cons]
    refine (hf x init).bind fun r => ?_
    cases r with
    | done b => exact pure
    | yield b => exact ih

theorem mapM {xs : List β} {f : β → Tx α} (hf : ∀ x, Keeps v (f x)) : Keeps v (xs.mapM f) := by
  induction xs with
  | nil => exact pure
  | cons x xs ih =>
    rw [List.mapM_cons]
    exact (hf x).bind fun _ => ih.bind fun _ => pure

end Keeps

end LiquidStaking.Tx
