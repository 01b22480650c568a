import LiquidStaking.Token
import LiquidStaking.Recording
import LiquidStaking.Proofs.Run

/-! # The derivative ledger and the recorded delegations

When each ledger operation commits and what it leaves behind, and which fields it writes.
The derivative's operations write the token description, the balances and the allowances;
the recorded view writes the delegations and the two funding sources. A frame lemma takes
one hypothesis per written field, `Ignores v upd`, saying that the view `v` does not see an
overwrite of that field.
-/
namespace LiquidStaking

/-- An accepted address is accepted unchanged. -/
theorem Address.validate_eq {r t : String} (h : Address.validate r = .ok t) : t = r := by
  unfold Address.validate at h
  dsimp only at h
  split at h
  · cases h
  split at h
  · cases h
  cases hb : Address.readBack r with
  | error e => simp [hb, bind, Except.bind] at h
  | ok back =>
    simp only [hb, bind, Except.bind] at h
    split at h
    · cases h
    · cases h; rfl

/-- The view does not change when `upd` overwrites one part of the state. -/
def Ignores {γ δ : Type} (v : State → γ) (upd : δ → State → State) : Prop :=
  ∀ x s, v (upd x s) = v s

namespace Token

open Tx

variable {s s' : State} {u : Unit}

@[simp] theorem run_fail_ok {α : Type} {e : TokenError} {p : α × State} :
    (fail e : Tx α).run s ≠ .ok p :=
  run_reject_ok

@[simp] theorem run_ofBase_ok {α : Type} {x : Except BaseError α} {a : α} :
    (Token.ofBase x).run s = .ok (a,s') ↔ x = .ok a ∧ s = s' := by
  cases x <;> simp [Token.ofBase]

theorem run_debit_ok {h : String} {a : Amount} :
    (debit h a).run s = .ok (u,s') ↔
      ∃ b, (balanceOf s h).sub? a = some b ∧ s' = { s with balances := s.balances.insert h b } := by
  simp only [debit, run_get_bind]
  cases hb : (balanceOf s h).sub? a with
  | none => simp
  | some b =>
    simp only [run_modify_ok, exists_eq_left', Option.some.injEq]
    constructor
    · rintro rfl; rfl
    · rintro rfl; rfl

theorem run_credit_ok {h : String} {a : Amount} :
    (credit h a).run s = .ok (u,s') ↔
      ∃ b, (balanceOf s h).add? a = some b ∧ s' = { s with balances := s.balances.insert h b } := by
  simp only [credit, run_get_bind, run_bind_ok, run_add_ok, run_modify_ok]
  constructor
  · rintro ⟨b, _, ⟨hb, rfl⟩, rfl⟩
    exact ⟨b, hb, rfl⟩
  · rintro ⟨b, hb, rfl⟩
    exact ⟨b, s, ⟨hb, rfl⟩, rfl⟩

theorem run_info_ok {t : TokenInfo} : info.run s = .ok (t,s') ↔ s.token = some t ∧ s = s' := by
  simp only [info, run_get_bind]
  cases ht : s.token <;> simp

theorem run_mint_ok {r : String} {a : Amount} :
    (mint r a).run s = .ok (u,s') ↔ ∃ t supply b, s.token = some t ∧
      t.totalSupply.add? a = some supply ∧ Address.validate r = .ok r ∧
      (balanceOf s r).add? a = some b ∧ s' = { s with
        token := some { t with totalSupply := supply }, balances := s.balances.insert r b } := by
  simp only [mint, run_get_bind]
  cases ht : s.token with
  | none => simp
  | some t =>
    simp only [run_bind_ok, run_add_ok, run_modify_bind, run_ofBase_ok, run_credit_ok]
    constructor
    · rintro ⟨supply, _, ⟨hs, rfl⟩, rcpt, _, ⟨hv, rfl⟩, b, hb, rfl⟩
      obtain rfl := Address.validate_eq hv
      exact ⟨t, supply, b, rfl, hs, hv, hb, rfl⟩
    · rintro ⟨t', supply, b, ht', hs, hv, hb, rfl⟩
      cases ht'
      exact ⟨supply, s, ⟨hs, rfl⟩, r, _, ⟨hv, rfl⟩, b, hb, rfl⟩

theorem run_burn_ok {h : String} {a : Amount} :
    (burn h a).run s = .ok (u,s') ↔ ∃ b t supply, (balanceOf s h).sub? a = some b ∧
      s.token = some t ∧ t.totalSupply.sub? a = some supply ∧ s' = { s with
        balances := s.balances.insert h b, token := some { t with totalSupply := supply } } := by
  simp only [burn, run_bind_ok, run_debit_ok, run_info_ok]
  constructor
  · rintro ⟨_, _, ⟨b, hb, rfl⟩, t, _, ⟨ht, rfl⟩, hs⟩
    split at hs
    · next supply hsub => exact ⟨b, t, supply, hb, ht, hsub, (run_modify_ok.mp hs).symm⟩
    · simp at hs
  · rintro ⟨b, t, supply, hb, ht, hsub, rfl⟩
    refine ⟨(), _, ⟨b, hb, rfl⟩, t, _, ⟨ht, rfl⟩, ?_⟩
    simp [hsub]

theorem run_move_ok {sender r : String} {a : Amount} :
    (move sender r a).run s = .ok (u,s') ↔ ∃ b c, Address.validate r = .ok r ∧
      (balanceOf s sender).sub? a = some b ∧
      (balanceOf { s with balances := s.balances.insert sender b } r).add? a = some c ∧
      s' = { s with balances := (s.balances.insert sender b).insert r c } := by
  simp only [move, run_bind_ok, run_ofBase_ok, run_debit_ok, run_credit_ok]
  constructor
  · rintro ⟨rcpt, _, ⟨hv, rfl⟩, _, _, ⟨b, hb, rfl⟩, c, hc, rfl⟩
    obtain rfl := Address.validate_eq hv
    exact ⟨b, c, hv, hb, hc, rfl⟩
  · rintro ⟨b, c, hv, hb, hc, rfl⟩
    exact ⟨r, s, ⟨hv, rfl⟩, (), _, ⟨b, hb, rfl⟩, c, hc, rfl⟩

theorem run_mintDerivative_ok {r : String} {a : Amount} :
    (mintDerivative r a).run s = .ok (u,s') ↔
      (a.isZero = true ∧ s' = s) ∨ (a.isZero = false ∧ (mint r a).run s = .ok (u,s')) := by
  unfold mintDerivative
  cases a.isZero <;> simp [eq_comm]

theorem run_burnDerivative_ok {h : String} {a : Amount} :
    (burnDerivative h a).run s = .ok (u,s') ↔
      (a.isZero = true ∧ s' = s) ∨ (a.isZero = false ∧ (burn h a).run s = .ok (u,s')) := by
  unfold burnDerivative
  cases a.isZero <;> simp [eq_comm]

theorem run_transferDerivative_ok {sender r : String} {a : Amount} :
    (transferDerivative sender r a).run s = .ok (u,s') ↔
      (a.isZero = true ∧ s' = s) ∨ (a.isZero = false ∧ (move sender r a).run s = .ok (u,s')) := by
  unfold transferDerivative
  cases a.isZero <;> simp [eq_comm]

section Frames

variable {γ : Type} {v : State → γ}

theorem keeps_debit (hb : Ignores v fun b s => { s with balances := b }) {h : String} {a : Amount} :
    Keeps v (debit h a) := by
  intro s x s' hrun
  obtain ⟨b, -, rfl⟩ := run_debit_ok.mp hrun
  exact hb _ _

theorem keeps_credit (hb : Ignores v fun b s => { s with balances := b }) {h : String} {a : Amount} :
    Keeps v (credit h a) := by
  intro s x s' hrun
  obtain ⟨b, -, rfl⟩ := run_credit_ok.mp hrun
  exact hb _ _

theorem keeps_move (hb : Ignores v fun b s => { s with balances := b }) {sender r : String}
    {a : Amount} : Keeps v (move sender r a) := by
  intro s x s' hrun
  obtain ⟨b, c, -, -, -, rfl⟩ := run_move_ok.mp hrun
  exact hb _ _

theorem keeps_mint (ht : Ignores v fun t s => { s with token := t })
    (hb : Ignores v fun b s => { s with balances := b }) {r : String} {a : Amount} :
    Keeps v (mint r a) := by
  intro s x s' hrun
  obtain ⟨t, supply, b, -, -, -, -, rfl⟩ := run_mint_ok.mp hrun
  exact (ht (some { t with totalSupply := supply }) { s with balances := s.balances.insert r b }).trans
    (hb _ s)

theorem keeps_burn (ht : Ignores v fun t s => { s with token := t })
    (hb : Ignores v fun b s => { s with balances := b }) {h : String} {a : Amount} :
    Keeps v (burn h a) := by
  intro s x s' hrun
  obtain ⟨b, t, supply, -, -, -, rfl⟩ := run_burn_ok.mp hrun
  exact (ht (some { t with totalSupply := supply }) { s with balances := s.balances.insert h b }).trans
    (hb _ s)

theorem keeps_mintDerivative (ht : Ignores v fun t s => { s with token := t })
    (hb : Ignores v fun b s => { s with balances := b }) {r : String} {a : Amount} :
    Keeps v (mintDerivative r a) := by
  unfold mintDerivative
  split
  · exact Keeps.pure
  · exact keeps_mint ht hb

theorem keeps_burnDerivative (ht : Ignores v fun t s => { s with token := t })
    (hb : Ignores v fun b s => { s with balances := b }) {h : String} {a : Amount} :
    Keeps v (burnDerivative h a) := by
  unfold burnDerivative
  split
  · exact Keeps.pure
  · exact keeps_burn ht hb

theorem keeps_transferDerivative (hb : Ignores v fun b s => { s with balances := b })
    {sender r : String} {a : Amount} : Keeps v (transferDerivative sender r a) := by
  unfold transferDerivative
  split
  · exact Keeps.pure
  · exact keeps_move hb

theorem keeps_transfer (hb : Ignores v fun b s => { s with balances := b }) {sender r : String}
    {a : Amount} : Keeps v (transfer sender r a) :=
  (keeps_move hb).bind fun _ => Keeps.pure

theorem keeps_send (hb : Ignores v fun b s => { s with balances := b }) {sender r : String}
    {a : Amount} {msg : List UInt8} : Keeps v (send sender r a msg) :=
  (keeps_move hb).bind fun _ => Keeps.pure

end Frames

end Token

end LiquidStaking
