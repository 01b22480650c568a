import Mathlib
import LiquidStaking.Session

/-! # Hoare triples over transactions

Properties of a whole entry point are proved as Hoare triples `⦃P⦄ x ⦃Q⦄` of `Std.Do`, and
`mvcgen` walks the transaction, its binds, branches and loops, down to verification
conditions about states. The small functions of the module are registered as specifications,
so `mvcgen` opens them where they are called.

Functions with loops are not opened but described by what they write (`Frames`). A list
mapped through a transaction is specified by an invariant, as the library specifies folds.

A triple over `Tx` says what every committed run does: `Triple.run_ok` reads it back as a
statement about `x.run`.
-/
set_option mvcgen.warning false

namespace LiquidStaking

open Std.Do Tx

/-- The postcondition shapes of transactions. -/
abbrev TxPost (α : Type) : Type := PostCond α (.arg State (.except Failure .pure))

/-- The weakest precondition of a transaction is its postcondition at the outcome of its
run. -/
theorem wp_tx_apply {α : Type} (x : Tx α) (Q : TxPost α) (s : State) :
    wp⟦x⟧ Q s = match x.run s with
      | .ok (a, s') => Q.1 a s'
      | .error e => Q.2.1 e := by
  simp only [wp, PredTrans.pushArg, PredTrans.apply, StateT.run]
  cases x s <;> rfl

/-- Failing is specified once, at the universe of transactions. -/
@[spec 2000] theorem throw_tx_spec {α : Type} {e : Failure} {Q : TxPost α} :
    ⦃fun _ => Q.2.1 e⦄ (MonadExceptOf.throw e : Tx α) ⦃Q⦄ := by
  intro s h
  exact h

/-- A triple read back on a committed run. -/
theorem Triple.run_ok {α : Type} {x : Tx α} {P : Assertion (.arg State (.except Failure .pure))}
    {Q : TxPost α} (h : ⦃P⦄ x ⦃Q⦄) {s s' : State} {a : α} (hs : (P s).down)
    (hr : x.run s = .ok (a, s')) : (Q.1 a s').down := by
  have hwp := h s hs
  rw [wp_tx_apply, hr] at hwp
  exact hwp

/-- A triple whose postcondition refuses every failure, read back as a committed run. -/
theorem Triple.run_exists {α : Type} {x : Tx α} {P : Assertion (.arg State (.except Failure .pure))}
    {Q : TxPost α} (h : ⦃P⦄ x ⦃Q⦄) (hq : ∀ e, ¬(Q.2.1 e).down) {s : State} (hs : (P s).down) :
    ∃ a s', x.run s = .ok (a, s') ∧ (Q.1 a s').down := by
  have hwp := h s hs
  rw [wp_tx_apply] at hwp
  cases hr : x.run s with
  | error e => rw [hr] at hwp; exact absurd hwp (hq e)
  | ok p => rw [hr] at hwp; exact ⟨p.1, p.2, rfl, hwp⟩

attribute [spec] Tx.reject Tx.abort Tx.ofError Tx.ofBase Tx.read Tx.add Tx.sub
  Tx.checkedAdd Tx.checkedSub Tx.config Tx.ensureEnabled Tx.registeredParams Tx.operational
  Tx.accounts Tx.allowList Tx.validateAddress Tx.freshRecordId Tx.freshReplyId

attribute [spec] Token.fail Token.ofBase Token.debit Token.credit Token.info Token.mint Token.burn
  Token.move Token.mintDerivative Token.burnDerivative Token.transferDerivative Token.transfer
  Token.send Token.increaseAllowance Token.decreaseAllowance Token.deductAllowance
  Token.transferFrom Token.sendFrom

attribute [spec] Recording.addDelegation Recording.subDelegation Recording.addFunding
  Recording.subFunding

/-- A value or its abort. Opening `ofAbort` instead would leave the kernel to unfold the
computation it matches on, which for block times multiplies by a billion. -/
@[spec] theorem ofAbort_spec {α : Type} {x : Except Abort α} {s₀ : State} :
    ⦃fun s => ⌜s = s₀⌝⦄ ofAbort x
    ⦃(fun a s => ⌜s = s₀ ∧ x = .ok a⌝, fun e => ⌜∃ a, x = .error a ∧ e = .abort a⌝, ())⦄ := by
  intro s hs
  cases x with
  | ok a => exact ⟨hs, rfl⟩
  | error e => exact ⟨e, rfl, rfl⟩

/-- A list mapped through a transaction, specified by an invariant over the cursor and the
results so far, as the library specifies folds. -/
@[spec] theorem mapM_list_spec {α β : Type} {xs : List α} {f : α → Tx β}
    (inv : Invariant xs (List β) (.arg State (.except Failure .pure)))
    (step : ∀ pref cur suff (h : xs = pref ++ cur :: suff) (acc : List β),
      ⦃inv.1 (⟨pref, cur :: suff, h.symm⟩, acc)⦄ f cur
      ⦃(fun b => inv.1 (⟨pref ++ [cur], suff, by simp [h]⟩, acc ++ [b]), inv.2)⦄) :
    ⦃inv.1 (⟨[], xs, rfl⟩, [])⦄ xs.mapM f ⦃(fun bs => inv.1 (⟨xs, [], by simp⟩, bs), inv.2)⦄ := by
  -- the library maps by a fold that conses each result, and reverses at the end
  rw [List.mapM_eq_reverse_foldlM_cons]
  mvcgen invariants
  | inv1 => (fun (c, acc) => inv.1 (c, acc.reverse), inv.2)
  case vc1.step pref cur suff h acc s hinv =>
    simpa only [List.reverse_cons] using step pref cur suff h acc.reverse s hinv

end LiquidStaking
