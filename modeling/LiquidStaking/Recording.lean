import LiquidStaking.Tx

/-! # Recorded ledger effects

The module keeps its own view of its delegations. An operation's effect is recorded when
the operation is emitted and reversed when the ledger rejects it. A delegation draws on a
funding source, escrowed deposits or base idle on the host; an undelegation only lowers the
recorded delegation, its base being owed through an unbonding record; a redelegation moves
delegation between validators. A delegation that reaches zero is removed. Every step is
checked arithmetic, so an overdraft or overflow rejects the transaction.
-/
namespace LiquidStaking

/-- Where a delegation's base comes from. -/
inductive Funding
  /-- Deposits escrowed by the module. -/
  | pending
  /-- Base already on the host delegator account. -/
  | hostIdle
deriving DecidableEq, Inhabited

namespace Recording

open Tx

/-- The recorded delegation to a validator plus an amount. -/
def addDelegation (validator : String) (amount : Amount) : Tx Unit := do
  let current := (← get).delegations.getD validator Amount.zero
  let n ← checkedAdd current amount
  modify fun s => { s with delegations := s.delegations.insert validator n }

/-- The recorded delegation to a validator less an amount, removed at zero. -/
def subDelegation (validator : String) (amount : Amount) : Tx Unit := do
  let current := (← get).delegations.getD validator Amount.zero
  let n ← checkedSub current amount
  modify fun s => { s with
    delegations := if n.isZero then s.delegations.erase validator
      else s.delegations.insert validator n }

/-- The amount held by a funding source. -/
def fundingOf (s : State) : Funding → Amount
  | .pending => s.pendingDeposits
  | .hostIdle => s.hostIdle

/-- The state with a funding source set. -/
def setFunding (s : State) : Funding → Amount → State
  | .pending, a => { s with pendingDeposits := a }
  | .hostIdle, a => { s with hostIdle := a }

/-- A funding source plus an amount. -/
def addFunding (f : Funding) (amount : Amount) : Tx Unit := do
  let n ← checkedAdd (fundingOf (← get) f) amount
  modify (setFunding · f n)

/-- A funding source less an amount. -/
def subFunding (f : Funding) (amount : Amount) : Tx Unit := do
  let n ← checkedSub (fundingOf (← get) f) amount
  modify (setFunding · f n)

/-- Applies an operation's effect to the recorded view. -/
def record (m : HostMsg) (f : Funding) : Tx Unit :=
  match m with
  | .delegate v a => do subFunding f a; addDelegation v a
  | .undelegate v a => subDelegation v a
  | .redelegate src dst a => do subDelegation src a; addDelegation dst a
  | _ => pure ()

/-- Reverses an operation's effect on the recorded view. -/
def unrecord (m : HostMsg) (f : Funding) : Tx Unit :=
  match m with
  | .delegate v a => do subDelegation v a; addFunding f a
  | .undelegate v a => addDelegation v a
  | .redelegate src dst a => do subDelegation dst a; addDelegation src a
  | _ => pure ()

/-- Applies the effects of operations in order. -/
def recordAll (ms : List HostMsg) (f : Funding) : Tx Unit :=
  for m in ms do record m f

/-- Reverses the effects of operations, in the order they were emitted. -/
def unrecordAll (ms : List HostMsg) (f : Funding) : Tx Unit :=
  for m in ms do unrecord m f

end Recording

end LiquidStaking
