import LiquidStaking.State
import LiquidStaking.Error
import LiquidStaking.Address

/-! # Transactions

A transaction runs against the module state and either commits a new state or fails; a
failure leaves nothing behind. Arithmetic comes in two flavours that fail differently:
plain arithmetic aborts the transaction when it leaves the range, checked arithmetic
rejects it with an overflow error naming the operation and its operands.
-/
namespace LiquidStaking

/-- A computation that reads and writes the module state and may fail. -/
abbrev Tx := StateT State (Except Failure)

namespace Tx

/-- Rejects the transaction. -/
def reject {α : Type} (e : Error) : Tx α := throw (.reject e)

/-- Aborts the transaction. -/
def abort {α : Type} (a : Abort) : Tx α := throw (.abort a)

/-- A value, or the abort. -/
def ofAbort {α : Type} : Except Abort α → Tx α
  | .ok a => pure a
  | .error a => abort a

/-- A value, or the rejection. -/
def ofError {α : Type} : Except Error α → Tx α
  | .ok a => pure a
  | .error e => reject e

/-- A value, or the rejection with a base error. -/
def ofBase {α : Type} : Except BaseError α → Tx α
  | .ok a => pure a
  | .error e => reject (.base e)

/-- A value computed from the state, or its failure. -/
def read {α : Type} (f : State → Except Failure α) : Tx α := do
  match f (← get) with
  | .ok a => pure a
  | .error e => throw e

/-- The sum; aborts on overflow. -/
def add (a b : Amount) : Tx Amount :=
  match a.add? b with
  | some c => pure c
  | none => abort .addOverflow

/-- The difference; aborts below zero. -/
def sub (a b : Amount) : Tx Amount :=
  match a.sub? b with
  | some c => pure c
  | none => abort .subOverflow

/-- The sum; rejects with an overflow error. -/
def checkedAdd (a b : Amount) : Tx Amount :=
  match a.add? b with
  | some c => pure c
  | none => reject (.base (.overflow .add a.toNat b.toNat))

/-- The difference; rejects with an overflow error. -/
def checkedSub (a b : Amount) : Tx Amount :=
  match a.sub? b with
  | some c => pure c
  | none => reject (.base (.overflow .sub a.toNat b.toNat))

/-- The configuration; missing before the module is created. -/
def config : Tx Config := do
  match (← get).config with
  | some c => pure c
  | none => reject (.base (.notFound none))

/-- Refuses a disabled module; a module never switched counts as enabled. -/
def ensureEnabled : Tx Unit := do
  if (← get).enabled.getD true then pure () else reject .moduleDisabled

/-- The registered host chain parameters. -/
def registeredParams : Tx HostParams := do
  match (← get).params with
  | some p => if p.hasMissingField then reject .hostChainNotRegistered else pure p
  | none => reject .hostChainNotRegistered

/-- The registered parameters of an enabled module. -/
def operational : Tx HostParams := do
  ensureEnabled
  registeredParams

/-- The host accounts; missing before registration on the interchain ledger. -/
def accounts : Tx HostAccounts := do
  match (← get).accounts with
  | some a => pure a
  | none => reject (.base (.notFound none))

/-- The allow list; missing before registration. -/
def allowList : Tx (List Target) := do
  match (← get).allowList with
  | some l => pure l
  | none => reject (.base (.notFound none))

/-- An address checked by the chain's rules. -/
def validateAddress (s : String) : Tx String := ofBase (Address.validate s)

/-- A fresh unbonding record id. -/
def freshRecordId : Tx Nat :=
  modifyGet fun s => (s.lastRecordId + 1, { s with lastRecordId := s.lastRecordId + 1 })

/-- A fresh reply id. -/
def freshReplyId : Tx Nat :=
  modifyGet fun s => (s.lastReplyId + 1, { s with lastReplyId := s.lastReplyId + 1 })

end Tx

end LiquidStaking
