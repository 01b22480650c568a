import LiquidStaking.Apportion
import LiquidStaking.Target
import LiquidStaking.Table
import LiquidStaking.Abort

/-! # Rebalancing plans

Planning over recorded delegations and target weights; nothing here touches the module's
state. The desired amount of each allow-listed validator is its largest-remainder share of
a total by weight.

* A redelegation plan moves delegation from validators above their desired amount to those
  below it. Destinations are the validators short of their desired amount, in ascending
  address order; sources are the validators above it, those no longer allow-listed first,
  then in ascending address order. Each move takes the smaller of the source's surplus and
  the destination's deficit, until deficits are met or the plan holds its maximum number of
  moves. A source in cooldown is skipped and listed.
* A deposit is allocated over the shortfalls against the desired amounts of the portfolio
  including the deposit; with no shortfall it is split by weight. Zero parts are dropped.
* An undelegation is split in proportion to the current delegations, zero parts dropped.

Summing the current delegations aborts on overflow.
-/
namespace LiquidStaking.Rebalance

/-- The sum of the amounts of a list, aborting on overflow. -/
def total (current : List (String × Amount)) : Except Abort Amount :=
  match Amount.sum? (current.map Prod.snd) with
  | some t => .ok t
  | none => .error .addOverflow

/-- Each allow-listed validator's share of a total, by weight; a validator listed twice
keeps its later entry. -/
def desiredAmounts (total : Amount) (targets : List Target) : Table String Amount :=
  Table.ofList (total.apportion (Target.shares targets))

/-- One planned redelegation. -/
structure Redelegation where
  src : String
  dst : String
  amount : Amount
deriving DecidableEq, Inhabited

/-- A redelegation plan and the sources passed over while in cooldown. -/
structure Plan where
  redelegations : List Redelegation
  skipped : List String
deriving DecidableEq, Inhabited

/-- Moves a source's surplus into the deficits in order, using at most `room` moves; gives
the moves and the deficits still open. -/
def fill (src : String) (room : Nat) (surplus : Amount) :
    List (String × Amount) → List Redelegation × List (String × Amount)
  | [] => ([], [])
  | (dst, deficit) :: rest =>
    if surplus.isZero || room = 0 then ([], (dst, deficit) :: rest)
    else
      let amount := surplus.min deficit
      if amount == deficit then
        let (moves, open_) := fill src (room - 1) (surplus.satSub amount) rest
        (⟨src, dst, amount⟩ :: moves, open_)
      else ([⟨src, dst, amount⟩], (dst, deficit.satSub amount) :: rest)

/-- Walks the sources in order, filling the open deficits. -/
def walk (inCooldown : String → Bool) (maxEntries : Nat) :
    List (String × Amount) → List (String × Amount) → Plan → Plan
  | [], _, plan => plan
  | (src, surplus) :: rest, deficits, plan =>
    if deficits.isEmpty || maxEntries ≤ plan.redelegations.length then plan
    else if inCooldown src then
      walk inCooldown maxEntries rest deficits { plan with skipped := plan.skipped ++ [src] }
    else
      let (moves, open_) := fill src (maxEntries - plan.redelegations.length) surplus deficits
      walk inCooldown maxEntries rest open_
        { plan with redelegations := plan.redelegations ++ moves }

/-- The deficits against the desired amounts, in ascending address order. -/
def deficits (desired held : Table String Amount) : List (String × Amount) :=
  desired.toList.filterMap fun (v, want) =>
    let have_ := held.getD v Amount.zero
    if have_ < want then some (v, want.satSub have_) else none

/-- The surpluses over the desired amounts, validators no longer allow-listed first, each
group in ascending address order. -/
def surpluses (desired held : Table String Amount) : List (String × Amount) :=
  let all := held.toList.filterMap fun (v, have_) =>
    let want := desired.get? v
    let surplus := have_.satSub (want.getD Amount.zero)
    if surplus.isZero then none else some (want.isSome, v, surplus)
  (all.filter (!·.1) ++ all.filter (·.1)).map fun (_, v, s) => (v, s)

/-- Plans redelegations moving the current delegations toward the target weights. -/
def planRedelegations (current : List (String × Amount)) (targets : List Target)
    (inCooldown : String → Bool) (maxEntries : Nat) : Except Abort Plan := do
  let desired := desiredAmounts (← total current) targets
  let held := Table.ofList current
  pure (walk inCooldown maxEntries (surpluses desired held) (deficits desired held) ⟨[], []⟩)

/-- Splits a deposit over the targets, filling shortfalls first. -/
def allocateDelegations (amount : Amount) (current : List (String × Amount))
    (targets : List Target) : Except Abort (List (String × Amount)) := do
  let grand ← match (← total current).add? amount with
    | some g => pure g
    | none => throw .addOverflow
  let desired := desiredAmounts grand targets
  let held := Table.ofList current
  let shortfalls := desired.toList.filterMap fun (v, want) =>
    let d := want.satSub (held.getD v Amount.zero)
    if d.isZero then none else some (v, d)
  let parts :=
    if shortfalls.isEmpty then amount.apportion (Target.shares targets)
    else amount.apportion shortfalls
  pure (parts.filter fun p => !p.2.isZero)

/-- Splits an undelegation in proportion to the current delegations. -/
def splitUndelegation (amount : Amount) (current : List (String × Amount)) :
    List (String × Amount) :=
  (amount.apportion current).filter fun p => !p.2.isZero

end LiquidStaking.Rebalance
