import Mathlib
import LiquidStaking.Proofs.RoundTrip
import LiquidStaking.Proofs.Allocation

/-! # Recording keeps the delegation table a table

The recorded delegations are a `Table`: its lookups, and the sums over its entries that the
allocation and the planner take, read right only while its keys are sorted without repeats.
Every write to it is one `Recording.record` or `Recording.unrecord`, which inserts or erases
one key. Each keeps `Table.Sorted`, and so do the loops of the end-block cycle and of the host
transport, which are runs of them. The calls built on these loops are taken in
`LiquidStaking.Proofs.Unstake`.
-/
set_option mvcgen.warning false

namespace LiquidStaking

open Std.Do Tx

namespace Recording

variable {m : HostMsg} {ms : List HostMsg} {f : Funding}

@[simp] theorem setFunding_delegations (s : State) (f : Funding) (a : Amount) :
    (setFunding s f a).delegations = s.delegations := by
  cases f <;> rfl

/-! Every branch of `record` and `unrecord` inserts or erases one key of the table it read,
which `Table.Sorted.insert` and `Table.Sorted.erase` keep sorted. The specs below are tagged
`spec`, so that the calls built on them find them without naming them. -/

@[spec] theorem unrecord_sorted :
    ⦃fun s => ⌜s.delegations.Sorted⌝⦄ unrecord m f ⦃⇓? _ s => ⌜s.delegations.Sorted⌝⦄ := by
  mvcgen [unrecord]
  all_goals (try simp +zetaDelta only [setFunding_delegations])
  all_goals grind [Table.Sorted.insert, Table.Sorted.erase]

@[spec] theorem unrecordAll_sorted :
    ⦃fun s => ⌜s.delegations.Sorted⌝⦄ unrecordAll ms f ⦃⇓? _ s => ⌜s.delegations.Sorted⌝⦄ := by
  mvcgen [unrecordAll] invariants
  | inv1 => ⇓? _ s => ⌜s.delegations.Sorted⌝

end Recording

namespace Cycle

variable {env : Env} {config : Config} {params : HostParams} {targets : List Target}

@[spec] theorem nativeDelegations_sorted {parts : List (String × Amount)} :
    ⦃fun s => ⌜s.delegations.Sorted⌝⦄ nativeDelegations params parts
    ⦃⇓? _ s => ⌜s.delegations.Sorted⌝⦄ := by
  mvcgen [nativeDelegations, ledgerSubmsg, Recording.record] invariants
  | inv1 => ⇓? _ s => ⌜s.delegations.Sorted⌝
  all_goals (try simp +zetaDelta only [Recording.setFunding_delegations])
  all_goals grind [Table.Sorted.insert, Table.Sorted.erase]

@[spec] theorem nativeRedelegations_sorted {p : Rebalance.Plan} :
    ⦃fun s => ⌜s.delegations.Sorted⌝⦄ nativeRedelegations params p
    ⦃⇓? _ s => ⌜s.delegations.Sorted⌝⦄ := by
  mvcgen [nativeRedelegations, ledgerSubmsg, Recording.record] invariants
  | inv1 => ⇓? _ s => ⌜s.delegations.Sorted⌝
  all_goals grind [Table.Sorted.insert, Table.Sorted.erase]

@[spec] theorem interchainRedelegations_sorted :
    ⦃fun s => ⌜s.delegations.Sorted⌝⦄ interchainRedelegations env config targets
    ⦃⇓? _ s => ⌜s.delegations.Sorted⌝⦄ := by
  mvcgen [interchainRedelegations, plan, Recording.record] invariants
  | inv1 => ⇓? _ s => ⌜s.delegations.Sorted⌝
  all_goals grind [Table.Sorted.insert, Table.Sorted.erase]

@[spec] theorem interchainDelegations_sorted {current : List (String × Amount)} :
    ⦃fun s => ⌜s.delegations.Sorted⌝⦄ interchainDelegations current targets
    ⦃⇓? _ s => ⌜s.delegations.Sorted⌝⦄ := by
  mvcgen [interchainDelegations, recordDelegations, Recording.record] invariants
  | inv1 => ⇓? _ s => ⌜s.delegations.Sorted⌝
  all_goals (try simp +zetaDelta only [Recording.setFunding_delegations])
  all_goals grind [Table.Sorted.insert, Table.Sorted.erase]

end Cycle

@[spec] theorem Transport.compensate_sorted {i : Instruction} :
    ⦃fun s => ⌜s.delegations.Sorted⌝⦄ Transport.compensate i
    ⦃⇓? _ s => ⌜s.delegations.Sorted⌝⦄ := by
  mvcgen [Transport.compensate, Transport.batch] invariants
  | inv1 => ⇓? _ s => ⌜s.delegations.Sorted⌝

end LiquidStaking
