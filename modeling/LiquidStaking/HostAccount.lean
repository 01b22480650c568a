/-! # Host accounts

On the interchain ledger the module owns two accounts on the host chain: the delegator,
which holds and stakes the base asset, and the rewards account, which receives staking
rewards. Each account moves through

```
uninitialized → handshake started → registered → active
                       ↑                  │          │
                       └──────────── suspended ←─────┘
```

and carries at most one outstanding instruction, named by its sequence number.
-/
namespace LiquidStaking

/-- Where a host account is in its lifecycle. -/
inductive AccountStatus
  | uninitialized
  | handshakeStarted
  | registered
  | active
  | suspended
deriving DecidableEq, Inhabited

/-- The name of a status. -/
def AccountStatus.name : AccountStatus → String
  | .uninitialized => "uninitialized"
  | .handshakeStarted => "handshake_started"
  | .registered => "registered"
  | .active => "active"
  | .suspended => "suspended"

/-- A lifecycle move that a status may forbid. -/
inductive AccountTransition
  | startHandshake
  | acknowledgeOpen
deriving DecidableEq, Inhabited

/-- The words for a lifecycle move. -/
def AccountTransition.name : AccountTransition → String
  | .startHandshake => "start handshake"
  | .acknowledgeOpen => "acknowledge channel open"

/-- An account on the host chain. -/
structure HostAccount where
  ownerId : String
  address : Option String
  status : AccountStatus
  /-- The sequence number the next instruction takes. -/
  nextSequence : Nat
  /-- The sequence number of the outstanding instruction. -/
  pending : Option Nat
deriving DecidableEq, Inhabited

namespace HostAccount

/-- A fresh account: no address, no instruction yet, sequence numbers from one. -/
def new (ownerId : String) : HostAccount := ⟨ownerId, none, .uninitialized, 1, none⟩

/-- Active with no outstanding instruction. -/
def isReady (a : HostAccount) : Bool := a.status == .active && a.pending.isNone

end HostAccount

/-- The module's two host accounts. -/
structure HostAccounts where
  delegator : HostAccount
  rewards : HostAccount
deriving DecidableEq, Inhabited

/-- Which of the two host accounts. -/
inductive AccountRole
  | delegator
  | rewards
deriving DecidableEq, Inhabited

namespace HostAccounts

/-- The account in a role. -/
def get (accounts : HostAccounts) : AccountRole → HostAccount
  | .delegator => accounts.delegator
  | .rewards => accounts.rewards

/-- The accounts with the one in a role replaced. -/
def set (accounts : HostAccounts) : AccountRole → HostAccount → HostAccounts
  | .delegator, a => { accounts with delegator := a }
  | .rewards, a => { accounts with rewards := a }

/-- The role of the account with an owner id, the delegator first. -/
def roleOf? (accounts : HostAccounts) (ownerId : String) : Option AccountRole :=
  if accounts.delegator.ownerId == ownerId then some .delegator
  else if accounts.rewards.ownerId == ownerId then some .rewards
  else none

end HostAccounts

end LiquidStaking
