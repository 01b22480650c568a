/-! # Configuration

The settings fixed when the module is created: who administers it, which staking ledger it
drives, the unbonding period, how many redelegations one pass may plan, where escrowed
deposits travel on the interchain ledger, and how long an outbound instruction may wait.
-/
namespace LiquidStaking

/-- The staking ledger the module drives: the chain's own staking, or accounts on a host
chain reached through interchain instructions. -/
inductive LedgerKind
  | native
  | interchain
deriving DecidableEq, Inhabited

/-- The name of a ledger kind. -/
def LedgerKind.name : LedgerKind → String
  | .native => "native"
  | .interchain => "interchain"

/-- The module's configuration. -/
structure Config where
  admin : String
  ledger : LedgerKind
  /-- Seconds from an undelegation to its maturity. -/
  unbondingPeriod : Nat
  /-- The most redelegations one pass may plan. -/
  maxRedelegations : Nat
  /-- Where escrowed deposits are sent on the interchain ledger. -/
  transport : Option String
  /-- Seconds an outbound instruction may wait. -/
  packetTimeout : Nat
deriving DecidableEq, Inhabited

namespace Config

/-- Redelegations per pass when none is configured. -/
def defaultMaxRedelegations : Nat := 7

/-- Seconds an instruction may wait when none is configured. -/
def defaultPacketTimeout : Nat := 600

/-- Decimal places of the derivative token when none is configured. -/
def defaultTokenDecimals : Nat := 6

end Config

end LiquidStaking
