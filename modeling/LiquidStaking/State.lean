import LiquidStaking.Config
import LiquidStaking.HostParams
import LiquidStaking.Target
import LiquidStaking.HostAccount
import LiquidStaking.HostMsg
import LiquidStaking.Table

/-! # Module state

Everything the module stores. Items that may be missing are options; amounts that may be
missing read as zero and are kept as amounts. Maps are tables keyed in ascending order:
delegations and observations by validator, cooldowns by destination validator, unbonding
records by owner and record id, batches by maturity in seconds, outbound instructions by
owner id and sequence, reply contexts by reply id, token balances by holder and allowances
by owner and spender.
-/
namespace LiquidStaking

/-- When an allowance stops being usable. -/
inductive Expiration
  | atHeight (height : Nat)
  | atTime (time : Timestamp)
  | never
deriving DecidableEq, Inhabited

/-- Whether an expiration has passed at a block: from its height or its time on. -/
def Expiration.isExpired (e : Expiration) (b : Block) : Bool :=
  match e with
  | .atHeight h => h ≤ b.height
  | .atTime t => t ≤ b.time
  | .never => false

/-- What a spender may still move out of an owner's balance, and until when. -/
structure Allowance where
  amount : Amount
  expires : Expiration
deriving DecidableEq, Inhabited

/-- The derivative token's description and supply. -/
structure TokenInfo where
  name : String
  symbol : String
  decimals : Nat
  totalSupply : Amount
deriving DecidableEq, Inhabited

/-- Base owed to an owner once the unbonding period has passed. -/
structure UnbondingRecord where
  owner : String
  amount : Amount
  maturity : Timestamp
deriving DecidableEq, Inhabited

/-- Where the base of an interchain unbonding batch is. -/
inductive BatchStatus
  | unbonding
  | returning
  | returned
deriving DecidableEq, Inhabited

/-- The status's name. -/
def BatchStatus.name : BatchStatus → String
  | .unbonding => "unbonding"
  | .returning => "returning"
  | .returned => "returned"

/-- The base unbonding on the host that matures at one second. -/
structure Batch where
  amount : Amount
  status : BatchStatus
deriving DecidableEq, Inhabited

/-- What an outbound instruction does, and what its result settles. -/
inductive InstructionKind
  /-- Point the delegator's rewards at the rewards account. -/
  | setup
  /-- Move harvested rewards to the delegator. -/
  | restake (amount : Amount)
  /-- The delegator's work for a block: `shipped` escrowed deposits and the returning
  batches, by maturity. -/
  | cycle (shipped : Amount) (returning : List Nat)
  /-- An undelegation for an unbonding record and the derivative it burned. -/
  | unstake (owner : String) (recordId : Nat) (burned : Amount)
deriving DecidableEq, Inhabited

/-- An instruction sent to a host account and not yet answered. -/
structure Instruction where
  ownerId : String
  sequence : Nat
  msgs : List HostMsg
  kind : InstructionKind
  sentAt : Timestamp
deriving DecidableEq, Inhabited

/-- Everything the module stores. -/
structure State where
  config : Option Config
  enabled : Option Bool
  params : Option HostParams
  allowList : Option (List Target)
  token : Option TokenInfo
  balances : Table String Amount
  allowances : Table (String × String) Allowance
  pendingDeposits : Amount
  hostRewards : Amount
  hostIdle : Amount
  claimReserve : Amount
  delegations : Table String Amount
  observed : Table String Amount
  cooldowns : Table String Timestamp
  records : Table (String × Nat) UnbondingRecord
  lastRecordId : Nat
  batches : Table Nat Batch
  accounts : Option HostAccounts
  outbound : Table (String × Nat) Instruction
  replies : Table Nat HostMsg
  lastReplyId : Nat
deriving Inhabited

/-- The state before the module is created: nothing stored. -/
def State.empty : State :=
  ⟨none, none, none, none, none, {}, {}, Amount.zero, Amount.zero, Amount.zero, Amount.zero,
    {}, {}, {}, {}, 0, {}, none, {}, {}, 0⟩

end LiquidStaking
