import LiquidStaking.Amount
import LiquidStaking.Timestamp

/-! # The chain around the module

What the module sees of the chain and what it hands back. It sees the current block and the
staking module's view of its delegations; it answers a transaction with a response: the
messages the chain should execute next (each possibly asking for a reply), attributes and
events. The module's own address is fixed.
-/
namespace LiquidStaking

/-- The module's address on the chain. -/
def contractAddress : String := "cosmos2contract"

/-- A message the module asks the chain to execute. -/
inductive ChainMsg
  /-- Send coins to an address. -/
  | bankSend (toAddress : String) (amount : List Coin)
  /-- Delegate to a validator. -/
  | delegate (validator : String) (amount : Coin)
  /-- Undelegate from a validator. -/
  | undelegate (validator : String) (amount : Coin)
  /-- Move a delegation between validators. -/
  | redelegate (src dst : String) (amount : Coin)
  /-- Withdraw the rewards of a delegation. -/
  | withdrawReward (validator : String)
  /-- Direct withdrawn rewards to an address. -/
  | setWithdrawAddress (address : String)
  /-- Execute another contract with a message and funds. -/
  | wasmExecute (contract : String) (msg : List UInt8) (funds : List Coin)
deriving DecidableEq, Inhabited

/-- When the chain reports a message's result back to the module. -/
inductive ReplyOn
  | never
  | always
deriving DecidableEq, Inhabited

/-- A message with its reply id and reply mode; plain messages have id zero. -/
structure SubMsg where
  id : Nat
  msg : ChainMsg
  replyOn : ReplyOn
deriving DecidableEq, Inhabited

/-- A key and value describing a transaction. -/
structure Attribute where
  key : String
  value : String
deriving DecidableEq, Inhabited

/-- A typed group of attributes. -/
structure Event where
  kind : String
  attributes : List Attribute
deriving DecidableEq, Inhabited

/-- An event with no attributes yet. -/
def Event.new (kind : String) : Event := ⟨kind, []⟩

/-- The event with one more attribute. -/
def Event.attr (e : Event) (key value : String) : Event :=
  { e with attributes := e.attributes ++ [⟨key, value⟩] }

/-- What a transaction hands back to the chain. -/
structure Response where
  messages : List SubMsg
  attributes : List Attribute
  events : List Event
deriving DecidableEq, Inhabited

namespace Response

/-- The response with nothing in it. -/
def empty : Response := ⟨[], [], []⟩

/-- The response with one more attribute. -/
def attr (r : Response) (key value : String) : Response :=
  { r with attributes := r.attributes ++ [⟨key, value⟩] }

/-- The response with more attributes. -/
def attrs (r : Response) (as : List Attribute) : Response :=
  { r with attributes := r.attributes ++ as }

/-- The response with one more plain message. -/
def message (r : Response) (m : ChainMsg) : Response :=
  { r with messages := r.messages ++ [⟨0, m, .never⟩] }

/-- The response with more plain messages. -/
def messagesAdd (r : Response) (ms : List ChainMsg) : Response :=
  { r with messages := r.messages ++ ms.map fun m => ⟨0, m, .never⟩ }

/-- The response with more messages that carry their reply settings. -/
def submessages (r : Response) (ms : List SubMsg) : Response :=
  { r with messages := r.messages ++ ms }

/-- The response with one more event. -/
def event (r : Response) (e : Event) : Response := { r with events := r.events ++ [e] }

/-- The response with more events. -/
def eventsAdd (r : Response) (es : List Event) : Response := { r with events := r.events ++ es }

end Response

/-- The current block. -/
structure Block where
  height : Nat
  time : Timestamp
deriving DecidableEq, Inhabited

/-- A delegation of the module as the staking module reports it. -/
structure ChainDelegation where
  validator : String
  amount : Coin
  rewards : List Coin
deriving DecidableEq, Inhabited

/-- What the staking module reports: its validator set and the module's delegations. -/
structure StakingView where
  validators : List String
  delegations : List ChainDelegation
deriving DecidableEq, Inhabited

namespace StakingView

/-- Whether a validator is in the validator set. -/
def hasValidator (v : StakingView) (validator : String) : Bool := v.validators.contains validator

/-- The module's delegation to a validator: the first one reported. -/
def delegation? (v : StakingView) (validator : String) : Option ChainDelegation :=
  v.delegations.find? (·.validator == validator)

end StakingView

/-- The chain as a transaction sees it. -/
structure Env where
  block : Block
  staking : StakingView
deriving DecidableEq, Inhabited

end LiquidStaking
