import LiquidStaking.State

/-! # Messages

What the module is asked to do. It is created with an instantiation message; users and the
administrator send execute messages, the chain sends privileged messages (the end of a
block, a passed proposal, transport callbacks and host observations) and replies to
submessages; anyone may query it.
-/
namespace LiquidStaking

/-- The settings the module is created with; omitted options take their defaults. -/
structure InstantiateMsg where
  admin : String
  ledger : LedgerKind
  unbondingPeriod : Nat
  maxRedelegations : Option Nat
  transport : Option String
  packetTimeout : Option Nat
  tokenDecimals : Option Nat
deriving DecidableEq, Inhabited

/-- The registration of the host chain. -/
structure JumpStartMsg where
  chainId : String
  connectionId : String
  transferChannel : String
  transferPort : String
  baseDenom : String
  mintDenom : String
  minDeposit : Amount
  allowList : List Target
  rates : FeeRates
  feeAddress : String
  delegatorOwnerId : String
  rewardsOwnerId : String
deriving DecidableEq, Inhabited

/-- What users and the administrator ask of the module. -/
inductive ExecuteMsg
  | liquidStake
  | liquidUnstake (amount : Amount)
  | redeem (amount : Amount)
  | claim
  | jumpStart (m : JumpStartMsg)
  | recreateIca
  | changeModuleState (enabled : Bool)
  | reportSlashing (validator : String)
  | transfer (recipient : String) (amount : Amount)
  | send (contract : String) (amount : Amount) (msg : List UInt8)
  | increaseAllowance (spender : String) (amount : Amount) (expires : Option Expiration)
  | decreaseAllowance (spender : String) (amount : Amount) (expires : Option Expiration)
  | transferFrom (owner recipient : String) (amount : Amount)
  | sendFrom (owner contract : String) (amount : Amount) (msg : List UInt8)
deriving DecidableEq, Inhabited

/-- What a governance proposal changes. -/
inductive ProposalContent
  | minDepositAndFeeChange (minDeposit : Amount) (rates : FeeRates)
  | feeAddressChange (feeAddress : String)
  | allowListChange (targets : List Target)
deriving DecidableEq, Inhabited

/-- A governance proposal. -/
structure Proposal where
  title : String
  description : String
  content : ProposalContent
deriving DecidableEq, Inhabited

/-- The result of an outbound instruction. -/
inductive PacketOutcome
  | success
  | failure (error : String)
  | timeout
deriving DecidableEq, Inhabited

/-- A reading from the host chain. -/
inductive Observation
  | delegation (validator : String) (amount : Amount)
  | rewards (amount : Amount)
deriving DecidableEq, Inhabited

/-- What the chain itself asks of the module. -/
inductive SudoMsg
  | endBlock
  | applyProposal (p : Proposal)
  | openAck (ownerId address : String)
  | channelClosed (ownerId : String)
  | packetResult (ownerId : String) (sequence : Nat) (outcome : PacketOutcome)
  | observe (o : Observation)
deriving DecidableEq, Inhabited

/-- What anyone may ask about the module. -/
inductive QueryMsg
  | config
  | hostChainParams
  | allowListedValidators
  | hostAccounts
  | moduleState
  | netAmountState
  | cValue
  | liquidValidators
  | unbondingRecords (owner : String)
  | claimable (owner : String)
  | outboundInstruction (ownerId : String) (sequence : Nat)
  | validateProposal (p : Proposal)
  | depositDenom
  | balance (address : String)
  | tokenInfo
  | allowance (owner spender : String)
deriving DecidableEq, Inhabited

end LiquidStaking
