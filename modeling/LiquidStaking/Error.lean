import LiquidStaking.Decimal
import LiquidStaking.Text.Bech32
import LiquidStaking.Config
import LiquidStaking.HostAccount
import LiquidStaking.Abort

/-! # Errors

Why a transaction or a query fails. Errors are causes; each has a kind, the name under which
it is reported, and a text. Three families nest:

* `BaseError`, the errors of the chain's standard library: a generic failure with a text,
  a checked arithmetic overflow, a missing storage item, an unreadable message and bytes
  that are not text;
* `TokenError`, the errors of the derivative token ledger, which may wrap a `BaseError`;
* `Error`, the errors of the module, which may wrap either.

A missing storage item and an unreadable message have no text. A transaction either is
rejected with an error or aborts on an arithmetic fault (`Failure`).
-/
namespace LiquidStaking

/-- The operation named in a checked-arithmetic overflow. -/
inductive ArithOp
  | add
  | sub
  | mul
deriving DecidableEq, Inhabited

/-- The name of an operation in an overflow report. -/
def ArithOp.name : ArithOp → String
  | .add => "Add"
  | .sub => "Sub"
  | .mul => "Mul"

/-- Errors of the chain's standard library. -/
inductive BaseError
  /-- A failure described by a text. -/
  | generic (msg : String)
  /-- A checked operation whose result leaves the amount range. -/
  | overflow (op : ArithOp) (lhs rhs : Nat)
  /-- A missing item; only items with a public name have one. -/
  | notFound (what : Option String)
  /-- A message that could not be read. -/
  | parse
  /-- Bytes that end inside a character; `validUpTo` bytes before it are well formed. -/
  | invalidUtf8 (validUpTo : Nat)
deriving DecidableEq, Inhabited

namespace BaseError

/-- The name of the error's kind. -/
def kind : BaseError → String
  | .generic _ => "GenericErr"
  | .overflow .. => "Overflow"
  | .notFound _ => "NotFound"
  | .parse => "ParseErr"
  | .invalidUtf8 _ => "InvalidUtf8"

/-- The error's text, if it has one. -/
def message : BaseError → Option String
  | .generic m => some ("Generic error: " ++ m)
  | .overflow op a b =>
    some ("Overflow: Cannot " ++ op.name ++ " with " ++ Numeral.write a ++ " and " ++
      Numeral.write b)
  | .notFound (some what) => some (what ++ " not found")
  | .notFound none => none
  | .parse => none
  | .invalidUtf8 n =>
    some ("Cannot decode UTF8 bytes into string: incomplete utf-8 byte sequence from index " ++
      Numeral.write n)

end BaseError

/-- Errors of the derivative token ledger. -/
inductive TokenError
  | base (e : BaseError)
  | unauthorized
  | cannotSetOwnAccount
  | expired
  | noAllowance
  | invalidExpiration
deriving DecidableEq, Inhabited

namespace TokenError

/-- The name of the error's kind. -/
def kind : TokenError → String
  | .base e => "Std." ++ e.kind
  | .unauthorized => "Unauthorized"
  | .cannotSetOwnAccount => "CannotSetOwnAccount"
  | .expired => "Expired"
  | .noAllowance => "NoAllowance"
  | .invalidExpiration => "InvalidExpiration"

/-- The error's text, if it has one. -/
def message : TokenError → Option String
  | .base e => e.message
  | .unauthorized => some "Unauthorized"
  | .cannotSetOwnAccount => some "Cannot set to own account"
  | .expired => some "Allowance is expired"
  | .noAllowance => some "No allowance for this account"
  | .invalidExpiration => some "Invalid expiration value"

end TokenError

/-- Why a validator operator address is refused. -/
inductive ValoperFault
  | decode (e : Bech32.Error)
  | notOperatorPrefix
  | bech32m
  | emptyPayload
deriving DecidableEq, Inhabited

/-- The words for a refused operator address. -/
def ValoperFault.message : ValoperFault → String
  | .decode e => e.message
  | .notOperatorPrefix => "prefix is not a validator operator prefix"
  | .bech32m => "bech32m encoding is not accepted"
  | .emptyPayload => "empty address payload"

/-- Why an allow-listed validator set is refused. -/
inductive AllowListFault
  | empty
  | duplicate (address : String)
  | weightsOverflow
  | weightsSum (total : Decimal)
deriving DecidableEq, Inhabited

/-- The words for a refused allow list. -/
def AllowListFault.message : AllowListFault → String
  | .empty => "validator set is empty"
  | .duplicate a => "duplicate validator " ++ a
  | .weightsOverflow => "weights overflow"
  | .weightsSum t => "weights sum to " ++ t.toText ++ ", expected 1"

/-- Why a host chain registration is refused. -/
inductive ParamsFault
  | missingFields
  | nonPositiveMinDeposit
  | ownerIdsBlank
  | ownerIdsEqual
deriving DecidableEq, Inhabited

/-- The words for a refused registration. -/
def ParamsFault.message : ParamsFault → String
  | .missingFields => "all identifying fields must be set"
  | .nonPositiveMinDeposit => "min deposit must be positive"
  | .ownerIdsBlank => "host account owner ids must be set"
  | .ownerIdsEqual => "host account owner ids must be distinct"

/-- Why a governance proposal is refused. -/
inductive ProposalFault
  | blankTitle
  | longTitle
  | blankDescription
  | longDescription
  | nonPositiveMinDeposit
deriving DecidableEq, Inhabited

/-- The longest title, in bytes. -/
def ProposalFault.maxTitleLength : Nat := 140

/-- The longest description, in bytes. -/
def ProposalFault.maxDescriptionLength : Nat := 10000

/-- The words for a refused proposal. -/
def ProposalFault.message : ProposalFault → String
  | .blankTitle => "title cannot be blank"
  | .longTitle => "title is longer than " ++ Numeral.write maxTitleLength ++ " characters"
  | .blankDescription => "description cannot be blank"
  | .longDescription =>
    "description is longer than " ++ Numeral.write maxDescriptionLength ++ " characters"
  | .nonPositiveMinDeposit => "min deposit must be positive"

/-- The four fees. -/
inductive FeeKind
  | deposit
  | restake
  | unstake
  | redemption
deriving DecidableEq, Inhabited

/-- The name of a fee. -/
def FeeKind.name : FeeKind → String
  | .deposit => "deposit"
  | .restake => "restake"
  | .unstake => "unstake"
  | .redemption => "redemption"

/-- Errors of the module. -/
inductive Error
  | base (e : BaseError)
  | token (e : TokenError)
  | hostChainNotRegistered
  | alreadyRegistered
  | invalidHostChainParams (fault : ParamsFault)
  | invalidMintDenom (expected got : String)
  | missingTransport
  | zeroUnbondingPeriod
  | moduleDisabled
  | unauthorized
  | wrongDenom (expected got : String)
  | belowMinimumDeposit (amount minDeposit : Amount)
  | noFunds
  | multipleDenoms (count : Nat)
  | zeroAmount
  | invalidValidatorAddress (address : String) (fault : ValoperFault)
  | invalidAllowList (fault : AllowListFault)
  | invalidProposal (fault : ProposalFault)
  | invalidFee (fee : FeeKind) (value ceiling : Decimal)
  | insufficientLiquidReserve (requested available : Amount)
  | insufficientDelegations (requested delegated : Amount)
  | amountTooSmall (amount : Amount)
  | noRecordedDelegation (validator : String)
  | unknownHostAccount (ownerId : String)
  | accountNotActive (ownerId : String)
  | accountBusy (ownerId : String) (sequence : Nat)
  | unexpectedSequence (ownerId : String) (expected : Option Nat) (got : Nat)
  | invalidAccountTransition (ownerId : String) (move : AccountTransition)
      (status : AccountStatus)
  | noSuspendedAccounts
  | noObservation (validator : String)
  | wrongLedger (required : LedgerKind)
  | unknownReply (id : Nat)
deriving DecidableEq, Inhabited

namespace Error

/-- The name of the error's kind. -/
def kind : Error → String
  | .base e => "Std." ++ e.kind
  | .token e => "Token." ++ e.kind
  | .hostChainNotRegistered => "HostChainNotRegistered"
  | .alreadyRegistered => "AlreadyRegistered"
  | .invalidHostChainParams _ => "InvalidHostChainParams"
  | .invalidMintDenom .. => "InvalidMintDenom"
  | .missingTransport => "MissingTransport"
  | .zeroUnbondingPeriod => "ZeroUnbondingPeriod"
  | .moduleDisabled => "ModuleDisabled"
  | .unauthorized => "Unauthorized"
  | .wrongDenom .. => "WrongDenom"
  | .belowMinimumDeposit .. => "BelowMinimumDeposit"
  | .noFunds => "NoFunds"
  | .multipleDenoms _ => "MultipleDenoms"
  | .zeroAmount => "ZeroAmount"
  | .invalidValidatorAddress .. => "InvalidValidatorAddress"
  | .invalidAllowList _ => "InvalidAllowList"
  | .invalidProposal _ => "InvalidProposal"
  | .invalidFee .. => "InvalidFee"
  | .insufficientLiquidReserve .. => "InsufficientLiquidReserve"
  | .insufficientDelegations .. => "InsufficientDelegations"
  | .amountTooSmall _ => "AmountTooSmall"
  | .noRecordedDelegation _ => "NoRecordedDelegation"
  | .unknownHostAccount _ => "UnknownHostAccount"
  | .accountNotActive _ => "AccountNotActive"
  | .accountBusy .. => "AccountBusy"
  | .unexpectedSequence .. => "UnexpectedSequence"
  | .invalidAccountTransition .. => "InvalidAccountTransition"
  | .noSuspendedAccounts => "NoSuspendedAccounts"
  | .noObservation _ => "NoObservation"
  | .wrongLedger _ => "WrongLedger"
  | .unknownReply _ => "UnknownReply"

/-- How an optional sequence number is written in an error. -/
def optionText : Option Nat → String
  | some n => "Some(" ++ Numeral.write n ++ ")"
  | none => "None"

/-- The error's text, if it has one. -/
def message : Error → Option String
  | .base e => e.message
  | .token e => e.message
  | .hostChainNotRegistered => some "Host chain is not registered"
  | .alreadyRegistered => some "Host chain is already registered"
  | .invalidHostChainParams f => some ("Invalid host chain params: " ++ f.message)
  | .invalidMintDenom e g => some ("Invalid mint denom: expected " ++ e ++ ", got " ++ g)
  | .missingTransport => some "Interchain ledger requires a transport address"
  | .zeroUnbondingPeriod => some "Unbonding period must be positive"
  | .moduleDisabled => some "Module is disabled"
  | .unauthorized => some "Unauthorized: only admin can perform this action"
  | .wrongDenom e g => some ("Wrong denom: expected " ++ e ++ ", got " ++ g)
  | .belowMinimumDeposit a m =>
    some ("Deposit " ++ a.toText ++ " is below the minimum deposit " ++ m.toText)
  | .noFunds => some "No funds sent"
  | .multipleDenoms n => some ("Send exactly one coin, got " ++ Numeral.write n)
  | .zeroAmount => some "Amount must be greater than zero"
  | .invalidValidatorAddress a f => some ("Invalid validator address " ++ a ++ ": " ++ f.message)
  | .invalidAllowList f => some ("Invalid allow listed validator set: " ++ f.message)
  | .invalidProposal f => some ("Invalid proposal: " ++ f.message)
  | .invalidFee k v c =>
    some ("Invalid " ++ k.name ++ " fee " ++ v.toText ++ ": must be below " ++ c.toText)
  | .insufficientLiquidReserve r a =>
    some ("Insufficient liquid reserve: requested " ++ r.toText ++ ", available " ++ a.toText)
  | .insufficientDelegations r d =>
    some ("Insufficient delegations: requested " ++ r.toText ++ ", delegated " ++ d.toText)
  | .amountTooSmall a => some ("Amount " ++ a.toText ++ " converts to zero")
  | .noRecordedDelegation v => some ("No recorded delegation to " ++ v)
  | .unknownHostAccount o => some ("Unknown host account: " ++ o)
  | .accountNotActive o => some ("Host account " ++ o ++ " is not active")
  | .accountBusy o s =>
    some ("Host account " ++ o ++ " has an outstanding instruction " ++ Numeral.write s)
  | .unexpectedSequence o e g =>
    some ("Unexpected sequence for " ++ o ++ ": expected " ++ optionText e ++ ", got " ++
      Numeral.write g)
  | .invalidAccountTransition o m s =>
    some ("Host account " ++ o ++ " cannot " ++ m.name ++ " while " ++ s.name)
  | .noSuspendedAccounts => some "No suspended host accounts to recreate"
  | .noObservation v => some ("No host observation for " ++ v)
  | .wrongLedger l => some ("Operation requires the " ++ l.name ++ " ledger")
  | .unknownReply id => some ("Unknown reply id: " ++ Numeral.write id)

end Error

/-- How a transaction fails: rejected with an error, or aborted by an arithmetic fault.
Either way none of its effects remain. -/
inductive Failure
  | reject (e : Error)
  | abort (a : Abort)
deriving DecidableEq, Inhabited

namespace Failure

/-- The name of the failure's kind. -/
def kind : Failure → String
  | .reject e => e.kind
  | .abort _ => "panic"

/-- The failure's text, if it has one. -/
def message : Failure → Option String
  | .reject e => e.message
  | .abort a => some a.message

end Failure

end LiquidStaking
