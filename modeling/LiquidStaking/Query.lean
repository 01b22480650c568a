import LiquidStaking.Governance
import LiquidStaking.Exit

/-! # Queries

Queries read the state and the chain and change nothing. Their failures are base errors:
a missing item is not found, an address is checked like any other, and a rate that does
not fit a decimal is a generic overflow. Sums over delegations and unbonding records abort
past the amount range, as everywhere else.

The validator view merges the recorded delegations with the allow list, by address; a
validator is active when it is listed and, on the native ledger, still in the chain's
validator set.
-/
namespace LiquidStaking

/-- A validator as the module sees it: listed, delegated to, or both. -/
structure LiquidValidator where
  address : String
  delegated : Amount
  weight : Decimal
  active : Bool
deriving DecidableEq, Inhabited

/-- The module's accounting at one instant. -/
structure NetAmountState where
  totalDelegated : Amount
  /-- Unclaimed rewards before the restake fee. -/
  totalRewards : Amount
  totalPendingDeposits : Amount
  totalHostIdle : Amount
  totalSupply : Amount
  /-- Owed to records that have not matured. -/
  totalUnbonding : Amount
  /-- Owed to matured records. -/
  totalClaimable : Amount
  netValue : Amount
  cValue : Decimal
  exchangeRate : Decimal
deriving DecidableEq, Inhabited

/-- An unbonding record of one owner, by id. -/
structure RecordEntry where
  id : Nat
  amount : Amount
  maturity : Timestamp
deriving DecidableEq, Inhabited

/-- The answer to a query. -/
inductive QueryAnswer
  | config (c : Config)
  | hostChainParams (p : HostParams)
  | allowList (targets : List Target)
  | hostAccounts (a : Option HostAccounts)
  | moduleState (enabled : Bool)
  | netAmountState (n : NetAmountState)
  | cValue (cValue exchangeRate : Decimal)
  | liquidValidators (vs : List LiquidValidator)
  | unbondingRecords (owner : String) (records : List RecordEntry)
  | claimable (amount : Amount)
  | outboundInstruction (i : Option Instruction)
  | proposalCheck (valid : Bool) (error : Option String)
  | depositDenom (denom : String)
  | balance (amount : Amount)
  | tokenInfo (t : TokenInfo)
  | allowance (a : Allowance)
deriving Inhabited

namespace Query

/-- A stored item, or not found. -/
def need {α : Type} : Option α → Except Failure α
  | some a => .ok a
  | none => .error (.reject (.base (.notFound none)))

/-- A base error as a failure. -/
def base {α : Type} : Except BaseError α → Except Failure α
  | .ok a => .ok a
  | .error e => .error (.reject (.base e))

/-- The sum of amounts, aborting past the range. -/
def total (xs : List Amount) : Except Failure Amount :=
  Valuation.aborting (Valuation.sum xs)

/-- The registered host chain parameters. -/
def registered (s : State) : Except Failure HostParams :=
  match s.params.filter (!·.hasMissingField) with
  | some p => .ok p
  | none => .error (.reject (.base (.notFound (some "HostChainParams"))))

/-- The module's accounting: records maturing after now are still unbonding, the others
claimable. -/
def netAmountState (env : Env) (s : State) : Except Failure NetAmountState := do
  let rewards ← Valuation.totalRewards s env.staking
  let rate ← Valuation.rateWithRewards s rewards
  let records := s.records.toList.map Prod.snd
  let unbonding ← total ((records.filter (env.block.time < ·.maturity)).map (·.amount))
  let claimable ← total ((records.filter (·.maturity ≤ env.block.time)).map (·.amount))
  let delegated ← Valuation.aborting (Valuation.totalDelegated s)
  let cValue ← base rate.cValue
  let exchangeRate ← base rate.exchangeRate
  pure ⟨delegated, rewards, s.pendingDeposits, s.hostIdle, rate.supply, unbonding, claimable,
    rate.value, cValue, exchangeRate⟩

/-- Recorded delegations and allow-listed validators, merged by address; a later listing of
an address replaces an earlier one. -/
def merged (s : State) (targets : List Target) : List (String × Amount × Option Target) :=
  let withDelegations : Table String (Amount × Option Target) :=
    Table.ofList (s.delegations.toList.map fun (v, a) => (v, (a, none)))
  let withTargets := targets.foldl (fun acc t =>
    acc.insert t.validator (((acc.get? t.validator).map Prod.fst).getD Amount.zero, some t))
    withDelegations
  withTargets.toList.map fun (v, a, t) => (v, a, t)

/-- The validator view. -/
def liquidValidators (env : Env) (s : State) : Except Failure (List LiquidValidator) := do
  let config ← need s.config
  pure ((merged s (s.allowList.getD [])).map fun (v, a, listed) =>
    { address := v, delegated := a, weight := (listed.map (·.weight)).getD Decimal.zero,
      active := listed.isSome && (config.ledger == .interchain || env.staking.hasValidator v) })

/-- An owner's unbonding records, by id. -/
def ownerRecords (s : State) (owner : String) : List RecordEntry :=
  s.records.toList.filterMap fun ((o, id), r) =>
    if o == owner then some ⟨id, r.amount, r.maturity⟩ else none

/-- What claiming would pay an owner now. -/
def claimable (env : Env) (s : State) (owner : String) : Except Failure Amount := do
  let config ← need s.config
  let owner' ← base (Address.validate owner)
  let records := s.records.toList.filterMap fun ((o, _), r) => if o == owner' then some r else none
  total ((records.filter (Exit.claimableNow s config env.block.time)).map (·.amount))

/-- The answer to a query. -/
def answer (env : Env) (s : State) : QueryMsg → Except Failure QueryAnswer
  | .config => .config <$> need s.config
  | .hostChainParams => .hostChainParams <$> registered s
  | .allowListedValidators => pure (.allowList (s.allowList.getD []))
  | .hostAccounts => pure (.hostAccounts s.accounts)
  | .moduleState => pure (.moduleState (s.enabled.getD true))
  | .netAmountState => .netAmountState <$> netAmountState env s
  | .cValue => do
    let rate ← Valuation.currentRate s env.staking
    pure (.cValue (← base rate.cValue) (← base rate.exchangeRate))
  | .liquidValidators => .liquidValidators <$> liquidValidators env s
  | .unbondingRecords owner => do
    let owner' ← base (Address.validate owner)
    pure (.unbondingRecords owner' (ownerRecords s owner'))
  | .claimable owner => .claimable <$> claimable env s owner
  | .outboundInstruction ownerId seq => pure (.outboundInstruction (s.outbound.get? (ownerId, seq)))
  | .validateProposal p =>
    match Governance.validate p with
    | .ok () => pure (.proposalCheck true none)
    | .error e => pure (.proposalCheck false (some (e.message.getD "")))
  | .depositDenom => do
    let config ← need s.config
    let params ← registered s
    pure (.depositDenom (Denom.depositDenom config.ledger params))
  | .balance address => do
    let a ← base (Address.validate address)
    pure (.balance (Token.balanceOf s a))
  | .tokenInfo => .tokenInfo <$> need s.token
  | .allowance owner spender => do
    let o ← base (Address.validate owner)
    let sp ← base (Address.validate spender)
    pure (.allowance (Token.allowanceOf s o sp))

end Query

end LiquidStaking
