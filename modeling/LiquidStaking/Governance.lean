import LiquidStaking.Cycle
import LiquidStaking.Registration

/-! # Governance

Proposals are a closed set: a new minimum deposit with new fee rates, a new fee address,
or a new allow-listed validator set. A proposal is checked before the vote and again when
applied: a non-blank title of at most 140 bytes, a non-blank description of at most 10000
bytes, then the content's own checks. The fee address may change before registration,
which stores a placeholder record; the other changes need a registered, enabled module, and
a new allow list is followed at once by a redelegation pass.
-/
namespace LiquidStaking.Governance

open Tx

/-- Checks a proposal without touching the state. -/
def validate (p : Proposal) : Except Error Unit := do
  let invalid := fun f => Except.error (Error.invalidProposal f)
  if Blank.isBlankText p.title then invalid .blankTitle
  if p.title.utf8ByteSize > ProposalFault.maxTitleLength then invalid .longTitle
  if Blank.isBlankText p.description then invalid .blankDescription
  if p.description.utf8ByteSize > ProposalFault.maxDescriptionLength then invalid .longDescription
  match p.content with
  | .minDepositAndFeeChange minDeposit rates =>
    if minDeposit.isZero then invalid .nonPositiveMinDeposit
    rates.validate
  | .feeAddressChange a =>
    match Address.validate a with
    | .ok _ => pure ()
    | .error e => .error (.base e)
  | .allowListChange targets => validateAllowList targets

/-- Applies a passed proposal. -/
def apply (env : Env) (p : Proposal) : Tx (Response × List String) := do
  ofError (validate p)
  let r := Response.empty.attr "action" "apply_proposal" |>.attr "title" p.title
  match p.content with
  | .minDepositAndFeeChange minDeposit rates =>
    let params ← operational
    modify fun s => { s with params := some { params with minDeposit, fees := { params.fees with rates } } }
    pure (r.attr "proposal" "min_deposit_and_fee_change" |>.attr "min_deposit" minDeposit.toText, [])
  | .feeAddressChange a =>
    let feeAddress ← validateAddress a
    let params := (← get).params.getD (HostParams.placeholder feeAddress)
    modify fun s => { s with params := some { params with fees := { params.fees with address := feeAddress } } }
    pure (r.attr "proposal" "fee_address_change" |>.attr "fee_address" feeAddress, [])
  | .allowListChange targets =>
    let _ ← operational
    modify fun s => { s with allowList := some targets }
    let (rb, debug) ← Cycle.rebalanceNow env
    pure (r.attr "proposal" "allow_listed_validator_set_change"
      |>.attr "validators" (Numeral.write targets.length) |>.attrs rb.attributes
      |>.submessages rb.messages |>.eventsAdd rb.events, debug)

end LiquidStaking.Governance
