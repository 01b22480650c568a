import LiquidStaking.Denom
import LiquidStaking.Target
import LiquidStaking.Text.Blank

/-! # Registration checks

What registration and governance accept. A validator operator address is a bech32 string
(not bech32m) whose human-readable part ends in `valoper` and whose payload is not empty.
An allow list is non-empty, has valid and distinct addresses and weights summing to exactly
one; entries are checked in order, each for its address, then for a repeat, then for the
running sum. Host chain parameters have every identifying field, the derivative denomination
`stk/` plus the base, a positive minimum deposit and fee rates below their ceilings. The two
host account owner ids are non-blank and distinct.
-/
namespace LiquidStaking

/-- The suffix of a validator operator address's human-readable part. -/
def valoperSuffix : String := "valoper"

/-- Accepts a validator operator address. -/
def validateValoper (address : String) : Except Error Unit :=
  let invalid := fun f => Except.error (Error.invalidValidatorAddress address f)
  match Bech32.decode address with
  | .error e => invalid (.decode e)
  | .ok d =>
    if !d.hrp.endsWith valoperSuffix then invalid .notOperatorPrefix
    else if d.variant != .bech32 then invalid .bech32m
    else if d.data.isEmpty then invalid .emptyPayload
    else .ok ()

/-- Checks allow-list entries in order against the addresses seen and the running sum. -/
def checkTargets : List Target → List String → Decimal → Except Error Decimal
  | [], _, total => .ok total
  | t :: rest, seen, total => do
    validateValoper t.validator
    if seen.contains t.validator then .error (.invalidAllowList (.duplicate t.validator))
    match total.add? t.weight with
    | none => .error (.invalidAllowList .weightsOverflow)
    | some total => checkTargets rest (t.validator :: seen) total

/-- Accepts an allow list. -/
def validateAllowList (targets : List Target) : Except Error Unit := do
  if targets.isEmpty then .error (.invalidAllowList .empty)
  let total ← checkTargets targets [] Decimal.zero
  if total != Decimal.one then .error (.invalidAllowList (.weightsSum total))

/-- Accepts a pair of host account owner ids. -/
def validateOwnerIds (delegator rewards : String) : Except Error Unit :=
  if Blank.isBlankText delegator || Blank.isBlankText rewards then
    .error (.invalidHostChainParams .ownerIdsBlank)
  else if delegator == rewards then .error (.invalidHostChainParams .ownerIdsEqual)
  else .ok ()

/-- Accepts host chain parameters before they are stored. -/
def HostParams.validate (p : HostParams) : Except Error Unit := do
  if p.hasMissingField then .error (.invalidHostChainParams .missingFields)
  let expected := Denom.mintDenom p.baseDenom
  if p.mintDenom != expected then .error (.invalidMintDenom expected p.mintDenom)
  if p.minDeposit.isZero then .error (.invalidHostChainParams .nonPositiveMinDeposit)
  p.fees.rates.validate

end LiquidStaking
