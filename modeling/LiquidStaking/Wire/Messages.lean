import LiquidStaking.Wire.Read
import LiquidStaking.Messages

/-! # Reading messages

The module's messages as JSON. Every record is strict: unknown fields are refused, and an
optional field may be absent or null. Enumerations are externally tagged: a variant with
named fields is an object holding one field named for the variant, whose value is the
record of its fields, also when it has none (`{"claim": {}}`); a variant without fields is
its bare name or that object with a null value.
-/
namespace LiquidStaking.Wire

/-- A variant without fields, by name. -/
def unitVariant {α : Type} (names : List (String × α)) : Reader α := fun j => do
  let (name, payload) ← variant j
  if isUnit payload then names.lookup name else none

/-- The kind of staking ledger. -/
def ledgerKind : Reader LedgerKind :=
  unitVariant [("native", .native), ("interchain", .interchain)]

/-- A coin; other fields are ignored. -/
def coin : Reader Coin := fun j => do
  let fs ← anyRecord j
  pure ⟨← need fs "denom" text, ← need fs "amount" amount⟩

/-- When an allowance expires. -/
def expiration : Reader Expiration := fun j => do
  let (name, payload) ← variant j
  match name, payload with
  | "at_height", some h => .atHeight <$> u64 h
  | "at_time", some t => .atTime <$> timestamp t
  | "never", p => do let _ ← struct [] p; pure .never
  | _, _ => none

/-- The creation message. -/
def instantiateMsg : Reader InstantiateMsg := fun j => do
  let fs ← record ["admin", "ledger", "unbonding_period", "max_redelegations", "transport",
    "packet_timeout", "token_decimals"] j
  pure ⟨← need fs "admin" text, ← need fs "ledger" ledgerKind,
    ← need fs "unbonding_period" u64, ← opt fs "max_redelegations" u32,
    ← opt fs "transport" text, ← opt fs "packet_timeout" u64, ← opt fs "token_decimals" u8⟩

/-- The registration message. -/
def jumpStartMsg : Reader JumpStartMsg := fun j => do
  let fs ← record ["chain_id", "connection_id", "transfer_channel", "transfer_port",
    "base_denom", "mint_denom", "min_deposit", "allow_listed_validators", "deposit_fee",
    "restake_fee", "unstake_fee", "redemption_fee", "fee_address", "delegator_owner_id",
    "rewards_owner_id"] j
  pure ⟨← need fs "chain_id" text, ← need fs "connection_id" text,
    ← need fs "transfer_channel" text, ← need fs "transfer_port" text,
    ← need fs "base_denom" text, ← need fs "mint_denom" text, ← need fs "min_deposit" amount,
    ← need fs "allow_listed_validators" (list target),
    ⟨← need fs "deposit_fee" decimal, ← need fs "restake_fee" decimal,
      ← need fs "unstake_fee" decimal, ← need fs "redemption_fee" decimal⟩,
    ← need fs "fee_address" text, ← need fs "delegator_owner_id" text,
    ← need fs "rewards_owner_id" text⟩

/-- An execute message. -/
def executeMsg : Reader ExecuteMsg := fun j => do
  let (name, payload) ← variant j
  match name with
  | "liquid_stake" => do let _ ← struct [] payload; pure .liquidStake
  | "liquid_unstake" =>
    let fs ← struct ["amount"] payload
    pure (.liquidUnstake (← need fs "amount" amount))
  | "redeem" =>
    let fs ← struct ["amount"] payload
    pure (.redeem (← need fs "amount" amount))
  | "claim" => do let _ ← struct [] payload; pure .claim
  | "jump_start" => .jumpStart <$> (payload >>= jumpStartMsg)
  | "recreate_ica" => do let _ ← struct [] payload; pure .recreateIca
  | "change_module_state" =>
    let fs ← struct ["enabled"] payload
    pure (.changeModuleState (← need fs "enabled" bool))
  | "report_slashing" =>
    let fs ← struct ["validator"] payload
    pure (.reportSlashing (← need fs "validator" text))
  | "transfer" =>
    let fs ← struct ["recipient", "amount"] payload
    pure (.transfer (← need fs "recipient" text) (← need fs "amount" amount))
  | "send" =>
    let fs ← struct ["contract", "amount", "msg"] payload
    pure (.send (← need fs "contract" text) (← need fs "amount" amount) (← need fs "msg" binary))
  | "increase_allowance" =>
    let fs ← struct ["spender", "amount", "expires"] payload
    pure (.increaseAllowance (← need fs "spender" text) (← need fs "amount" amount)
      (← opt fs "expires" expiration))
  | "decrease_allowance" =>
    let fs ← struct ["spender", "amount", "expires"] payload
    pure (.decreaseAllowance (← need fs "spender" text) (← need fs "amount" amount)
      (← opt fs "expires" expiration))
  | "transfer_from" =>
    let fs ← struct ["owner", "recipient", "amount"] payload
    pure (.transferFrom (← need fs "owner" text) (← need fs "recipient" text)
      (← need fs "amount" amount))
  | "send_from" =>
    let fs ← struct ["owner", "contract", "amount", "msg"] payload
    pure (.sendFrom (← need fs "owner" text) (← need fs "contract" text)
      (← need fs "amount" amount) (← need fs "msg" binary))
  | _ => none

/-- What a proposal changes. -/
def proposalContent : Reader ProposalContent := fun j => do
  let (name, payload) ← variant j
  match name with
  | "min_deposit_and_fee_change" =>
    let fs ← struct ["min_deposit", "deposit_fee", "restake_fee", "unstake_fee",
      "redemption_fee"] payload
    pure (.minDepositAndFeeChange (← need fs "min_deposit" amount)
      ⟨← need fs "deposit_fee" decimal, ← need fs "restake_fee" decimal,
        ← need fs "unstake_fee" decimal, ← need fs "redemption_fee" decimal⟩)
  | "fee_address_change" =>
    let fs ← struct ["fee_address"] payload
    pure (.feeAddressChange (← need fs "fee_address" text))
  | "allow_listed_validator_set_change" =>
    let fs ← struct ["validators"] payload
    pure (.allowListChange (← need fs "validators" (list target)))
  | _ => none

/-- A governance proposal. -/
def proposal : Reader Proposal := fun j => do
  let fs ← record ["title", "description", "content"] j
  pure ⟨← need fs "title" text, ← need fs "description" text,
    ← need fs "content" proposalContent⟩

/-- The result of an outbound instruction. -/
def packetOutcome : Reader PacketOutcome := fun j => do
  let (name, payload) ← variant j
  match name with
  | "success" => if isUnit payload then some .success else none
  | "timeout" => if isUnit payload then some .timeout else none
  | "failure" =>
    let fs ← struct ["error"] payload
    pure (.failure (← need fs "error" text))
  | _ => none

/-- A reading from the host. -/
def observation : Reader Observation := fun j => do
  let (name, payload) ← variant j
  match name with
  | "delegation" =>
    let fs ← struct ["validator", "amount"] payload
    pure (.delegation (← need fs "validator" text) (← need fs "amount" amount))
  | "rewards" =>
    let fs ← struct ["amount"] payload
    pure (.rewards (← need fs "amount" amount))
  | _ => none

/-- A privileged message. -/
def sudoMsg : Reader SudoMsg := fun j => do
  let (name, payload) ← variant j
  match name with
  | "end_block" => do let _ ← struct [] payload; pure .endBlock
  | "apply_proposal" =>
    let fs ← struct ["proposal"] payload
    pure (.applyProposal (← need fs "proposal" proposal))
  | "ica_open_ack" =>
    let fs ← struct ["owner_id", "address"] payload
    pure (.openAck (← need fs "owner_id" text) (← need fs "address" text))
  | "ica_channel_closed" =>
    let fs ← struct ["owner_id"] payload
    pure (.channelClosed (← need fs "owner_id" text))
  | "ica_packet_result" =>
    let fs ← struct ["owner_id", "sequence", "outcome"] payload
    pure (.packetResult (← need fs "owner_id" text) (← need fs "sequence" u64)
      (← need fs "outcome" packetOutcome))
  | "host_observation" =>
    let fs ← struct ["observation"] payload
    pure (.observe (← need fs "observation" observation))
  | _ => none

/-- A query. -/
def queryMsg : Reader QueryMsg := fun j => do
  let (name, payload) ← variant j
  let plain := fun (q : QueryMsg) => do let _ ← struct [] payload; pure q
  match name with
  | "config" => plain .config
  | "host_chain_params" => plain .hostChainParams
  | "allow_listed_validators" => plain .allowListedValidators
  | "host_accounts" => plain .hostAccounts
  | "module_state" => plain .moduleState
  | "net_amount_state" => plain .netAmountState
  | "c_value" => plain .cValue
  | "liquid_validators" => plain .liquidValidators
  | "unbonding_records" =>
    let fs ← struct ["owner"] payload
    pure (.unbondingRecords (← need fs "owner" text))
  | "claimable" =>
    let fs ← struct ["owner"] payload
    pure (.claimable (← need fs "owner" text))
  | "outbound_instruction" =>
    let fs ← struct ["owner_id", "sequence"] payload
    pure (.outboundInstruction (← need fs "owner_id" text) (← need fs "sequence" u64))
  | "validate_proposal" =>
    let fs ← struct ["proposal"] payload
    pure (.validateProposal (← need fs "proposal" proposal))
  | "deposit_denom" => plain .depositDenom
  | "balance" =>
    let fs ← struct ["address"] payload
    pure (.balance (← need fs "address" text))
  | "token_info" => plain .tokenInfo
  | "allowance" =>
    let fs ← struct ["owner", "spender"] payload
    pure (.allowance (← need fs "owner" text) (← need fs "spender" text))
  | _ => none

end LiquidStaking.Wire
