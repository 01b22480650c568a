import LiquidStaking.Wire.Write
import LiquidStaking.Session

/-! # Writing answers

The module's records, query answers and state as JSON. Records are objects named by their
fields; enumerations are externally tagged, a variant without fields as its bare name. The
state is written item by item, maps keyed by text as objects and the others as arrays in
key order; token balances of zero are left out.
-/
namespace LiquidStaking.Wire

/-- A map keyed by text, as an object. -/
def ofTable {α : Type} (f : α → Json) (t : Table String α) : Json :=
  .obj (t.toList.map fun (k, v) => (k, f v))

/-- The configuration. -/
def ofConfig (c : Config) : Json :=
  .obj [("admin", .str c.admin), ("ledger", .str c.ledger.name),
    ("unbonding_period", .nat c.unbondingPeriod), ("max_redelegations", .nat c.maxRedelegations),
    ("transport", ofOption .str c.transport), ("packet_timeout", .nat c.packetTimeout)]

/-- The host chain parameters. -/
def ofHostParams (p : HostParams) : Json :=
  .obj [("chain_id", .str p.chainId), ("connection_id", .str p.connectionId),
    ("transfer_channel", .str p.transferChannel), ("transfer_port", .str p.transferPort),
    ("base_denom", .str p.baseDenom), ("mint_denom", .str p.mintDenom),
    ("min_deposit", ofAmount p.minDeposit),
    ("fees", .obj [("deposit_fee", ofDecimal p.fees.rates.deposit),
      ("restake_fee", ofDecimal p.fees.rates.restake),
      ("unstake_fee", ofDecimal p.fees.rates.unstake),
      ("redemption_fee", ofDecimal p.fees.rates.redemption),
      ("fee_address", .str p.fees.address)])]

/-- An allow-listed validator. -/
def ofTarget (t : Target) : Json :=
  .obj [("validator_address", .str t.validator), ("target_weight", ofDecimal t.weight)]

/-- A host account. -/
def ofHostAccount (a : HostAccount) : Json :=
  .obj [("owner_id", .str a.ownerId), ("address", ofOption .str a.address),
    ("status", .str a.status.name), ("next_sequence", .nat a.nextSequence),
    ("pending", ofOption .nat a.pending)]

/-- Both host accounts. -/
def ofHostAccounts (a : HostAccounts) : Json :=
  .obj [("delegator", ofHostAccount a.delegator), ("rewards", ofHostAccount a.rewards)]

/-- What an instruction did when it was sent. -/
def ofInstructionKind : InstructionKind → Json
  | .setup => .str "setup"
  | .restake amount => .obj [("restake", .obj [("amount", ofAmount amount)])]
  | .cycle shipped returning =>
    .obj [("cycle", .obj [("shipped", ofAmount shipped),
      ("returning", .arr (returning.map .nat))])]
  | .unstake owner recordId burned =>
    .obj [("unstake", .obj [("owner", .str owner), ("record_id", .nat recordId),
      ("burned", ofAmount burned)])]

/-- An outbound instruction. -/
def ofInstruction (i : Instruction) : Json :=
  .obj [("owner_id", .str i.ownerId), ("sequence", .nat i.sequence),
    ("msgs", .arr (i.msgs.map HostMsg.toJson)), ("kind", ofInstructionKind i.kind),
    ("sent_at", ofTimestamp i.sentAt)]

/-- An allowance's expiration. -/
def ofExpiration : Expiration → Json
  | .atHeight h => .obj [("at_height", .nat h)]
  | .atTime t => .obj [("at_time", ofTimestamp t)]
  | .never => .obj [("never", .obj [])]

/-- An allowance. -/
def ofAllowance (a : Allowance) : Json :=
  .obj [("allowance", ofAmount a.amount), ("expires", ofExpiration a.expires)]

/-- The derivative token's description. -/
def ofTokenInfo (t : TokenInfo) : Json :=
  .obj [("name", .str t.name), ("symbol", .str t.symbol), ("decimals", .nat t.decimals),
    ("total_supply", ofAmount t.totalSupply)]

/-- The module's accounting. -/
def ofNetAmountState (n : NetAmountState) : Json :=
  .obj [("total_delegated", ofAmount n.totalDelegated),
    ("total_rewards", ofAmount n.totalRewards),
    ("total_pending_deposits", ofAmount n.totalPendingDeposits),
    ("total_host_idle", ofAmount n.totalHostIdle),
    ("total_derivative_supply", ofAmount n.totalSupply),
    ("total_unbonding", ofAmount n.totalUnbonding),
    ("total_claimable", ofAmount n.totalClaimable),
    ("net_value", ofAmount n.netValue), ("c_value", ofDecimal n.cValue),
    ("exchange_rate", ofDecimal n.exchangeRate)]

/-- A validator of the validator view. -/
def ofLiquidValidator (v : LiquidValidator) : Json :=
  .obj [("validator_address", .str v.address), ("delegated_amount", ofAmount v.delegated),
    ("target_weight", ofDecimal v.weight),
    ("status", .str (if v.active then "active" else "inactive"))]

/-- The answer to a query. -/
def ofQueryAnswer : QueryAnswer → Json
  | .config c => ofConfig c
  | .hostChainParams p => ofHostParams p
  | .allowList ts => .arr (ts.map ofTarget)
  | .hostAccounts a => ofOption ofHostAccounts a
  | .moduleState enabled => .obj [("enabled", .bool enabled)]
  | .netAmountState n => ofNetAmountState n
  | .cValue c e => .obj [("c_value", ofDecimal c), ("exchange_rate", ofDecimal e)]
  | .liquidValidators vs => .obj [("validators", .arr (vs.map ofLiquidValidator))]
  | .unbondingRecords owner rs =>
    .obj [("owner", .str owner), ("records", .arr (rs.map fun r =>
      .obj [("id", .nat r.id), ("amount", ofAmount r.amount),
        ("maturity", ofTimestamp r.maturity)]))]
  | .claimable a => .obj [("amount", ofAmount a)]
  | .outboundInstruction i => ofOption ofInstruction i
  | .proposalCheck valid error => .obj [("valid", .bool valid), ("error", ofOption .str error)]
  | .depositDenom d => .obj [("denom", .str d)]
  | .balance a => .obj [("balance", ofAmount a)]
  | .tokenInfo t => ofTokenInfo t
  | .allowance a => ofAllowance a

/-- The state, item by item. -/
def ofState (s : State) : Json :=
  .obj [("enabled", ofOption .bool s.enabled),
    ("params", ofOption ofHostParams s.params),
    ("allow_list", ofOption (fun ts => .arr (ts.map ofTarget)) s.allowList),
    ("token", ofOption ofTokenInfo s.token),
    ("balances", ofTable ofAmount (s.balances.filter fun _ a => !a.isZero)),
    ("allowances", .arr (s.allowances.toList.map fun ((o, sp), a) =>
      .obj [("owner", .str o), ("spender", .str sp), ("allowance", ofAllowance a)])),
    ("pending_deposits", ofAmount s.pendingDeposits),
    ("host_idle", ofAmount s.hostIdle),
    ("host_rewards", ofAmount s.hostRewards),
    ("claim_reserve", ofAmount s.claimReserve),
    ("delegations", ofTable ofAmount s.delegations),
    ("observed_delegations", ofTable ofAmount s.observed),
    ("cooldowns", ofTable ofTimestamp s.cooldowns),
    ("records", .arr (s.records.toList.map fun ((o, id), r) =>
      .obj [("owner", .str o), ("id", .nat id), ("amount", ofAmount r.amount),
        ("maturity", ofTimestamp r.maturity)])),
    ("batches", .arr (s.batches.toList.map fun (m, b) =>
      .obj [("maturity", .nat m), ("amount", ofAmount b.amount),
        ("status", .str b.status.name)])),
    ("accounts", ofOption ofHostAccounts s.accounts),
    ("outbound", .arr (s.outbound.toList.map fun (_, i) => ofInstruction i)),
    ("reply_contexts", .arr (s.replies.toList.map fun (id, m) =>
      .obj [("id", .nat id), ("msg", HostMsg.toJson m)]))]

/-- The answer for a step's outcome. -/
def ofOutcome : Outcome → Json
  | .committed r debug s =>
    .obj ([("ok", ofResponse r), ("state", ofState s)] ++
      (if debug.isEmpty then [] else [("debug", .arr (debug.map .str))]))
  | .failed f => ofFailure f
  | .answered a => okAnswer (ofQueryAnswer a)
  | .clock b => okAnswer (.obj [("time", ofTimestamp b.time), ("height", .nat b.height)])
  | .refused .timeOverflow => errorAnswer "BadInput" (some "time overflow")
  | .viewSet => okAnswer .null

end LiquidStaking.Wire
