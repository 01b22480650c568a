import LiquidStaking.Admin
import LiquidStaking.Governance
import LiquidStaking.Deposit
import LiquidStaking.Exit

/-! # Entry points

The module's entry points, each one transaction: creation, the execute messages of users
and the administrator, the chain's privileged messages, submessage replies and migration.
Privileged messages and replies also give the diagnostic lines they wrote.

Creation checks the administrator's and the transport's addresses, that the interchain
ledger has a transport, and that the unbonding period is positive; it enables the module,
empties the escrow and creates the derivative token with the module as its only minter,
under a provisional name until registration renames it after the mint denomination.
-/
namespace LiquidStaking.Contract

open Tx

/-- The derivative's name until registration. -/
def provisionalName : String := "liquid staking derivative"

/-- The derivative's symbol until registration. -/
def provisionalSymbol : String := "stk"

/-- The version migration reports. -/
def version : String := "0.1.0"

/-- Creates the module. -/
def instantiate (m : InstantiateMsg) : Tx Response := do
  let admin ← validateAddress m.admin
  let transport ← match m.transport with
    | some t => some <$> validateAddress t
    | none => pure none
  if m.ledger == .interchain && transport.isNone then reject .missingTransport
  if m.unbondingPeriod == 0 then reject .zeroUnbondingPeriod
  let config : Config := ⟨admin, m.ledger, m.unbondingPeriod,
    m.maxRedelegations.getD Config.defaultMaxRedelegations, transport,
    m.packetTimeout.getD Config.defaultPacketTimeout⟩
  let token : TokenInfo := ⟨provisionalName, provisionalSymbol,
    m.tokenDecimals.getD Config.defaultTokenDecimals, Amount.zero⟩
  modify fun s => { s with
    config := some config, enabled := some true, pendingDeposits := Amount.zero,
    token := some token }
  pure (Response.empty.attr "method" "instantiate" |>.attr "admin" config.admin
    |>.attr "ledger" config.ledger.name
    |>.attr "unbonding_period" (Numeral.write config.unbondingPeriod)
    |>.attr "max_redelegations" (Numeral.write config.maxRedelegations))

/-- Runs an execute message from a sender with attached funds. -/
def execute (env : Env) (sender : String) (funds : List Coin) : ExecuteMsg → Tx Response
  | .liquidStake => Deposit.liquidStake env sender funds
  | .liquidUnstake amount => Exit.liquidUnstake env sender amount
  | .redeem amount => Exit.redeem env sender amount
  | .claim => Exit.claim env sender
  | .jumpStart m => Admin.jumpStart sender m
  | .recreateIca => Admin.recreateIca sender
  | .changeModuleState enabled => Admin.changeModuleState sender enabled
  | .reportSlashing validator => Admin.reportSlashing env sender validator
  | .transfer recipient amount => Token.transfer sender recipient amount
  | .send contract amount msg => Token.send sender contract amount msg
  | .increaseAllowance spender amount expires =>
    Token.increaseAllowance env.block sender spender amount expires
  | .decreaseAllowance spender amount expires =>
    Token.decreaseAllowance env.block sender spender amount expires
  | .transferFrom owner recipient amount =>
    Token.transferFrom env.block sender owner recipient amount
  | .sendFrom owner contract amount msg =>
    Token.sendFrom env.block sender owner contract amount msg

/-- Runs a privileged message from the chain. -/
def privileged (env : Env) : SudoMsg → Tx (Response × List String)
  | .endBlock => Cycle.endBlock env
  | .applyProposal p => Governance.apply env p
  | .openAck ownerId address => (·, []) <$> Transport.openAck env ownerId address
  | .channelClosed ownerId => (·, []) <$> Transport.channelClosed ownerId
  | .packetResult ownerId seq outcome => (·, []) <$> Transport.packetResult env ownerId seq outcome
  | .observe o => (·, []) <$> Transport.observe o

/-- Settles a submessage from its reply; `error` is the rejection, if any. -/
def reply (env : Env) (id : Nat) (error : Option String) : Tx (Response × List String) :=
  Cycle.handleReply env id error

/-- Migrates the module: an unset switch becomes enabled. -/
def migrate : Tx Response := do
  if (← get).enabled.isNone then modify fun s => { s with enabled := some true }
  pure (Response.empty.attr "action" "migrate" |>.attr "version" version)

end LiquidStaking.Contract
