import LiquidStaking.Chain
import LiquidStaking.Error
import LiquidStaking.Wire.Json

/-! # Ledger operations

A ledger operation is what the module asks a staking ledger to do, in a form that does not
depend on the ledger. On the native ledger it becomes a staking or distribution message; on
the interchain ledger it travels inside an outbound instruction as JSON, each operation an
object named for it with its fields in a fixed order.
-/
namespace LiquidStaking

/-- An operation on a staking ledger. -/
inductive HostMsg
  | delegate (validator : String) (amount : Amount)
  | undelegate (validator : String) (amount : Amount)
  | redelegate (src dst : String) (amount : Amount)
  | withdrawRewards (validator : String)
  | setWithdrawAddress (address : String)
  /-- Move base from the rewards account to the delegator account. -/
  | sendToDelegator (amount : Amount)
  /-- Transfer base from the delegator account back to this chain. -/
  | transferToController (amount : Amount)
deriving DecidableEq, Inhabited

namespace HostMsg

/-- The operation's name in events and diagnostics. -/
def action : HostMsg → String
  | .delegate .. => "delegate"
  | .undelegate .. => "undelegate"
  | .redelegate .. => "redelegate"
  | .withdrawRewards _ => "withdraw_rewards"
  | .setWithdrawAddress _ => "set_withdraw_address"
  | .sendToDelegator _ => "send_to_delegator"
  | .transferToController _ => "transfer_to_controller"

/-- The native staking message for the operation, in the bonded denomination; account
transfers have none. -/
def toNative (m : HostMsg) (denom : String) : Except BaseError ChainMsg :=
  match m with
  | .delegate v a => .ok (.delegate v ⟨denom, a⟩)
  | .undelegate v a => .ok (.undelegate v ⟨denom, a⟩)
  | .redelegate s d a => .ok (.redelegate s d ⟨denom, a⟩)
  | .withdrawRewards v => .ok (.withdrawReward v)
  | .setWithdrawAddress a => .ok (.setWithdrawAddress a)
  | .sendToDelegator _ | .transferToController _ =>
    .error (.generic "account transfers have no native staking equivalent")

/-- The operation as JSON: an object named for it, fields in declaration order. -/
def toJson : HostMsg → Json
  | .delegate v a => .obj [("delegate", .obj [("validator", .str v), ("amount", .str a.toText)])]
  | .undelegate v a =>
    .obj [("undelegate", .obj [("validator", .str v), ("amount", .str a.toText)])]
  | .redelegate s d a =>
    .obj [("begin_redelegate", .obj [("src_validator", .str s), ("dst_validator", .str d),
      ("amount", .str a.toText)])]
  | .withdrawRewards v => .obj [("withdraw_rewards", .obj [("validator", .str v)])]
  | .setWithdrawAddress a => .obj [("set_withdraw_address", .obj [("address", .str a)])]
  | .sendToDelegator a => .obj [("send_to_delegator", .obj [("amount", .str a.toText)])]
  | .transferToController a =>
    .obj [("transfer_to_controller", .obj [("amount", .str a.toText)])]

end HostMsg

end LiquidStaking
