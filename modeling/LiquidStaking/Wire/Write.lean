import LiquidStaking.Wire.Json
import LiquidStaking.Chain
import LiquidStaking.Error
import LiquidStaking.Text.Base64

/-! # Writing JSON

How the module's values are written as JSON: amounts, decimals and timestamps as strings of
their text, coins as `denom` and `amount`, chain messages as the object tree the chain
expects, a response with its messages, attributes and events, and a failure as its kind and,
when it has one that names no internal type, its text.
-/
namespace LiquidStaking.Wire

/-- An amount. -/
def ofAmount (a : Amount) : Json := .str a.toText

/-- A decimal. -/
def ofDecimal (x : Decimal) : Json := .str x.toText

/-- A timestamp. -/
def ofTimestamp (t : Timestamp) : Json := .str t.toText

/-- An optional value, null when absent. -/
def ofOption {α : Type} (f : α → Json) : Option α → Json
  | some a => f a
  | none => .null

/-- A coin. -/
def ofCoin (c : Coin) : Json := .obj [("denom", .str c.denom), ("amount", ofAmount c.amount)]

/-- A chain message. -/
def ofChainMsg : ChainMsg → Json
  | .bankSend dest amount =>
    .obj [("bank", .obj [("send", .obj [("to_address", .str dest),
      ("amount", .arr (amount.map ofCoin))])])]
  | .delegate v c =>
    .obj [("staking", .obj [("delegate", .obj [("validator", .str v), ("amount", ofCoin c)])])]
  | .undelegate v c =>
    .obj [("staking", .obj [("undelegate", .obj [("validator", .str v), ("amount", ofCoin c)])])]
  | .redelegate s d c =>
    .obj [("staking", .obj [("redelegate", .obj [("src_validator", .str s),
      ("dst_validator", .str d), ("amount", ofCoin c)])])]
  | .withdrawReward v =>
    .obj [("distribution", .obj [("withdraw_delegator_reward", .obj [("validator", .str v)])])]
  | .setWithdrawAddress a =>
    .obj [("distribution", .obj [("set_withdraw_address", .obj [("address", .str a)])])]
  | .wasmExecute c msg funds =>
    .obj [("wasm", .obj [("execute", .obj [("contract_addr", .str c),
      ("msg", .str (Base64.encode msg)), ("funds", .arr (funds.map ofCoin))])])]

/-- An attribute. -/
def ofAttribute (a : Attribute) : Json := .obj [("key", .str a.key), ("value", .str a.value)]

/-- A response. -/
def ofResponse (r : Response) : Json :=
  .obj [("messages", .arr (r.messages.map fun m =>
      .obj [("id", .nat m.id), ("msg", ofChainMsg m.msg), ("gas_limit", .null),
        ("reply_on", .str (match m.replyOn with | .never => "never" | .always => "always"))])),
    ("attributes", .arr (r.attributes.map ofAttribute)),
    ("events", .arr (r.events.map fun e =>
      .obj [("type", .str e.kind), ("attributes", .arr (e.attributes.map ofAttribute))])),
    ("data", .null)]

/-- Whether a text holds a type path separator `::`. -/
def namesPath : List Char → Bool
  | ':' :: ':' :: _ => true
  | _ :: rest => namesPath rest
  | [] => false

/-- An error answer: the kind, and the text when there is one. A text holding `::` names
internal types or storage keys and is left out. -/
def errorAnswer (kind : String) (message : Option String) : Json :=
  match message with
  | some m =>
    if namesPath m.toList then .obj [("error", .str kind)]
    else .obj [("error", .str kind), ("message", .str m)]
  | none => .obj [("error", .str kind)]

/-- A failed transaction or call. -/
def ofFailure (f : Failure) : Json := errorAnswer f.kind f.message

/-- A module error. -/
def ofError (e : Error) : Json := errorAnswer e.kind e.message

/-- A successful answer. -/
def okAnswer (j : Json) : Json := .obj [("ok", j)]

end LiquidStaking.Wire
