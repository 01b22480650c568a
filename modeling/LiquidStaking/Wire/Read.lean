import LiquidStaking.Wire.Json
import LiquidStaking.Decimal
import LiquidStaking.Timestamp
import LiquidStaking.Text.Base64
import LiquidStaking.Target
import LiquidStaking.HostMsg

/-! # Reading JSON

Readers turn JSON into the module's values and refuse any other shape. Amounts, decimals and
timestamps are strings of their text; small integers are JSON numbers in range; binary data
is a base64 string. A record accepts exactly its known fields: each required field present,
each optional field present, absent or null, and no other field. An enumeration value is
an object with one field named for the variant, or for a variant without fields also the
bare name.
-/
namespace LiquidStaking.Wire

/-- A reader of one kind of value; `none` when the JSON has another shape. -/
abbrev Reader (α : Type) := Json → Option α

/-- A string. -/
def text : Reader String
  | .str s => some s
  | _ => none

/-- An amount, as the string of its numeral. -/
def amount : Reader Amount
  | .str s => Amount.ofText? s
  | _ => none

/-- A decimal, as the string of its text. -/
def decimal : Reader Decimal
  | .str s => Decimal.ofText? s
  | _ => none

/-- A timestamp, as the string of its nanoseconds. -/
def timestamp : Reader Timestamp
  | .str s => Timestamp.ofText? s
  | _ => none

/-- A boolean. -/
def bool : Reader Bool
  | .bool b => some b
  | _ => none

/-- A whole number below a bound. -/
def natBelow (bound : Nat) : Reader Nat
  | .num m 0 => if 0 ≤ m ∧ m < bound then some m.toNat else none
  | _ => none

/-- An unsigned 64-bit number. -/
def u64 : Reader Nat := natBelow 18446744073709551616

/-- An unsigned 32-bit number. -/
def u32 : Reader Nat := natBelow 4294967296

/-- An unsigned 8-bit number. -/
def u8 : Reader Nat := natBelow 256

/-- An array of values of one kind. -/
def list {α : Type} (r : Reader α) : Reader (List α)
  | .arr xs => xs.mapM r
  | _ => none

/-- Binary data, as canonical base64. -/
def binary : Reader (List UInt8)
  | .str s => Base64.decode? s
  | _ => none

/-- A two-element array. -/
def pair {α β : Type} (ra : Reader α) (rb : Reader β) : Reader (α × β)
  | .arr [a, b] => do pure (← ra a, ← rb b)
  | _ => none

/-- The fields of an object whose field names are all known. -/
def record (known : List String) : Reader (List (String × Json))
  | .obj fs => if fs.all (fun f => known.contains f.1) then some fs else none
  | _ => none

/-- The fields of an object, whatever their names. -/
def anyRecord : Reader (List (String × Json))
  | .obj fs => some fs
  | _ => none

/-- A required field. -/
def need {α : Type} (fs : List (String × Json)) (name : String) (r : Reader α) : Option α :=
  fs.lookup name >>= r

/-- An optional field: absent and null both read as `none`. -/
def opt {α : Type} (fs : List (String × Json)) (name : String) (r : Reader α) :
    Option (Option α) :=
  match fs.lookup name with
  | none => some none
  | some .null => some none
  | some j => (r j).map some

/-- An enumeration value: the variant's name and its payload, if written as an object. -/
def variant : Reader (String × Option Json)
  | .str s => some (s, none)
  | .obj [(k, v)] => some (k, some v)
  | _ => none

/-- Whether a payload fits a variant without fields: only the bare name does, so an
object that carries the name with any value, `null` included, is refused. -/
def isUnit : Option Json → Bool
  | none => true
  | some _ => false

/-- The payload of a variant with named fields, as its record. -/
def struct (known : List String) : Option Json → Option (List (String × Json))
  | some j => record known j
  | none => none

/-- An allow-listed validator. -/
def target : Reader Target := fun j => do
  let fs ← record ["validator_address", "target_weight"] j
  pure ⟨← need fs "validator_address" text, ← need fs "target_weight" decimal⟩

/-- A ledger operation. -/
def hostMsg : Reader HostMsg := fun j => do
  let (name, payload) ← variant j
  match name with
  | "delegate" =>
    let fs ← struct ["validator", "amount"] payload
    pure (.delegate (← need fs "validator" text) (← need fs "amount" amount))
  | "undelegate" =>
    let fs ← struct ["validator", "amount"] payload
    pure (.undelegate (← need fs "validator" text) (← need fs "amount" amount))
  | "begin_redelegate" =>
    let fs ← struct ["src_validator", "dst_validator", "amount"] payload
    pure (.redelegate (← need fs "src_validator" text) (← need fs "dst_validator" text)
      (← need fs "amount" amount))
  | "withdraw_rewards" =>
    let fs ← struct ["validator"] payload
    pure (.withdrawRewards (← need fs "validator" text))
  | "set_withdraw_address" =>
    let fs ← struct ["address"] payload
    pure (.setWithdrawAddress (← need fs "address" text))
  | "send_to_delegator" =>
    let fs ← struct ["amount"] payload
    pure (.sendToDelegator (← need fs "amount" amount))
  | "transfer_to_controller" =>
    let fs ← struct ["amount"] payload
    pure (.transferToController (← need fs "amount" amount))
  | _ => none

end LiquidStaking.Wire
