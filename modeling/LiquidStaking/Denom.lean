import LiquidStaking.Config
import LiquidStaking.HostParams
import LiquidStaking.Hash.Sha256

/-! # Denominations

The derivative's denomination is `stk/` followed by the base denomination. On the
interchain ledger the base asset reaches this chain as a transfer voucher named `ibc/`
followed by the uppercase hexadecimal SHA-256 digest of `port/channel/base`.
-/
namespace LiquidStaking.Denom

/-- The prefix of the derivative's denomination. -/
def mintPrefix : String := "stk/"

/-- The derivative's denomination for a base denomination. -/
def mintDenom (base : String) : String := mintPrefix ++ base

/-- The voucher denomination of a base denomination received over a port and channel. -/
def ibcDenom (port channel base : String) : String :=
  "ibc/" ++ Sha256.hexUpper (Sha256.digest (port ++ "/" ++ channel ++ "/" ++ base).toUTF8.toList)

/-- The denomination deposits arrive in and redemptions and claims pay out. -/
def depositDenom (ledger : LedgerKind) (p : HostParams) : String :=
  match ledger with
  | .native => p.baseDenom
  | .interchain => ibcDenom p.transferPort p.transferChannel p.baseDenom

end LiquidStaking.Denom
