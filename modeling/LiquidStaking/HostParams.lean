import LiquidStaking.Fees

/-! # Host chain parameters

What registration records about the host chain: its chain and connection identifiers, the
transfer channel and port, the base denomination and the derivative's denomination, the
minimum deposit and the fee schedule. A fee address can be set before registration; the
record then holds that address and empty or zero everything else, and counts as
unregistered.
-/
namespace LiquidStaking

/-- The registered description of the host chain. -/
structure HostParams where
  chainId : String
  connectionId : String
  transferChannel : String
  transferPort : String
  baseDenom : String
  mintDenom : String
  minDeposit : Amount
  fees : FeeSchedule
deriving DecidableEq, Inhabited

namespace HostParams

/-- Whether an identifying field or the fee address is empty: such a record is no
registration. -/
def hasMissingField (p : HostParams) : Bool :=
  p.chainId.isEmpty || p.connectionId.isEmpty || p.transferChannel.isEmpty ||
    p.transferPort.isEmpty || p.baseDenom.isEmpty || p.mintDenom.isEmpty ||
    p.fees.address.isEmpty

/-- The record holding only a fee address, stored before registration. -/
def placeholder (feeAddress : String) : HostParams :=
  ⟨"", "", "", "", "", "", Amount.zero,
    ⟨⟨Decimal.zero, Decimal.zero, Decimal.zero, Decimal.zero⟩, feeAddress⟩⟩

end HostParams

end LiquidStaking
