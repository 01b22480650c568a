/-! # Aborts

A transaction that meets an arithmetic fault aborts: its effects are dropped, as for a
rejection, and the answer names the fault instead of an error of the module. The faults are
an unsigned sum or product past its width, a difference below zero, and a floored ratio
whose result is past the amount range.
-/
namespace LiquidStaking

/-- An arithmetic fault that aborts the transaction. -/
inductive Abort
  /-- A sum past the width of its operands. -/
  | addOverflow
  /-- A difference below zero. -/
  | subOverflow
  /-- A product past the width of its operands. -/
  | mulOverflow
  /-- A floored ratio `⌊a · n / d⌋` past the amount range. -/
  | ratioOverflow
deriving DecidableEq, Inhabited

/-- The text the chain reports for an abort. -/
def Abort.message : Abort → String
  | .addOverflow => "attempt to add with overflow"
  | .subOverflow => "attempt to subtract with overflow"
  | .mulOverflow => "attempt to multiply with overflow"
  | .ratioOverflow => "Multiplication overflow"

end LiquidStaking
