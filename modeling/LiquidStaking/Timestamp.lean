import LiquidStaking.Numeral
import LiquidStaking.Abort

/-! # Timestamps

A timestamp is a count of nanoseconds, an unsigned 64-bit quantity. Adding seconds first
turns them into nanoseconds and then adds, each step within 64 bits; a step past the width
aborts, the product as a multiplication fault and the sum as an addition fault.
-/
namespace LiquidStaking

/-- Every timestamp is below this bound, `2^64`. -/
def Timestamp.bound : Nat := 18446744073709551616

/-- Nanoseconds per second. -/
def Timestamp.nanosPerSecond : Nat := 1000000000

/-- A point in time, in nanoseconds. -/
structure Timestamp where
  nanos : Nat
deriving DecidableEq, Inhabited

namespace Timestamp

instance : LE Timestamp := ⟨fun a b => a.nanos ≤ b.nanos⟩
instance : LT Timestamp := ⟨fun a b => a.nanos < b.nanos⟩
instance (a b : Timestamp) : Decidable (a ≤ b) := inferInstanceAs (Decidable (a.nanos ≤ b.nanos))
instance (a b : Timestamp) : Decidable (a < b) := inferInstanceAs (Decidable (a.nanos < b.nanos))

/-- Whole seconds, rounded down. -/
def seconds (t : Timestamp) : Nat := t.nanos / nanosPerSecond

/-- The timestamp `secs` seconds later, or the abort when the nanoseconds leave 64 bits. -/
def plusSeconds (t : Timestamp) (secs : Nat) : Except Abort Timestamp :=
  let step := secs * nanosPerSecond
  if step < bound then
    if t.nanos + step < bound then .ok ⟨t.nanos + step⟩ else .error .addOverflow
  else .error .mulOverflow

/-- The nanoseconds written in decimal. -/
def toText (t : Timestamp) : String := Numeral.write t.nanos

/-- Reads nanoseconds from an unsigned numeral below `2^64`. -/
def ofText? (s : String) : Option Timestamp :=
  Numeral.read? s.toList >>= fun n => if n < bound then some ⟨n⟩ else none

end Timestamp

end LiquidStaking
