/-! # Unsigned numerals

Decimal numerals as the module reads and writes them. A numeral read from text is an
optional leading plus sign followed by one or more ASCII digits; leading zeros are allowed.
A numeral written is the shortest digit string, or one padded with zeros to a width.
-/
namespace LiquidStaking.Numeral

/-- The value of one ASCII digit, or `none` for any other character. -/
def digit? (c : Char) : Option Nat :=
  if c.isDigit then some (c.toNat - '0'.toNat) else none

/-- The value of a digit string, most significant digit first; `none` when it is empty or
holds a character that is not a digit. -/
def digitsValue? : List Char → Option Nat
  | [] => none
  | c :: cs => (c :: cs).foldlM (fun acc d => (digit? d).map (acc * 10 + ·)) 0

/-- Reads an unsigned numeral: an optional `+`, then at least one digit. -/
def read? (cs : List Char) : Option Nat :=
  match cs with
  | '+' :: rest => digitsValue? rest
  | _ => digitsValue? cs

/-- The digits of `n` in decimal, most significant first, with no leading zero. -/
def digits (n : Nat) : List Char := Nat.toDigits 10 n

/-- Writes `n` in decimal. -/
def write (n : Nat) : String := String.ofList (digits n)

/-- Writes `n` in decimal with at least `width` digits, padding with zeros on the left. -/
def writePadded (width n : Nat) : List Char :=
  List.replicate (width - (digits n).length) '0' ++ digits n

end LiquidStaking.Numeral
