import LiquidStaking.Amount

/-! # Largest-remainder apportionment

Splitting a total in proportion to integer shares. Each share first gets the floor of its
exact portion `total · s / S`, where `S` is the sum of the shares; the units left over go
one each to the shares with the largest remainders `total · s mod S`, a tie going to the
smaller key in byte order and then to the earlier entry. The parts keep the input order and
sum to exactly the total. With a share sum of zero there is nothing to split into and the
result is empty.
-/
namespace LiquidStaking.Apportion

/-- A share's floor and remainder, with its key. -/
structure Portion where
  key : String
  floor : Nat
  remainder : Nat

/-- The floors and remainders of the shares of a total. -/
def portions (total : Nat) (shares : List (String × Nat)) : List Portion :=
  let sum := (shares.map Prod.snd).foldr (· + ·) 0
  shares.map fun (k, s) => ⟨k, total * s / sum, total * s % sum⟩

/-- Whether the portion at index `i` comes no later than the one at `j` in the order the
leftover units are handed out: larger remainder first, then smaller key. -/
def precedes (ps : List Portion) (i j : Nat) : Bool :=
  let a := ps.getD i ⟨"", 0, 0⟩
  let b := ps.getD j ⟨"", 0, 0⟩
  b.remainder < a.remainder || (a.remainder == b.remainder && compare a.key b.key != .gt)

/-- The indices of the portions in the order leftover units are handed out. -/
def order (ps : List Portion) : List Nat :=
  (List.range ps.length).mergeSort (precedes ps)

/-- The parts of a total split in proportion to shares. -/
def parts (total : Nat) (shares : List (String × Nat)) : List (String × Nat) :=
  if (shares.map Prod.snd).foldr (· + ·) 0 = 0 then [] else
  let ps := portions total shares
  let leftover := total - (ps.map Portion.floor).foldr (· + ·) 0
  let bonus := (order ps).take leftover
  (List.range ps.length).zipWith
    (fun i p => (p.key, if bonus.contains i then p.floor + 1 else p.floor)) ps

end Apportion

/-- The amount nearest to a natural number: itself when in range, the largest amount
otherwise. -/
def Amount.saturate (n : Nat) : Amount := (Amount.ofNat? n).getD Amount.max

/-- Splits an amount in proportion to amount shares, by largest remainders. Every part is at
most the total, so it is an amount. -/
def Amount.apportion (total : Amount) (shares : List (String × Amount)) : List (String × Amount) :=
  (Apportion.parts total.toNat (shares.map fun (k, s) => (k, s.toNat))).map
    fun (k, p) => (k, Amount.saturate p)

end LiquidStaking
