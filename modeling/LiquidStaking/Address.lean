import LiquidStaking.Error
import LiquidStaking.Text.Lowercase

/-! # Addresses

The chain accepts a human-readable address when it is 3 to 90 bytes long and survives its
round trip through the stored form unchanged. The stored form is the encoding of the
address's lowercase form, cut or padded with zero bytes to 90 bytes; reading it back drops
the zero bytes and decodes the rest. So an address with an uppercase letter or a NUL
character is refused as not normalized, and one whose lowercase form outgrows 90 bytes in
the middle of a character cannot be read back at all. The length checks come first.
Senders of messages arrive already accepted; addresses named inside messages are checked
here.
-/
namespace LiquidStaking.Address

/-- The shortest address, in bytes. -/
def minLength : Nat := 3

/-- The longest address, in bytes, and the size of the stored form. -/
def maxLength : Nat := 90

/-- The characters that fit whole into `budget` bytes, and whether the next character is
cut by the limit. -/
def fitBytes : Nat → List Char → List Char × Bool
  | _, [] => ([], false)
  | budget, c :: cs =>
    if c.utf8Size ≤ budget then
      let rest := fitBytes (budget - c.utf8Size) cs
      (c :: rest.1, rest.2)
    else ([], 0 < budget)

/-- The number of bytes that encode the characters. -/
def byteSize (cs : List Char) : Nat := (cs.map Char.utf8Size).foldr (· + ·) 0

/-- What reading back the stored form of an address gives: the text, or, when the limit
cuts a character, the number of well-formed bytes before it. -/
def readBack (s : String) : Except BaseError String :=
  let kept := fitBytes maxLength (Lowercase.text s)
  let visible := kept.1.filter (· != Char.ofNat 0)
  if kept.2 then .error (.invalidUtf8 (byteSize visible)) else .ok (String.ofList visible)

/-- Accepts an address unchanged, or says why it is refused. -/
def validate (s : String) : Except BaseError String :=
  let n := s.utf8ByteSize
  if n < minLength then
    .error (.generic ("Invalid input: human address too short for this mock implementation " ++
      "(must be >= " ++ Numeral.write minLength ++ ")."))
  else if n > maxLength then
    .error (.generic ("Invalid input: human address too long for this mock implementation " ++
      "(must be <= " ++ Numeral.write maxLength ++ ")."))
  else do
    let back ← readBack s
    if back != s then .error (.generic "Invalid input: address not normalized") else .ok s

end LiquidStaking.Address
