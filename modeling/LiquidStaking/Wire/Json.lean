import LiquidStaking.Numeral

/-! # JSON values

Messages reach the module as JSON and some of its output carries JSON text. A value is
null, a boolean, a number `mantissa · 10^-exponent`, a string, an array or an object whose
fields keep their order.

The printer writes compact JSON with fields in the order given. Strings escape the quote,
the backslash and the control characters: `\b`, `\t`, `\n`, `\f` and `\r` by name, the rest
as `\u00XX` with uppercase hexadecimal digits; every other character is written as itself.
-/
namespace LiquidStaking

/-- A JSON value. -/
inductive Json
  | null
  | bool (b : Bool)
  | num (mantissa : Int) (exponent : Nat)
  | str (s : String)
  | arr (items : List Json)
  | obj (fields : List (String × Json))
deriving Inhabited

namespace Json

/-- A natural number. -/
def nat (n : Nat) : Json := .num n 0

/-- An uppercase hexadecimal digit. -/
def hexDigit (n : Nat) : Char :=
  if n < 10 then Char.ofNat ('0'.toNat + n) else Char.ofNat ('A'.toNat + n - 10)

/-- The escaped form of one character inside a string. -/
def escapeChar (c : Char) : List Char :=
  match c with
  | '"' => ['\\', '"']
  | '\\' => ['\\', '\\']
  | '\x08' => ['\\', 'b']
  | '\t' => ['\\', 't']
  | '\n' => ['\\', 'n']
  | '\x0c' => ['\\', 'f']
  | '\r' => ['\\', 'r']
  | c =>
    if c.toNat < 0x20 then ['\\', 'u', '0', '0', hexDigit (c.toNat / 16), hexDigit (c.toNat % 16)]
    else [c]

/-- A string literal. -/
def quote (s : String) : String :=
  String.ofList ('"' :: s.toList.flatMap escapeChar ++ ['"'])

/-- The text of a number: its mantissa with the point placed by the exponent. -/
def renderNumber (m : Int) (e : Nat) : String :=
  if e = 0 then (if m < 0 then "-" else "") ++ Numeral.write m.natAbs
  else
    let digits := Numeral.writePadded (e + 1) m.natAbs
    let whole := digits.take (digits.length - e)
    let frac := digits.drop (digits.length - e)
    (if m < 0 then "-" else "") ++ String.ofList (whole ++ '.' :: frac)

mutual
/-- Compact JSON text. -/
def render : Json → String
  | .null => "null"
  | .bool b => if b then "true" else "false"
  | .num m e => renderNumber m e
  | .str s => quote s
  | .arr xs => "[" ++ renderItems xs ++ "]"
  | .obj fs => "\x7b" ++ renderFields fs ++ "\x7d"
/-- Array items separated by commas. -/
def renderItems : List Json → String
  | [] => ""
  | [x] => render x
  | x :: xs => render x ++ "," ++ renderItems xs
/-- Object fields separated by commas. -/
def renderFields : List (String × Json) → String
  | [] => ""
  | [(k, v)] => quote k ++ ":" ++ render v
  | (k, v) :: fs => quote k ++ ":" ++ render v ++ "," ++ renderFields fs
end

end Json

end LiquidStaking
