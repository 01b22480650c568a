import LiquidStaking.Tx
import LiquidStaking.Wire.Json
import LiquidStaking.Text.Base64

/-! # The derivative token

The derivative is a fungible token ledger kept inside the module: balances by holder, a
total supply and allowances by owner and spender. The module alone mints; holders transfer,
send to contracts and let spenders move their tokens.

Errors of the ledger are token errors. A balance or allowance that would go below zero is
a checked overflow; a supply or balance that would go past the amount range aborts. Zero
amounts are allowed everywhere. Inside the module's own operations a zero mint, burn or
transfer is skipped.
-/
namespace LiquidStaking.Token

open Tx

/-- Rejects with a token error. -/
def fail {α : Type} (e : TokenError) : Tx α := reject (.token e)

/-- A value, or the rejection with a token error wrapping a base error. -/
def ofBase {α : Type} : Except BaseError α → Tx α
  | .ok a => pure a
  | .error e => fail (.base e)

/-- A holder's balance; zero when it has none. -/
def balanceOf (s : State) (holder : String) : Amount := s.balances.getD holder Amount.zero

/-- A balance less an amount; a checked overflow below zero. -/
def debit (holder : String) (amount : Amount) : Tx Unit := do
  let bal := balanceOf (← get) holder
  match bal.sub? amount with
  | some b => modify fun s => { s with balances := s.balances.insert holder b }
  | none => fail (.base (.overflow .sub bal.toNat amount.toNat))

/-- A balance plus an amount; aborts past the range. -/
def credit (holder : String) (amount : Amount) : Tx Unit := do
  let b ← add (balanceOf (← get) holder) amount
  modify fun s => { s with balances := s.balances.insert holder b }

/-- The token description; missing before the module is created. -/
def info : Tx TokenInfo := do
  match (← get).token with
  | some t => pure t
  | none => fail (.base (.notFound none))

/-- Mints to a recipient: the supply grows, the recipient is checked, the balance grows. -/
def mint (recipient : String) (amount : Amount) : Tx Unit := do
  let some t := (← get).token | fail .unauthorized
  let supply ← add t.totalSupply amount
  modify fun s => { s with token := some { t with totalSupply := supply } }
  let rcpt ← ofBase (Address.validate recipient)
  credit rcpt amount

/-- Burns from a holder: the balance, then the supply, shrink. -/
def burn (holder : String) (amount : Amount) : Tx Unit := do
  debit holder amount
  let t ← info
  match t.totalSupply.sub? amount with
  | some supply => modify fun s => { s with token := some { t with totalSupply := supply } }
  | none => fail (.base (.overflow .sub t.totalSupply.toNat amount.toNat))

/-- Moves tokens: the recipient is checked, the sender debited, the recipient credited. -/
def move (sender recipient : String) (amount : Amount) : Tx Unit := do
  let rcpt ← ofBase (Address.validate recipient)
  debit sender amount
  credit rcpt amount

/-- The module mints to a holder; nothing for zero. -/
def mintDerivative (recipient : String) (amount : Amount) : Tx Unit :=
  if amount.isZero then pure () else mint recipient amount

/-- The module burns a holder's tokens; nothing for zero. -/
def burnDerivative (holder : String) (amount : Amount) : Tx Unit :=
  if amount.isZero then pure () else burn holder amount

/-- The module moves a holder's tokens; nothing for zero. -/
def transferDerivative (sender recipient : String) (amount : Amount) : Tx Unit :=
  if amount.isZero then pure () else move sender recipient amount

/-- The message a receiving contract gets: who sent, how much, and the attached message. -/
def receiveMsg (sender : String) (amount : Amount) (msg : List UInt8) : List UInt8 :=
  (Json.render (.obj [("receive", .obj [("sender", .str sender), ("amount", .str amount.toText),
    ("msg", .str (Base64.encode msg))])])).toUTF8.toList

/-- A holder transfers tokens. -/
def transfer (sender recipient : String) (amount : Amount) : Tx Response := do
  move sender recipient amount
  pure (Response.empty.attr "action" "transfer" |>.attr "from" sender |>.attr "to" recipient
    |>.attr "amount" amount.toText)

/-- A holder sends tokens to a contract, which is told of the receipt. -/
def send (sender contract : String) (amount : Amount) (msg : List UInt8) : Tx Response := do
  move sender contract amount
  pure (Response.empty.attr "action" "send" |>.attr "from" sender |>.attr "to" contract
    |>.attr "amount" amount.toText
    |>.message (.wasmExecute contract (receiveMsg sender amount msg) []))

/-- An allowance; none is zero that never expires. -/
def allowanceOf (s : State) (owner spender : String) : Allowance :=
  s.allowances.getD (owner, spender) ⟨Amount.zero, .never⟩

/-- A holder raises a spender's allowance, optionally setting a new expiration. -/
def increaseAllowance (block : Block) (owner spender : String) (amount : Amount)
    (expires : Option Expiration) : Tx Response := do
  let spender' ← ofBase (Address.validate spender)
  if spender' == owner then fail .cannotSetOwnAccount
  let current := allowanceOf (← get) owner spender'
  let expiry ← match expires with
    | some e => if e.isExpired block then fail .invalidExpiration else pure e
    | none => pure current.expires
  let raised ← add current.amount amount
  modify fun s => { s with allowances := s.allowances.insert (owner, spender') ⟨raised, expiry⟩ }
  pure (Response.empty.attr "action" "increase_allowance" |>.attr "owner" owner
    |>.attr "spender" spender |>.attr "amount" amount.toText)

/-- A holder lowers a spender's allowance, removing it when it would reach zero. -/
def decreaseAllowance (block : Block) (owner spender : String) (amount : Amount)
    (expires : Option Expiration) : Tx Response := do
  let spender' ← ofBase (Address.validate spender)
  if spender' == owner then fail .cannotSetOwnAccount
  let some current := (← get).allowances.get? (owner, spender') | fail (.base (.notFound none))
  if amount < current.amount then
    let lowered := current.amount.satSub amount
    let expiry ← match expires with
      | some e => if e.isExpired block then fail .invalidExpiration else pure e
      | none => pure current.expires
    modify fun s =>
      { s with allowances := s.allowances.insert (owner, spender') ⟨lowered, expiry⟩ }
  else
    modify fun s => { s with allowances := s.allowances.erase (owner, spender') }
  pure (Response.empty.attr "action" "decrease_allowance" |>.attr "owner" owner
    |>.attr "spender" spender |>.attr "amount" amount.toText)

/-- Uses up part of an allowance: missing, expired or too small refuses. -/
def deductAllowance (block : Block) (owner spender : String) (amount : Amount) : Tx Unit := do
  let some current := (← get).allowances.get? (owner, spender) | fail .noAllowance
  if current.expires.isExpired block then fail .expired
  match current.amount.sub? amount with
  | some rest =>
    modify fun s => { s with allowances := s.allowances.insert (owner, spender) ⟨rest, current.expires⟩ }
  | none => fail (.base (.overflow .sub current.amount.toNat amount.toNat))

/-- A spender moves tokens out of an owner's balance. -/
def transferFrom (block : Block) (spender owner recipient : String) (amount : Amount) :
    Tx Response := do
  let rcpt ← ofBase (Address.validate recipient)
  let owner' ← ofBase (Address.validate owner)
  deductAllowance block owner' spender amount
  debit owner' amount
  credit rcpt amount
  pure (Response.empty.attr "action" "transfer_from" |>.attr "from" owner
    |>.attr "to" recipient |>.attr "by" spender |>.attr "amount" amount.toText)

/-- A spender sends tokens out of an owner's balance to a contract. -/
def sendFrom (block : Block) (spender owner contract : String) (amount : Amount)
    (msg : List UInt8) : Tx Response := do
  let rcpt ← ofBase (Address.validate contract)
  let owner' ← ofBase (Address.validate owner)
  deductAllowance block owner' spender amount
  debit owner' amount
  credit rcpt amount
  pure (Response.empty.message (.wasmExecute contract (receiveMsg spender amount msg) [])
    |>.attr "action" "send_from" |>.attr "from" owner |>.attr "to" contract
    |>.attr "by" spender |>.attr "amount" amount.toText)

end LiquidStaking.Token
