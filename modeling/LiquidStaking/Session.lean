import LiquidStaking.Contract
import LiquidStaking.Query

/-! # Sessions

A session is the module's state on a simulated chain: the current block and what the
staking module reports. A step either calls an entry point, as one transaction whose
failure leaves the state as it was, or queries the module, or moves the chain on: the
clock and height advance or are set, or the staking view is replaced. The clock refuses
to advance past the range of block times; the height stops at the largest one.

A session starts from empty storage at height 12345 with an empty staking view.
-/
namespace LiquidStaking

/-- A call into one of the module's transactional entry points. -/
inductive Call
  | instantiate (m : InstantiateMsg)
  | execute (sender : String) (funds : List Coin) (m : ExecuteMsg)
  | privileged (m : SudoMsg)
  | reply (id : Nat) (error : Option String)
  | migrate
deriving Inhabited

/-- One step of a session. -/
inductive Step
  | call (c : Call)
  | query (q : QueryMsg)
  | advance (seconds blocks : Nat)
  | setTime (time : Timestamp) (height : Option Nat)
  | chain (view : StakingView)
deriving Inhabited

/-- Why the chain refuses to move on. -/
inductive ClockFault
  /-- The block time would pass the last nanosecond that a timestamp holds. -/
  | timeOverflow
deriving DecidableEq, Inhabited

/-- What a step gave. -/
inductive Outcome
  /-- The call succeeded: its response, diagnostic lines and the new state. -/
  | committed (r : Response) (debug : List String) (s : State)
  /-- The call or query failed; the state is unchanged. -/
  | failed (f : Failure)
  | answered (a : QueryAnswer)
  /-- The block after the clock moved. -/
  | clock (b : Block)
  /-- The clock could not move; the session is unchanged. -/
  | refused (fault : ClockFault)
  | viewSet
deriving Inhabited

/-- The module's state and the chain around it. -/
structure Session where
  state : State
  env : Env
deriving Inhabited

namespace Session

/-- The starting height. -/
def startHeight : Nat := 12345

/-- The largest height: heights are 64-bit words, and a height that would pass this one
stops at it. -/
def maxHeight : Nat := 18446744073709551615

/-- The starting block time, in nanoseconds, when none is given. -/
def startTime : Timestamp := ⟨1571797419879305533⟩

/-- A session over empty storage at a block time. -/
def start (time : Timestamp) : Session :=
  ⟨State.empty, ⟨⟨startHeight, time⟩, ⟨[], []⟩⟩⟩

/-- The transaction a call runs. -/
def transaction (env : Env) : Call → Tx (Response × List String)
  | .instantiate m => (·, []) <$> Contract.instantiate m
  | .execute sender funds m => (·, []) <$> Contract.execute env sender funds m
  | .privileged m => Contract.privileged env m
  | .reply id error => Contract.reply env id error
  | .migrate => (·, []) <$> Contract.migrate

/-- Runs one step. -/
def step (se : Session) : Step → Session × Outcome
  | .call c =>
    match (transaction se.env c).run se.state with
    | .ok ((r, debug), s) => ({ se with state := s }, .committed r debug s)
    | .error f => (se, .failed f)
  | .query q =>
    match Query.answer se.env se.state q with
    | .ok a => (se, .answered a)
    | .error f => (se, .failed f)
  | .advance seconds blocks =>
    let b : Block := ⟨min (se.env.block.height + blocks) maxHeight,
      ⟨se.env.block.time.nanos + seconds * Timestamp.nanosPerSecond⟩⟩
    if Timestamp.bound ≤ b.time.nanos then (se, .refused .timeOverflow)
    else ({ se with env := { se.env with block := b } }, .clock b)
  | .setTime time height =>
    let b : Block := ⟨height.getD se.env.block.height, time⟩
    ({ se with env := { se.env with block := b } }, .clock b)
  | .chain view => ({ se with env := { se.env with staking := view } }, .viewSet)

/-- Runs steps in order, giving each one's outcome. -/
def run (se : Session) : List Step → List Outcome
  | [] => []
  | st :: rest =>
    let (se', o) := se.step st
    o :: run se' rest

end Session

end LiquidStaking
