import LiquidStaking.Numeral
import LiquidStaking.Amount
import LiquidStaking.Decimal
import LiquidStaking.Abort
import LiquidStaking.Timestamp
import LiquidStaking.Hash.Sha256
import LiquidStaking.Text.Lowercase
import LiquidStaking.Text.Blank
import LiquidStaking.Text.Base64
import LiquidStaking.Text.Bech32
import LiquidStaking.Table
import LiquidStaking.Wire.Json
import LiquidStaking.Config
import LiquidStaking.HostAccount
import LiquidStaking.Error
import LiquidStaking.Address
import LiquidStaking.Fees
import LiquidStaking.Target
import LiquidStaking.HostParams
import LiquidStaking.Denom
import LiquidStaking.Registration
import LiquidStaking.Apportion
import LiquidStaking.Rebalance
import LiquidStaking.Chain
import LiquidStaking.HostMsg
import LiquidStaking.ExchangeRate
import LiquidStaking.Wire.Read
import LiquidStaking.Wire.Write
import LiquidStaking.State
import LiquidStaking.Messages
import LiquidStaking.Tx
import LiquidStaking.Token
import LiquidStaking.Recording
import LiquidStaking.Valuation
import LiquidStaking.Transport
import LiquidStaking.Cycle
import LiquidStaking.Deposit
import LiquidStaking.Exit
import LiquidStaking.Admin
import LiquidStaking.Governance
import LiquidStaking.Query
import LiquidStaking.Contract
import LiquidStaking.Wire.Messages
import LiquidStaking.Session
import LiquidStaking.Wire.Answers
import LiquidStaking.Proofs.Table
import LiquidStaking.Proofs.Run
import LiquidStaking.Proofs.Ledger
import LiquidStaking.Proofs.Hoare
import LiquidStaking.Proofs.Reachable
import LiquidStaking.Proofs.Frames
import LiquidStaking.Proofs.HostAccounts
import LiquidStaking.Proofs.HostProtocol
import LiquidStaking.Proofs.Apportion
import LiquidStaking.Proofs.Hamilton
import LiquidStaking.Proofs.Writes
import LiquidStaking.Proofs.Parameters
import LiquidStaking.Proofs.Cooldowns
import LiquidStaking.Proofs.Books
import LiquidStaking.Proofs.Planner
import LiquidStaking.Proofs.RoundTrip
import LiquidStaking.Proofs.Convergence
import LiquidStaking.Proofs.Allocation
import LiquidStaking.Proofs.RecordedTable
import LiquidStaking.Proofs.Unstake
import LiquidStaking.Proofs.Reversal
import LiquidStaking.Proofs.Bookkeeping
import LiquidStaking.Proofs.BalancedBooks
import LiquidStaking.Proofs.Claiming
import LiquidStaking.Proofs.Flows
import LiquidStaking.Proofs.Emission
import LiquidStaking.Proofs.Replies
