import TrustFlow.Lib.Machine
import TrustFlow.Lib.Storage
import TrustFlow.Lib.Invocation
import TrustFlow.Lib.Run
import TrustFlow.Lib.Local
import TrustFlow.Lib.Isolation
import TrustFlow.Lib.Token
import TrustFlow.Lib.Proportion
import TrustFlow.Lib.Sums
import TrustFlow.Lib.Refinement
import TrustFlow.Lib.Journal
import TrustFlow.Lib.Frame
import TrustFlow.Lib.Trades
import TrustFlow.Types
import TrustFlow.Env
import TrustFlow.Arithmetic
import TrustFlow.Config
import TrustFlow.Book
import TrustFlow.Staking
import TrustFlow.Escrow
import TrustFlow.Dispute
import TrustFlow.Maintenance
import TrustFlow.Calls
import TrustFlow.Transitions
import TrustFlow.Files
import TrustFlow.Deployment
import TrustFlow.Freshness
import TrustFlow.Accounting
import TrustFlow.Proceedings
import TrustFlow.Stakes
import TrustFlow.Soundness
import TrustFlow.Openings
import TrustFlow.Approvals
import TrustFlow.Solvency
import TrustFlow.Payouts
import TrustFlow.Fees
import TrustFlow.CommitReveal
import TrustFlow.Lifecycle
import TrustFlow.StakeLedger
import TrustFlow.Backing
import TrustFlow.Exits
import TrustFlow.Escape
import TrustFlow.Authority
import TrustFlow.CircuitBreaker
import TrustFlow.VoteCopying
import TrustFlow.Commuting
import TrustFlow.Lifetimes
import TrustFlow.VoteCalls
import TrustFlow.VotingOrder
import TrustFlow.Keeper
import TrustFlow.Watermark
import TrustFlow.Resolution
import TrustFlow.InstanceClock
import TrustFlow.Provenance
import TrustFlow.Indexer
import TrustFlow.Slashing
import TrustFlow.Isolation
import TrustFlow.Standing
import TrustFlow.Crowdfund.Campaign
import TrustFlow.Crowdfund.Runs
import TrustFlow.Crowdfund.Finality
import TrustFlow.Crowdfund.Refunds
import TrustFlow.Crowdfund.Announcement
import TrustFlow.Crowdfund.View
import TrustFlow.Protocol.Contract
import TrustFlow.Protocol.Halting
import TrustFlow.Abundance.Contract
import TrustFlow.Abundance.Calls
import TrustFlow.Abundance.Supply
import TrustFlow.Abundance.Allowances
import TrustFlow.Abundance.Journal
import TrustFlow.Abundance.Administration
import TrustFlow.Abundance.Custody
import TrustFlow.Abundance.Tokens
import TrustFlow.Abundance.Lifetimes
import TrustFlow.Crowdfund.OnAbundance
import TrustFlow.Crowdfund.WindDown
import TrustFlow.Crowdfund.Flows
import TrustFlow.OnAbundance
import TrustFlow.Lib.Lockstep
import TrustFlow.MockToken.Contract
import TrustFlow.MockToken.Ledger
import TrustFlow.MockToken.Agreement
import TrustFlow.Lib.Truncation
import TrustFlow.Lib.Erosion
import TrustFlow.Protocol.Fees
import TrustFlow.Protocol.Governance
import TrustFlow.Protocol.Settlement
import TrustFlow.Protocol.Coverage
import TrustFlow.Protocol.Settings
