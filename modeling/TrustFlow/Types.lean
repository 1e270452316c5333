import TrustFlow.Lib.Token

/-!
# Errors, records and storage keys of the contract

The data model of `contracts/trustflow/src/lib.rs`: its error codes, the
records it stores, the keys it stores them under, the type of the value behind
each key, and the events it publishes.  Addresses are a type `A` with decidable
equality and the 32-byte digests of the host's hash function a type `D`.
-/

namespace TrustFlow

/-- `TrustFlowError`, with the discriminants of the source as `code`. -/
inductive TrustFlowError where
  | unauthorized
  | escrowNotFound
  | invalidAmount
  | disputeNotFound
  | disputeAlreadyResolved
  | invalidState
  | alreadyVoted
  | insufficientStake
  | noVotesCast
  | milestoneAmountMismatch
  | jurorStakeNotFound
  | milestoneNotFound
  | invalidFeeBps
  | arithmeticOverflow
  | tokenTransferFailed
  | commitPhaseEnded
  | revealPhaseNotOpen
  | alreadyCommitted
  | noCommitFound
  | invalidReveal
  | revealPhaseNotEnded
  | contractPaused
  | milestoneTimeLocked
deriving DecidableEq, Repr

/-- How an invocation fails: with an error of the contract, or by a trap of the
    host (a missing authorisation, an `unwrap` of nothing, a panic with its
    message, a token call that failed, a vector that is full). -/
inductive Fault where
  | error (e : TrustFlowError)
  | notAuthorized
  | unwrapNone
  | panic (message : String)
  | tokenCall
  | vecFull
deriving DecidableEq, Repr

instance : Coe TrustFlowError Fault := ⟨Fault.error⟩

/-! ### Constants -/

def DEFAULT_SLASH_BPS : U32 := ⟨1000, by decide, by decide⟩
def DEFAULT_FEE_BPS : U32 := ⟨50, by decide, by decide⟩
def MAX_FEE_BPS : U32 := ⟨1000, by decide, by decide⟩
def BPS_DENOMINATOR : I128 := ⟨10000, by decide, by decide⟩
def TEN_THOUSAND_I128 : I128 := ⟨10000, by decide, by decide⟩
def TEN_THOUSAND_U128 : U128 := ⟨10000, by decide, by decide⟩
def LEDGERS_PER_DAY : U32 := ⟨17280, by decide, by decide⟩
def COMMIT_WINDOW_LEDGERS : U32 := LEDGERS_PER_DAY
def REVEAL_WINDOW_LEDGERS : U32 := LEDGERS_PER_DAY
def BUMP_AMOUNT : U32 := ⟨90 * 17280, by decide, by decide⟩
def LIFETIME_THRESHOLD : U32 := ⟨30 * 17280, by decide, by decide⟩
def INSTANCE_BUMP_AMOUNT : U32 := BUMP_AMOUNT
def INSTANCE_LIFETIME_THRESHOLD : U32 := LIFETIME_THRESHOLD
def PERSISTENT_BUMP_AMOUNT : U32 := BUMP_AMOUNT
def PERSISTENT_LIFETIME_THRESHOLD : U32 := LIFETIME_THRESHOLD

@[simp] theorem BPS_DENOMINATOR_val : BPS_DENOMINATOR.val = 10000 := rfl
@[simp] theorem DEFAULT_FEE_BPS_val : DEFAULT_FEE_BPS.val = 50 := rfl
@[simp] theorem MAX_FEE_BPS_val : MAX_FEE_BPS.val = 1000 := rfl
@[simp] theorem DEFAULT_SLASH_BPS_val : DEFAULT_SLASH_BPS.val = 1000 := rfl
@[simp] theorem COMMIT_WINDOW_LEDGERS_val : COMMIT_WINDOW_LEDGERS.val = 17280 := rfl
@[simp] theorem REVEAL_WINDOW_LEDGERS_val : REVEAL_WINDOW_LEDGERS.val = 17280 := rfl

/-! ### Records -/

inductive EscrowStatus where
  | active
  | disputed
  | settled
deriving DecidableEq, Repr

theorem EscrowStatus.active_ne_settled : EscrowStatus.active ≠ .settled := nofun

theorem EscrowStatus.disputed_ne_settled : EscrowStatus.disputed ≠ .settled := nofun

theorem EscrowStatus.disputed_ne_active : EscrowStatus.disputed ≠ .active := nofun

structure Milestone where
  label : String
  amount : I128
  approved : Bool
  releaseTime : U32
deriving DecidableEq

structure EscrowRecord (A : Type) where
  id : U64
  depositor : A
  beneficiary : A
  amount : I128
  status : EscrowStatus
  milestones : Vec Milestone
deriving DecidableEq

structure DisputeRecord (A : Type) where
  escrowId : U64
  raisedBy : A
  reason : String
  resolved : Bool
  rulingForDepositor : Bool
  commitDeadline : U32
  revealDeadline : U32
deriving DecidableEq

structure EscrowFeeConfig (A : Type) where
  treasury : A
  feeBps : U32
deriving DecidableEq

/-! ### Storage keys -/

structure VoteKey (A : Type) where
  escrowId : U64
  juror : A
deriving DecidableEq

structure MilestoneKey where
  escrowId : U64
  milestoneIndex : U32
deriving DecidableEq

inductive DataKey (A : Type) where
  | admin
  | token
  | slashBps
  | escrowCounter
  | feeBps
  | treasury
  | escrow (id : U64)
  | escrowFeeConfig (id : U64)
  | escrowReleased (id : U64)
  | milestoneReleased (key : MilestoneKey)
  | dispute (id : U64)
  | jurorStake (juror : A)
  | disputeVoters (id : U64)
  | jurorCommit (key : VoteKey A)
  | jurorVote (key : VoteKey A)
  | jurorSlashCount (juror : A)
  | paused
  | pauser
deriving DecidableEq

/-- The type of the value stored under a key. -/
abbrev DataKey.Val (A D : Type) : DataKey A → Type
  | .admin => A
  | .token => A
  | .slashBps => U32
  | .escrowCounter => U64
  | .feeBps => U32
  | .treasury => A
  | .escrow _ => EscrowRecord A
  | .escrowFeeConfig _ => EscrowFeeConfig A
  | .escrowReleased _ => I128
  | .milestoneReleased _ => I128
  | .dispute _ => DisputeRecord A
  | .jurorStake _ => I128
  | .disputeVoters _ => Vec A
  | .jurorCommit _ => D
  | .jurorVote _ => Bool
  | .jurorSlashCount _ => U32
  | .paused => Bool
  | .pauser => A

/-! ### Events -/

/-- A topic an event is indexed by. -/
inductive Topic where
  | symbol (name : String)
  | u64 (value : U64)
  | u32 (value : U32)
deriving DecidableEq

/-- The data payloads of the published events. -/
inductive EventData (A : Type) where
  | contractPaused (caller : A)
  | contractUnpaused (admin : A)
  | pauserSet (admin pauser : A)
  | pauserRevoked (admin : A)
  | escrowInitialized (escrowId : U64) (depositor beneficiary : A) (amount : I128)
  | escrowTtlBumped (escrowId : U64) (liveUntilLedger : U32)
  | jurorStakeTtlBumped (juror : A) (liveUntilLedger : U32)
  | milestoneTrancheReleased (grossAmount treasuryFee beneficiaryPayout milestoneReleased
      escrowReleased : I128) (beneficiary treasury : A)
  | voteCommitted (escrowId : U64) (juror : A)
  | voteRevealed (escrowId : U64) (juror : A) (voteForDepositor : Bool)
  | staked (juror : A) (amount newTotal : I128)
  | unstaked (juror : A) (amount remaining : I128)
  | jurorSlashed (escrowId : U64) (juror : A) (slashAmount remainingStake : I128)
      (slashCount : U32)
deriving DecidableEq

/-- An event as published: its topics and its data. -/
structure Event (A : Type) where
  topics : List Topic
  data : EventData A
deriving DecidableEq

end TrustFlow
