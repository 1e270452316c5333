import TrustFlow.Staking
import TrustFlow.Escrow
import TrustFlow.Dispute
import TrustFlow.Maintenance
import TrustFlow.Lib.Run

/-!
# The system of calls

All entrypoints of the contract as one type `Call`, the invocation of each as
`Call.exec`, and `Step`, the transitions of the deployed contract: a call that
succeeds, a call that fails and is rolled back, the close of a ledger, and a
token operation of somebody else.

Two facts of the host enter `Step`.  A contract cannot re-enter itself, so its
own address authorises no call; and nobody else can take tokens out of the
contract's balance.
-/

namespace TrustFlow

open Invocation Transition

variable {A D : Type} [DecidableEq A] [DecidableEq D] {H : Host A D}

inductive Call (A D : Type) where
  | initialise (admin token : A) (slashBps : U32)
  | setFeeBps (caller : A) (feeBps : U32)
  | getFeeBps
  | getTreasury
  | setTreasury (caller treasury : A)
  | setPauser (caller pauser : A)
  | revokePauser (caller : A)
  | getPauser
  | pause (caller : A)
  | unpause (caller : A)
  | isPaused
  | stake (juror : A) (amount : I128)
  | unstake (juror : A) (amount : I128)
  | getStake (juror : A)
  | getSlashCount (juror : A)
  | bumpJurorStakeTtl (juror : A)
  | createEscrow (depositor beneficiary : A) (amount : I128)
  | initEscrow (depositor beneficiary : A) (milestones : Vec Milestone)
  | releaseMilestoneTranche (escrowId : U64) (milestoneIndex : U32) (grossAmount : I128)
      (caller : A)
  | raiseDispute (escrowId : U64) (caller : A) (reason : String)
  | commitVote (escrowId : U64) (juror : A) (commitment : D)
  | revealVote (escrowId : U64) (juror : A) (voteForDepositor : Bool) (salt : Vector UInt8 32)
  | resolveDispute (escrowId : U64)
  | bumpEscrowTtl (escrowId : U64)

namespace Call

/-- What a call returns. -/
abbrev Result : Call A D → Type
  | .getFeeBps | .getSlashCount _ | .bumpJurorStakeTtl _ | .bumpEscrowTtl _ => U32
  | .getTreasury => A
  | .getPauser => Option A
  | .isPaused | .resolveDispute _ => Bool
  | .getStake _ => I128
  | .createEscrow .. | .initEscrow .. => U64
  | _ => Unit

def exec : (c : Call A D) → Op H c.Result
  | .initialise admin token slashBps => TrustFlow.initialise admin token slashBps
  | .setFeeBps caller feeBps => TrustFlow.setFeeBps caller feeBps
  | .getFeeBps => TrustFlow.getFeeBps
  | .getTreasury => TrustFlow.getTreasury
  | .setTreasury caller treasury => TrustFlow.setTreasury caller treasury
  | .setPauser caller pauser => TrustFlow.setPauser caller pauser
  | .revokePauser caller => TrustFlow.revokePauser caller
  | .getPauser => TrustFlow.getPauser
  | .pause caller => TrustFlow.pause caller
  | .unpause caller => TrustFlow.unpause caller
  | .isPaused => TrustFlow.isPaused
  | .stake juror amount => TrustFlow.stake juror amount
  | .unstake juror amount => TrustFlow.unstake juror amount
  | .getStake juror => TrustFlow.getStake juror
  | .getSlashCount juror => TrustFlow.getSlashCount juror
  | .bumpJurorStakeTtl juror => TrustFlow.bumpJurorStakeTtl juror
  | .createEscrow depositor beneficiary amount =>
      TrustFlow.createEscrow depositor beneficiary amount
  | .initEscrow depositor beneficiary milestones =>
      TrustFlow.initEscrow depositor beneficiary milestones
  | .releaseMilestoneTranche id i gross caller =>
      TrustFlow.releaseMilestoneTranche id i gross caller
  | .raiseDispute id caller reason => TrustFlow.raiseDispute id caller reason
  | .commitVote id juror commitment => TrustFlow.commitVote id juror commitment
  | .revealVote id juror vote salt => TrustFlow.revealVote id juror vote salt
  | .resolveDispute id => TrustFlow.resolveDispute id
  | .bumpEscrowTtl id => TrustFlow.bumpEscrowTtl id

end Call

/-- What can happen: a call that returned, a call that failed, a ledger that
    closed, a change of the tokens nobody called this contract for. -/
inductive Label (H : Host A D) where
  | call (auth : A → Bool) (c : Call A D) (result : c.Result)
  | failed (auth : A → Bool) (c : Call A D) (fault : Fault)
  | close (sequence : U32)
  | tokens (state : H.tokens.State)

inductive Step : Env H → Label H → Env H → Prop
  | call {env env' : Env H} {auth : A → Bool} {c : Call A D} {r : c.Result}
      (hself : auth H.self = false) (h : c.exec auth env = .ok (r, env')) :
      Step env (.call auth c r) env'
  | failed {env : Env H} {auth : A → Bool} {c : Call A D} {fault : Fault}
      (hself : auth H.self = false) (h : (c.exec : Op H c.Result) auth env = .error fault) :
      Step env (.failed auth c fault) env
  | close {env : Env H} {n : U32} (h : env.sequence.val ≤ n.val) :
      Step env (.close n) { env with sequence := n }
  | tokens {env : Env H} {s : H.tokens.State}
      (h : ∀ tok, env.purse.balance tok H.self ≤ H.tokens.balance s tok H.self) :
      Step env (.tokens s) (env.setPurse ⟨s, env.purse.transfers⟩)

/-- The transitions of a deployment so far, newest first. -/
abbrev History (H : Host A D) := List (Move (Env H) (Label H))

namespace Label

/-- A successful `initialize`. -/
def Initialises : Label H → Bool
  | .call _ (.initialise ..) _ => true
  | _ => false

/-- A successful `create_escrow` or `init_escrow`; the former creates no milestones. -/
inductive Opens : Label H → (auth : A → Bool) → (depositor beneficiary : A) → (amount : I128) →
    (milestones : Vec Milestone) → (id : U64) → Prop
  | create {auth : A → Bool} {depositor beneficiary : A} {amount : I128} {id : U64} :
      Opens (.call auth (.createEscrow depositor beneficiary amount) id) auth depositor
        beneficiary amount Vec.empty id
  | init {auth : A → Bool} {depositor beneficiary : A} {amount : I128}
      {milestones : Vec Milestone} {id : U64}
      (hamount : amount.val = milestoneTotal milestones.toList) (h : milestones.toList ≠ []) :
      Opens (.call auth (.initEscrow depositor beneficiary milestones) id) auth depositor
        beneficiary amount milestones id

end Label

namespace Env

/-- A contract that was deployed and not called yet: its storage and its logs are
    empty, and its balances are not negative. -/
structure Fresh (env : Env H) : Prop where
  instance_empty : ∀ k, env.inst k = none
  persistent_empty : ∀ k, env.get k = none
  no_transfers : env.purse.transfers = []
  no_events : env.events = []
  balance_nonneg : ∀ tok, 0 ≤ env.purse.balance tok H.self

end Env

/-- A run of a deployment in which `initialize` succeeded at most once: every
    state of a run in which it succeeds exactly once ends such a run. -/
structure SingleInit (env₀ : Env H) (h : History H) (env : Env H) : Prop where
  fresh : env₀.Fresh
  run : Run Step env₀ h env
  once : h.countP (fun t => t.label.Initialises) ≤ 1

end TrustFlow
