import TrustFlow.Lib.Invocation
import TrustFlow.Lib.Storage
import TrustFlow.Lib.Token

/-!
# The protocol modules

Disputes and settlement over one record per escrow.  `raise_dispute` of the
dispute module and `release_to_beneficiary` of the settlement module each guard
the status of the record by themselves: the first asks for `Active`, the second
excludes `Released` and `Cancelled`.

Records are persistent entries with a lifetime; reading one does not depend on
how long it lives.
-/

namespace Protocol

/-! ### Records, keys and events -/

/-- Pending: created but not yet active.  Active: funds locked.  Released: funds
    released to the beneficiary.  Disputed: a dispute is under review.
    Cancelled: funds returned to the depositor. -/
inductive EscrowStatus where
  | pending
  | active
  | released
  | disputed
  | cancelled
deriving DecidableEq

structure EscrowRecord (A : Type) where
  id : U64
  depositor : A
  beneficiary : A
  amount : I128
  token : A
  status : EscrowStatus
  createdAt : U64
  releaseDeadline : U64
deriving DecidableEq

structure DisputeRecord (A : Type) where
  escrowId : U64
  raisedBy : A
  reason : String
  resolved : Bool
  rulingForDepositor : Bool
deriving DecidableEq

inductive DataKey where
  | escrow (id : U64)
  | dispute (id : U64)
  | feeBps
deriving DecidableEq

/-- The type of the value stored under a key. -/
abbrev DataKey.Val (A : Type) : DataKey → Type
  | .escrow _ => EscrowRecord A
  | .dispute _ => DisputeRecord A
  | .feeBps => U32

inductive TrustFlowError where
  | unauthorized
  | escrowNotFound
  | invalidAmount
  | escrowAlreadyReleased
  | disputeNotFound
  | disputeAlreadyResolved
  | insufficientFunds
  | oracleStale
  | arithmeticOverflow
  | invalidState
deriving DecidableEq

/-- An event as published: a symbol and an escrow as topics, an address as data. -/
structure Event (A : Type) where
  topics : String × U64
  data : A
deriving DecidableEq

/-- Why a call fails: a missing authorisation, an error of the contract, an
    arithmetic overflow, or a transfer the token refuses. -/
inductive Fault where
  | notAuthorized
  | error (e : TrustFlowError)
  | overflow
  | tokenCall
deriving DecidableEq

def PERSISTENT_BUMP : U32 := .ofNat 518400
def PERSISTENT_THRESHOLD : U32 := .ofNat 120960

/-! ### The environment -/

/-- What stays fixed: the contract's address, the token contracts and the
    lifetime of a new entry. -/
structure Host (A : Type) [DecidableEq A] where
  contract : A
  tokens : Tokens A
  defaultTtl : Nat

variable {A : Type} [DecidableEq A] {H : Host A}

structure Env (H : Host A) where
  sequence : U32
  persistent : Persistent DataKey (DataKey.Val A)
  /-- The tokens, and the transfers made by this contract's calls. -/
  purse : Purse H.tokens
  /-- Events published by this contract's calls, newest first. -/
  events : List (Event A)

namespace Env

/-- `env.storage().persistent().get(key)` -/
def get (env : Env H) (k : DataKey) : Option (DataKey.Val A k) := env.persistent.get k

def now (env : Env H) : Nat := env.sequence.val.toNat

def setPersistent (env : Env H) (k : DataKey) (v : DataKey.Val A k) : Env H :=
  { env with persistent := env.persistent.set (env.now + H.defaultTtl) k v }

/-- `extend_ttl` -/
def extendTtl (env : Env H) (k : DataKey) : Env H :=
  { env with
    persistent :=
      if env.persistent.has k then
        env.persistent.bump env.now PERSISTENT_THRESHOLD.val.toNat PERSISTENT_BUMP.val.toNat k
      else env.persistent }

def setPurse (env : Env H) (p : Purse H.tokens) : Env H := { env with purse := p }

def publish (env : Env H) (topics : String × U64) (data : A) : Env H :=
  { env with events := ⟨topics, data⟩ :: env.events }

section Observations

variable (env : Env H) (k : DataKey) (v : DataKey.Val A k) (topics : String × U64) (data : A)
  (p : Purse H.tokens)

@[simp] theorem purse_setPersistent : (env.setPersistent k v).purse = env.purse := rfl
@[simp] theorem purse_extendTtl : (env.extendTtl k).purse = env.purse := rfl
@[simp] theorem purse_publish : (env.publish topics data).purse = env.purse := rfl

variable (k' : DataKey)

@[simp] theorem get_setPersistent_self : (env.setPersistent k v).get k = some v :=
  Persistent.get_set_self ..
@[simp] theorem get_setPersistent_of_ne (h : k' ≠ k) :
    (env.setPersistent k v).get k' = env.get k' := Persistent.get_set_of_ne _ _ _ h
@[simp] theorem get_setPurse : (env.setPurse p).get k' = env.get k' := rfl
@[simp] theorem get_publish : (env.publish topics data).get k' = env.get k' := rfl

@[simp] theorem get_extendTtl : (env.extendTtl k).get k' = env.get k' := by
  unfold extendTtl
  split
  · exact Persistent.get_bump ..
  · rfl

end Observations

end Env

/-! ### The contract -/

/-- An entrypoint or a part of one.  The context tells which addresses
    authorised the invocation. -/
abbrev Op (H : Host A) := Invocation (A → Bool) (Env H) Fault

open Invocation

/-- `address.require_auth()` -/
def requireAuth (a : A) : Op H Unit := fun auth env =>
  if auth a then .ok ((), env) else .error .notAuthorized

def persistentGet (k : DataKey) : Op H (Option (DataKey.Val A k)) := reads fun env => env.get k
def persistentSet (k : DataKey) (v : DataKey.Val A k) : Op H Unit :=
  modify fun env => env.setPersistent k v
def extendTtl (k : DataKey) : Op H Unit := modify fun env => env.extendTtl k
def publish (topics : String × U64) (data : A) : Op H Unit :=
  modify fun env => env.publish topics data

/-- `token::Client::transfer`, which traps when the token refuses. -/
def tokenTransfer (token src dst : A) (amount : I128) : Op H Unit := fun _ env =>
  match H.tokens.transfer env.purse.state token src dst amount with
  | some s => .ok ((), env.setPurse ⟨s, ⟨token, src, dst, amount⟩ :: env.purse.transfers⟩)
  | none => .error .tokenCall

def raiseDispute (escrowId : U64) (caller : A) (reason : String) : Op H Unit := do
  requireAuth caller
  let escrow ← okOr (← persistentGet (.escrow escrowId)) (.error .escrowNotFound)
  failIf (caller ≠ escrow.depositor ∧ caller ≠ escrow.beneficiary) (.error .unauthorized)
  failIf (escrow.status ≠ .active) (.error .invalidState)
  persistentSet (.escrow escrowId) { escrow with status := .disputed }
  extendTtl (.escrow escrowId)
  persistentSet (.dispute escrowId)
    { escrowId, raisedBy := caller, reason, resolved := false, rulingForDepositor := false }
  extendTtl (.dispute escrowId)
  publish ("disputed", escrowId) caller

def releaseToBeneficiary (escrowId : U64) : Op H I128 := do
  let escrow ← okOr (← persistentGet (.escrow escrowId)) (.error .escrowNotFound)
  failIf (escrow.status = .released ∨ escrow.status = .cancelled) (.error .escrowAlreadyReleased)
  let feeBps := (← persistentGet .feeBps).getD (.ofNat 50)
  let product ← okOr (escrow.amount.checkedMul feeBps.toI128) .overflow
  let fee := I128.quot product (.ofNat 10000)
  let payout ← okOr (escrow.amount.checkedSub fee) .overflow
  tokenTransfer escrow.token H.contract escrow.beneficiary payout
  persistentSet (.escrow escrowId) { escrow with status := .released }
  return payout

end Protocol
