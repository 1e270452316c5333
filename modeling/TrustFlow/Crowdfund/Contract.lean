import TrustFlow.Lib.Invocation
import TrustFlow.Lib.Storage
import TrustFlow.Lib.Token

/-!
# The crowdfund contract

One campaign: donors deposit until the deadline, then either the recipient takes
the balance or each donor takes its deposit back.  Which of the two is not
stored; `get_state` works it out from the clock, the flag of the recipient's
claim and the contract's balance at the token.

All data is instance storage.  A token answers `balance` with an `i128`, so a
call that meets a balance outside of it fails.
-/

namespace Crowdfund

/-! ### Keys, states and events -/

inductive DataKey (A : Type) where
  | deadline
  | recipient
  | started
  | target
  | token
  | user (a : A)
  | recipientClaimed
deriving DecidableEq

/-- The type of the value stored under a key. -/
abbrev DataKey.Val (A : Type) : DataKey A → Type
  | .deadline => U64
  | .recipient => A
  | .started => U64
  | .target => I128
  | .token => A
  | .user _ => I128
  | .recipientClaimed => Bool

/-- Running: active and accepting contributions.  Success: target reached, funds can
    be claimed by the recipient.  Expired: deadline passed without reaching the
    target, refunds available. -/
inductive State where
  | running
  | success
  | expired
deriving DecidableEq

/-- `state as u32` -/
def State.code : State → U32
  | .running => 0
  | .success => 1
  | .expired => .ofNat 2

theorem State.code_injective : Function.Injective State.code := by
  intro s s' h
  cases s <;> cases s' <;> first | rfl | exact absurd h (by decide)

inductive EventData where
  | amount (n : I128)
  | amounts (ns : List I128)
deriving DecidableEq

/-- An event as published: its topics and its data. -/
structure Event where
  topics : List String
  data : EventData
deriving DecidableEq

/-- Why a call fails: a missing authorisation, a panic of the contract, an
    arithmetic overflow, or a call of the token that fails. -/
inductive Fault where
  | notAuthorized
  | panicked (message : String)
  | overflow
  | tokenCall
deriving DecidableEq

/-! ### The environment -/

/-- What stays fixed: the contract's address and the token contracts. -/
structure Host (A : Type) [DecidableEq A] where
  contract : A
  tokens : Tokens A

variable {A : Type} [DecidableEq A] {H : Host A}

structure Env (H : Host A) where
  timestamp : U64
  instanceStore : FiniteMap (DataKey A) (DataKey.Val A)
  /-- The tokens, and the transfers made by this contract's calls. -/
  purse : Purse H.tokens
  /-- Events published by this contract's calls, newest first. -/
  events : List Event

namespace Env

/-- `e.storage().instance().get(key)` -/
def inst (env : Env H) (k : DataKey A) : Option (DataKey.Val A k) := env.instanceStore.find? k

def setInstance (env : Env H) (k : DataKey A) (v : DataKey.Val A k) : Env H :=
  { env with instanceStore := env.instanceStore.insert k v }

def setPurse (env : Env H) (p : Purse H.tokens) : Env H := { env with purse := p }

def publish (env : Env H) (topics : List String) (data : EventData) : Env H :=
  { env with events := ⟨topics, data⟩ :: env.events }

/-- What the contract holds of a token. -/
def balance (env : Env H) (tok : A) : Int := env.purse.balance tok H.contract

section Observations

variable (env : Env H) (k : DataKey A) (v : DataKey.Val A k) (topics : List String)
  (data : EventData) (p : Purse H.tokens)

@[simp] theorem timestamp_setInstance : (env.setInstance k v).timestamp = env.timestamp := rfl
@[simp] theorem timestamp_setPurse : (env.setPurse p).timestamp = env.timestamp := rfl
@[simp] theorem timestamp_publish : (env.publish topics data).timestamp = env.timestamp := rfl

@[simp] theorem purse_setInstance : (env.setInstance k v).purse = env.purse := rfl
@[simp] theorem purse_setPurse : (env.setPurse p).purse = p := rfl
@[simp] theorem purse_publish : (env.publish topics data).purse = env.purse := rfl

@[simp] theorem events_setInstance : (env.setInstance k v).events = env.events := rfl
@[simp] theorem events_setPurse : (env.setPurse p).events = env.events := rfl
@[simp] theorem events_publish :
    (env.publish topics data).events = ⟨topics, data⟩ :: env.events := rfl

variable (k' : DataKey A)

@[simp] theorem inst_setInstance_self : (env.setInstance k v).inst k = some v :=
  FiniteMap.find?_insert_self ..
@[simp] theorem inst_setInstance_of_ne (h : k' ≠ k) : (env.setInstance k v).inst k' = env.inst k' :=
  FiniteMap.find?_insert_of_ne _ _ h
@[simp] theorem inst_setPurse : (env.setPurse p).inst k' = env.inst k' := rfl
@[simp] theorem inst_publish : (env.publish topics data).inst k' = env.inst k' := rfl

end Observations

end Env

/-! ### The contract -/

/-- An entrypoint or a part of one.  The context tells which addresses
    authorised the invocation. -/
abbrev Op (H : Host A) := Invocation (A → Bool) (Env H) Fault

open Invocation

/-- `address.require_auth()` -/
def requireAuth (a : A) : Op H Unit := fun auth env =>
  if auth a then .ok ((), env) else .error .notAuthorized

/-- `assert!(condition, message)` -/
def assert (condition : Prop) [Decidable condition] (message : String) : Op H Unit :=
  failIf (¬ condition) (.panicked message)

def instanceGet (k : DataKey A) : Op H (Option (DataKey.Val A k)) := reads fun env => env.inst k
def instanceSet (k : DataKey A) (v : DataKey.Val A k) : Op H Unit :=
  modify fun env => env.setInstance k v
def publish (topics : List String) (data : EventData) : Op H Unit :=
  modify fun env => env.publish topics data

/-- `token::Client::transfer`, which traps when the token refuses. -/
def tokenTransfer (token src dst : A) (amount : I128) : Op H Unit := fun _ env =>
  match H.tokens.transfer env.purse.state token src dst amount with
  | some s => .ok ((), env.setPurse ⟨s, ⟨token, src, dst, amount⟩ :: env.purse.transfers⟩)
  | none => .error .tokenCall

def getLedgerTimestamp : Op H U64 := reads Env.timestamp

def getRecipient : Op H A := do okOr (← instanceGet .recipient) (.panicked "not initialized")
def getRecipientClaimed : Op H Bool := do
  okOr (← instanceGet .recipientClaimed) (.panicked "not initialized")
def getDeadline : Op H U64 := do okOr (← instanceGet .deadline) (.panicked "not initialized")
def getStarted : Op H U64 := do okOr (← instanceGet .started) (.panicked "not initialized")
def getTargetAmount : Op H I128 := do okOr (← instanceGet .target) (.panicked "not initialized")
def getToken : Op H A := do okOr (← instanceGet .token) (.panicked "not initialized")

def getUserDeposited (user : A) : Op H I128 := do
  return (← instanceGet (.user user)).getD 0

/-- `token::Client::balance` of this contract. -/
def getBalance (tokenId : A) : Op H I128 := do
  okOr (BoundedInt.ofInt? (← reads fun env => env.balance tokenId)) .tokenCall

def targetReached (tokenId : A) : Op H Bool := do
  let targetAmount ← getTargetAmount
  let tokenBalance ← getBalance tokenId
  return decide (tokenBalance.val ≥ targetAmount.val)

def getState : Op H State := do
  let deadline ← getDeadline
  let tokenId ← getToken
  let currentTimestamp ← getLedgerTimestamp
  if currentTimestamp.val < deadline.val then
    return .running
  else
    let claimed ← getRecipientClaimed
    if claimed = true then
      return .success
    else
      let reached ← targetReached tokenId
      return if reached = true then .success else .expired

def setUserDeposited (user : A) (amount : I128) : Op H Unit := instanceSet (.user user) amount
def setRecipientClaimed : Op H Unit := instanceSet .recipientClaimed true

/-- Transfer tokens from the contract. -/
def transfer (dest : A) (amount : I128) : Op H Unit := do
  let tokenContractId ← getToken
  tokenTransfer tokenContractId H.contract dest amount

def Events.pledgedAmountChanged (totalAmount : I128) : Op H Unit :=
  publish ["pledged_amount_changed"] (.amount totalAmount)

def Events.targetReached (pledged target : I128) : Op H Unit :=
  publish ["target_reached"] (.amounts [pledged, target])

/-- `initialize` -/
def initialise (recipient : A) (deadline : U64) (targetAmount : I128) (token : A) : Op H Unit := do
  let stored ← instanceGet .recipient
  assert (stored = none) "already initialized"
  instanceSet .recipient recipient
  instanceSet .recipientClaimed false
  instanceSet .started (← getLedgerTimestamp)
  instanceSet .deadline deadline
  instanceSet .target targetAmount
  instanceSet .token token

def recipient : Op H A := getRecipient
def deadline : Op H U64 := getDeadline
def started : Op H U64 := getStarted
def state : Op H U32 := do return (← getState).code
def target : Op H I128 := getTargetAmount
def token : Op H A := getToken

def balance (user : A) : Op H I128 := do
  let recipient ← getRecipient
  let state ← getState
  if state = .success then
    if user ≠ recipient then return 0
    else
      let token ← getToken
      getBalance token
  else getUserDeposited user

def deposit (user : A) (amount : I128) : Op H Unit := do
  requireAuth user
  assert (amount.val > 0) "amount must be positive"
  let state ← getState
  assert (state = .running) "sale is not running"
  let tokenId ← getToken
  let currentTargetMet ← targetReached tokenId
  let recipient ← getRecipient
  assert (user ≠ recipient) "recipient may not deposit"
  let balance ← getUserDeposited user
  let total ← okOr (balance.checkedAdd amount) .overflow
  setUserDeposited user total
  tokenTransfer tokenId user H.contract amount
  let contractBalance ← getBalance tokenId
  Events.pledgedAmountChanged contractBalance
  -- `&&` asks again only when the target was not met before
  if currentTargetMet = true then
    return ()
  else
    let met ← targetReached tokenId
    if met = true then
      Events.targetReached contractBalance (← getTargetAmount)
    else
      return ()

def withdraw (dest : A) : Op H Unit := do
  let state ← getState
  let recipient ← getRecipient
  match state with
  | .running => fail (.panicked "sale is still running")
  | .success =>
      assert (dest = recipient) "sale was successful, only the recipient may withdraw"
      let claimed ← getRecipientClaimed
      assert (claimed = false) "sale was successful, recipient has withdrawn funds already"
      let token ← getToken
      let amount ← getBalance token
      transfer recipient amount
      setRecipientClaimed
  | .expired =>
      assert (dest ≠ recipient) "sale expired, the recipient may not withdraw"
      let balance ← getUserDeposited dest
      setUserDeposited dest 0
      transfer dest balance
      let tokenId ← getToken
      let contractBalance ← getBalance tokenId
      Events.pledgedAmountChanged contractBalance

end Crowdfund
