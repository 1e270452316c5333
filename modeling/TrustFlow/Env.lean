import TrustFlow.Types
import TrustFlow.Lib.Storage
import TrustFlow.Lib.Invocation

/-!
# The environment of an invocation

Everything the contract reaches through its `env` handle: the ledger sequence,
instance and persistent storage with their lifetimes, the tokens, and the logs
of transfers and published events.  `Env` holds the state, its updates are the
host functions the contract calls, and `Op` is the type of an entrypoint: a
computation over `Env` that knows who authorised the call and is rolled back
when it fails.

Reading an entry does not depend on how long it lives, and no call looks at a
lifetime: what the host does to a call that touches an entry that has run out is
said where lifetimes are the subject.

An update has one `rfl` lemma for each observation it leaves alone, so that a
proof reads through a chain of updates by `simp`.
-/

namespace TrustFlow

/-- What stays fixed over a deployment: the contract's own address, the token
    contracts, the host's hash function and the lifetime of a new entry. -/
structure Host (A D : Type) [DecidableEq A] where
  self : A
  tokens : Tokens A
  sha256 : List UInt8 → D
  defaultTtl : Nat

variable {A D : Type} [DecidableEq A] {H : Host A D}

structure Env (H : Host A D) where
  sequence : U32
  instanceStore : FiniteMap (DataKey A) (DataKey.Val A D)
  instanceLiveUntil : Nat
  persistent : Persistent (DataKey A) (DataKey.Val A D)
  /-- The tokens, and the transfers made by this contract's calls. -/
  purse : Purse H.tokens
  /-- Events published by this contract's calls, newest first. -/
  events : List (Event A)

namespace Env

/-- `env.storage().instance().get(key)` -/
def inst (env : Env H) (k : DataKey A) : Option (DataKey.Val A D k) := env.instanceStore.find? k

/-- `env.storage().persistent().get(key)` -/
def get (env : Env H) (k : DataKey A) : Option (DataKey.Val A D k) := env.persistent.get k

def now (env : Env H) : Nat := env.sequence.val.toNat

def setInstance (env : Env H) (k : DataKey A) (v : DataKey.Val A D k) : Env H :=
  { env with instanceStore := env.instanceStore.insert k v }

def removeInstance (env : Env H) (k : DataKey A) : Env H :=
  { env with instanceStore := env.instanceStore.erase k }

def setPersistent (env : Env H) (k : DataKey A) (v : DataKey.Val A D k) : Env H :=
  { env with persistent := env.persistent.set (env.now + H.defaultTtl) k v }

def removePersistent (env : Env H) (k : DataKey A) : Env H :=
  { env with persistent := env.persistent.remove k }

/-- `extend_instance_ttl` -/
def extendInstanceTtl (env : Env H) : Env H :=
  { env with
    instanceLiveUntil :=
      if env.instanceLiveUntil ≤ env.now + INSTANCE_LIFETIME_THRESHOLD.val.toNat then
        env.now + INSTANCE_BUMP_AMOUNT.val.toNat
      else env.instanceLiveUntil }

/-- `extend_persistent_ttl` -/
def extendPersistentTtl (env : Env H) (k : DataKey A) : Env H :=
  { env with
    persistent :=
      if env.persistent.has k then
        env.persistent.bump env.now PERSISTENT_LIFETIME_THRESHOLD.val.toNat
          PERSISTENT_BUMP_AMOUNT.val.toNat k
      else env.persistent }

def publish (env : Env H) (topics : List Topic) (data : EventData A) : Env H :=
  { env with events := ⟨topics, data⟩ :: env.events }

def setPurse (env : Env H) (p : Purse H.tokens) : Env H := { env with purse := p }

/-! ### Reading through updates -/

section Observations

variable (env : Env H) (k : DataKey A) (v : DataKey.Val A D k) (topics : List Topic)
  (data : EventData A) (p : Purse H.tokens)

@[simp] theorem sequence_setInstance : (env.setInstance k v).sequence = env.sequence := rfl
@[simp] theorem sequence_removeInstance : (env.removeInstance k).sequence = env.sequence := rfl
@[simp] theorem sequence_setPersistent : (env.setPersistent k v).sequence = env.sequence := rfl
@[simp] theorem sequence_removePersistent : (env.removePersistent k).sequence = env.sequence := rfl
@[simp] theorem sequence_extendInstanceTtl : env.extendInstanceTtl.sequence = env.sequence := rfl
@[simp] theorem sequence_extendPersistentTtl :
    (env.extendPersistentTtl k).sequence = env.sequence := rfl
@[simp] theorem sequence_publish : (env.publish topics data).sequence = env.sequence := rfl
@[simp] theorem sequence_setPurse : (env.setPurse p).sequence = env.sequence := rfl

@[simp] theorem purse_setInstance : (env.setInstance k v).purse = env.purse := rfl
@[simp] theorem purse_removeInstance : (env.removeInstance k).purse = env.purse := rfl
@[simp] theorem purse_setPersistent : (env.setPersistent k v).purse = env.purse := rfl
@[simp] theorem purse_removePersistent : (env.removePersistent k).purse = env.purse := rfl
@[simp] theorem purse_extendInstanceTtl : env.extendInstanceTtl.purse = env.purse := rfl
@[simp] theorem purse_extendPersistentTtl : (env.extendPersistentTtl k).purse = env.purse := rfl
@[simp] theorem purse_publish : (env.publish topics data).purse = env.purse := rfl
@[simp] theorem purse_setPurse : (env.setPurse p).purse = p := rfl

@[simp] theorem events_setInstance : (env.setInstance k v).events = env.events := rfl
@[simp] theorem events_removeInstance : (env.removeInstance k).events = env.events := rfl
@[simp] theorem events_setPersistent : (env.setPersistent k v).events = env.events := rfl
@[simp] theorem events_removePersistent : (env.removePersistent k).events = env.events := rfl
@[simp] theorem events_extendInstanceTtl : env.extendInstanceTtl.events = env.events := rfl
@[simp] theorem events_extendPersistentTtl : (env.extendPersistentTtl k).events = env.events := rfl
@[simp] theorem events_publish :
    (env.publish topics data).events = ⟨topics, data⟩ :: env.events := rfl
@[simp] theorem events_setPurse : (env.setPurse p).events = env.events := rfl

@[simp] theorem setPurse_setPurse (p' : Purse H.tokens) :
    (env.setPurse p).setPurse p' = env.setPurse p' := rfl

variable (k' : DataKey A)

@[simp] theorem inst_setInstance_self : (env.setInstance k v).inst k = some v :=
  FiniteMap.find?_insert_self ..
@[simp] theorem inst_setInstance_of_ne (h : k' ≠ k) : (env.setInstance k v).inst k' = env.inst k' :=
  FiniteMap.find?_insert_of_ne _ _ h
@[simp] theorem inst_removeInstance_self : (env.removeInstance k).inst k = none :=
  FiniteMap.find?_erase_self ..
@[simp] theorem inst_removeInstance_of_ne (h : k' ≠ k) :
    (env.removeInstance k).inst k' = env.inst k' := FiniteMap.find?_erase_of_ne _ h
@[simp] theorem inst_setPersistent : (env.setPersistent k v).inst k' = env.inst k' := rfl
@[simp] theorem inst_removePersistent : (env.removePersistent k).inst k' = env.inst k' := rfl
@[simp] theorem inst_extendInstanceTtl : env.extendInstanceTtl.inst k' = env.inst k' := rfl
@[simp] theorem inst_extendPersistentTtl :
    (env.extendPersistentTtl k).inst k' = env.inst k' := rfl
@[simp] theorem inst_publish : (env.publish topics data).inst k' = env.inst k' := rfl
@[simp] theorem inst_setPurse : (env.setPurse p).inst k' = env.inst k' := rfl

@[simp] theorem get_setInstance : (env.setInstance k v).get k' = env.get k' := rfl
@[simp] theorem get_removeInstance : (env.removeInstance k).get k' = env.get k' := rfl
@[simp] theorem get_setPersistent_self : (env.setPersistent k v).get k = some v :=
  Persistent.get_set_self ..
@[simp] theorem get_setPersistent_of_ne (h : k' ≠ k) :
    (env.setPersistent k v).get k' = env.get k' := Persistent.get_set_of_ne _ _ _ h
@[simp] theorem get_removePersistent_self : (env.removePersistent k).get k = none :=
  Persistent.get_remove_self ..
@[simp] theorem get_removePersistent_of_ne (h : k' ≠ k) :
    (env.removePersistent k).get k' = env.get k' := Persistent.get_remove_of_ne _ h
@[simp] theorem get_extendInstanceTtl : env.extendInstanceTtl.get k' = env.get k' := rfl
@[simp] theorem get_extendPersistentTtl : (env.extendPersistentTtl k).get k' = env.get k' := by
  unfold extendPersistentTtl get
  dsimp only
  split
  · exact Persistent.get_bump ..
  · rfl
@[simp] theorem get_publish : (env.publish topics data).get k' = env.get k' := rfl
@[simp] theorem get_setPurse : (env.setPurse p).get k' = env.get k' := rfl

end Observations

end Env

/-! ### Host functions as operations -/

/-- An entrypoint or a part of one.  The context tells which addresses
    authorised the invocation. -/
abbrev Op (H : Host A D) := Invocation (A → Bool) (Env H) Fault

open Invocation

/-- `address.require_auth()` -/
def requireAuth (a : A) : Op H Unit := fun auth env =>
  if auth a then .ok ((), env) else .error .notAuthorized

/-- A fallible pure computation inside an operation: the `?` of the source. -/
def ofResult {α : Type} (x : Except TrustFlowError α) : Op H α := fun _ env =>
  match x with
  | .ok a => .ok (a, env)
  | .error e => .error (.error e)

def instanceGet (k : DataKey A) : Op H (Option (DataKey.Val A D k)) := reads fun env => env.inst k
def instanceSet (k : DataKey A) (v : DataKey.Val A D k) : Op H Unit :=
  modify fun env => env.setInstance k v
def instanceRemove (k : DataKey A) : Op H Unit := modify fun env => env.removeInstance k
def persistentGet (k : DataKey A) : Op H (Option (DataKey.Val A D k)) := reads fun env => env.get k
def persistentHas (k : DataKey A) : Op H Bool := reads fun env => (env.get k).isSome
def persistentSet (k : DataKey A) (v : DataKey.Val A D k) : Op H Unit :=
  modify fun env => env.setPersistent k v
def persistentRemove (k : DataKey A) : Op H Unit := modify fun env => env.removePersistent k
def extendInstanceTtl : Op H Unit := modify Env.extendInstanceTtl
def extendPersistentTtl (k : DataKey A) : Op H Unit :=
  modify fun env => env.extendPersistentTtl k
def ledgerSequence : Op H U32 := reads Env.sequence
def publish (topics : List Topic) (data : EventData A) : Op H Unit :=
  modify fun env => env.publish topics data

/-- `token::Client::transfer`, which traps when the token refuses. -/
def tokenTransfer (token src dst : A) (amount : I128) : Op H Unit := fun _ env =>
  match H.tokens.transfer env.purse.state token src dst amount with
  | some s => .ok ((), env.setPurse ⟨s, ⟨token, src, dst, amount⟩ :: env.purse.transfers⟩)
  | none => .error .tokenCall

/-- `try_token_transfer`: nothing to do for zero, an error when the token refuses. -/
def tryTokenTransfer (token src dst : A) (amount : I128) : Op H Unit := fun _ env =>
  if amount.val = 0 then .ok ((), env)
  else match H.tokens.transfer env.purse.state token src dst amount with
    | some s => .ok ((), env.setPurse ⟨s, ⟨token, src, dst, amount⟩ :: env.purse.transfers⟩)
    | none => .error (.error .tokenTransferFailed)

variable {auth : A → Bool} {env env' : Env H} {u : Unit}

@[simp] theorem requireAuth_eq_ok {a : A} :
    (requireAuth a : Op H Unit) auth env = .ok (u, env') ↔ auth a = true ∧ env' = env := by
  unfold requireAuth
  split
  · next h => simp [h, eq_comm]
  · next h => simp [h]

@[simp] theorem requireAuth_eq_error {a : A} {e : Fault} :
    (requireAuth a : Op H Unit) auth env = .error e ↔ auth a = false ∧ e = .notAuthorized := by
  unfold requireAuth
  split
  · next h => simp [h]
  · next h => simp [h, eq_comm]

@[simp] theorem ofResult_eq_ok {α : Type} {x : Except TrustFlowError α} {a : α} :
    (ofResult x : Op H α) auth env = .ok (a, env') ↔ x = .ok a ∧ env' = env := by
  cases x with
  | error e => simp [ofResult]
  | ok a' => simp [ofResult, eq_comm]

@[simp] theorem ofResult_eq_error {α : Type} {x : Except TrustFlowError α} {e : Fault} :
    (ofResult x : Op H α) auth env = .error e ↔ ∃ e', x = .error e' ∧ e = .error e' := by
  cases x with
  | error e' => simp [ofResult, eq_comm]
  | ok a => simp [ofResult]

open Purse in
@[simp] theorem tokenTransfer_eq_ok {token src dst : A} {amount : I128} :
    tokenTransfer token src dst amount auth env = .ok (u, env') ↔
      ∃ p, Moves token src dst amount env.purse p ∧ env' = env.setPurse p := by
  unfold tokenTransfer
  constructor
  · intro h
    split at h
    · next s hs =>
      cases h
      exact ⟨_, .intro hs, rfl⟩
    · cases h
  · rintro ⟨_, ⟨hs⟩, rfl⟩
    rw [hs]

@[simp] theorem tokenTransfer_eq_error {token src dst : A} {amount : I128} {e : Fault} :
    tokenTransfer token src dst amount auth env = .error e ↔
      H.tokens.transfer env.purse.state token src dst amount = none ∧ e = .tokenCall := by
  unfold tokenTransfer
  split
  · next s h => simp [h]
  · next h => simp [h, eq_comm]

open Purse in
@[simp] theorem tryTokenTransfer_eq_ok {token src dst : A} {amount : I128} :
    tryTokenTransfer token src dst amount auth env = .ok (u, env') ↔
      ∃ p, Pays token src dst amount env.purse p ∧ env' = env.setPurse p := by
  unfold tryTokenTransfer
  constructor
  · intro h
    split at h
    · next h0 =>
      cases h
      exact ⟨_, .zero h0, rfl⟩
    · next h0 =>
      split at h
      · next s hs =>
        cases h
        exact ⟨_, .moved h0 (.intro hs), rfl⟩
      · cases h
  · rintro ⟨_, ⟨h0⟩ | ⟨h0, ⟨hs⟩⟩, rfl⟩
    · rw [if_pos h0]
      rfl
    · rw [if_neg h0, hs]

@[simp] theorem tryTokenTransfer_eq_error {token src dst : A} {amount : I128} {e : Fault} :
    tryTokenTransfer token src dst amount auth env = .error e ↔
      amount.val ≠ 0 ∧ H.tokens.transfer env.purse.state token src dst amount = none ∧
        e = .error .tokenTransferFailed := by
  unfold tryTokenTransfer
  split
  · next h0 => simp [h0]
  · next h0 =>
    split
    · next s h => simp [h]
    · next h => simp [h, h0, eq_comm]

end TrustFlow
