import TrustFlow.Protocol.Fees
import TrustFlow.Lib.Journal
import TrustFlow.Lib.Lockstep

/-!
# Governance

The administrator sets the fee and the paused flag, and anyone asks for the
price.  The two settings lie in different storages: the fee is a persistent
entry, which the release reads, and the flag an entry of the instance.
-/

namespace Protocol.Governance

open Invocation Transition Purse

/-! ### The instance storage -/

inductive ConfigKey where
  | admin
  | oracleAddress
  | paused
deriving DecidableEq

/-- The type of the value stored under a key. -/
abbrev ConfigKey.Val (A : Type) : ConfigKey → Type
  | .admin | .oracleAddress => A
  | .paused => Bool

variable {A : Type} [DecidableEq A] {H : Host A}

/-- What the escrows live in, with the settings and the time. -/
structure State (H : Host A) where
  env : Env H
  instanceStore : FiniteMap ConfigKey (ConfigKey.Val A)
  timestamp : U64

namespace State

/-- `env.storage().instance().get(key)` -/
def inst (s : State H) (k : ConfigKey) : Option (ConfigKey.Val A k) := s.instanceStore.find? k

def setInstance (s : State H) (k : ConfigKey) (v : ConfigKey.Val A k) : State H :=
  { s with instanceStore := s.instanceStore.insert k v }

def setEnv (s : State H) (env : Env H) : State H := { s with env := env }

section Observations

variable {s : State H} {env : Env H} {k k' : ConfigKey} {v : ConfigKey.Val A k}

@[simp] theorem env_setEnv : (s.setEnv env).env = env := rfl
@[simp] theorem inst_setEnv : (s.setEnv env).inst k' = s.inst k' := rfl
@[simp] theorem env_setInstance : (s.setInstance k v).env = s.env := rfl

@[simp] theorem inst_setInstance_self : (s.setInstance k v).inst k = some v :=
  FiniteMap.find?_insert_self ..

@[simp] theorem inst_setInstance_of_ne (h : k' ≠ k) : (s.setInstance k v).inst k' = s.inst k' :=
  FiniteMap.find?_insert_of_ne _ _ h

end Observations

end State

/-- An entrypoint or a part of one. -/
abbrev Act (H : Host A) := Invocation (A → Bool) (State H) Fault

/-- A part that sees the escrows only. -/
def onEnv {α : Type} (x : Op H α) : Act H α := fun auth s =>
  match x auth s.env with
  | .ok (a, env) => .ok (a, s.setEnv env)
  | .error e => .error e

def instanceGet (k : ConfigKey) : Act H (Option (ConfigKey.Val A k)) := reads fun s => s.inst k
def instanceSet (k : ConfigKey) (v : ConfigKey.Val A k) : Act H Unit :=
  modify fun s => s.setInstance k v

/-! ### The administrator -/

def requireAdmin (caller : A) : Act H Unit := do
  onEnv (requireAuth caller)
  let admin ← okOr (← instanceGet .admin) (.error .unauthorized)
  failIf (caller ≠ admin) (.error .unauthorized)

def setFeeBps (admin : A) (feeBps : U32) : Act H Unit := do
  requireAdmin admin
  failIf (feeBps.val > 1000) (.error .invalidAmount)
  onEnv (persistentSet .feeBps feeBps)

def pause (admin : A) : Act H Unit := do
  requireAdmin admin
  instanceSet .paused true

/-! ### The oracle -/

def MAX_ORACLE_AGE_SECS : U64 := .ofNat 300

/-- A placeholder: the price is fixed, and the oracle is not asked. -/
def getXlmPriceUsd : Act H I128 := do
  let _ ← okOr (← instanceGet .oracleAddress) (.error .oracleStale)
  let timestamp ← reads State.timestamp
  failIf (timestamp.val = 0) (.error .oracleStale)
  return .ofNat 10000000

def assertOracleFresh (oracleTs : U64) : Act H Unit := do
  let now ← reads State.timestamp
  failIf ((now.saturatingSub oracleTs).val > MAX_ORACLE_AGE_SECS.val) (.error .oracleStale)

/-! ### Requests -/

/-- The functions of the modules as requests.  Only `raise_dispute` is an entrypoint of the
    deployed contract: `lib.rs` does not declare the modules fee, governance, oracle and
    settlement.  No function stores an escrow or the administrator, so these are taken as
    they are in the state a run starts from. -/
inductive Request (A : Type) where
  | raiseDispute (escrowId : U64) (caller : A) (reason : String)
  | releaseToBeneficiary (escrowId : U64)
  | setFeeBps (admin : A) (feeBps : U32)
  | pause (admin : A)
  | getXlmPriceUsd
  | assertOracleFresh (oracleTs : U64)

/-- What a request returns. -/
inductive Reply where
  | done
  | amount (n : I128)
deriving DecidableEq

def Request.exec : Request A → Act H Reply
  | .raiseDispute id caller reason => do
      onEnv (Protocol.raiseDispute id caller reason)
      return .done
  | .releaseToBeneficiary id => return .amount (← onEnv (Protocol.releaseToBeneficiary id))
  | .setFeeBps admin feeBps => do
      Governance.setFeeBps admin feeBps
      return .done
  | .pause admin => do
      Governance.pause admin
      return .done
  | .getXlmPriceUsd => return .amount (← Governance.getXlmPriceUsd)
  | .assertOracleFresh oracleTs => do
      Governance.assertOracleFresh oracleTs
      return .done

/-- A request that was served, one that failed, time that passed, a change of the
    tokens nobody called this contract for. -/
inductive Label (H : Host A) where
  | call (auth : A → Bool) (q : Request A) (reply : Reply)
  | failed (auth : A → Bool) (q : Request A) (fault : Fault)
  | close (sequence : U32) (timestamp : U64)
  | tokens (state : H.tokens.State)

inductive Step : State H → Label H → State H → Prop
  | call {s s' : State H} {auth : A → Bool} {q : Request A} {r : Reply}
      (h : q.exec auth s = .ok (r, s')) : Step s (.call auth q r) s'
  | failed {s : State H} {auth : A → Bool} {q : Request A} {fault : Fault}
      (h : q.exec auth s = .error fault) : Step s (.failed auth q fault) s
  | close {s : State H} {n : U32} {timestamp : U64} (h : s.env.sequence.val ≤ n.val)
      (htime : s.timestamp.val ≤ timestamp.val) :
      Step s (.close n timestamp)
        { s with env := { s.env with sequence := n }, timestamp := timestamp }
  | tokens {s : State H} {state : H.tokens.State} :
      Step s (.tokens state) (s.setEnv (s.env.setPurse ⟨state, s.env.purse.transfers⟩))

/-- The transitions of a run so far, newest first. -/
abbrev History (H : Host A) := List (Move (State H) (Label H))

/-! ### What the requests do -/

section Effects

variable {auth : A → Bool} {s s' : State H} {caller : A} {u : Unit}

@[simp] theorem onEnv_eq_ok {α : Type} {x : Op H α} {a : α} :
    onEnv x auth s = .ok (a, s') ↔ ∃ env, x auth s.env = .ok (a, env) ∧ s' = s.setEnv env := by
  unfold onEnv
  cases x auth s.env with
  | ok p => simp [Prod.ext_iff, eq_comm]
  | error e => simp

@[simp] theorem requireAdmin_eq_ok :
    requireAdmin caller auth s = .ok (u, s') ↔
      auth caller = true ∧ s.inst .admin = some caller ∧ s' = s := by
  simp only [requireAdmin, instanceGet, bind_eq_ok, onEnv_eq_ok, requireAuth_eq_ok, reads_eq_ok,
    okOr_eq_ok, failIf_eq_ok, not_not]
  constructor
  · rintro ⟨_, _, ⟨_, ⟨hauth, rfl⟩, rfl⟩, _, _, ⟨rfl, rfl⟩, admin, _, ⟨hadmin, rfl⟩, rfl, rfl⟩
    exact ⟨hauth, hadmin, rfl⟩
  · rintro ⟨hauth, hadmin, rfl⟩
    exact ⟨(), _, ⟨_, ⟨hauth, rfl⟩, rfl⟩, _, _, ⟨rfl, rfl⟩, caller, _, ⟨hadmin, rfl⟩, rfl, rfl⟩

/-- What a request that was served has done. -/
inductive Request.Effect (auth : A → Bool) (s : State H) : Request A → Reply → State H → Prop
  | raised {id : U64} {caller : A} {reason : String} {env : Env H}
      (h : Protocol.raiseDispute id caller reason auth s.env = .ok ((), env)) :
      Effect auth s (.raiseDispute id caller reason) .done (s.setEnv env)
  | released {id : U64} {n : I128} {env : Env H}
      (h : Protocol.releaseToBeneficiary id auth s.env = .ok (n, env)) :
      Effect auth s (.releaseToBeneficiary id) (.amount n) (s.setEnv env)
  | feeSet {admin : A} {feeBps : U32} (hauth : auth admin = true)
      (hadmin : s.inst .admin = some admin) (hle : feeBps.val ≤ 1000) :
      Effect auth s (.setFeeBps admin feeBps) .done (s.setEnv (s.env.setPersistent .feeBps feeBps))
  | paused {admin : A} (hauth : auth admin = true) (hadmin : s.inst .admin = some admin) :
      Effect auth s (.pause admin) .done (s.setInstance .paused true)
  | priced (htime : s.timestamp.val ≠ 0) :
      Effect auth s .getXlmPriceUsd (.amount (.ofNat 10000000)) s
  | fresh {oracleTs : U64} : Effect auth s (.assertOracleFresh oracleTs) .done s

theorem Request.effect {q : Request A} {r : Reply} (h : q.exec auth s = .ok (r, s')) :
    q.Effect auth s r s' := by
  cases q with
  | raiseDispute =>
      simp only [exec, bind_eq_ok, onEnv_eq_ok, pure_eq_ok] at h
      rcases h with ⟨_, _, ⟨env, henv, rfl⟩, rfl, rfl⟩
      exact .raised henv
  | releaseToBeneficiary =>
      simp only [exec, bind_eq_ok, onEnv_eq_ok, pure_eq_ok] at h
      rcases h with ⟨n, _, ⟨env, henv, rfl⟩, rfl, rfl⟩
      exact .released henv
  | setFeeBps =>
      simp only [exec, Governance.setFeeBps, persistentSet, bind_eq_ok, onEnv_eq_ok,
        requireAdmin_eq_ok, failIf_eq_ok, modify_eq_ok, pure_eq_ok] at h
      rcases h with ⟨_, _, ⟨_, _, ⟨hauth, hadmin, rfl⟩, _, _, ⟨hle, rfl⟩, _, rfl, rfl⟩, rfl, rfl⟩
      exact .feeSet hauth hadmin (not_lt.mp hle)
  | pause =>
      simp only [exec, Governance.pause, instanceSet, bind_eq_ok, requireAdmin_eq_ok, modify_eq_ok,
        pure_eq_ok] at h
      rcases h with ⟨_, _, ⟨_, _, ⟨hauth, hadmin, rfl⟩, rfl⟩, rfl, rfl⟩
      exact .paused hauth hadmin
  | getXlmPriceUsd =>
      simp only [exec, Governance.getXlmPriceUsd, instanceGet, bind_eq_ok, reads_eq_ok, okOr_eq_ok,
        failIf_eq_ok, pure_eq_ok] at h
      rcases h with ⟨_, _, ⟨_, _, ⟨rfl, rfl⟩, _, _, ⟨_, rfl⟩, _, _, ⟨rfl, rfl⟩, _, _, ⟨htime, rfl⟩,
        rfl, rfl⟩, rfl, rfl⟩
      exact .priced htime
  | assertOracleFresh =>
      simp only [exec, Governance.assertOracleFresh, bind_eq_ok, reads_eq_ok, failIf_eq_ok,
        pure_eq_ok] at h
      rcases h with ⟨_, _, ⟨_, _, ⟨rfl, rfl⟩, _, rfl⟩, rfl, rfl⟩
      exact .fresh

end Effects

/-! ### Playing a script -/

/-- The step a request takes. -/
def State.act (s : State H) (q : (A → Bool) × Request A) : Option (Label H × State H) :=
  match q.2.exec q.1 s with
  | .ok (r, s') => some (.call q.1 q.2 r, s')
  | .error fault => some (.failed q.1 q.2 fault, s)

theorem State.act_step {s s' : State H} {q : (A → Bool) × Request A} {l : Label H}
    (h : s.act q = some (l, s')) : Step s l s' := by
  simp only [act] at h
  split at h
  · next r s₁ hc =>
    cases h
    exact .call hc
  · next fault hc =>
    cases h
    exact .failed hc

/-- The escrow of 1000 between 2 and 3, funded, with address 7 as the administrator. -/
def State.seeded : State Host.plain where
  env := Env.seeded 1000
  instanceStore := FiniteMap.empty.insert .admin 7
  timestamp := 1

/-- Address 7 sets the fee to 1%, and address 2 cannot; address 2 disputes the
    escrow, which is released nevertheless, once. -/
def State.script : List ((Nat → Bool) × Request Nat) :=
  [(fun x => x == 7, .setFeeBps 7 (.ofNat 100)),
    (fun x => x == 2, .setFeeBps 2 (.ofNat 900)),
    (fun x => x == 7, .setFeeBps 7 (.ofNat 1001)),
    (fun x => x == 7, .pause 7),
    (fun x => x == 2, .raiseDispute 1 2 "late"),
    (fun _ => false, .releaseToBeneficiary 1),
    (fun _ => false, .releaseToBeneficiary 1)]

theorem State.exists_of_plays (script : List ((Nat → Bool) × Request Nat))
    (p : History Host.plain → State Host.plain → Bool)
    (hp : (play State.act State.seeded script).any (fun q => p q.1 q.2) = true) :
    ∃ h s, Run Step State.seeded h s ∧ p h s = true := by
  rw [Option.any_eq_true] at hp
  obtain ⟨⟨h, s⟩, hplay, hend⟩ := hp
  refine ⟨h, s, Run.of_play (I := fun _ => True) ?_ ?_ trivial hplay, hend⟩
  · exact fun _ _ => trivial
  · exact fun _ ha => act_step ha

end Protocol.Governance
