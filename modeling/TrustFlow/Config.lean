import TrustFlow.Env

/-!
# Initialisation, fee defaults, roles and the circuit breaker

The entrypoints of `lib.rs` that read and write the contract instance only.
Each has a `*_eq_ok` lemma: when it succeeds, and the environment it leaves.
The source opens every administrative setter with the same four statements;
they are `requireAdmin` here.
-/

namespace TrustFlow

open Invocation

variable {A D : Type} [DecidableEq A] {H : Host A D}

/-! ### Reads with the defaults of the source -/

namespace Env

def isPaused (env : Env H) : Bool := (env.inst .paused).getD false
def feeBps (env : Env H) : U32 := (env.inst .feeBps).getD DEFAULT_FEE_BPS
def slashBps (env : Env H) : U32 := (env.inst .slashBps).getD DEFAULT_SLASH_BPS
def escrowCounter (env : Env H) : U64 := (env.inst .escrowCounter).getD 0

@[simp] theorem isPaused_extendInstanceTtl (env : Env H) :
    env.extendInstanceTtl.isPaused = env.isPaused := rfl

end Env

/-! ### The entrypoints -/

/-- `require_not_paused` -/
def requireNotPaused : Op H Unit := do
  let paused ← reads Env.isPaused
  failIf (paused = true) (.error .contractPaused)

/-- `initialize`: it does not look at what the instance already holds. -/
def initialise (admin token : A) (slashBps : U32) : Op H Unit := do
  requireAuth admin
  failIf (slashBps.val > 10000) (.panic "slash_bps must be <= 10_000")
  instanceSet .admin admin
  instanceSet .token token
  instanceSet .slashBps slashBps
  instanceSet .escrowCounter 0
  instanceSet .feeBps DEFAULT_FEE_BPS
  instanceSet .treasury admin
  extendInstanceTtl

def requireAdmin (caller : A) : Op H Unit := do
  requireAuth caller
  extendInstanceTtl
  let admin ← okOr (← instanceGet .admin) .unwrapNone
  failIf (caller ≠ admin) (.error .unauthorized)

def setFeeBps (caller : A) (feeBps : U32) : Op H Unit := do
  requireAdmin caller
  failIf (feeBps.val > MAX_FEE_BPS.val) (.error .invalidFeeBps)
  instanceSet .feeBps feeBps

def getFeeBps : Op H U32 := reads Env.feeBps

def getTreasury : Op H A := do
  okOr (← instanceGet .treasury) .unwrapNone

def setTreasury (caller treasury : A) : Op H Unit := do
  requireAdmin caller
  instanceSet .treasury treasury

def setPauser (caller pauser : A) : Op H Unit := do
  requireAdmin caller
  instanceSet .pauser pauser
  publish [.symbol "pauser", .symbol "set"] (.pauserSet caller pauser)

def revokePauser (caller : A) : Op H Unit := do
  requireAdmin caller
  instanceRemove .pauser
  publish [.symbol "pauser", .symbol "revoke"] (.pauserRevoked caller)

def getPauser : Op H (Option A) := instanceGet .pauser

/-- `pause`: by the admin or the pauser; silent when already paused. -/
def pause (caller : A) : Op H Unit := do
  requireAuth caller
  extendInstanceTtl
  let admin ← okOr (← instanceGet .admin) .unwrapNone
  let pauser ← instanceGet .pauser
  failIf (¬ caller = admin ∧ ¬ pauser = some caller) (.error .unauthorized)
  let currentlyPaused ← reads Env.isPaused
  if currentlyPaused = false then
    instanceSet .paused true
    publish [.symbol "circuit", .symbol "pause"] (.contractPaused caller)
  else
    pure ()

/-- `unpause`: by the admin only; silent when not paused. -/
def unpause (caller : A) : Op H Unit := do
  requireAdmin caller
  let currentlyPaused ← reads Env.isPaused
  if currentlyPaused = true then
    instanceSet .paused false
    publish [.symbol "circuit", .symbol "unpause"] (.contractUnpaused caller)
  else
    pure ()

def isPaused : Op H Bool := reads Env.isPaused

/-! ### What success means -/

variable {auth : A → Bool} {env env' : Env H} {u : Unit}

@[simp] theorem requireNotPaused_eq_ok :
    (requireNotPaused : Op H Unit) auth env = .ok (u, env') ↔
      env.isPaused = false ∧ env' = env := by
  simp [requireNotPaused, and_comm]

@[simp] theorem requireNotPaused_eq_error {e : Fault} :
    (requireNotPaused : Op H Unit) auth env = .error e ↔
      env.isPaused = true ∧ e = .error .contractPaused := by
  simp [requireNotPaused]

theorem initialise_eq_ok {admin token : A} {slashBps : U32} :
    (initialise admin token slashBps : Op H Unit) auth env = .ok (u, env') ↔
      auth admin = true ∧ slashBps.val ≤ 10000 ∧
        env' = (((((((env.setInstance .admin admin).setInstance .token token).setInstance .slashBps
          slashBps).setInstance .escrowCounter 0).setInstance .feeBps
          DEFAULT_FEE_BPS).setInstance .treasury admin)).extendInstanceTtl := by
  simp [initialise, instanceSet, extendInstanceTtl]

@[simp] theorem requireAdmin_eq_ok {caller : A} :
    (requireAdmin caller : Op H Unit) auth env = .ok (u, env') ↔
      auth caller = true ∧ env.inst .admin = some caller ∧ env' = env.extendInstanceTtl := by
  simp [requireAdmin, instanceGet, extendInstanceTtl, @eq_comm _ (some caller)]

theorem setFeeBps_eq_ok {caller : A} {feeBps : U32} :
    (setFeeBps caller feeBps : Op H Unit) auth env = .ok (u, env') ↔
      auth caller = true ∧ env.inst .admin = some caller ∧ feeBps.val ≤ 1000 ∧
        env' = env.extendInstanceTtl.setInstance .feeBps feeBps := by
  simp [setFeeBps, instanceSet, and_assoc]

theorem setTreasury_eq_ok {caller treasury : A} :
    (setTreasury caller treasury : Op H Unit) auth env = .ok (u, env') ↔
      auth caller = true ∧ env.inst .admin = some caller ∧
        env' = env.extendInstanceTtl.setInstance .treasury treasury := by
  simp [setTreasury, instanceSet, and_assoc]

theorem setPauser_eq_ok {caller pauser : A} :
    (setPauser caller pauser : Op H Unit) auth env = .ok (u, env') ↔
      auth caller = true ∧ env.inst .admin = some caller ∧
        env' = (env.extendInstanceTtl.setInstance .pauser pauser).publish
          [.symbol "pauser", .symbol "set"] (.pauserSet caller pauser) := by
  simp [setPauser, instanceSet, publish, and_assoc]

theorem revokePauser_eq_ok {caller : A} :
    (revokePauser caller : Op H Unit) auth env = .ok (u, env') ↔
      auth caller = true ∧ env.inst .admin = some caller ∧
        env' = (env.extendInstanceTtl.removeInstance .pauser).publish
          [.symbol "pauser", .symbol "revoke"] (.pauserRevoked caller) := by
  simp [revokePauser, instanceRemove, publish, and_assoc]

/-- The environment after a successful `pause` or `unpause`: the flag is written
    and the event published only when the flag changes. -/
def Env.setPaused (env : Env H) (flag : Bool) (topic : String) (data : EventData A) : Env H :=
  if env.isPaused = flag then env.extendInstanceTtl
  else (env.extendInstanceTtl.setInstance .paused flag).publish
    [.symbol "circuit", .symbol topic] data

theorem pause_eq_ok {caller : A} :
    (pause caller : Op H Unit) auth env = .ok (u, env') ↔
      auth caller = true ∧
        (∃ admin, env.inst .admin = some admin ∧
          (caller = admin ∨ env.inst .pauser = some caller)) ∧
        env' = env.setPaused true "pause" (.contractPaused caller) := by
  cases hp : env.isPaused <;>
    simp [pause, instanceSet, instanceGet, extendInstanceTtl, publish, ite_eq_ok, Env.setPaused,
      hp, or_iff_not_imp_left, ← and_assoc]

theorem unpause_eq_ok {caller : A} :
    (unpause caller : Op H Unit) auth env = .ok (u, env') ↔
      auth caller = true ∧ env.inst .admin = some caller ∧
        env' = env.setPaused false "unpause" (.contractUnpaused caller) := by
  cases hp : env.isPaused <;>
    simp [unpause, instanceSet, publish, ite_eq_ok, Env.setPaused, hp, and_assoc]

end TrustFlow
