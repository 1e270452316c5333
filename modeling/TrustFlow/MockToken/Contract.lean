import TrustFlow.Lib.Invocation
import TrustFlow.Lib.Machine
import TrustFlow.Lib.Run
import TrustFlow.Lib.Storage

/-!
# The mock token

The token the payment flows are tested with.  One administrator mints, anyone
transfers what they have; there are no allowances, no events, and no entry is
ever extended.  The balance that a transfer credits is read after the debit was
written.
-/

namespace MockToken

open Invocation Transition

/-! ### Keys, values and state -/

inductive DataKey (A : Type) where
  | balance (a : A)
  | admin
  | metadata
deriving DecidableEq

structure TokenMetadata where
  decimal : U32
  name : String
  symbol : String
deriving DecidableEq

/-- The type of the value stored under a key. -/
abbrev DataKey.Val (A : Type) : DataKey A → Type
  | .balance _ => I128
  | .admin => A
  | .metadata => TokenMetadata

inductive Fault where
  | notAuthorized
  | panicked (message : String)
  | unwrapNone
  | overflow
deriving DecidableEq

structure Env (A : Type) where
  instanceStore : FiniteMap (DataKey A) (DataKey.Val A)
  persistent : FiniteMap (DataKey A) (DataKey.Val A)

variable {A : Type}

namespace Env

/-- `e.storage().instance().get(key)` -/
def inst (env : Env A) (k : DataKey A) : Option (DataKey.Val A k) := env.instanceStore.find? k

/-- `e.storage().persistent().get(key)` -/
def get (env : Env A) (k : DataKey A) : Option (DataKey.Val A k) := env.persistent.find? k

variable [DecidableEq A]

def setInstance (env : Env A) (k : DataKey A) (v : DataKey.Val A k) : Env A :=
  { env with instanceStore := env.instanceStore.insert k v }

def setPersistent (env : Env A) (k : DataKey A) (v : DataKey.Val A k) : Env A :=
  { env with persistent := env.persistent.insert k v }

end Env

/-- An entrypoint or a part of one.  The context tells which addresses
    authorised the invocation. -/
abbrev Op (A : Type) := Invocation (A → Bool) (Env A) Fault

/-- `address.require_auth()` -/
def requireAuth (a : A) : Op A Unit := fun auth env =>
  if auth a then .ok ((), env) else .error .notAuthorized

section Token

variable [DecidableEq A]

def instanceGet (k : DataKey A) : Op A (Option (DataKey.Val A k)) := reads fun env => env.inst k
def instanceSet (k : DataKey A) (v : DataKey.Val A k) : Op A Unit :=
  modify fun env => env.setInstance k v
def persistentGet (k : DataKey A) : Op A (Option (DataKey.Val A k)) := reads fun env => env.get k
def persistentSet (k : DataKey A) (v : DataKey.Val A k) : Op A Unit :=
  modify fun env => env.setPersistent k v

/-! ### The token -/

/-- `initialize` -/
def initialise (admin : A) (decimal : U32) (name symbol : String) : Op A Unit := do
  failIf ((← instanceGet .admin).isSome = true) (.panicked "already initialized")
  instanceSet .admin admin
  instanceSet .metadata { decimal, name, symbol }

def balance (addr : A) : Op A I128 := do return (← persistentGet (.balance addr)).getD 0

def mint (dest : A) (amount : I128) : Op A Unit := do
  let admin ← okOr (← instanceGet .admin) .unwrapNone
  requireAuth admin
  failIf (amount.val < 0) (.panicked "amount cannot be negative")
  let balance ← balance dest
  persistentSet (.balance dest) (← okOr (balance.checkedAdd amount) .overflow)

def transfer (src dest : A) (amount : I128) : Op A Unit := do
  requireAuth src
  failIf (amount.val < 0) (.panicked "amount cannot be negative")
  let fromBalance ← balance src
  failIf (fromBalance.val < amount.val) (.panicked "insufficient balance")
  persistentSet (.balance src) (← okOr (fromBalance.checkedSub amount) .overflow)
  let toBalance ← balance dest
  persistentSet (.balance dest) (← okOr (toBalance.checkedAdd amount) .overflow)

def decimals : Op A U32 := do
  let metadata ← okOr (← instanceGet .metadata) .unwrapNone
  return metadata.decimal

def name : Op A String := do
  let metadata ← okOr (← instanceGet .metadata) .unwrapNone
  return metadata.name

def symbol : Op A String := do
  let metadata ← okOr (← instanceGet .metadata) .unwrapNone
  return metadata.symbol

/-! ### Calls and runs -/

inductive Call (A : Type) where
  | initialise (admin : A) (decimal : U32) (name symbol : String)
  | mint (dest : A) (amount : I128)
  | transfer (src dest : A) (amount : I128)
  | balance (addr : A)
  | decimals
  | name
  | symbol

/-- What a call returns. -/
inductive Reply where
  | done
  | amount (n : I128)
  | number (n : U32)
  | text (s : String)
deriving DecidableEq

def Call.exec : Call A → Op A Reply
  | .initialise admin decimal n s => do
      MockToken.initialise admin decimal n s
      return .done
  | .mint dest amount => do
      MockToken.mint dest amount
      return .done
  | .transfer src dest amount => do
      MockToken.transfer src dest amount
      return .done
  | .balance addr => return .amount (← MockToken.balance addr)
  | .decimals => return .number (← MockToken.decimals)
  | .name => return .text (← MockToken.name)
  | .symbol => return .text (← MockToken.symbol)

inductive Label (A : Type) where
  | call (auth : A → Bool) (c : Call A) (reply : Reply)
  | failed (auth : A → Bool) (c : Call A) (fault : Fault)

inductive Step : Env A → Label A → Env A → Prop
  | call {env env' : Env A} {auth : A → Bool} {c : Call A} {r : Reply}
      (h : c.exec auth env = .ok (r, env')) : Step env (.call auth c r) env'
  | failed {env : Env A} {auth : A → Bool} {c : Call A} {fault : Fault}
      (h : c.exec auth env = .error fault) : Step env (.failed auth c fault) env

/-- The transitions of a run so far, newest first. -/
abbrev History (A : Type) := List (Move (Env A) (Label A))

end Token

/-- A token that was deployed and not called yet. -/
structure Env.Fresh (env : Env A) : Prop where
  no_instance : ∀ k, env.inst k = none
  no_persistent : ∀ k, env.get k = none

/-! ### What the calls do -/

/-- What `balance` returns. -/
def Env.balanceOf (env : Env A) (a : A) : I128 := (env.get (.balance a)).getD 0

section Specs

variable {auth : A → Bool} {env env' : Env A} {a x src dest : A} {n : I128} {u : Unit}

@[simp] theorem requireAuth_eq_ok :
    (requireAuth a : Op A Unit) auth env = .ok (u, env') ↔ auth a = true ∧ env' = env := by
  unfold requireAuth
  split
  · next h => simp [h, eq_comm]
  · next h => simp [h]

theorem balance_eq : balance a auth env = .ok (env.balanceOf a, env) := rfl

@[simp] theorem balance_eq_ok :
    balance a auth env = .ok (n, env') ↔ n = env.balanceOf a ∧ env' = env := by
  simp [balance_eq, eq_comm]

variable [DecidableEq A]

@[simp] theorem Env.balanceOf_setInstance {k : DataKey A} {v : DataKey.Val A k} :
    (env.setInstance k v).balanceOf x = env.balanceOf x := rfl

@[simp] theorem Env.inst_setInstance_self {k : DataKey A} {v : DataKey.Val A k} :
    (env.setInstance k v).inst k = some v := FiniteMap.find?_insert_self ..

@[simp] theorem Env.inst_setInstance_of_ne {k k' : DataKey A} {v : DataKey.Val A k}
    (h : k' ≠ k) : (env.setInstance k v).inst k' = env.inst k' :=
  FiniteMap.find?_insert_of_ne _ _ h

@[simp] theorem Env.inst_setPersistent {k k' : DataKey A} {v : DataKey.Val A k} :
    (env.setPersistent k v).inst k' = env.inst k' := rfl

@[simp] theorem Env.balanceOf_setPersistent_self :
    (env.setPersistent (.balance a) n).balanceOf a = n := by
  simp [balanceOf, get, setPersistent]

@[simp] theorem Env.balanceOf_setPersistent_of_ne (h : x ≠ a) :
    (env.setPersistent (.balance a) n).balanceOf x = env.balanceOf x := by
  have hk : DataKey.balance x ≠ .balance a := fun hk => h (DataKey.balance.inj hk)
  simp [balanceOf, get, setPersistent, hk]

theorem initialise_eq_ok {decimal : U32} {name symbol : String} :
    initialise a decimal name symbol auth env = .ok (u, env') ↔
      env.inst .admin = none ∧
        env' = (env.setInstance .admin a).setInstance .metadata ⟨decimal, name, symbol⟩ := by
  simp only [initialise, instanceGet, instanceSet, bind_eq_ok, reads_eq_ok, failIf_eq_ok,
    modify_eq_ok, Option.isSome_iff_ne_none, ne_eq, not_not]
  constructor
  · rintro ⟨_, _, ⟨rfl, rfl⟩, _, _, ⟨hnone, rfl⟩, _, _, rfl, rfl⟩
    exact ⟨hnone, rfl⟩
  · rintro ⟨hnone, rfl⟩
    exact ⟨_, _, ⟨rfl, rfl⟩, (), _, ⟨hnone, rfl⟩, (), _, rfl, rfl⟩

/-- The balance of `a` has changed by `n`, and nothing else. -/
structure Env.Credits (env : Env A) (a : A) (n : Int) (env' : Env A) : Prop where
  balance : ∀ x, (env'.balanceOf x).val = (env.balanceOf x).val + if x = a then n else 0
  inst : ∀ k, env'.inst k = env.inst k

theorem Env.Credits.of_set {m : I128} {d : Int} (h : m.val = (env.balanceOf a).val + d) :
    env.Credits a d (env.setPersistent (.balance a) m) where
  balance x := by
    by_cases hx : x = a
    · subst hx
      rw [Env.balanceOf_setPersistent_self, h, if_pos rfl]
    · rw [Env.balanceOf_setPersistent_of_ne hx, if_neg hx, add_zero]
  inst _ := rfl

theorem mint_ok (h : mint dest n auth env = .ok (u, env')) :
    (∃ admin, env.inst .admin = some admin ∧ auth admin = true) ∧ 0 ≤ n.val ∧
      env.Credits dest n.val env' := by
  simp only [mint, instanceGet, persistentSet, bind_eq_ok, reads_eq_ok, okOr_eq_ok,
    requireAuth_eq_ok, failIf_eq_ok, balance_eq_ok, BoundedInt.checkedAdd_eq_some,
    modify_eq_ok] at h
  rcases h with ⟨_, _, ⟨rfl, rfl⟩, admin, _, ⟨hadmin, rfl⟩, _, _, ⟨hauth, rfl⟩, _, _, ⟨h0, rfl⟩,
    _, _, ⟨rfl, rfl⟩, total, _, ⟨htotal, rfl⟩, rfl⟩
  exact ⟨⟨admin, hadmin, hauth⟩, not_lt.mp h0, .of_set htotal⟩

theorem transfer_ok (h : transfer src dest n auth env = .ok (u, env')) :
    auth src = true ∧ 0 ≤ n.val ∧ n.val ≤ (env.balanceOf src).val ∧
      ∃ e, env.Credits src (-n.val) e ∧ e.Credits dest n.val env' := by
  simp only [transfer, persistentSet, bind_eq_ok, requireAuth_eq_ok, failIf_eq_ok, balance_eq_ok,
    okOr_eq_ok, BoundedInt.checkedSub_eq_some, BoundedInt.checkedAdd_eq_some, modify_eq_ok] at h
  rcases h with ⟨_, _, ⟨hauth, rfl⟩, _, _, ⟨h0, rfl⟩, _, _, ⟨rfl, rfl⟩, _, _, ⟨hle, rfl⟩,
    rest, _, ⟨hrest, rfl⟩, _, _, rfl, _, _, ⟨rfl, rfl⟩, total, _, ⟨htotal, rfl⟩, rfl⟩
  rw [Int.sub_eq_add_neg] at hrest
  exact ⟨hauth, not_lt.mp h0, not_lt.mp hle, _, .of_set hrest, .of_set htotal⟩

end Specs

/-! ### Playing a script -/

namespace Env

variable [DecidableEq A]

/-- The step a call takes. -/
def act (env : Env A) (q : (A → Bool) × Call A) : Option (Label A × Env A) :=
  match q.2.exec q.1 env with
  | .ok (r, env') => some (.call q.1 q.2 r, env')
  | .error fault => some (.failed q.1 q.2 fault, env)

theorem act_step {env env' : Env A} {q : (A → Bool) × Call A} {l : Label A}
    (h : env.act q = some (l, env')) : Step env l env' := by
  simp only [act] at h
  split at h
  · next r env₁ hc =>
    cases h
    exact .call hc
  · next fault hc =>
    cases h
    exact .failed hc

/-- A fresh token over addresses `Nat`. -/
def deployed : Env Nat := ⟨.empty, .empty⟩

theorem deployed_fresh : deployed.Fresh := ⟨fun _ => rfl, fun _ => rfl⟩

end Env

end MockToken
