import TrustFlow.Abundance.Contract
import TrustFlow.Lib.Run

/-!
# What the calls of the token do

`Env.balanceOf` and `Env.allowanceOf` are what the contract reads.  `Env.Credits`
changes one balance and `Env.Writes` one allowance, leaving everything else that
can be read as it is; `Call.Effect` says which of them, in which order, a call
that returned has made.
-/

namespace Abundance

open Invocation Transition

variable {A : Type} {H : Host}

/-! ### Observations -/

namespace Env

/-- What `read_balance` returns. -/
def balanceOf (env : Env A H) (a : A) : I128 := (env.get (.balance a)).getD 0

/-- What `read_allowance` returns. -/
def allowanceOf (env : Env A H) (k : AllowanceDataKey A) : AllowanceValue :=
  match env.temp (.allowance k) with
  | some v => if v.expirationLedger.val < env.sequence.val then ⟨0, v.expirationLedger⟩ else v
  | none => ⟨0, 0⟩

theorem allowanceOf_congr {env env' : Env A H} {k : AllowanceDataKey A}
    (ht : env'.temporary = env.temporary) (hs : env'.sequence = env.sequence) :
    env'.allowanceOf k = env.allowanceOf k := by
  simp only [allowanceOf, temp, now, ht, hs]

/-- An allowance that reads as positive has not expired. -/
theorem sequence_le_of_allowance {env : Env A H} {k : AllowanceDataKey A}
    (h : 0 < (env.allowanceOf k).amount.val) :
    env.sequence.val ≤ (env.allowanceOf k).expirationLedger.val := by
  cases hv : env.temp (.allowance k) with
  | none => simp [allowanceOf, hv] at h
  | some v =>
      by_cases hexpired : v.expirationLedger.val < env.sequence.val
      · simp [allowanceOf, hv, hexpired] at h
      · simp only [allowanceOf, hv, if_neg hexpired]
        exact not_lt.mp hexpired

variable [DecidableEq A]

/-- The entry of a balance after a read. -/
def bumpBalance (env : Env A H) (a : A) : Env A H :=
  env.bumpPersistent BALANCE_LIFETIME_THRESHOLD BALANCE_BUMP_AMOUNT (.balance a)

/-- What `write_balance` writes. -/
def putBalance (env : Env A H) (a : A) (n : I128) : Env A H :=
  (env.setPersistent (.balance a) n).bumpBalance a

/-- What `write_allowance` writes. -/
def putAllowance (env : Env A H) (k : AllowanceDataKey A) (v : AllowanceValue) : Env A H :=
  if 0 < v.amount.val then
    (env.setTemporary (.allowance k) v).bumpTemporary
      (v.expirationLedger.val - env.sequence.val).toNat
      (v.expirationLedger.val - env.sequence.val).toNat (.allowance k)
  else env.setTemporary (.allowance k) v

section Observations

variable {env env' : Env A H} {a x : A} {n : I128} {k : AllowanceDataKey A} {v : AllowanceValue}

@[simp] theorem balanceOf_bumpBalance : (env.bumpBalance a).balanceOf x = env.balanceOf x := by
  simp [balanceOf, bumpBalance, bumpPersistent, get]

@[simp] theorem balanceOf_putBalance_self : (env.putBalance a n).balanceOf a = n := by
  rw [putBalance, balanceOf_bumpBalance]
  simp [balanceOf, setPersistent, get]

@[simp] theorem balanceOf_putBalance_of_ne (h : x ≠ a) :
    (env.putBalance a n).balanceOf x = env.balanceOf x := by
  have hk : DataKey.balance x ≠ .balance a := fun hk => h (DataKey.balance.inj hk)
  rw [putBalance, balanceOf_bumpBalance]
  simp [balanceOf, setPersistent, get, hk]

@[simp] theorem balanceOf_putAllowance : (env.putAllowance k v).balanceOf x = env.balanceOf x := by
  unfold putAllowance
  split
  · rfl
  · rfl

@[simp] theorem sequence_putAllowance : (env.putAllowance k v).sequence = env.sequence := by
  unfold putAllowance
  split
  · rfl
  · rfl

theorem putAllowance_congr (ht : env'.temporary = env.temporary)
    (hs : env'.sequence = env.sequence) :
    (env'.putAllowance k v).temporary = (env.putAllowance k v).temporary := by
  unfold putAllowance
  split
  · simp [setTemporary, bumpTemporary, now, ht, hs]
  · simp [setTemporary, now, ht, hs]

end Observations

/-- Nothing that can be read of balances and allowances has changed. -/
structure Agrees (env env' : Env A H) : Prop where
  balance : ∀ x, env'.balanceOf x = env.balanceOf x
  temporary : env'.temporary = env.temporary
  sequence : env'.sequence = env.sequence

/-- The balance of `a` has changed by `n`. -/
structure Credits (env : Env A H) (a : A) (n : Int) (env' : Env A H) : Prop where
  balance : ∀ x, (env'.balanceOf x).val = (env.balanceOf x).val + if x = a then n else 0
  temporary : env'.temporary = env.temporary
  sequence : env'.sequence = env.sequence

/-- The allowance `v` was written under `k`. -/
structure Writes (env : Env A H) (k : AllowanceDataKey A) (v : AllowanceValue) (env' : Env A H) :
    Prop where
  balance : ∀ x, env'.balanceOf x = env.balanceOf x
  temporary : env'.temporary = (env.putAllowance k v).temporary
  sequence : env'.sequence = env.sequence

/-- `n` was taken out of the allowance under `k`. -/
inductive SpendsAllowance (env : Env A H) (k : AllowanceDataKey A) (n : I128) (env' : Env A H) :
    Prop
  | intro {rest : I128} (hle : n.val ≤ (env.allowanceOf k).amount.val)
      (hrest : rest.val = (env.allowanceOf k).amount.val - n.val)
      (hwrites : env.Writes k ⟨rest, (env.allowanceOf k).expirationLedger⟩ env') :
      SpendsAllowance env k n env'

theorem SpendsAllowance.le {env env' : Env A H} {k : AllowanceDataKey A} {n : I128}
    (h : env.SpendsAllowance k n env') : n.val ≤ (env.allowanceOf k).amount.val := by
  obtain ⟨hle, _, _⟩ := h
  exact hle

theorem SpendsAllowance.writes {env env' : Env A H} {k : AllowanceDataKey A} {n : I128}
    (h : env.SpendsAllowance k n env') : ∃ v, env.Writes k v env' := by
  obtain ⟨_, _, hwrites⟩ := h
  exact ⟨_, hwrites⟩

end Env

/-! ### The helpers -/

section Helpers

variable {auth : A → Bool} {env env' : Env A H} {a src spender : A} {n : I128} {expiration : U32}
  {u : Unit}

@[simp] theorem requireAuth_eq_ok :
    (requireAuth a : Op A H Unit) auth env = .ok (u, env') ↔ auth a = true ∧ env' = env := by
  unfold requireAuth
  split
  · next h => simp [h, eq_comm]
  · next h => simp [h]

@[simp] theorem checkNonnegativeAmount_eq_ok :
    (checkNonnegativeAmount n : Op A H Unit) auth env = .ok (u, env') ↔
      0 ≤ n.val ∧ env' = env := by
  rw [checkNonnegativeAmount, failIf_eq_ok, not_lt]

theorem readAllowance_eq :
    readAllowance src spender auth env = .ok (env.allowanceOf ⟨src, spender⟩, env) := by
  have hget : (temporaryGet (.allowance ⟨src, spender⟩) : Op A H (Option AllowanceValue)) auth env =
      .ok (env.temp (.allowance ⟨src, spender⟩), env) := rfl
  rw [readAllowance, bind_of_ok hget]
  cases hallowance : env.temp (.allowance ⟨src, spender⟩) with
  | none =>
      rw [Env.allowanceOf, hallowance]
      rfl
  | some allowance =>
      rw [Env.allowanceOf, hallowance]
      show (if allowance.expirationLedger.val < env.sequence.val then
        pure ⟨0, allowance.expirationLedger⟩ else pure allowance : Op A H AllowanceValue)
          auth env = .ok (if _ then _ else _, env)
      split
      · rfl
      · rfl

@[simp] theorem readAllowance_eq_ok {v : AllowanceValue} :
    readAllowance src spender auth env = .ok (v, env') ↔
      v = env.allowanceOf ⟨src, spender⟩ ∧ env' = env := by
  simp [readAllowance_eq, eq_comm]

variable [DecidableEq A]

/-- Reading a balance that has no entry touches nothing. -/
theorem Env.bumpBalance_of_none (h : env.get (.balance a) = none) : env.bumpBalance a = env := by
  have hnone : env.persistent.entries.find? (.balance a) = none := by
    simpa [Env.get, Persistent.get] using h
  simp [bumpBalance, bumpPersistent, Persistent.bump, hnone]

theorem readBalance_eq : readBalance a auth env = .ok (env.balanceOf a, env.bumpBalance a) := by
  have hget : (persistentGet (.balance a) : Op A H (Option I128)) auth env =
      .ok (env.get (.balance a), env) := rfl
  rw [readBalance, bind_of_ok hget]
  cases hbalance : env.get (.balance a) with
  | none =>
      rw [Env.balanceOf, hbalance, Env.bumpBalance_of_none hbalance]
      rfl
  | some balance =>
      rw [Env.balanceOf, hbalance]
      rfl

@[simp] theorem readBalance_eq_ok :
    readBalance a auth env = .ok (n, env') ↔ n = env.balanceOf a ∧ env' = env.bumpBalance a := by
  simp [readBalance_eq, eq_comm]

@[simp] theorem writeBalance_eq_ok :
    writeBalance a n auth env = .ok (u, env') ↔ env' = env.putBalance a n := by
  simp only [writeBalance, persistentSet, persistentBump, bind_eq_ok, modify_eq_ok]
  constructor
  · rintro ⟨_, _, rfl, rfl⟩
    rfl
  · rintro rfl
    exact ⟨(), _, rfl, rfl⟩

/-- A balance that was read and written back changed by the difference. -/
theorem Env.Credits.of_put {m : I128} {d : Int} (h : m.val = (env.balanceOf a).val + d) :
    env.Credits a d ((env.bumpBalance a).putBalance a m) where
  balance x := by
    by_cases hx : x = a
    · subst hx
      simpa using h
    · simp [hx]
  temporary := rfl
  sequence := rfl

theorem receiveBalance_ok (h : receiveBalance a n auth env = .ok (u, env')) :
    env.Credits a n.val env' := by
  simp only [receiveBalance, bind_eq_ok, readBalance_eq_ok, okOr_eq_ok,
    BoundedInt.checkedAdd_eq_some, writeBalance_eq_ok] at h
  rcases h with ⟨_, _, ⟨rfl, rfl⟩, total, _, ⟨htotal, rfl⟩, rfl⟩
  exact .of_put htotal

theorem spendBalance_ok (h : spendBalance a n auth env = .ok (u, env')) :
    n.val ≤ (env.balanceOf a).val ∧ env.Credits a (-n.val) env' := by
  simp only [spendBalance, bind_eq_ok, readBalance_eq_ok, failIf_eq_ok, okOr_eq_ok,
    BoundedInt.checkedSub_eq_some, writeBalance_eq_ok] at h
  rcases h with ⟨_, _, ⟨rfl, rfl⟩, _, _, ⟨hle, rfl⟩, rest, _, ⟨hrest, rfl⟩, rfl⟩
  exact ⟨not_lt.mp hle, .of_put (by rw [hrest, Int.sub_eq_add_neg])⟩

theorem writeAllowance_eq_ok :
    writeAllowance src spender n expiration auth env = .ok (u, env') ↔
      (0 < n.val → env.sequence.val ≤ expiration.val) ∧
        env' = env.putAllowance ⟨src, spender⟩ ⟨n, expiration⟩ := by
  simp only [writeAllowance, ledgerSequence, temporarySet, temporaryBump, bind_eq_ok, reads_eq_ok,
    failIf_eq_ok, modify_eq_ok, ite_eq_ok, okOr_eq_ok, BoundedInt.checkedSub_eq_some, pure_eq_ok,
    not_and, not_lt]
  constructor
  · rintro ⟨_, _, ⟨rfl, rfl⟩, _, _, ⟨hexp, rfl⟩, _, _, rfl,
      ⟨hpos, liveFor, _, ⟨hlive, rfl⟩, rfl⟩ | ⟨hpos, _, rfl⟩⟩
    · exact ⟨hexp, by rw [Env.putAllowance, if_pos hpos, hlive]⟩
    · exact ⟨hexp, by rw [Env.putAllowance, if_neg hpos.not_gt]⟩
  · rintro ⟨hexp, rfl⟩
    refine ⟨_, _, ⟨rfl, rfl⟩, (), _, ⟨hexp, rfl⟩, (), _, rfl, ?_⟩
    rcases lt_or_ge 0 n.val with hpos | hpos
    · have hle := hexp hpos
      have h0 := env.sequence.lo_le
      have hmax := expiration.le_hi
      refine .inl ⟨hpos, ⟨expiration.val - env.sequence.val, by omega, by omega⟩, _,
        ⟨rfl, rfl⟩, ?_⟩
      rw [Env.putAllowance, if_pos hpos]
    · exact .inr ⟨hpos, trivial, by rw [Env.putAllowance, if_neg hpos.not_gt]⟩

theorem Env.Writes.put {k : AllowanceDataKey A} {v : AllowanceValue} :
    env.Writes k v (env.putAllowance k v) where
  balance _ := balanceOf_putAllowance
  temporary := rfl
  sequence := sequence_putAllowance

/-- Nothing here depends on the lifetime of the instance. -/
theorem Env.Writes.of_bumpInstance {k : AllowanceDataKey A} {v : AllowanceValue}
    (h : env.bumpInstance.Writes k v env') : env.Writes k v env' where
  balance := h.balance
  temporary := h.temporary.trans (putAllowance_congr rfl rfl)
  sequence := h.sequence

theorem Env.SpendsAllowance.of_bumpInstance {k : AllowanceDataKey A}
    (h : env.bumpInstance.SpendsAllowance k n env') : env.SpendsAllowance k n env' := by
  obtain ⟨hle, hrest, hwrites⟩ := h
  exact .intro hle hrest hwrites.of_bumpInstance

theorem spendAllowance_ok (h : spendAllowance src spender n auth env = .ok (u, env')) :
    env.SpendsAllowance ⟨src, spender⟩ n env' := by
  simp only [spendAllowance, bind_eq_ok, readAllowance_eq_ok, failIf_eq_ok, okOr_eq_ok,
    BoundedInt.checkedSub_eq_some, writeAllowance_eq_ok] at h
  rcases h with ⟨_, _, ⟨rfl, rfl⟩, _, _, ⟨hle, rfl⟩, rest, _, ⟨hrest, rfl⟩, _, rfl⟩
  exact .intro (not_lt.mp hle) hrest .put

/-- A spend of what an allowance covers goes through: what is left is only
    positive where the allowance was, and then it has not expired. -/
theorem exists_spendAllowance (h0 : 0 ≤ n.val)
    (hle : n.val ≤ (env.allowanceOf ⟨src, spender⟩).amount.val) :
    ∃ env', spendAllowance src spender n auth env = .ok ((), env') := by
  have hmin := n.lo_le
  have hmax := (env.allowanceOf ⟨src, spender⟩).amount.le_hi
  let rest : I128 :=
    ⟨(env.allowanceOf ⟨src, spender⟩).amount.val - n.val, by omega, by omega⟩
  have hexp : 0 < rest.val →
      env.sequence.val ≤ (env.allowanceOf ⟨src, spender⟩).expirationLedger.val := by
    intro hpos
    have hrest : rest.val = (env.allowanceOf ⟨src, spender⟩).amount.val - n.val := rfl
    exact Env.sequence_le_of_allowance (by omega)
  refine ⟨env.putAllowance ⟨src, spender⟩
    ⟨rest, (env.allowanceOf ⟨src, spender⟩).expirationLedger⟩, ?_⟩
  simp only [spendAllowance, bind_eq_ok, readAllowance_eq_ok, failIf_eq_ok, okOr_eq_ok,
    BoundedInt.checkedSub_eq_some, writeAllowance_eq_ok]
  exact ⟨_, _, ⟨rfl, rfl⟩, (), _, ⟨not_lt.mpr hle, rfl⟩, rest, _, ⟨rfl, rfl⟩, hexp, rfl⟩

end Helpers

/-! ### The entrypoints -/

section Entrypoints

variable {auth : A → Bool} {env env' : Env A H} {src dest spender a : A} {n : I128}
  {expiration : U32} {u : Unit}

@[simp] theorem getMetadata_eq_ok {m : TokenMetadata} :
    (getMetadata : Op A H TokenMetadata) auth env = .ok (m, env') ↔
      env.metadata = some m ∧ env' = env := by
  simp only [getMetadata, bind_eq_ok, reads_eq_ok, okOr_eq_ok]
  constructor
  · rintro ⟨_, _, ⟨rfl, rfl⟩, hm, rfl⟩
    exact ⟨hm, rfl⟩
  · rintro ⟨hm, rfl⟩
    exact ⟨_, _, ⟨rfl, rfl⟩, hm, rfl⟩

theorem allowance_ok (h : allowance src spender auth env = .ok (n, env')) :
    n = (env.allowanceOf ⟨src, spender⟩).amount ∧ env.Agrees env' := by
  simp only [allowance, instanceBump, bind_eq_ok, readAllowance_eq_ok, modify_eq_ok,
    pure_eq_ok] at h
  rcases h with ⟨_, _, rfl, _, _, ⟨rfl, rfl⟩, rfl, rfl⟩
  exact ⟨rfl, fun _ => rfl, rfl, rfl⟩

variable [DecidableEq A]

theorem initialise_ok {decimal : U32} {tokenName tokenSymbol : String}
    (h : initialise a decimal tokenName tokenSymbol auth env = .ok (u, env')) :
    env.Agrees env' := by
  simp only [initialise, hasAdministrator, writeAdministrator, writeMetadata, instanceGet,
    instanceSet, bind_eq_ok, reads_eq_ok, pure_eq_ok, failIf_eq_ok, modify_eq_ok] at h
  rcases h with ⟨_, _, ⟨_, _, ⟨rfl, rfl⟩, rfl, rfl⟩, _, _, ⟨_, rfl⟩, _, _, rfl, _, _, ⟨_, rfl⟩,
    rfl⟩
  exact ⟨fun _ => rfl, rfl, rfl⟩

theorem setAdmin_ok (h : setAdmin a auth env = .ok (u, env')) :
    (∃ admin, env.inst .admin = some admin ∧ auth admin = true) ∧ env.Agrees env' := by
  simp only [setAdmin, readAdministrator, writeAdministrator, instanceGet, instanceSet,
    instanceBump, publish, bind_eq_ok, reads_eq_ok, okOr_eq_ok, requireAuth_eq_ok,
    modify_eq_ok] at h
  rcases h with ⟨admin, _, ⟨_, _, ⟨rfl, rfl⟩, hadmin, rfl⟩, _, _, ⟨hauth, rfl⟩, _, _, rfl, _, _,
    rfl, rfl⟩
  exact ⟨⟨admin, hadmin, hauth⟩, fun _ => rfl, rfl, rfl⟩

theorem balance_ok (h : balance a auth env = .ok (n, env')) :
    n = env.balanceOf a ∧ env.Agrees env' := by
  simp only [balance, instanceBump, bind_eq_ok, readBalance_eq_ok, modify_eq_ok] at h
  rcases h with ⟨_, _, rfl, rfl, rfl⟩
  exact ⟨rfl, fun _ => Env.balanceOf_bumpBalance, rfl, rfl⟩

theorem mint_ok (h : mint dest n auth env = .ok (u, env')) :
    auth dest = true ∧ 0 ≤ n.val ∧ env.Credits dest n.val env' := by
  simp only [mint, instanceBump, publish, bind_eq_ok, checkNonnegativeAmount_eq_ok,
    requireAuth_eq_ok, modify_eq_ok] at h
  rcases h with ⟨_, _, ⟨h0, rfl⟩, _, _, ⟨hauth, rfl⟩, _, _, rfl, _, e, hreceive, rfl⟩
  have hto := receiveBalance_ok hreceive
  exact ⟨hauth, h0, hto.balance, hto.temporary, hto.sequence⟩

theorem approve_ok (h : approve src spender n expiration auth env = .ok (u, env')) :
    auth src = true ∧ 0 ≤ n.val ∧ (0 < n.val → env.sequence.val ≤ expiration.val) ∧
      env.Writes ⟨src, spender⟩ ⟨n, expiration⟩ env' := by
  simp only [approve, instanceBump, publish, bind_eq_ok, requireAuth_eq_ok,
    checkNonnegativeAmount_eq_ok, modify_eq_ok, writeAllowance_eq_ok] at h
  rcases h with ⟨_, _, ⟨hauth, rfl⟩, _, _, ⟨h0, rfl⟩, _, _, rfl, _, _, ⟨hexp, rfl⟩, rfl⟩
  refine ⟨hauth, h0, hexp, Env.Writes.of_bumpInstance ?_⟩
  exact ⟨fun _ => Env.balanceOf_putAllowance, rfl, Env.sequence_putAllowance⟩

theorem transfer_ok (h : transfer src dest n auth env = .ok (u, env')) :
    auth src = true ∧ 0 ≤ n.val ∧ n.val ≤ (env.balanceOf src).val ∧
      ∃ e, env.Credits src (-n.val) e ∧ e.Credits dest n.val env' := by
  simp only [transfer, instanceBump, publish, bind_eq_ok, requireAuth_eq_ok,
    checkNonnegativeAmount_eq_ok, modify_eq_ok] at h
  rcases h with ⟨_, _, ⟨hauth, rfl⟩, _, _, ⟨h0, rfl⟩, _, _, rfl, _, e, hspend, _, _, hreceive, rfl⟩
  rcases spendBalance_ok hspend with ⟨hle, hfrom⟩
  have hto := receiveBalance_ok hreceive
  exact ⟨hauth, h0, hle, e, ⟨hfrom.balance, hfrom.temporary, hfrom.sequence⟩, hto.balance,
    hto.temporary, hto.sequence⟩

theorem transferFrom_ok (h : transferFrom spender src dest n auth env = .ok (u, env')) :
    auth spender = true ∧ 0 ≤ n.val ∧ ∃ e₁, env.SpendsAllowance ⟨src, spender⟩ n e₁ ∧
      n.val ≤ (e₁.balanceOf src).val ∧
      ∃ e₂, e₁.Credits src (-n.val) e₂ ∧ e₂.Credits dest n.val env' := by
  simp only [transferFrom, instanceBump, publish, bind_eq_ok, requireAuth_eq_ok,
    checkNonnegativeAmount_eq_ok, modify_eq_ok] at h
  rcases h with ⟨_, _, ⟨hauth, rfl⟩, _, _, ⟨h0, rfl⟩, _, _, rfl, _, e₁, hallowance, _, e₂, hspend,
    _, _, hreceive, rfl⟩
  rcases spendBalance_ok hspend with ⟨hle, hfrom⟩
  have hto := receiveBalance_ok hreceive
  exact ⟨hauth, h0, e₁, (spendAllowance_ok hallowance).of_bumpInstance, hle, e₂, hfrom,
    hto.balance, hto.temporary, hto.sequence⟩

theorem burn_ok (h : burn src n auth env = .ok (u, env')) :
    auth src = true ∧ 0 ≤ n.val ∧ n.val ≤ (env.balanceOf src).val ∧
      env.Credits src (-n.val) env' := by
  simp only [burn, instanceBump, publish, bind_eq_ok, requireAuth_eq_ok,
    checkNonnegativeAmount_eq_ok, modify_eq_ok] at h
  rcases h with ⟨_, _, ⟨hauth, rfl⟩, _, _, ⟨h0, rfl⟩, _, _, rfl, _, _, hspend, rfl⟩
  rcases spendBalance_ok hspend with ⟨hle, hfrom⟩
  exact ⟨hauth, h0, hle, hfrom.balance, hfrom.temporary, hfrom.sequence⟩

theorem burnFrom_ok (h : burnFrom spender src n auth env = .ok (u, env')) :
    auth spender = true ∧ 0 ≤ n.val ∧ ∃ e, env.SpendsAllowance ⟨src, spender⟩ n e ∧
      n.val ≤ (e.balanceOf src).val ∧ e.Credits src (-n.val) env' := by
  simp only [burnFrom, instanceBump, publish, bind_eq_ok, requireAuth_eq_ok,
    checkNonnegativeAmount_eq_ok, modify_eq_ok] at h
  rcases h with ⟨_, _, ⟨hauth, rfl⟩, _, _, ⟨h0, rfl⟩, _, _, rfl, _, e, hallowance, _, _, hspend,
    rfl⟩
  rcases spendBalance_ok hspend with ⟨hle, hfrom⟩
  exact ⟨hauth, h0, e, (spendAllowance_ok hallowance).of_bumpInstance, hle, hfrom.balance,
    hfrom.temporary, hfrom.sequence⟩

end Entrypoints

/-! ### The calls -/

inductive Call (A : Type) where
  | initialise (admin : A) (decimal : U32) (name symbol : String)
  | mint (dest : A) (amount : I128)
  | setAdmin (newAdmin : A)
  | allowance (src spender : A)
  | approve (src spender : A) (amount : I128) (expirationLedger : U32)
  | balance (id : A)
  | spendableBalance (id : A)
  | transfer (src dest : A) (amount : I128)
  | transferFrom (spender src dest : A) (amount : I128)
  | burn (src : A) (amount : I128)
  | burnFrom (spender src : A) (amount : I128)
  | decimals
  | name
  | symbol

namespace Call

/-- What a call returns. -/
abbrev Result : Call A → Type
  | .allowance .. | .balance _ | .spendableBalance _ => I128
  | .decimals => U32
  | .name | .symbol => String
  | .initialise .. | .mint .. | .setAdmin _ | .approve .. | .transfer .. | .transferFrom ..
  | .burn .. | .burnFrom .. => Unit

def exec [DecidableEq A] : (c : Call A) → Op A H c.Result
  | .initialise admin decimal n s => Abundance.initialise admin decimal n s
  | .mint dest amount => Abundance.mint dest amount
  | .setAdmin newAdmin => Abundance.setAdmin newAdmin
  | .allowance src spender => Abundance.allowance src spender
  | .approve src spender amount expiration => Abundance.approve src spender amount expiration
  | .balance id => Abundance.balance id
  | .spendableBalance id => Abundance.spendableBalance id
  | .transfer src dest amount => Abundance.transfer src dest amount
  | .transferFrom spender src dest amount => Abundance.transferFrom spender src dest amount
  | .burn src amount => Abundance.burn src amount
  | .burnFrom spender src amount => Abundance.burnFrom spender src amount
  | .decimals => Abundance.decimals
  | .name => Abundance.name
  | .symbol => Abundance.symbol

/-- The calls that neither move tokens nor approve. -/
inductive Idle : Call A → Prop
  | initialise {admin : A} {decimal : U32} {n s : String} :
      Idle (.initialise admin decimal n s)
  | setAdmin {newAdmin : A} : Idle (.setAdmin newAdmin)
  | allowance {src spender : A} : Idle (.allowance src spender)
  | balance {id : A} : Idle (.balance id)
  | spendableBalance {id : A} : Idle (.spendableBalance id)
  | decimals : Idle .decimals
  | name : Idle .name
  | symbol : Idle .symbol

/-- What a call that returned has done. -/
inductive Effect [DecidableEq A] (env : Env A H) : Call A → Env A H → Prop
  | idle {c : Call A} {env' : Env A H} (hidle : c.Idle) (h : env.Agrees env') : Effect env c env'
  | mint {dest : A} {n : I128} {env' : Env A H} (h0 : 0 ≤ n.val)
      (hto : env.Credits dest n.val env') : Effect env (.mint dest n) env'
  | approve {src spender : A} {n : I128} {expiration : U32} {env' : Env A H} (h0 : 0 ≤ n.val)
      (hexp : 0 < n.val → env.sequence.val ≤ expiration.val)
      (h : env.Writes ⟨src, spender⟩ ⟨n, expiration⟩ env') :
      Effect env (.approve src spender n expiration) env'
  | transfer {src dest : A} {n : I128} {e₁ env' : Env A H} (h0 : 0 ≤ n.val)
      (hle : n.val ≤ (env.balanceOf src).val) (hfrom : env.Credits src (-n.val) e₁)
      (hto : e₁.Credits dest n.val env') : Effect env (.transfer src dest n) env'
  | transferFrom {spender src dest : A} {n : I128} {e₁ e₂ env' : Env A H} (h0 : 0 ≤ n.val)
      (hspend : env.SpendsAllowance ⟨src, spender⟩ n e₁) (hle : n.val ≤ (e₁.balanceOf src).val)
      (hfrom : e₁.Credits src (-n.val) e₂) (hto : e₂.Credits dest n.val env') :
      Effect env (.transferFrom spender src dest n) env'
  | burn {src : A} {n : I128} {env' : Env A H} (h0 : 0 ≤ n.val)
      (hle : n.val ≤ (env.balanceOf src).val) (hfrom : env.Credits src (-n.val) env') :
      Effect env (.burn src n) env'
  | burnFrom {spender src : A} {n : I128} {e₁ env' : Env A H} (h0 : 0 ≤ n.val)
      (hspend : env.SpendsAllowance ⟨src, spender⟩ n e₁) (hle : n.val ≤ (e₁.balanceOf src).val)
      (hfrom : e₁.Credits src (-n.val) env') : Effect env (.burnFrom spender src n) env'

section Effects

variable [DecidableEq A] {auth : A → Bool} {env env' : Env A H}

theorem effect {c : Call A} {r : c.Result} (h : c.exec auth env = .ok (r, env')) :
    c.Effect env env' := by
  cases c with
  | initialise => exact .idle .initialise (initialise_ok h)
  | mint =>
      rcases mint_ok h with ⟨_, h0, hto⟩
      exact .mint h0 hto
  | setAdmin => exact .idle .setAdmin (setAdmin_ok h).2
  | allowance => exact .idle .allowance (allowance_ok h).2
  | approve =>
      rcases approve_ok h with ⟨_, h0, hexp, hwrites⟩
      exact .approve h0 hexp hwrites
  | balance => exact .idle .balance (balance_ok h).2
  | spendableBalance => exact .idle .spendableBalance (balance_ok h).2
  | transfer =>
      rcases transfer_ok h with ⟨_, h0, hle, e, hfrom, hto⟩
      exact .transfer h0 hle hfrom hto
  | transferFrom =>
      rcases transferFrom_ok h with ⟨_, h0, e₁, hspend, hle, e₂, hfrom, hto⟩
      exact .transferFrom h0 hspend hle hfrom hto
  | burn =>
      rcases burn_ok h with ⟨_, h0, hle, hfrom⟩
      exact .burn h0 hle hfrom
  | burnFrom =>
      rcases burnFrom_ok h with ⟨_, h0, e, hspend, hle, hfrom⟩
      exact .burnFrom h0 hspend hle hfrom
  | decimals =>
      simp only [exec, Abundance.decimals, readDecimal, bind_eq_ok, getMetadata_eq_ok,
        pure_eq_ok] at h
      rcases h with ⟨_, _, ⟨_, rfl⟩, _, rfl⟩
      exact .idle .decimals ⟨fun _ => rfl, rfl, rfl⟩
  | name =>
      simp only [exec, Abundance.name, readName, bind_eq_ok, getMetadata_eq_ok, pure_eq_ok] at h
      rcases h with ⟨_, _, ⟨_, rfl⟩, _, rfl⟩
      exact .idle .name ⟨fun _ => rfl, rfl, rfl⟩
  | symbol =>
      simp only [exec, Abundance.symbol, readSymbol, bind_eq_ok, getMetadata_eq_ok,
        pure_eq_ok] at h
      rcases h with ⟨_, _, ⟨_, rfl⟩, _, rfl⟩
      exact .idle .symbol ⟨fun _ => rfl, rfl, rfl⟩

end Effects

end Call

/-! ### Runs -/

/-- A call that returned, a call that failed, ledgers that closed, an entry of
    temporary storage somebody keeps alive for longer. -/
inductive Label (A : Type) (H : Host) where
  | call (auth : A → Bool) (c : Call A) (result : c.Result)
  | failed (auth : A → Bool) (c : Call A) (fault : Fault)
  | close (sequence : U32)
  | prolong (k : DataKey A) (ledgers : U32)

variable [DecidableEq A]

inductive Step : Env A H → Label A H → Env A H → Prop
  | call {env env' : Env A H} {auth : A → Bool} {c : Call A} {r : c.Result}
      (h : c.exec auth env = .ok (r, env')) : Step env (.call auth c r) env'
  | failed {env : Env A H} {auth : A → Bool} {c : Call A} {fault : Fault}
      (h : (c.exec : Op A H c.Result) auth env = .error fault) : Step env (.failed auth c fault) env
  | close {env : Env A H} {n : U32} (h : env.sequence.val ≤ n.val) :
      Step env (.close n) { env with sequence := n }
  | prolong {env : Env A H} {k : DataKey A} {n : U32} :
      Step env (.prolong k n) (env.bumpTemporary n.val.toNat n.val.toNat k)

/-- The transitions of a run so far, newest first. -/
abbrev History (A : Type) (H : Host) := List (Move (Env A H) (Label A H))

/-- A token that was deployed and not called yet. -/
structure Env.Fresh (env : Env A H) : Prop where
  no_instance : ∀ k, env.inst k = none
  no_metadata : env.metadata = none
  no_persistent : ∀ k, env.get k = none
  no_temporary : ∀ k, env.temporary.stored.get k = none
  no_events : env.events = []

/-! ### Playing a script -/

inductive Action (A : Type) where
  | call (auth : A → Bool) (c : Call A)
  | close (sequence : U32)
  | prolong (k : DataKey A) (ledgers : U32)

namespace Env

variable {env env' : Env A H}

/-- The step an action takes, when it can take one. -/
def act (env : Env A H) : Action A → Option (Label A H × Env A H)
  | .call auth c =>
      match (c.exec : Op A H c.Result) auth env with
      | .ok (r, env') => some (.call auth c r, env')
      | .error fault => some (.failed auth c fault, env)
  | .close n =>
      if env.sequence.val ≤ n.val then some (.close n, { env with sequence := n }) else none
  | .prolong k n => some (.prolong k n, env.bumpTemporary n.val.toNat n.val.toNat k)

theorem act_step {a : Action A} {l : Label A H} (h : env.act a = some (l, env')) :
    Step env l env' := by
  cases a with
  | call auth c =>
      simp only [act] at h
      split at h
      · next r env₁ hc =>
        cases h
        exact .call hc
      · next fault hc =>
        cases h
        exact .failed hc
  | close n =>
      simp only [act] at h
      split at h
      · next hle =>
        cases h
        exact .close hle
      · cases h
  | prolong k n =>
      cases h
      exact .prolong

end Env

/-- A host that keeps new entries for as long as a network does at least. -/
def Host.plain : Host := ⟨4095, 15⟩

/-- A fresh token over addresses `Nat`. -/
def Env.deployed : Env Nat Host.plain where
  sequence := 1
  instanceStore := .empty
  metadata := none
  instanceLiveUntil := 4096
  persistent := .empty
  temporary := .empty
  events := []

theorem Env.deployed_fresh : Env.deployed.Fresh where
  no_instance _ := rfl
  no_metadata := rfl
  no_persistent _ := rfl
  no_temporary _ := rfl
  no_events := rfl

/-- The script runs on the fresh token and ends as `p` says. -/
def Env.plays (script : List (Action Nat))
    (p : History Nat Host.plain → Env Nat Host.plain → Bool) : Bool :=
  match play Env.act Env.deployed script with
  | some (h, env) => p h env
  | none => false

theorem Env.exists_of_plays (script : List (Action Nat))
    (p : History Nat Host.plain → Env Nat Host.plain → Bool) (hp : Env.plays script p = true) :
    ∃ h env, Run Step Env.deployed h env ∧ p h env = true := by
  unfold plays at hp
  split at hp
  · next h env hplay =>
    refine ⟨h, env, Run.of_play (I := fun _ => True) ?_ ?_ trivial hplay, hp⟩
    · exact fun _ _ => trivial
    · exact fun _ ha => act_step ha
  · cases hp

/-- Address 1 mints, lets address 3 spend 30 of it until ledger 9, transfers to
    itself and to address 2; address 3 spends 20 and burns 5, and cannot spend 6. -/
def spendingScript : List (Action Nat) :=
  [.call (fun _ => true) (.mint 1 (.ofNat 100)),
    .call (fun x => x == 1) (.approve 1 3 (.ofNat 30) (.ofNat 9)),
    .call (fun x => x == 1) (.transfer 1 1 (.ofNat 40)),
    .call (fun x => x == 1) (.transfer 1 2 (.ofNat 10)),
    .close (.ofNat 5),
    .call (fun x => x == 3) (.transferFrom 3 1 2 (.ofNat 20)),
    .prolong (.allowance ⟨1, 3⟩) (.ofNat 100),
    .call (fun x => x == 3) (.burnFrom 3 1 (.ofNat 5)),
    .call (fun x => x == 3) (.transferFrom 3 1 2 (.ofNat 6)),
    .call (fun x => x == 2) (.burn 2 (.ofNat 30))]

end Abundance
