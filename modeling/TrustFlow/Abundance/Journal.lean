import TrustFlow.Abundance.Supply
import TrustFlow.Lib.Frame
import TrustFlow.Lib.Journal

/-!
# The events of the token

Every call that changes something publishes one event as its last act, and the
helpers publish none.  `Call.announces` is that event; with what an event says
of a balance (`Event.delta`) the log of the events is a journal of the balances.
-/

namespace Abundance

open Invocation Transition

variable {A : Type} {H : Host}

/-! ### What an event says -/

namespace Event

/-- What an event adds to the balance of `a`. -/
def delta [DecidableEq A] (a : A) : Event A → Int
  | .mint _ dest n => if a = dest then n.val else 0
  | .transfer src dest n => (if a = dest then n.val else 0) + if a = src then -n.val else 0
  | .burn src n => if a = src then -n.val else 0
  | .setAdmin _ _ | .approve _ _ _ _ => 0

/-- What an event adds to the supply. -/
def issued : Event A → Int
  | .mint _ _ n => n.val
  | .burn _ n => -n.val
  | .setAdmin _ _ | .approve _ _ _ _ | .transfer _ _ _ => 0

end Event

namespace Call

/-- The event a call publishes when it returns. -/
def announces (env : Env A H) : Call A → Option (Event A)
  | .mint dest n => some (.mint dest dest n)
  | .setAdmin newAdmin => (env.inst .admin).map fun admin => .setAdmin admin newAdmin
  | .approve src spender n expiration => some (.approve src spender n expiration)
  | .transfer src dest n | .transferFrom _ src dest n => some (.transfer src dest n)
  | .burn src n | .burnFrom _ src n => some (.burn src n)
  | _ => none

end Call

namespace Label

def announces (env : Env A H) : Label A H → Option (Event A)
  | .call _ c _ => c.announces env
  | _ => none

end Label

/-! ### The helpers publish nothing -/

section Quiet

/-- What is kept beside balances and allowances. -/
def Env.standing (env : Env A H) :
    FiniteMap (DataKey A) (DataKey.Val A) × Option TokenMetadata × List (Event A) :=
  (env.instanceStore, env.metadata, env.events)

variable {a src spender : A} {n : I128} {expiration : U32}

theorem requireAuth_keeps : Keeps Env.standing (requireAuth a : Op A H Unit) := by
  intro auth env u env' h
  rw [requireAuth_eq_ok] at h
  rw [h.2, id]

theorem instanceBump_keeps : Keeps Env.standing (instanceBump : Op A H Unit) :=
  .modify fun _ => rfl

theorem readAllowance_keeps :
    Keeps Env.standing (readAllowance src spender : Op A H AllowanceValue) := by
  intro auth env v env' h
  rw [readAllowance_eq_ok] at h
  rw [h.2, id]

theorem getMetadata_keeps : Keeps Env.standing (getMetadata : Op A H TokenMetadata) := by
  apply Keeps.reads.bind
  intro _
  exact Keeps.okOr

/-- The guard every call that moves tokens starts with. -/
theorem guarded_acts {k : Unit → Op A H Unit} {g} (hk : ∀ u, Acts Env.standing g (k u)) :
    Acts Env.standing g
      (requireAuth a >>= fun _ => checkNonnegativeAmount n >>= fun _ => instanceBump >>= k) := by
  apply requireAuth_keeps.bind
  intro _
  apply Keeps.failIf.bind
  intro _
  exact instanceBump_keeps.bind hk

variable [DecidableEq A]

theorem readBalance_keeps : Keeps Env.standing (readBalance a : Op A H I128) := by
  intro auth env m env' h
  rw [readBalance_eq_ok] at h
  rw [h.2]
  rfl

theorem writeBalance_keeps : Keeps Env.standing (writeBalance a n : Op A H Unit) := by
  intro auth env u env' h
  rw [writeBalance_eq_ok] at h
  rw [h]
  rfl

theorem receiveBalance_keeps : Keeps Env.standing (receiveBalance a n : Op A H Unit) := by
  apply readBalance_keeps.bind
  intro _
  apply Keeps.okOr.bind
  intro _
  exact writeBalance_keeps

theorem spendBalance_keeps : Keeps Env.standing (spendBalance a n : Op A H Unit) := by
  apply readBalance_keeps.bind
  intro _
  apply Keeps.failIf.bind
  intro _
  apply Keeps.okOr.bind
  intro _
  exact writeBalance_keeps

theorem writeAllowance_keeps :
    Keeps Env.standing (writeAllowance src spender n expiration : Op A H Unit) := by
  intro auth env u env' h
  rw [writeAllowance_eq_ok] at h
  rw [h.2, Env.putAllowance]
  split
  · rfl
  · rfl

theorem spendAllowance_keeps :
    Keeps Env.standing (spendAllowance src spender n : Op A H Unit) := by
  apply readAllowance_keeps.bind
  intro _
  apply Keeps.failIf.bind
  intro _
  apply Keeps.okOr.bind
  intro _
  exact writeAllowance_keeps

end Quiet

/-! ### The calls publish one event each -/

section Announcements

/-- What publishing `e` does beside balances and allowances. -/
def published (e : Event A)
    (s : FiniteMap (DataKey A) (DataKey.Val A) × Option TokenMetadata × List (Event A)) :
    FiniteMap (DataKey A) (DataKey.Val A) × Option TokenMetadata × List (Event A) :=
  (s.1, s.2.1, e :: s.2.2)

variable {a src dest spender : A} {n : I128} {expiration : U32} {e : Event A}

theorem publish_acts : Acts Env.standing (published e) (publish e : Op A H Unit) :=
  .modify fun _ => rfl

theorem allowance_keeps : Keeps Env.standing (allowance src spender : Op A H I128) := by
  apply instanceBump_keeps.bind
  intro _
  apply readAllowance_keeps.bind
  intro _
  exact Keeps.pure

variable [DecidableEq A]

theorem mint_acts :
    Acts Env.standing (published (.mint dest dest n)) (mint dest n : Op A H Unit) := by
  apply Keeps.failIf.bind
  intro _
  apply requireAuth_keeps.bind
  intro _
  apply instanceBump_keeps.bind
  intro _
  apply receiveBalance_keeps.bind
  intro _
  exact publish_acts

theorem approve_acts : Acts Env.standing (published (.approve src spender n expiration))
    (approve src spender n expiration : Op A H Unit) := by
  apply guarded_acts
  intro _
  apply writeAllowance_keeps.bind
  intro _
  exact publish_acts

theorem transfer_acts :
    Acts Env.standing (published (.transfer src dest n)) (transfer src dest n : Op A H Unit) := by
  apply guarded_acts
  intro _
  apply spendBalance_keeps.bind
  intro _
  apply receiveBalance_keeps.bind
  intro _
  exact publish_acts

theorem transferFrom_acts : Acts Env.standing (published (.transfer src dest n))
    (transferFrom spender src dest n : Op A H Unit) := by
  apply guarded_acts
  intro _
  apply spendAllowance_keeps.bind
  intro _
  apply spendBalance_keeps.bind
  intro _
  apply receiveBalance_keeps.bind
  intro _
  exact publish_acts

theorem burn_acts : Acts Env.standing (published (.burn src n)) (burn src n : Op A H Unit) := by
  apply guarded_acts
  intro _
  apply spendBalance_keeps.bind
  intro _
  exact publish_acts

theorem burnFrom_acts :
    Acts Env.standing (published (.burn src n)) (burnFrom spender src n : Op A H Unit) := by
  apply guarded_acts
  intro _
  apply spendAllowance_keeps.bind
  intro _
  apply spendBalance_keeps.bind
  intro _
  exact publish_acts

theorem balance_keeps : Keeps Env.standing (balance a : Op A H I128) :=
  instanceBump_keeps.bind fun _ => readBalance_keeps

variable {auth : A → Bool} {env env' : Env A H} {u : Unit} {admin newAdmin : A}

/-- What `initialise` leaves beside balances and allowances. -/
theorem initialise_standing {decimal : U32} {tokenName tokenSymbol : String}
    (h : initialise a decimal tokenName tokenSymbol auth env = .ok (u, env')) :
    env.inst .admin = none ∧ decimal.val ≤ 255 ∧
      env'.standing = (env.instanceStore.insert .admin a, some ⟨decimal, tokenName, tokenSymbol⟩,
        env.events) := by
  simp only [initialise, hasAdministrator, writeAdministrator, writeMetadata, instanceGet,
    instanceSet, bind_eq_ok, reads_eq_ok, pure_eq_ok, failIf_eq_ok, modify_eq_ok] at h
  rcases h with ⟨_, _, ⟨_, _, ⟨rfl, rfl⟩, rfl, rfl⟩, _, _, ⟨hnone, rfl⟩, _, _, rfl, _, _,
    ⟨hdecimal, rfl⟩, rfl⟩
  refine ⟨?_, not_lt.mp hdecimal, rfl⟩
  rwa [Bool.not_eq_true, Option.isSome_eq_false_iff, Option.isNone_iff_eq_none] at hnone

/-- What `set_admin` leaves beside balances and allowances. -/
theorem setAdmin_standing (h : setAdmin newAdmin auth env = .ok (u, env')) :
    ∃ admin, env.inst .admin = some admin ∧ auth admin = true ∧
      env'.standing = (env.instanceStore.insert .admin newAdmin, env.metadata,
        .setAdmin admin newAdmin :: env.events) := by
  simp only [setAdmin, readAdministrator, writeAdministrator, instanceGet, instanceSet,
    instanceBump, publish, bind_eq_ok, reads_eq_ok, okOr_eq_ok, requireAuth_eq_ok,
    modify_eq_ok] at h
  rcases h with ⟨admin, _, ⟨_, _, ⟨rfl, rfl⟩, hadmin, rfl⟩, _, _, ⟨hauth, rfl⟩, _, _, rfl, _, _,
    rfl, rfl⟩
  exact ⟨admin, hadmin, hauth, rfl⟩

end Announcements

/-! ### The journal -/

/-- A call that moves no tokens publishes nothing that adds to anything. -/
theorem Call.Idle.silent {c : Call A} {env : Env A H} (hidle : c.Idle) {delta : Event A → Int}
    (hdelta : ∀ admin newAdmin, delta (.setAdmin admin newAdmin) = 0) :
    ((c.announces env).toList.map delta).sum = 0 := by
  cases hidle with
  | setAdmin =>
      cases hadmin : env.inst .admin with
      | none => simp [Call.announces, hadmin]
      | some admin => simp [Call.announces, hadmin, hdelta]
  | _ => simp [Call.announces]

variable [DecidableEq A]

namespace Call

variable {auth : A → Bool} {env env' : Env A H} {c : Call A} {r : c.Result}

theorem announced (h : c.exec auth env = .ok (r, env')) :
    env'.events = (c.announces env).toList ++ env.events := by
  have hlog {g} (hg : Acts Env.standing g (c.exec : Op A H c.Result)) :
      env'.events = (g env.standing).2.2 := congrArg (fun s => s.2.2) (hg.eq h)
  cases c with
  | initialise => exact congrArg (fun s => s.2.2) (initialise_standing h).2.2
  | mint => exact hlog mint_acts
  | setAdmin =>
      rcases setAdmin_standing h with ⟨admin, hadmin, _, hstanding⟩
      rw [announces, hadmin]
      exact congrArg (fun s => s.2.2) hstanding
  | allowance => exact hlog allowance_keeps
  | approve => exact hlog approve_acts
  | balance | spendableBalance => exact hlog balance_keeps
  | transfer => exact hlog transfer_acts
  | transferFrom => exact hlog transferFrom_acts
  | burn => exact hlog burn_acts
  | burnFrom => exact hlog burnFrom_acts
  | decimals | name | symbol => exact hlog (getMetadata_keeps.bind fun _ => Keeps.pure)

/-- A call changes a balance by what it publishes of it. -/
theorem Effect.balance (h : c.Effect env env') (a : A) :
    (env'.balanceOf a).val =
      (env.balanceOf a).val + ((c.announces env).toList.map (Event.delta a)).sum := by
  cases h with
  | idle hidle h =>
      rw [h.balance, hidle.silent]
      · simp
      · intro admin newAdmin
        rfl
  | mint _ hto => simp [announces, Event.delta, hto.balance]
  | approve _ _ h => simp [announces, Event.delta, h.balance]
  | transfer _ _ hfrom hto =>
      simp [announces, Event.delta, hto.balance, hfrom.balance]
      omega
  | transferFrom _ hspend _ hfrom hto =>
      simp [announces, Event.delta, hto.balance, hfrom.balance, hspend.balance]
      omega
  | burn _ _ hfrom => simp [announces, Event.delta, hfrom.balance]
  | burnFrom _ hspend _ hfrom => simp [announces, Event.delta, hfrom.balance, hspend.balance]

/-- A call changes the supply by what it publishes of it. -/
theorem Effect.issues (h : c.Effect env env') :
    env'.total = env.total + ((c.announces env).toList.map Event.issued).sum := by
  rw [h.total]
  cases h with
  | idle hidle =>
      rw [hidle.silent]
      · cases hidle <;> simp [minted, burned]
      · intro admin newAdmin
        rfl
  | _ => simp [announces, minted, burned, Event.issued, Int.sub_eq_add_neg]

end Call

section Runs

variable {env env' env₀ : Env A H} {l : Label A H} {h : History A H}

theorem Step.events (hs : Step env l env') :
    env'.events = (l.announces env).toList ++ env.events := by
  cases hs with
  | call hc => exact Call.announced hc
  | failed | close | prolong => rfl

theorem Step.balance (hs : Step env l env') (a : A) :
    (env'.balanceOf a).val =
      (env.balanceOf a).val + ((l.announces env).toList.map (Event.delta a)).sum := by
  cases hs with
  | call hc => exact (Call.effect hc).balance a
  | failed | close | prolong => exact (add_zero _).symm

theorem Step.issues (hs : Step env l env') :
    env'.total = env.total + ((l.announces env).toList.map Event.issued).sum := by
  cases hs with
  | call hc => exact (Call.effect hc).issues
  | failed | close | prolong => exact (add_zero _).symm

/-- The events of a run are what its calls published, one for each call that
    returned and changed something.  They alone tell every balance and the supply. -/
theorem events_tell_balances (hfresh : env₀.Fresh) (hr : Run Step env₀ h env) :
    env.events = h.filterMap (fun t => t.label.announces t.pre) ∧
      (∀ a, (env.balanceOf a).val = (env.events.map (Event.delta a)).sum) ∧
      ∑ᶠ a, (env.balanceOf a).val = (env.events.map Event.issued).sum := by
  refine ⟨?_, fun a => ?_, ?_⟩
  · exact Run.log_eq_filterMap hfresh.no_events Step.events hr
  · have hreplay := Journal.register_replay hfresh.no_events
      (fun hs => Journal.register_accounts hs.events (hs.balance a)) hr
    rwa [hfresh.balanceOf, I128.val_zero, zero_add] at hreplay
  · have h0 : env₀.total = 0 := by simp [Env.total, hfresh.balanceOf]
    have hreplay := Journal.register_replay hfresh.no_events
      (fun hs => Journal.register_accounts hs.events hs.issues) hr
    rwa [h0, zero_add] at hreplay

/-- After the script the events tell that address 1 is left with 65. -/
theorem events_tell_balances_sample : ∃ (h : History Nat Host.plain) (env : Env Nat Host.plain),
    Run Step Env.deployed h env ∧ env.events.length = 7 ∧
      (env.events.map (Event.delta 1)).sum = 65 ∧ (env.balanceOf 1).val = 65 := by
  rcases Env.exists_of_plays spendingScript
    (fun _ env => decide (env.events.length = 7) &&
      decide ((env.events.map (Event.delta 1)).sum = 65)) (by decide +kernel) with
    ⟨h, env, hr, hend⟩
  simp only [Bool.and_eq_true, decide_eq_true_eq] at hend
  rcases hend with ⟨hlength, hsum⟩
  have htold := (events_tell_balances Env.deployed_fresh hr).2.1 1
  exact ⟨h, env, hr, hlength, hsum, htold.trans hsum⟩

end Runs

end Abundance
