import TrustFlow.Crowdfund.Contract

/-!
# A campaign and what its calls do

`Env.Stores c claimed` says that the instance storage holds the terms of the
campaign `c`.  Under it the state is a function `Env.stateOf` of the environment,
and the three calls that change anything are `Deposits`, `Refunds` and `PaysOut`.
Without stored terms every call but the first `initialize` fails.
-/

namespace Crowdfund

open Invocation Purse

variable {A : Type} [DecidableEq A] {H : Host A} {auth : A → Bool} {env env' : Env H} {u : Unit}

/-! ### Host functions -/

@[simp] theorem requireAuth_eq_ok {a : A} :
    (requireAuth a : Op H Unit) auth env = .ok (u, env') ↔ auth a = true ∧ env' = env := by
  unfold requireAuth
  split
  · next h => simp [h, eq_comm]
  · next h => simp [h]

@[simp] theorem assert_eq_ok {condition : Prop} [Decidable condition] {message : String} :
    (assert condition message : Op H Unit) auth env = .ok (u, env') ↔ condition ∧ env' = env := by
  simp [assert]

@[simp] theorem tokenTransfer_eq_ok {token src dst : A} {amount : I128} :
    tokenTransfer token src dst amount auth env = .ok (u, env') ↔
      ∃ p, Moves token src dst amount env.purse p ∧ env' = env.setPurse p := by
  unfold tokenTransfer
  constructor
  · intro h
    split at h
    · next s hs =>
      cases h
      exact ⟨_, .intro hs, rfl⟩
    · cases h
  · rintro ⟨_, ⟨hs⟩, rfl⟩
    rw [hs]

@[simp] theorem getBalance_eq_ok {tokenId : A} {n : I128} :
    getBalance tokenId auth env = .ok (n, env') ↔ n.val = env.balance tokenId ∧ env' = env := by
  simp [getBalance]

/-! ### The stored terms -/

/-- What `initialize` fixes. -/
structure Campaign (A : Type) where
  recipient : A
  deadline : U64
  started : U64
  target : I128
  token : A

namespace Env

structure Stores (env : Env H) (c : Campaign A) (claimed : Bool) : Prop where
  recipient : env.inst .recipient = some c.recipient
  deadline : env.inst .deadline = some c.deadline
  started : env.inst .started = some c.started
  target : env.inst .target = some c.target
  token : env.inst .token = some c.token
  claimed : env.inst .recipientClaimed = some claimed

instance (env : Env H) (c : Campaign A) (claimed : Bool) : Decidable (env.Stores c claimed) :=
  decidable_of_iff
    (env.inst .recipient = some c.recipient ∧ env.inst .deadline = some c.deadline ∧
      env.inst .started = some c.started ∧ env.inst .target = some c.target ∧
      env.inst .token = some c.token ∧ env.inst .recipientClaimed = some claimed)
    ⟨fun ⟨h₁, h₂, h₃, h₄, h₅, h₆⟩ => ⟨h₁, h₂, h₃, h₄, h₅, h₆⟩,
      fun ⟨h₁, h₂, h₃, h₄, h₅, h₆⟩ => ⟨h₁, h₂, h₃, h₄, h₅, h₆⟩⟩

/-- Nothing is stored. -/
def Blank (env : Env H) : Prop := ∀ k, env.inst k = none

/-- The token answers the contract's request of its balance. -/
def Answers (env : Env H) (tok : A) : Prop := ∃ n : I128, n.val = env.balance tok

def depositOf (env : Env H) (user : A) : I128 := (env.inst (.user user)).getD 0

/-- The state of a campaign. -/
def stateOf (env : Env H) (c : Campaign A) (claimed : Bool) : State :=
  if env.timestamp.val < c.deadline.val then .running
  else if claimed = true ∨ c.target.val ≤ env.balance c.token then .success
  else .expired

/-- The events of an accepted deposit: the new balance, and the target when it was
    not reached before. -/
def announce (env : Env H) (c : Campaign A) (before : Int) (pledged : I128) : Env H :=
  let env := env.publish ["pledged_amount_changed"] (.amount pledged)
  if before < c.target.val ∧ c.target.val ≤ pledged.val then
    env.publish ["target_reached"] (.amounts [pledged, c.target])
  else env

@[simp] theorem balance_setInstance (k : DataKey A) (v : DataKey.Val A k) (tok : A) :
    (env.setInstance k v).balance tok = env.balance tok := rfl

@[simp] theorem balance_setPurse (p : Purse H.tokens) (tok : A) :
    (env.setPurse p).balance tok = p.balance tok H.contract := rfl

@[simp] theorem balance_publish (topics : List String) (data : EventData) (tok : A) :
    (env.publish topics data).balance tok = env.balance tok := rfl

@[simp] theorem target_setUser (user : A) (v : I128) :
    (env.setInstance (.user user) v).inst .target = env.inst .target :=
  inst_setInstance_of_ne _ _ _ _ (by simp)

@[simp] theorem token_setUser (user : A) (v : I128) :
    (env.setInstance (.user user) v).inst .token = env.inst .token :=
  inst_setInstance_of_ne _ _ _ _ (by simp)

section Announce

variable (c : Campaign A) (before : Int) (pledged : I128)

@[simp] theorem inst_announce (k : DataKey A) :
    (env.announce c before pledged).inst k = env.inst k := by
  unfold announce
  split <;> rfl

@[simp] theorem timestamp_announce :
    (env.announce c before pledged).timestamp = env.timestamp := by
  unfold announce
  split <;> rfl

@[simp] theorem purse_announce : (env.announce c before pledged).purse = env.purse := by
  unfold announce
  split <;> rfl

end Announce

variable {c : Campaign A} {claimed : Bool}

/-- The terms survive what keeps the entries they are stored under. -/
theorem Stores.congr (hc : env.Stores c claimed)
    (h : ∀ k, (∀ user, k ≠ .user user) → env'.inst k = env.inst k) : env'.Stores c claimed where
  recipient := (h .recipient (by simp)).trans hc.recipient
  deadline := (h .deadline (by simp)).trans hc.deadline
  started := (h .started (by simp)).trans hc.started
  target := (h .target (by simp)).trans hc.target
  token := (h .token (by simp)).trans hc.token
  claimed := (h .recipientClaimed (by simp)).trans hc.claimed

theorem stateOf_eq_running :
    env.stateOf c claimed = .running ↔ env.timestamp.val < c.deadline.val := by
  unfold stateOf
  split
  · next h => simp [h]
  · next h => split <;> simp [h]

theorem stateOf_eq_success :
    env.stateOf c claimed = .success ↔ c.deadline.val ≤ env.timestamp.val ∧
      (claimed = true ∨ c.target.val ≤ env.balance c.token) := by
  unfold stateOf
  split
  · next h => simp [h]
  · next h =>
    have hle : c.deadline.val ≤ env.timestamp.val := by omega
    split
    · next h' => simp [hle, h']
    · next h' => simp [h']

theorem stateOf_eq_expired :
    env.stateOf c claimed = .expired ↔ c.deadline.val ≤ env.timestamp.val ∧
      claimed = false ∧ env.balance c.token < c.target.val := by
  unfold stateOf
  split
  · next h => simp [h]
  · next h =>
    have hle : c.deadline.val ≤ env.timestamp.val := by omega
    split
    · next h' =>
      rcases h' with h' | h'
      · simp [h']
      · simp [h']
    · next h' =>
      have hc : claimed = false := by
        cases claimed with
        | false => rfl
        | true => exact absurd (.inl rfl) h'
      have hb : env.balance c.token < c.target.val := by
        have := fun hb => h' (.inr hb)
        omega
      simp [hle, hc, hb]

/-- The terms are what is stored. -/
theorem Stores.unique {c' : Campaign A} {claimed' : Bool} (hc : env.Stores c claimed)
    (hc' : env.Stores c' claimed') : c' = c ∧ claimed' = claimed := by
  have hrecipient : c'.recipient = c.recipient :=
    Option.some.inj (hc'.recipient.symm.trans hc.recipient)
  have hdeadline : c'.deadline = c.deadline := Option.some.inj (hc'.deadline.symm.trans hc.deadline)
  have hstarted : c'.started = c.started := Option.some.inj (hc'.started.symm.trans hc.started)
  have htarget : c'.target = c.target := Option.some.inj (hc'.target.symm.trans hc.target)
  have htoken : c'.token = c.token := Option.some.inj (hc'.token.symm.trans hc.token)
  refine ⟨?_, Option.some.inj (hc'.claimed.symm.trans hc.claimed)⟩
  cases c
  cases c'
  simp_all

/-! ### The calls that change something -/

/-- A deposit that is accepted. -/
inductive Deposits (env : Env H) (c : Campaign A) (user : A) (amount : I128) : Env H → Prop
  | intro {total pledged : I128} {p : Purse H.tokens}
      (hpos : 0 < amount.val) (hopen : env.timestamp.val < c.deadline.val)
      (hdonor : user ≠ c.recipient)
      (htotal : total.val = (env.depositOf user).val + amount.val)
      (hm : Moves c.token user H.contract amount env.purse p)
      (hpledged : pledged.val = p.balance c.token H.contract) :
      Deposits env c user amount
        (((env.setInstance (.user user) total).setPurse p).announce c (env.balance c.token) pledged)

/-- A donor takes its deposit back. -/
inductive Refunds (env : Env H) (c : Campaign A) (claimed : Bool) (dest : A) : Env H → Prop
  | intro {left : I128} {p : Purse H.tokens}
      (hexpired : env.stateOf c claimed = .expired) (hdonor : dest ≠ c.recipient)
      (hm : Moves c.token H.contract dest (env.depositOf dest) env.purse p)
      (hleft : left.val = p.balance c.token H.contract) :
      Refunds env c claimed dest
        (((env.setInstance (.user dest) 0).setPurse p).publish ["pledged_amount_changed"]
          (.amount left))

/-- The recipient takes the balance. -/
inductive PaysOut (env : Env H) (c : Campaign A) (claimed : Bool) : Env H → Prop
  | intro {amount : I128} {p : Purse H.tokens}
      (hsuccess : env.stateOf c claimed = .success) (hclaimed : claimed = false)
      (hamount : amount.val = env.balance c.token)
      (hm : Moves c.token H.contract c.recipient amount env.purse p) :
      PaysOut env c claimed ((env.setPurse p).setInstance .recipientClaimed true)

theorem Refunds.expired {dest : A} (h : env.Refunds c claimed dest env') :
    env.stateOf c claimed = .expired := by
  cases h
  assumption

theorem PaysOut.success (h : env.PaysOut c claimed env') : env.stateOf c claimed = .success := by
  cases h
  assumption

end Env

/-! ### The getters -/

/-- A getter of a setting: the entry, or a panic when it is absent. -/
theorem stored_eq_ok {k : DataKey A} {v : DataKey.Val A k} {message : String} :
    (instanceGet k >>= fun o => okOr o (.panicked message) : Op H (DataKey.Val A k)) auth env =
      .ok (v, env') ↔ env.inst k = some v ∧ env' = env := by
  simp only [instanceGet, bind_eq_ok, reads_eq_ok, okOr_eq_ok]
  constructor
  · rintro ⟨o, _, ⟨rfl, rfl⟩, h⟩
    exact h
  · intro h
    exact ⟨_, _, ⟨rfl, rfl⟩, h⟩

@[simp] theorem getRecipient_eq_ok {a : A} :
    getRecipient auth env = .ok (a, env') ↔ env.inst .recipient = some a ∧ env' = env :=
  stored_eq_ok

@[simp] theorem getRecipientClaimed_eq_ok {b : Bool} :
    getRecipientClaimed auth env = .ok (b, env') ↔
      env.inst .recipientClaimed = some b ∧ env' = env :=
  stored_eq_ok

@[simp] theorem getDeadline_eq_ok {n : U64} :
    getDeadline auth env = .ok (n, env') ↔ env.inst .deadline = some n ∧ env' = env :=
  stored_eq_ok

@[simp] theorem getStarted_eq_ok {n : U64} :
    getStarted auth env = .ok (n, env') ↔ env.inst .started = some n ∧ env' = env :=
  stored_eq_ok

@[simp] theorem getTargetAmount_eq_ok {n : I128} :
    getTargetAmount auth env = .ok (n, env') ↔ env.inst .target = some n ∧ env' = env :=
  stored_eq_ok

@[simp] theorem getToken_eq_ok {a : A} :
    getToken auth env = .ok (a, env') ↔ env.inst .token = some a ∧ env' = env :=
  stored_eq_ok

@[simp] theorem getUserDeposited_eq_ok {user : A} {n : I128} :
    getUserDeposited user auth env = .ok (n, env') ↔ n = env.depositOf user ∧ env' = env := by
  simp only [getUserDeposited, instanceGet, bind_eq_ok, reads_eq_ok, pure_eq_ok]
  constructor
  · rintro ⟨o, _, ⟨rfl, rfl⟩, rfl, rfl⟩
    exact ⟨rfl, rfl⟩
  · rintro ⟨rfl, rfl⟩
    exact ⟨_, _, ⟨rfl, rfl⟩, rfl, rfl⟩

@[simp] theorem setUserDeposited_eq_ok {user : A} {amount : I128} :
    setUserDeposited user amount auth env = .ok (u, env') ↔
      env' = env.setInstance (.user user) amount := by
  simp [setUserDeposited, instanceSet]

@[simp] theorem setRecipientClaimed_eq_ok :
    setRecipientClaimed auth env = .ok (u, env') ↔
      env' = env.setInstance .recipientClaimed true := by
  simp [setRecipientClaimed, instanceSet]

@[simp] theorem publish_eq_ok {topics : List String} {data : EventData} :
    publish topics data auth env = .ok (u, env') ↔ env' = env.publish topics data := by
  simp [publish]

@[simp] theorem targetReached_eq_ok {tok : A} {b : Bool} :
    targetReached tok auth env = .ok (b, env') ↔ ∃ t n : I128, env.inst .target = some t ∧
      n.val = env.balance tok ∧ b = decide (t.val ≤ n.val) ∧ env' = env := by
  simp only [targetReached, bind_eq_ok, getTargetAmount_eq_ok, getBalance_eq_ok, pure_eq_ok]
  constructor
  · rintro ⟨t, _, ⟨ht, rfl⟩, n, _, ⟨hn, rfl⟩, rfl, rfl⟩
    exact ⟨t, n, ht, hn, rfl, rfl⟩
  · rintro ⟨t, n, ht, hn, rfl, rfl⟩
    exact ⟨t, _, ⟨ht, rfl⟩, n, _, ⟨hn, rfl⟩, rfl, rfl⟩

/-! ### What the calls do on stored terms -/

section Stored

variable {c : Campaign A} {claimed : Bool}

theorem targetReached_eq (hc : env.Stores c claimed) (ha : env.Answers c.token) :
    targetReached c.token auth env =
      .ok (decide (c.target.val ≤ env.balance c.token), env) := by
  rcases ha with ⟨n, hn⟩
  rw [targetReached_eq_ok]
  exact ⟨c.target, n, hc.target, hn, by rw [hn], rfl⟩

theorem getState_eq (hc : env.Stores c claimed) (ha : env.Answers c.token) :
    getState auth env = .ok (env.stateOf c claimed, env) := by
  simp only [getState, bind_eq_ok, getDeadline_eq_ok, getToken_eq_ok, getLedgerTimestamp,
    reads_eq_ok, hc.deadline]
  refine ⟨_, _, ⟨rfl, rfl⟩, _, _, ⟨hc.token, rfl⟩, _, _, ⟨rfl, rfl⟩, ?_⟩
  unfold Env.stateOf
  split
  · rfl
  · simp only [bind_eq_ok, getRecipientClaimed_eq_ok, hc.claimed]
    refine ⟨_, _, ⟨rfl, rfl⟩, ?_⟩
    cases claimed with
    | true => rfl
    | false => simp [targetReached_eq hc ha]

theorem deposit_ok (hc : env.Stores c claimed) (ha : env.Answers c.token) {user : A} {amount : I128}
    (h : deposit user amount auth env = .ok (u, env')) :
    auth user = true ∧ env.Deposits c user amount env' := by
  simp only [deposit, bind_eq_ok, requireAuth_eq_ok, assert_eq_ok, getToken_eq_ok,
    targetReached_eq_ok, getRecipient_eq_ok, getUserDeposited_eq_ok, okOr_eq_ok,
    BoundedInt.checkedAdd_eq_some, setUserDeposited_eq_ok, tokenTransfer_eq_ok, getBalance_eq_ok,
    Events.pledgedAmountChanged, Events.targetReached, publish_eq_ok, ite_eq_ok, pure_eq_ok,
    getTargetAmount_eq_ok, getState_eq hc ha, Except.ok.injEq, Prod.mk.injEq,
    exists_and_left, exists_and_right, ↓existsAndEq, true_and, and_true, exists_const,
    Bool.exists_bool, Bool.not_eq_true, Bool.false_eq_true, Bool.true_eq_false, false_and, false_or,
    or_false, false_eq_decide_iff, true_eq_decide_iff, exists_eq_left, exists_eq_left',
    Option.some.injEq, hc.token, hc.target, hc.recipient, Env.inst_publish, Env.inst_setPurse,
    Env.balance_publish, Env.balance_setPurse, Env.purse_setInstance, Env.target_setUser,
    Env.stateOf_eq_running] at h
  rcases h with ⟨hauth, hpos, hopen, h⟩
  refine ⟨hauth, ?_⟩
  -- whether the target was met before decides which of the two events there are
  rcases h with ⟨⟨n, hn, hmet⟩, hdonor, total, htotal, p, hm, pledged, hpledged, h⟩ |
    ⟨⟨n, hn, hmet⟩, hdonor, total, htotal, p, hm, pledged, hpledged, rfl⟩
  · have hend : env' = ((env.setInstance (.user user) total).setPurse p).announce c
        (env.balance c.token) pledged := by
      rcases h with ⟨⟨m, hm, hlt⟩, rfl⟩ | ⟨⟨m, hm, hle⟩, rfl⟩
      · exact (if_neg (by omega)).symm
      · exact (if_pos (by omega)).symm
    rw [hend]
    exact .intro hpos hopen hdonor htotal hm hpledged
  · have hend : ((env.setInstance (.user user) total).setPurse p).announce c (env.balance c.token)
        pledged = ((env.setInstance (.user user) total).setPurse p).publish
          ["pledged_amount_changed"] (.amount pledged) := if_neg (by omega)
    rw [← hend]
    exact .intro hpos hopen hdonor htotal hm hpledged

theorem transfer_eq_ok (hc : env.inst .token = some c.token) {dest : A} {amount : I128} :
    transfer dest amount auth env = .ok (u, env') ↔
      ∃ p, Moves c.token H.contract dest amount env.purse p ∧ env' = env.setPurse p := by
  simp only [transfer, bind_eq_ok, getToken_eq_ok, tokenTransfer_eq_ok]
  constructor
  · rintro ⟨tok, _, ⟨htok, rfl⟩, h⟩
    cases hc.symm.trans htok
    exact h
  · intro h
    exact ⟨_, _, ⟨hc, rfl⟩, h⟩

theorem withdraw_eq_ok (hc : env.Stores c claimed) (ha : env.Answers c.token) {dest : A} :
    withdraw dest auth env = .ok (u, env') ↔
      dest = c.recipient ∧ env.PaysOut c claimed env' ∨ env.Refunds c claimed dest env' := by
  have htoken : (env.setInstance (.user dest) 0).inst .token = some c.token := by
    rw [Env.token_setUser, hc.token]
  simp only [withdraw, bind_eq_ok, getState_eq hc ha, Except.ok.injEq, Prod.mk.injEq,
    getRecipient_eq_ok, ↓existsAndEq, and_true, exists_eq_left', hc.recipient, Option.some.injEq]
  cases hs : env.stateOf c claimed with
  | running =>
      apply iff_of_false fail_eq_ok
      rintro (⟨_, h⟩ | h)
      · cases hs.symm.trans h.success
      · cases hs.symm.trans h.expired
  | success =>
      simp only [bind_eq_ok, assert_eq_ok, getRecipientClaimed_eq_ok, getToken_eq_ok,
        getBalance_eq_ok, transfer_eq_ok hc.token, setRecipientClaimed_eq_ok, ↓existsAndEq,
        true_and, and_true, exists_eq_left', exists_const, hc.claimed, hc.token, Option.some.injEq]
      constructor
      · rintro ⟨hdest, hclaimed, amount, hamount, p, hm, rfl⟩
        exact .inl ⟨hdest, .intro hs hclaimed hamount hm⟩
      · rintro (⟨hdest, ⟨_, hclaimed, hamount, hm⟩⟩ | h)
        · exact ⟨hdest, hclaimed, _, hamount, _, hm, rfl⟩
        · cases hs.symm.trans h.expired
  | expired =>
      simp only [bind_eq_ok, assert_eq_ok, getUserDeposited_eq_ok, setUserDeposited_eq_ok,
        getToken_eq_ok, getBalance_eq_ok, transfer_eq_ok htoken, Events.pledgedAmountChanged,
        publish_eq_ok, ↓existsAndEq, true_and, and_true, exists_const, Env.purse_setInstance,
        Env.inst_setPurse, Env.token_setUser, hc.token, Option.some.injEq, exists_eq_left',
        Env.balance_setPurse]
      constructor
      · rintro ⟨hdonor, p, hm, left, hleft, rfl⟩
        exact .inr (.intro hs hdonor hm hleft)
      · rintro (⟨_, h⟩ | ⟨_, hdonor, hm, hleft⟩)
        · cases hs.symm.trans h.success
        · exact ⟨hdonor, _, hm, _, hleft, rfl⟩

end Stored

end Crowdfund
