import TrustFlow.Abundance.Journal

/-!
# How long the entries of the token live

A balance is renewed by the calls that read or write it and by nothing else, the
instance by every call but `initialize` and the getters of the metadata.
`Clock` is what a call can do to the two lifetimes, `Call.ticks` what it does.
-/

namespace Abundance

open Invocation Transition

variable {A : Type} {H : Host}

/-! ### Clocks -/

/-- The present, how long the balance of an address lives, and how long the instance
    does. -/
structure Clock where
  now : Nat
  balance : Option Nat
  instanceEnd : Nat

def Env.clock (env : Env A H) (a : A) : Clock :=
  ⟨env.now, env.persistent.liveUntil (.balance a), env.instanceLiveUntil⟩

/-- A lifetime after an extension of a balance at `now`. -/
def renewed (now l : Nat) : Nat := extended now BALANCE_LIFETIME_THRESHOLD BALANCE_BUMP_AMOUNT l

/-- A lifetime after an extension of the instance at `now`. -/
def woken (now l : Nat) : Nat := extended now INSTANCE_LIFETIME_THRESHOLD INSTANCE_BUMP_AMOUNT l

theorem lt_renewed (now l : Nat) : now + BALANCE_LIFETIME_THRESHOLD < renewed now l :=
  lt_extended (by decide)

theorem lt_woken (now l : Nat) : now + INSTANCE_LIFETIME_THRESHOLD < woken now l :=
  lt_extended (by decide)

@[simp] theorem renewed_renewed (now l : Nat) : renewed now (renewed now l) = renewed now l :=
  extended_extended (by decide)

namespace Clock

/-- A balance is read: renewed where there is one. -/
def read (c : Clock) : Clock := { c with balance := c.balance.map (renewed c.now) }

/-- A balance is written and renewed; `ttl` is what a new entry is born with. -/
def write (ttl : Nat) (c : Clock) : Clock :=
  { c with balance := some (renewed c.now (c.balance.getD (c.now + ttl))) }

def wake (c : Clock) : Clock := { c with instanceEnd := woken c.now c.instanceEnd }

variable {ttl : Nat} (c : Clock)

@[simp] theorem write_read : c.read.write ttl = c.write ttl := by
  cases h : c.balance <;> simp [read, write, h]

@[simp] theorem write_write : (c.write ttl).write ttl = c.write ttl := by
  simp [write]

end Clock

/-! ### What a call does to the clocks -/

namespace Call

/-- The address whose balance a getter reads. -/
def reads? : Call A → Option A
  | .balance id | .spendableBalance id => some id
  | _ => none

/-- The calls that extend the instance. -/
def wakes : Call A → Bool
  | .initialise .. | .decimals | .name | .symbol => false
  | _ => true

variable [DecidableEq A]

/-- A call that returns renews what it names and extends the instance. -/
def ticks (ttl : Nat) (call : Call A) (a : A) : Clock → Clock :=
  (if a ∈ call.parties then Clock.write ttl
    else if call.reads? = some a then Clock.read else id) ∘
  if call.wakes = true then Clock.wake else id

variable {ttl : Nat} {call : Call A} {a : A} {c : Clock}

theorem ticks_balance : (call.ticks ttl a c).balance =
    if a ∈ call.parties then some (renewed c.now (c.balance.getD (c.now + ttl)))
    else if call.reads? = some a then c.balance.map (renewed c.now) else c.balance := by
  have hwake : ((if call.wakes = true then Clock.wake else id) c).now = c.now ∧
      ((if call.wakes = true then Clock.wake else id) c).balance = c.balance := by
    split <;> exact ⟨rfl, rfl⟩
  rw [ticks, Function.comp_apply]
  split
  · rw [Clock.write, hwake.1, hwake.2]
  · split
    · rw [Clock.read, hwake.1, hwake.2]
    · exact hwake.2

theorem ticks_instanceEnd : (call.ticks ttl a c).instanceEnd =
    if call.wakes = true then woken c.now c.instanceEnd else c.instanceEnd := by
  have hkeeps (c : Clock) : ((if a ∈ call.parties then Clock.write ttl
      else if call.reads? = some a then Clock.read else id) c).instanceEnd = c.instanceEnd := by
    split
    · rfl
    · split <;> rfl
  rw [ticks, Function.comp_apply, hkeeps]
  split <;> rfl

theorem ticks_now : (call.ticks ttl a c).now = c.now := by
  have hwake : ((if call.wakes = true then Clock.wake else id) c).now = c.now := by split <;> rfl
  rw [ticks, Function.comp_apply]
  split
  · exact hwake
  · split
    · exact hwake
    · exact hwake

end Call

section Parts

variable {a b src spender : A} {n : I128} {expiration : U32}

theorem requireAuth_clock : Keeps (Env.clock · a) (requireAuth b : Op A H Unit) := by
  intro auth env u env' h
  rw [requireAuth_eq_ok] at h
  rw [h.2, id]

theorem instanceBump_clock : Acts (Env.clock · a) Clock.wake (instanceBump : Op A H Unit) :=
  .modify fun _ => rfl

theorem readAllowance_clock :
    Keeps (Env.clock · a) (readAllowance src spender : Op A H AllowanceValue) := by
  intro auth env v env' h
  rw [readAllowance_eq_ok] at h
  rw [h.2, id]

theorem getMetadata_clock : Keeps (Env.clock · a) (getMetadata : Op A H TokenMetadata) := by
  apply Keeps.reads.bind
  intro _
  exact Keeps.okOr

variable [DecidableEq A]

theorem writeAllowance_clock :
    Keeps (Env.clock · a) (writeAllowance src spender n expiration : Op A H Unit) := by
  intro auth env u env' h
  rw [writeAllowance_eq_ok] at h
  rw [h.2, Env.putAllowance]
  split
  · rfl
  · rfl

theorem spendAllowance_clock :
    Keeps (Env.clock · a) (spendAllowance src spender n : Op A H Unit) := by
  apply readAllowance_clock.bind
  intro _
  apply Keeps.failIf.bind
  intro _
  apply Keeps.okOr.bind
  intro _
  exact writeAllowance_clock

theorem Env.clock_bumpBalance (env : Env A H) :
    (env.bumpBalance b).clock a = (if a = b then Clock.read else id) (env.clock a) := by
  by_cases h : a = b
  · subst h
    rw [if_pos rfl]
    simp only [Env.clock, Env.bumpBalance, Env.bumpPersistent, Persistent.liveUntil_bump_self]
    rfl
  · have hk : DataKey.balance a ≠ .balance b := fun hk => h (DataKey.balance.inj hk)
    rw [if_neg h]
    simp [Env.clock, Env.bumpBalance, Env.bumpPersistent, hk, Env.now]

theorem Env.clock_putBalance (env : Env A H) :
    (env.putBalance b n).clock a =
      (if a = b then Clock.write H.persistentTtl else id) (env.clock a) := by
  rw [Env.putBalance, Env.clock_bumpBalance]
  by_cases h : a = b
  · subst h
    rw [if_pos rfl, if_pos rfl]
    simp [Env.clock, Env.setPersistent, Clock.read, Clock.write, Env.now]
  · have hk : DataKey.balance a ≠ .balance b := fun hk => h (DataKey.balance.inj hk)
    rw [if_neg h, if_neg h]
    simp [Env.clock, Env.setPersistent, hk, Env.now]

theorem readBalance_clock :
    Acts (Env.clock · a) (if a = b then Clock.read else id) (readBalance b : Op A H I128) := by
  intro auth env m env' h
  rw [readBalance_eq_ok] at h
  rw [h.2]
  exact env.clock_bumpBalance

theorem writeBalance_clock :
    Acts (Env.clock · a) (if a = b then Clock.write H.persistentTtl else id)
      (writeBalance b n : Op A H Unit) := by
  intro auth env u env' h
  rw [writeBalance_eq_ok] at h
  rw [h]
  exact env.clock_putBalance

/-- Reading a balance and writing it back is writing it. -/
theorem write_comp_read :
    (if a = b then Clock.write H.persistentTtl else id) ∘ (if a = b then Clock.read else id) =
      if a = b then Clock.write H.persistentTtl else id := by
  split
  · funext c
    exact c.write_read
  · rfl

theorem receiveBalance_clock :
    Acts (Env.clock · a) (if a = b then Clock.write H.persistentTtl else id)
      (receiveBalance b n : Op A H Unit) := by
  rw [← write_comp_read]
  apply readBalance_clock.bind
  intro _
  apply Keeps.okOr.bind
  intro _
  exact writeBalance_clock

theorem spendBalance_clock :
    Acts (Env.clock · a) (if a = b then Clock.write H.persistentTtl else id)
      (spendBalance b n : Op A H Unit) := by
  rw [← write_comp_read]
  apply readBalance_clock.bind
  intro _
  apply Keeps.failIf.bind
  intro _
  apply Keeps.okOr.bind
  intro _
  exact writeBalance_clock

end Parts

section Calls

variable {a b : A} {n : I128}

/-- The guard every call that moves tokens starts with. -/
theorem guarded_clock {k : Unit → Op A H Unit} {g} (hk : ∀ u, Acts (Env.clock · a) g (k u)) :
    Acts (Env.clock · a) (g ∘ Clock.wake)
      (requireAuth b >>= fun _ => checkNonnegativeAmount n >>= fun _ => instanceBump >>= k) := by
  apply requireAuth_clock.bind
  intro _
  apply Keeps.failIf.bind
  intro _
  exact instanceBump_clock.bind hk

theorem publish_clock {e : Event A} : Keeps (Env.clock · a) (publish e : Op A H Unit) :=
  .modify fun _ => rfl

variable [DecidableEq A] {src dest spender : A} {e : Event A}

/-- The two balances of a transfer are written one after the other. -/
theorem moved_clock :
    Acts (Env.clock · a) (if a ∈ [src, dest] then Clock.write H.persistentTtl else id)
      (spendBalance src n >>= fun _ => receiveBalance dest n >>= fun _ => publish e :
        Op A H Unit) := by
  have hboth : (if a ∈ [src, dest] then Clock.write H.persistentTtl else id) =
      (id ∘ if a = dest then Clock.write H.persistentTtl else id) ∘
        if a = src then Clock.write H.persistentTtl else id := by
    by_cases hsrc : a = src
    · by_cases hdest : a = dest
      · simp [← hsrc, ← hdest, funext_iff]
      · simp [← hsrc, hdest]
    · by_cases hdest : a = dest
      · simp [hsrc, ← hdest]
      · simp [hsrc, hdest]
  rw [hboth]
  apply spendBalance_clock.bind
  intro _
  apply receiveBalance_clock.bind
  intro _
  exact publish_clock

theorem burnt_clock :
    Acts (Env.clock · a) (if a ∈ [src] then Clock.write H.persistentTtl else id)
      (spendBalance src n >>= fun _ => publish e : Op A H Unit) := by
  simp only [List.mem_singleton]
  exact spendBalance_clock.bind fun _ => publish_clock

theorem balance_clock :
    Acts (Env.clock · a) ((if some b = some a then Clock.read else id) ∘ Clock.wake)
      (balance b : Op A H I128) := by
  simp only [Option.some.injEq, @eq_comm _ b a]
  apply instanceBump_clock.bind
  intro _
  exact readBalance_clock

namespace Call

theorem exec_clock (call : Call A) :
    Acts (Env.clock · a) (call.ticks H.persistentTtl a) (call.exec : Op A H call.Result) := by
  cases call with
  | initialise admin decimal tokenName tokenSymbol =>
      intro auth env u env' h
      have h : Abundance.initialise admin decimal tokenName tokenSymbol auth env = .ok (u, env') :=
        h
      simp only [Abundance.initialise, hasAdministrator, writeAdministrator, writeMetadata,
        instanceGet, instanceSet, bind_eq_ok, reads_eq_ok, pure_eq_ok, failIf_eq_ok,
        modify_eq_ok] at h
      rcases h with ⟨_, _, ⟨_, _, ⟨rfl, rfl⟩, rfl, rfl⟩, _, _, ⟨_, rfl⟩, _, _, rfl, _, _,
        ⟨_, rfl⟩, rfl⟩
      rfl
  | mint dest n =>
      have hwrite : (if a ∈ [dest] then Clock.write H.persistentTtl else id) =
          if a = dest then Clock.write H.persistentTtl else id := by
        simp only [List.mem_singleton]
      show Acts (Env.clock · a) ((if a ∈ [dest] then Clock.write H.persistentTtl else id) ∘
        Clock.wake) (Abundance.mint dest n : Op A H Unit)
      rw [hwrite]
      apply Keeps.failIf.bind
      intro _
      apply requireAuth_clock.bind
      intro _
      apply instanceBump_clock.bind
      intro _
      exact receiveBalance_clock.bind fun _ => publish_clock
  | setAdmin newAdmin =>
      have hread : Keeps (Env.clock · a) (readAdministrator : Op A H A) :=
        Keeps.reads.bind fun _ => Keeps.okOr
      have hwrite : Keeps (Env.clock · a) (writeAdministrator newAdmin : Op A H Unit) :=
        .modify fun _ => rfl
      apply hread.bind
      intro _
      apply requireAuth_clock.bind
      intro _
      apply instanceBump_clock.bind
      intro _
      apply hwrite.bind
      intro _
      exact publish_clock
  | allowance src spender =>
      apply instanceBump_clock.bind
      intro _
      apply readAllowance_clock.bind
      intro _
      exact Keeps.pure
  | approve src spender n expiration =>
      apply guarded_clock
      intro _
      apply writeAllowance_clock.bind
      intro _
      exact publish_clock
  | balance id => exact balance_clock
  | spendableBalance id => exact balance_clock
  | transfer src dest n => exact guarded_clock fun _ => moved_clock
  | transferFrom spender src dest n =>
      apply guarded_clock
      intro _
      apply spendAllowance_clock.bind
      intro _
      exact moved_clock
  | burn src n => exact guarded_clock fun _ => burnt_clock
  | burnFrom spender src n =>
      apply guarded_clock
      intro _
      apply spendAllowance_clock.bind
      intro _
      exact burnt_clock
  | decimals | name | symbol =>
      apply getMetadata_clock.bind
      intro _
      exact Keeps.pure

end Call

end Calls

/-! ### Lifetimes over a run -/

section Runs

variable [DecidableEq A] {env env' env₀ : Env A H} {l : Label A H} {h : History A H} {a : A}

namespace Label

/-- A call that returned and read or wrote the balance of `a`. -/
def Renews (a : A) : Label A H → Prop
  | .call _ c _ => a ∈ c.parties ∨ c.reads? = some a
  | _ => False

/-- A call that returned and extended the instance. -/
def Wakes : Label A H → Bool
  | .call _ c _ => c.wakes
  | _ => false

end Label

/-- A step renews the balance as its label says, or leaves it. -/
theorem Step.renews (hs : Step env l env') :
    (l.Renews a → ∀ n, (env'.clock a).balance = some n →
      env.now + BALANCE_LIFETIME_THRESHOLD < n ∧
      ((n = env.now + BALANCE_BUMP_AMOUNT ∨ n = env.now + H.persistentTtl) ∨
        (env.clock a).balance = some n)) ∧
    (¬ l.Renews a → (env'.clock a).balance = (env.clock a).balance) := by
  cases hs with
  | failed | close | prolong => exact ⟨fun h => h.elim, fun _ => rfl⟩
  | @call _ auth call r h =>
      have hbalance := congrArg Clock.balance ((call.exec_clock (a := a)).eq h)
      have hnow : (env.clock a).now = env.now := rfl
      have hrenewed (m n : Nat) (hm : renewed env.now m = n) :
          env.now + BALANCE_LIFETIME_THRESHOLD < n ∧
            (n = env.now + BALANCE_BUMP_AMOUNT ∨ m = n) := by
        subst hm
        exact ⟨lt_renewed .., (extended_eq_or ..).imp_right Eq.symm⟩
      rw [Call.ticks_balance, hnow] at hbalance
      refine ⟨fun hl n hn => ?_, fun hl => ?_⟩
      · rw [hn] at hbalance
        split at hbalance
        · rcases hrenewed _ n (Option.some.inj hbalance).symm with ⟨hlt, heq⟩
          rw [or_assoc]
          refine ⟨hlt, heq.imp_right fun hold => ?_⟩
          cases hborn : (env.clock a).balance with
          | none =>
              rw [hborn] at hold
              exact .inl hold.symm
          | some m =>
              rw [hborn] at hold
              exact .inr (congrArg some hold)
        · split at hbalance
          · rcases Option.map_eq_some_iff.mp hbalance.symm with ⟨m, hm, hmn⟩
            rcases hrenewed m n hmn with ⟨hlt, heq⟩
            refine ⟨hlt, heq.imp .inl fun hold => ?_⟩
            rw [hm, hold]
          · next hparty hread => exact absurd hl (not_or.mpr ⟨hparty, hread⟩)
      · rcases not_or.mp hl with ⟨hparty, hread⟩
        rwa [if_neg hparty, if_neg hread] at hbalance

theorem Step.wakes (hs : Step env l env') (a : A) :
    (l.Wakes = true → env.now + INSTANCE_LIFETIME_THRESHOLD < env'.instanceLiveUntil ∧
      (env'.instanceLiveUntil = env.now + INSTANCE_BUMP_AMOUNT ∨
        env.instanceLiveUntil = env'.instanceLiveUntil)) ∧
    (¬ l.Wakes = true → env'.instanceLiveUntil = env.instanceLiveUntil) := by
  cases hs with
  | failed | close | prolong =>
      refine ⟨fun hl => ?_, fun _ => rfl⟩
      cases hl
  | @call _ auth call r h =>
      have hend : env'.instanceLiveUntil =
          (call.ticks H.persistentTtl a (env.clock a)).instanceEnd :=
        congrArg Clock.instanceEnd (call.exec_clock.eq h)
      rw [Call.ticks_instanceEnd] at hend
      refine ⟨fun hl => ?_, fun hl => ?_⟩
      · have hwoken : env'.instanceLiveUntil = woken env.now env.instanceLiveUntil := by
          rwa [if_pos (show call.wakes = true from hl)] at hend
        rw [hwoken]
        exact ⟨lt_woken .., (extended_eq_or ..).imp_right Eq.symm⟩
      · rwa [if_neg (show ¬ call.wakes = true from hl)] at hend

theorem Step.now_le (hs : Step env l env') (a : A) : env.now ≤ env'.now := by
  cases hs with
  | failed | prolong => exact le_rfl
  | close h => exact Int.toNat_le_toNat h
  | @call _ auth call r h =>
      have hnow := congrArg Clock.now ((call.exec_clock (a := a)).eq h)
      rw [Call.ticks_now] at hnow
      exact hnow.ge

/-- A balance lives on after each call that used it, and one of these calls, or the host
    at its birth, has set how long. -/
theorem Run.renewed (hfresh : env₀.Fresh) (hr : Run Step env₀ h env) (a : A) (n : Nat)
    (hn : (env.clock a).balance = some n) :
    (∀ t ∈ h, t.label.Renews a → t.pre.now + BALANCE_LIFETIME_THRESHOLD < n) ∧
    ∃ t ∈ h, t.label.Renews a ∧
      (n = t.pre.now + BALANCE_BUMP_AMOUNT ∨ n = t.pre.now + H.persistentTtl) := by
  have hlives := Run.outlived (f := Env.now) (c := fun env => (env.clock a).balance)
    (R := fun now n => n = now + BALANCE_BUMP_AMOUNT ∨ n = now + H.persistentTtl)
    (fun hs => hs.now_le a) (fun hs hl => hs.renews.1 hl) (fun hs hl => hs.renews.2 hl) hr n hn
  refine ⟨hlives.1, hlives.2.resolve_left fun hborn => ?_⟩
  have hnone : env₀.persistent.get (.balance a) = none := hfresh.no_persistent _
  have hsome := env₀.persistent.liveUntil_isSome (.balance a)
  rw [show env₀.persistent.liveUntil (.balance a) = some n from hborn, hnone] at hsome
  cases hsome

theorem Run.woken (hr : Run Step env₀ h env) (a : A) :
    (∀ t ∈ h, t.label.Wakes = true →
      t.pre.now + INSTANCE_LIFETIME_THRESHOLD < env.instanceLiveUntil) ∧
    (env.instanceLiveUntil = env₀.instanceLiveUntil ∨
      ∃ t ∈ h, t.label.Wakes = true ∧
        env.instanceLiveUntil = t.pre.now + INSTANCE_BUMP_AMOUNT) := by
  have hlives := Run.outlived (f := Env.now) (c := fun env => some env.instanceLiveUntil)
    (R := fun now n => n = now + INSTANCE_BUMP_AMOUNT) (fun hs => hs.now_le a)
    (fun hs hl n hn => by
      rw [← Option.some.inj hn, Option.some.injEq]
      exact (hs.wakes a).1 hl)
    (fun hs hl => congrArg some ((hs.wakes a).2 hl)) hr _ rfl
  exact ⟨hlives.1, hlives.2.imp_left fun h => (Option.some.inj h).symm⟩

/-- In every run: a balance lives for more than 29 days after every call that read or wrote
    it, the instance for more than 6 after every call that extended it; and what a lifetime
    is, one of these calls, or the host at the birth of the entry, has made it. -/
theorem balances_outlive (hfresh : env₀.Fresh) (hr : Run Step env₀ h env) (a : A) :
    (∀ n, env.persistent.liveUntil (.balance a) = some n →
      (∀ t ∈ h, t.label.Renews a → t.pre.now + BALANCE_LIFETIME_THRESHOLD < n) ∧
      ∃ t ∈ h, t.label.Renews a ∧
        (n = t.pre.now + BALANCE_BUMP_AMOUNT ∨ n = t.pre.now + H.persistentTtl)) ∧
    (∀ t ∈ h, t.label.Wakes = true →
      t.pre.now + INSTANCE_LIFETIME_THRESHOLD < env.instanceLiveUntil) ∧
    (env.instanceLiveUntil = env₀.instanceLiveUntil ∨
      ∃ t ∈ h, t.label.Wakes = true ∧
        env.instanceLiveUntil = t.pre.now + INSTANCE_BUMP_AMOUNT) :=
  ⟨Run.renewed hfresh hr a, Run.woken hr a⟩

end Runs

/-- The balance of 2 is used at ledgers 1 and 5 and lives on until ledger 518401. -/
theorem balances_outlive_sample : ∃ h env, Run Step Env.deployed h env ∧
    env.persistent.liveUntil (.balance 2) = some 518401 ∧
    (∀ t ∈ h, t.label.Renews 2 → t.pre.now + BALANCE_LIFETIME_THRESHOLD < 518401) ∧
    ∀ t ∈ h, t.label.Wakes = true →
      t.pre.now + INSTANCE_LIFETIME_THRESHOLD < env.instanceLiveUntil := by
  rcases Env.exists_of_plays spendingScript
    (fun _ env => decide (env.persistent.liveUntil (.balance 2) = some 518401))
    (by decide +kernel) with ⟨h, env, hr, hend⟩
  have hend := of_decide_eq_true hend
  have hlives := balances_outlive Env.deployed_fresh hr 2
  exact ⟨h, env, hr, hend, (hlives.1 _ hend).1, hlives.2.1⟩

end Abundance
