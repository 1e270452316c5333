import TrustFlow.Crowdfund.Campaign
import TrustFlow.Lib.Run

/-!
# Runs of a crowdfund contract

`Step` has the calls of the contract, the passing of time and the token
operations of others, which never take from the contract.  A contract that is
not called yet is `Env.Blank`; from its only successful `initialize` on the
storage holds the terms of one campaign, and `Campaign.Step` is what a step can
then do.

The last section plays a script, which turns a concrete run into a computation.
-/

namespace Crowdfund

open Invocation Transition Purse

variable {A : Type} [DecidableEq A] {H : Host A}

/-! ### Calls and steps -/

inductive Call (A : Type) where
  | initialise (recipient : A) (deadline : U64) (targetAmount : I128) (token : A)
  | recipient
  | deadline
  | started
  | state
  | target
  | token
  | balance (user : A)
  | deposit (user : A) (amount : I128)
  | withdraw (dest : A)

namespace Call

/-- What a call returns. -/
abbrev Result : Call A → Type
  | .recipient | .token => A
  | .deadline | .started => U64
  | .state => U32
  | .target | .balance _ => I128
  | .initialise .. | .deposit .. | .withdraw _ => Unit

def exec : (c : Call A) → Op H c.Result
  | .initialise r d targetAmount t => Crowdfund.initialise r d targetAmount t
  | .recipient => Crowdfund.recipient
  | .deadline => Crowdfund.deadline
  | .started => Crowdfund.started
  | .state => Crowdfund.state
  | .target => Crowdfund.target
  | .token => Crowdfund.token
  | .balance user => Crowdfund.balance user
  | .deposit user amount => Crowdfund.deposit user amount
  | .withdraw dest => Crowdfund.withdraw dest

/-- The calls that only read. -/
inductive Reads : Call A → Prop
  | recipient : Reads .recipient
  | deadline : Reads .deadline
  | started : Reads .started
  | state : Reads .state
  | target : Reads .target
  | token : Reads .token
  | balance {user : A} : Reads (.balance user)

end Call

/-- A call that returned, a call that failed, time that passed, a change of the
    tokens nobody called this contract for. -/
inductive Label (H : Host A) where
  | call (auth : A → Bool) (c : Call A) (result : c.Result)
  | failed (auth : A → Bool) (c : Call A) (fault : Fault)
  | close (timestamp : U64)
  | tokens (state : H.tokens.State)

/-- The contract's own address authorises no call, as a contract does not call
    itself; and nobody else takes tokens out of its balance. -/
inductive Step : Env H → Label H → Env H → Prop
  | call {env env' : Env H} {auth : A → Bool} {c : Call A} {r : c.Result}
      (hself : auth H.contract = false) (h : c.exec auth env = .ok (r, env')) :
      Step env (.call auth c r) env'
  | failed {env : Env H} {auth : A → Bool} {c : Call A} {fault : Fault}
      (hself : auth H.contract = false)
      (h : (c.exec : Op H c.Result) auth env = .error fault) :
      Step env (.failed auth c fault) env
  | close {env : Env H} {n : U64} (h : env.timestamp.val ≤ n.val) :
      Step env (.close n) { env with timestamp := n }
  | tokens {env : Env H} {s : H.tokens.State}
      (h : ∀ tok, env.balance tok ≤ H.tokens.balance s tok H.contract)
      (hanswers : ∀ tok, (env.setPurse ⟨s, env.purse.transfers⟩).Answers tok) :
      Step env (.tokens s) (env.setPurse ⟨s, env.purse.transfers⟩)

/-- The transitions of a run so far, newest first. -/
abbrev History (H : Host A) := List (Move (Env H) (Label H))

/-- A contract that was deployed and not called yet. -/
structure Env.Fresh (env : Env H) : Prop where
  blank : env.Blank
  no_transfers : env.purse.transfers = []
  no_events : env.events = []
  balance_nonneg : ∀ tok, 0 ≤ env.balance tok
  answers : ∀ tok, env.Answers tok

/-! ### Before the campaign -/

section Blank

variable {auth : A → Bool} {env env' : Env H}

theorem Env.Blank.getState (hb : env.Blank) {s : State} :
    ¬ getState auth env = .ok (s, env') := by
  simp [Crowdfund.getState, hb _]

theorem Env.Blank.getRecipient (hb : env.Blank) {a : A} :
    ¬ getRecipient auth env = .ok (a, env') := by
  simp [hb _]

/-- What `initialize` writes. -/
def Env.initialised (env : Env H) (c : Campaign A) : Env H :=
  (((((env.setInstance .recipient c.recipient).setInstance .recipientClaimed false).setInstance
    .started c.started).setInstance .deadline c.deadline).setInstance .target c.target).setInstance
    .token c.token

theorem initialise_eq_ok {r : A} {d : U64} {n : I128} {t : A} {u : Unit} :
    initialise r d n t auth env = .ok (u, env') ↔ env.inst .recipient = none ∧
      env' = env.initialised ⟨r, d, env.timestamp, n, t⟩ := by
  simp [initialise, instanceGet, instanceSet, getLedgerTimestamp, Env.initialised]

theorem Env.initialised_stores (env : Env H) (c : Campaign A) :
    (env.initialised c).Stores c false := by
  constructor <;> simp [initialised]

/-- Only `initialize` returns before the terms are stored. -/
theorem Env.Blank.call (hb : env.Blank) {c : Call A} {r : c.Result}
    (h : c.exec auth env = .ok (r, env')) :
    ∃ recipient d n t, c = .initialise recipient d n t ∧
      env' = env.initialised ⟨recipient, d, env.timestamp, n, t⟩ := by
  cases c with
  | initialise => exact ⟨_, _, _, _, rfl, (initialise_eq_ok.mp h).2⟩
  | recipient => exact absurd h hb.getRecipient
  | deadline => simp [Call.exec, Crowdfund.deadline, hb _] at h
  | started => simp [Call.exec, Crowdfund.started, hb _] at h
  | state => simp [Call.exec, Crowdfund.state, hb.getState] at h
  | target => simp [Call.exec, Crowdfund.target, hb _] at h
  | token => simp [Call.exec, Crowdfund.token, hb _] at h
  | balance user => simp [Call.exec, Crowdfund.balance, hb _] at h
  | deposit => simp [Call.exec, Crowdfund.deposit, hb.getState] at h
  | withdraw => simp [Call.exec, Crowdfund.withdraw, hb.getState] at h

end Blank

/-! ### The campaign -/

/-- What one step can do once the terms are stored. -/
inductive Campaign.Step (c : Campaign A) (claimed : Bool) (env : Env H) :
    Label H → Bool → Env H → Prop
  | read {auth : A → Bool} {call : Call A} {r : call.Result} (h : call.Reads) :
      Step c claimed env (.call auth call r) claimed env
  | deposit {auth : A → Bool} {user : A} {amount : I128} {env' : Env H}
      (hauth : auth user = true) (hself : user ≠ H.contract)
      (h : env.Deposits c user amount env') :
      Step c claimed env (.call auth (.deposit user amount) ()) claimed env'
  | refund {auth : A → Bool} {dest : A} {env' : Env H} (h : env.Refunds c claimed dest env') :
      Step c claimed env (.call auth (.withdraw dest) ()) claimed env'
  | payout {auth : A → Bool} {env' : Env H} (h : env.PaysOut c claimed env') :
      Step c claimed env (.call auth (.withdraw c.recipient) ()) true env'
  | failed {auth : A → Bool} {call : Call A} {fault : Fault} :
      Step c claimed env (.failed auth call fault) claimed env
  | close {n : U64} (h : env.timestamp.val ≤ n.val) :
      Step c claimed env (.close n) claimed { env with timestamp := n }
  | tokens {s : H.tokens.State}
      (h : ∀ tok, env.balance tok ≤ H.tokens.balance s tok H.contract)
      (hanswers : ∀ tok, (env.setPurse ⟨s, env.purse.transfers⟩).Answers tok) :
      Step c claimed env (.tokens s) claimed (env.setPurse ⟨s, env.purse.transfers⟩)

section Stored

variable {auth : A → Bool} {env env' : Env H} {c : Campaign A} {claimed : Bool}

theorem Call.Reads.post {call : Call A} {r : call.Result} (hr : call.Reads)
    (hc : env.Stores c claimed) (ha : env.Answers c.token)
    (h : call.exec auth env = .ok (r, env')) : env' = env := by
  cases hr with
  | recipient => exact (getRecipient_eq_ok.mp h).2
  | deadline => exact (getDeadline_eq_ok.mp h).2
  | started => exact (getStarted_eq_ok.mp h).2
  | target => exact (getTargetAmount_eq_ok.mp h).2
  | token => exact (getToken_eq_ok.mp h).2
  | state =>
      simp only [exec, Crowdfund.state, bind_eq_ok, getState_eq hc ha, pure_eq_ok] at h
      rcases h with ⟨_, _, ⟨rfl⟩, _, rfl⟩
      rfl
  | balance =>
      simp only [exec, Crowdfund.balance, bind_eq_ok, getRecipient_eq_ok, ite_eq_ok,
        getToken_eq_ok, getBalance_eq_ok, getUserDeposited_eq_ok, pure_eq_ok] at h
      rcases h with ⟨_, _, ⟨_, rfl⟩, _, _, hs, h⟩
      rw [getState_eq hc ha] at hs
      cases hs
      rcases h with ⟨_, ⟨_, _, rfl⟩ | ⟨_, _, _, ⟨_, rfl⟩, _, rfl⟩⟩ | ⟨_, _, rfl⟩
      · rfl
      · rfl
      · rfl

/-- What a call does to a campaign. -/
theorem Campaign.Step.of_call (hc : env.Stores c claimed) (ha : env.Answers c.token)
    (hself : auth H.contract = false) {call : Call A} {r : call.Result}
    (h : call.exec auth env = .ok (r, env')) :
    ∃ claimed', c.Step claimed env (.call auth call r) claimed' env' := by
  have hread (hr : call.Reads) :
      ∃ claimed', c.Step claimed env (.call auth call r) claimed' env' := by
    cases hr.post hc ha h
    exact ⟨claimed, .read hr⟩
  cases call with
  | initialise =>
      have hnone := (initialise_eq_ok.mp h).1
      cases hc.recipient.symm.trans hnone
  | recipient => exact hread .recipient
  | deadline => exact hread .deadline
  | started => exact hread .started
  | state => exact hread .state
  | target => exact hread .target
  | token => exact hread .token
  | balance => exact hread .balance
  | deposit user amount =>
      rcases deposit_ok hc ha h with ⟨hauth, hd⟩
      refine ⟨claimed, .deposit hauth ?_ hd⟩
      rintro rfl
      cases hself.symm.trans hauth
  | withdraw dest =>
      rcases (withdraw_eq_ok hc ha).mp h with ⟨rfl, hp⟩ | hr
      · exact ⟨true, .payout hp⟩
      · exact ⟨claimed, .refund hr⟩

/-- The terms stay stored. -/
theorem Campaign.Step.stores {l : Label H} {claimed' : Bool}
    (hs : c.Step claimed env l claimed' env') (hc : env.Stores c claimed) :
    env'.Stores c claimed' := by
  cases hs with
  | read => exact hc
  | deposit _ _ h =>
      cases h with
      | intro =>
        apply hc.congr
        intro k hk
        simp [hk _]
  | refund h =>
      cases h with
      | intro =>
        apply hc.congr
        intro k hk
        simp [hk _]
  | payout h =>
      cases h with
      | @intro amount p =>
        have hp : (env.setPurse p).Stores c claimed := hc.congr fun _ _ => rfl
        constructor
        · simpa using hp.recipient
        · simpa using hp.deadline
        · simpa using hp.started
        · simpa using hp.target
        · simpa using hp.token
        · simp
  | failed => exact hc
  | close => exact hc.congr fun _ _ => rfl
  | tokens => exact hc.congr fun _ _ => rfl

/-- A transfer of one token, after which it answers, leaves the others answering. -/
theorem Answers.moves {tok src dst : A} {amount n : I128} {p : Purse H.tokens}
    (ha : ∀ t, env.Answers t) (hm : Moves tok src dst amount env.purse p)
    (hn : n.val = p.balance tok H.contract) (t : A) : (env.setPurse p).Answers t := by
  by_cases ht : t = tok
  · subst ht
    exact ⟨n, hn⟩
  · rcases ha t with ⟨m, hm'⟩
    refine ⟨m, ?_⟩
    rw [Env.balance_setPurse, hm.balance_eq]
    simpa [ht, Env.balance] using hm'

theorem Campaign.Step.answers {l : Label H} {claimed' : Bool}
    (hs : c.Step claimed env l claimed' env') (ha : ∀ tok, env.Answers tok) :
    ∀ tok, env'.Answers tok := by
  cases hs with
  | read | failed | close => exact ha
  | tokens _ hanswers => exact hanswers
  | deposit _ _ h =>
      cases h with
      | intro _ _ _ _ hm hpledged =>
        intro t
        rcases Answers.moves ha hm hpledged t with ⟨m, hm⟩
        exact ⟨m, by simpa [Env.balance] using hm⟩
  | refund h =>
      cases h with
      | intro _ _ hm hleft => exact Answers.moves ha hm hleft
  | payout h =>
      cases h with
      | @intro amount p hsuccess hclaimed hamount hm =>
        have hleft : ∃ n : I128, n.val = p.balance c.token H.contract := by
          by_cases hself : c.recipient = H.contract
          · refine ⟨amount, ?_⟩
            rw [hm.balance_eq]
            simpa [hself, Env.balance] using hamount
          · refine ⟨0, ?_⟩
            rw [hm.balance_eq]
            simp [Ne.symm hself, hamount, Env.balance]
        rcases hleft with ⟨n, hn⟩
        exact Answers.moves ha hm hn

end Stored

/-! ### The states of a run -/

/-- Nothing is stored yet, or the terms of a campaign. -/
structure Env.Sound (env : Env H) : Prop where
  stored : env.Blank ∨ ∃ c claimed, env.Stores c claimed
  answers : ∀ tok, env.Answers tok

section Reachable

variable {env env' env₀ : Env H} {c : Campaign A} {claimed : Bool}

theorem Env.Fresh.sound (h : env.Fresh) : env.Sound := ⟨.inl h.blank, h.answers⟩

/-- Whoever finds an entry finds the terms of a campaign. -/
theorem Env.Sound.exists_stores (h : env.Sound) {k : DataKey A} {v : DataKey.Val A k}
    (hk : env.inst k = some v) : ∃ c claimed, env.Stores c claimed := by
  apply h.stored.resolve_left
  intro hb
  cases (hb k).symm.trans hk

/-- The terms stay what they are. -/
theorem Step.stored {l : Label H} (hs : Step env l env') (hc : env.Stores c claimed)
    (ha : env.Answers c.token) :
    ∃ claimed', c.Step claimed env l claimed' env' ∧ env'.Stores c claimed' := by
  have hstep : ∃ claimed', c.Step claimed env l claimed' env' := by
    cases hs with
    | call hself h => exact Campaign.Step.of_call hc ha hself h
    | failed => exact ⟨claimed, .failed⟩
    | close h => exact ⟨claimed, .close h⟩
    | tokens h hanswers => exact ⟨claimed, .tokens h hanswers⟩
  rcases hstep with ⟨claimed', h⟩
  exact ⟨claimed', h, h.stores hc⟩

/-- A `withdraw` that returned paid out or refunded. -/
theorem Step.withdraw_post {auth : A → Bool} {dest : A}
    (hs : Step env (.call auth (.withdraw dest) ()) env') (hc : env.Stores c claimed)
    (ha : env.Answers c.token) :
    dest = c.recipient ∧ env.PaysOut c claimed env' ∨ env.Refunds c claimed dest env' := by
  cases hs with
  | call _ hcall => exact (withdraw_eq_ok hc ha).mp hcall

theorem Env.Blank.step {l : Label H} (hb : env.Blank) (hs : Step env l env') :
    env'.Blank ∨ ∃ c, env' = env.initialised c := by
  cases hs with
  | call _ h =>
      rcases hb.call h with ⟨_, _, _, _, _, hpost⟩
      exact .inr ⟨_, hpost⟩
  | failed | close | tokens => exact .inl hb

theorem Step.sound {l : Label H} (hs : Step env l env') (h : env.Sound) : env'.Sound := by
  rcases h.stored with hb | ⟨c, claimed, hc⟩
  · have ha : ∀ tok, env'.Answers tok := by
      cases hs with
      | call _ hcall =>
          rcases hb.call hcall with ⟨_, _, _, _, _, rfl⟩
          exact h.answers
      | failed | close => exact h.answers
      | tokens _ hanswers => exact hanswers
    rcases hb.step hs with hb' | ⟨c, rfl⟩
    · exact ⟨.inl hb', ha⟩
    · exact ⟨.inr ⟨c, false, env.initialised_stores c⟩, ha⟩
  · rcases hs.stored hc (h.answers _) with ⟨claimed', hstep, hc'⟩
    exact ⟨.inr ⟨c, claimed', hc'⟩, hstep.answers h.answers⟩

theorem Run.sound {h : History H} (hfresh : env₀.Fresh) (hr : Run Step env₀ h env) :
    env.Sound :=
  Run.invariant hfresh.sound (fun hP hs => hs.sound hP) hr

/-- An invariant of the runs of one campaign: `B` holds until the terms are stored,
    gives `P` when they are, and every step of the campaign keeps `P`. -/
theorem Run.campaign_invariant {B : History H → Env H → Prop}
    {P : History H → Env H → Campaign A → Bool → Prop} (hfresh : env₀.Fresh) (h0 : B [] env₀)
    (hblank : ∀ {h env l env'}, env.Blank → B h env → Step env l env' →
      B (⟨env, l, env'⟩ :: h) env')
    (hstart : ∀ {h} {env : Env H} {c}, env.Blank → B h (env.initialised c) →
      P h (env.initialised c) c false)
    (hstep : ∀ {h env l env' c claimed claimed'}, env.Stores c claimed → P h env c claimed →
      c.Step claimed env l claimed' env' → P (⟨env, l, env'⟩ :: h) env' c claimed') :
    ∀ {h env}, Run Step env₀ h env → ∀ {c claimed}, env.Stores c claimed → P h env c claimed := by
  intro h env hr
  have hrun : (env.Blank → B h env) ∧ ∀ c claimed, env.Stores c claimed → P h env c claimed := by
    refine Run.history_invariant (P := fun h env =>
      (env.Blank → B h env) ∧ ∀ c claimed, env.Stores c claimed → P h env c claimed) ?_ ?_ hr
    · refine ⟨fun _ => h0, fun c claimed hc => ?_⟩
      cases (hfresh.blank .recipient).symm.trans hc.recipient
    · intro h env l env' hr hP hs
      have hsound := Run.sound hfresh hr
      rcases hsound.stored with hb | ⟨c, claimed, hc⟩
      · have hB := hblank hb (hP.1 hb) hs
        refine ⟨fun _ => hB, fun c claimed hc => ?_⟩
        rcases hb.step hs with hb' | ⟨c', rfl⟩
        · cases (hb' .recipient).symm.trans hc.recipient
        · rcases hc.unique (env.initialised_stores c') with ⟨rfl, rfl⟩
          exact hstart hb hB
      · rcases hs.stored hc (hsound.answers _) with ⟨claimed', hstep', hc'⟩
        refine ⟨fun hb => ?_, fun c₁ claimed₁ hc₁ => ?_⟩
        · cases (hb .recipient).symm.trans hc'.recipient
        · rcases hc₁.unique hc' with ⟨rfl, rfl⟩
          exact hstep hc (hP.2 c claimed hc) hstep'
  exact fun {c claimed} hc => hrun.2 c claimed hc

end Reachable

/-! ### Playing a script -/

inductive Action (A : Type) where
  | call (auth : A → Bool) (c : Call A)
  | close (timestamp : U64)
  /-- A holder sends tokens to the contract. -/
  | send (token src : A) (amount : I128)

namespace Env

variable {env env' : Env H}

/-- The step an action takes, when it can take one. -/
def act (env : Env H) : Action A → Option (Label H × Env H)
  | .call auth c =>
      if auth H.contract then none
      else match (c.exec : Op H c.Result) auth env with
        | .ok (r, env') => some (.call auth c r, env')
        | .error fault => some (.failed auth c fault, env)
  | .close n =>
      if env.timestamp.val ≤ n.val then some (.close n, { env with timestamp := n }) else none
  | .send tok src amount =>
      match H.tokens.transfer env.purse.state tok src H.contract amount with
      | some s =>
          if src ≠ H.contract ∧ (BoundedInt.ofInt? (H.tokens.balance s tok H.contract) :
              Option I128).isSome then
            some (.tokens s, env.setPurse ⟨s, env.purse.transfers⟩)
          else none
      | none => none

theorem act_step {a : Action A} {l : Label H} (ha : ∀ tok, env.Answers tok)
    (h : env.act a = some (l, env')) : Step env l env' := by
  cases a with
  | call auth c =>
      simp only [act] at h
      split at h
      · cases h
      · next hself =>
        have hself : auth H.contract = false := by simpa using hself
        split at h
        · next r env₁ hc =>
          cases h
          exact .call hself hc
        · next fault hc =>
          cases h
          exact .failed hself hc
  | close n =>
      simp only [act] at h
      split at h
      · next hle =>
        cases h
        exact .close hle
      · cases h
  | send tok src amount =>
      simp only [act] at h
      split at h
      · next s hs =>
        split at h
        · next hsend =>
          cases h
          rcases hsend with ⟨hsrc, hanswer⟩
          have hm : Moves tok src H.contract amount env.purse
              ⟨s, ⟨tok, src, H.contract, amount⟩ :: env.purse.transfers⟩ := .intro hs
          have h0 := hm.nonneg
          rcases Option.isSome_iff_exists.mp hanswer with ⟨n, hn⟩
          have hn : n.val = H.tokens.balance s tok H.contract := BoundedInt.ofInt?_eq_some.mp hn
          have hanswers := Answers.moves ha hm hn
          refine .tokens (fun t => ?_) hanswers
          have hb : H.tokens.balance s t H.contract = _ := hm.balance_eq t H.contract
          have hsrc : ¬ (t = tok ∧ H.contract = src) := fun h => hsrc h.2.symm
          rw [hb, if_neg hsrc]
          show env.purse.balance t H.contract ≤ _
          split <;> omega
        · cases h
      · cases h

theorem play_run {script : List (Action A)} {h : History H} (hs : env.Sound)
    (hp : play Env.act env script = some (h, env')) : Run Step env h env' := by
  have hact {e e' : Env H} {a : Action A} {l : Label H} (he : e.Sound)
      (ha : e.act a = some (l, e')) : Step e l e' := act_step he.answers ha
  exact Run.of_play (fun hI hs => hs.sound hI) hact hs hp

end Env

/-- The plainest host over addresses `Nat`: balances in a table, the contract at
    address 0. -/
def Host.plain : Host Nat where
  contract := 0
  tokens := Tokens.balances Nat

/-- A fresh contract at time 1 on the plain host, where the addresses 1 to 5 hold
    1000 of every token. -/
def Env.deployed : Env Host.plain where
  timestamp := 1
  instanceStore := .empty
  purse := ⟨fun _ x => if 1 ≤ x ∧ x ≤ 5 then 1000 else 0, []⟩
  events := []

theorem Env.deployed_fresh : Env.deployed.Fresh where
  blank _ := rfl
  no_transfers := rfl
  no_events := rfl
  balance_nonneg _ := le_rfl
  answers _ := ⟨0, rfl⟩

/-- The script runs on the fresh contract and ends as `p` says. -/
def Env.plays (script : List (Action Nat)) (p : History Host.plain → Env Host.plain → Bool) :
    Bool :=
  match play Env.act Env.deployed script with
  | some (h, env) => p h env
  | none => false

theorem Env.exists_of_plays (script : List (Action Nat))
    (p : History Host.plain → Env Host.plain → Bool) (hp : Env.plays script p = true) :
    ∃ h env, Run Step Env.deployed h env ∧ p h env = true := by
  unfold plays at hp
  split at hp
  · next h env hplay =>
    exact ⟨h, env, play_run Env.deployed_fresh.sound hplay, hp⟩
  · cases hp

end Crowdfund
