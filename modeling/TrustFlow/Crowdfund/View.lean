import TrustFlow.Crowdfund.Refunds

/-!
# The balance view

`balance` tells a user what `withdraw` would pay.  The two decide separately: both
look at the state and at who asks, but only `withdraw` looks at whether the recipient
has claimed.  So they agree past the deadline, except for a recipient that has claimed
while the contract holds tokens again.
-/

namespace Crowdfund

open Invocation Transition Purse

variable {A : Type} [DecidableEq A] {H : Host A}

/-! ### The two answers -/

namespace Env

/-- The deadline of the stored campaign has passed. -/
def Ended (env : Env H) : Prop := ∃ d, env.inst .deadline = some d ∧ d.val ≤ env.timestamp.val

/-- A `withdraw` would succeed and pay this amount of the campaign's token to the user. -/
def Withdrawable (env : Env H) (auth : A → Bool) (user : A) (amount : I128) : Prop :=
  ∃ tok env', env.inst .token = some tok ∧
    (withdraw user : Op H Unit) auth env = .ok ((), env') ∧
    Moves tok H.contract user amount env.purse env'.purse

/-- For a user the view shows a positive amount exactly when a `withdraw` would pay it. -/
def Agrees (env : Env H) (user : A) : Prop :=
  ∀ (auth auth' : A → Bool) (amount : I128), 0 < amount.val →
    ((Crowdfund.balance user : Op H I128) auth env = .ok (amount, env) ↔
      env.Withdrawable auth' user amount)

/-- The recipient has claimed and the contract holds tokens that nobody can withdraw. -/
structure Stranded (env : Env H) (user : A) : Prop where
  claimed : env.inst .recipientClaimed = some true
  recipient : env.inst .recipient = some user
  held : ∃ tok, env.inst .token = some tok ∧ 0 < env.balance tok

/-- What the view shows. -/
def shown (env : Env H) (c : Campaign A) (claimed : Bool) (user : A) : Int :=
  if env.stateOf c claimed = .success then
    if user = c.recipient then env.balance c.token else 0
  else (env.depositOf user).val

end Env

section Answers

variable {env env' : Env H} {h : History H} {c : Campaign A} {claimed : Bool} {auth : A → Bool}
  {user : A} {amount : I128}

theorem balance_eq_ok (hc : env.Stores c claimed) (ha : env.Answers c.token) :
    balance user auth env = .ok (amount, env') ↔
      amount.val = env.shown c claimed user ∧ env' = env := by
  simp only [balance, bind_eq_ok, getRecipient_eq_ok, hc.recipient, Option.some.injEq,
    getState_eq hc ha, Except.ok.injEq, Prod.mk.injEq, ↓existsAndEq, true_and, ite_eq_ok,
    getUserDeposited_eq_ok, pure_eq_ok, getToken_eq_ok, hc.token, getBalance_eq_ok, Env.shown]
  by_cases hs : env.stateOf c claimed = .success
  · by_cases hu : user = c.recipient
    · simp [hs, hu]
    · simp [hs, hu, ← BoundedInt.val_inj]
  · simp [hs, ← BoundedInt.val_inj]

/-- After success the recipient can withdraw the balance, once. -/
theorem withdrawable_of_success (hpays : H.tokens.PaysFrom H.contract) (hc : env.Stores c claimed)
    (ha : env.Answers c.token) (hs : env.stateOf c claimed = .success) :
    env.Withdrawable auth user amount ↔ user = c.recipient ∧ claimed = false ∧
      0 ≤ amount.val ∧ amount.val = env.balance c.token := by
  constructor
  · rintro ⟨tok, env', htok, hw, hm⟩
    cases hc.token.symm.trans htok
    rcases (withdraw_eq_ok hc ha).mp hw with ⟨hu, hpayout⟩ | hrefund
    · cases hpayout with
      | @intro paid p _ hclaimed hpaid hm' =>
        have hsame : paid = amount := by
          subst hu
          exact hm.amount_unique hm'
        subst hsame
        exact ⟨hu, hclaimed, hm.nonneg, hpaid⟩
    · cases hs.symm.trans hrefund.expired
  · rintro ⟨rfl, hclaimed, h0, hamount⟩
    have hmoves : ∃ p, Moves c.token H.contract c.recipient amount env.purse p :=
      exists_moves hpays h0 hamount.le
    rcases hmoves with ⟨p, hm⟩
    have hpayout := Env.PaysOut.intro hs hclaimed hamount hm
    exact ⟨c.token, _, hc.token, (withdraw_eq_ok hc ha).mpr (.inl ⟨rfl, hpayout⟩), hm⟩

/-- After expiry a donor can withdraw its recorded deposit. -/
theorem withdrawable_of_expired (hpays : H.tokens.PaysFrom H.contract) (hc : env.Stores c false)
    (ha : env.Answers c.token) (hs : env.stateOf c false = .expired)
    (haccounts : Accounts h env c) :
    env.Withdrawable auth user amount ↔ user ≠ c.recipient ∧ amount = env.depositOf user := by
  constructor
  · rintro ⟨tok, env', htok, hw, hm⟩
    cases hc.token.symm.trans htok
    rcases (withdraw_eq_ok hc ha).mp hw with ⟨_, hpayout⟩ | hrefund
    · cases hs.symm.trans hpayout.success
    · have hpaid := hrefund.repays.moves
      cases hrefund with
      | intro _ hdonor => exact ⟨hdonor, hpaid.amount_unique hm⟩
  · rintro ⟨hdonor, rfl⟩
    rcases haccounts.repays hpays hc ha hs hdonor with ⟨env', hw, hrepays⟩
    exact ⟨c.token, env', hc.token, hw, hrepays.moves⟩

theorem Env.Stores.stranded_iff (hc : env.Stores c claimed) :
    env.Stranded user ↔ claimed = true ∧ user = c.recipient ∧ 0 < env.balance c.token := by
  constructor
  · rintro ⟨hclaimed, hrecipient, tok, htok, hheld⟩
    cases hc.token.symm.trans htok
    exact ⟨Option.some.inj (hc.claimed.symm.trans hclaimed),
      Option.some.inj (hrecipient.symm.trans hc.recipient), hheld⟩
  · rintro ⟨rfl, rfl, hheld⟩
    exact ⟨hc.claimed, hc.recipient, c.token, hc.token, hheld⟩

/-- After success the answers differ only for a recipient that has claimed. -/
theorem agrees_iff_of_success (hpays : H.tokens.PaysFrom H.contract) (hc : env.Stores c claimed)
    (ha : env.Answers c.token) (hs : env.stateOf c claimed = .success) :
    env.Agrees user ↔ ¬ env.Stranded user := by
  rw [hc.stranded_iff]
  constructor
  · rintro hagrees ⟨hclaimed, hu, hheld⟩
    rcases ha with ⟨n, hn⟩
    have hshown : n.val = env.shown c claimed user := by
      rw [Env.shown, if_pos hs, if_pos hu, hn]
    have hview : (balance user : Op H I128) (fun _ => false) env = .ok (n, env) :=
      (balance_eq_ok hc ⟨n, hn⟩).mpr ⟨hshown, rfl⟩
    have hpaid := (hagrees _ (fun _ => false) n (by omega)).mp hview
    rcases (withdrawable_of_success hpays hc ⟨n, hn⟩ hs).mp hpaid with ⟨_, hunclaimed, _⟩
    cases hclaimed.symm.trans hunclaimed
  · intro hnot auth auth' amount hpos
    rw [balance_eq_ok hc ha, withdrawable_of_success hpays hc ha hs, Env.shown, if_pos hs]
    by_cases hu : user = c.recipient
    · rw [if_pos hu]
      constructor
      · rintro ⟨hamount, _⟩
        have hunclaimed : claimed = false := by
          apply Bool.eq_false_iff.mpr
          intro hclaimed
          exact hnot ⟨hclaimed, hu, by omega⟩
        exact ⟨hu, hunclaimed, hpos.le, hamount⟩
      · rintro ⟨_, _, _, hamount⟩
        exact ⟨hamount, rfl⟩
    · -- nobody else is shown or paid anything
      rw [if_neg hu]
      constructor
      · rintro ⟨hzero, _⟩
        omega
      · rintro ⟨hu', _⟩
        exact absurd hu' hu

/-- After expiry the answers agree: the recipient has no deposit. -/
theorem agrees_of_expired (hpays : H.tokens.PaysFrom H.contract) (hc : env.Stores c false)
    (ha : env.Answers c.token) (hs : env.stateOf c false = .expired)
    (haccounts : Accounts h env c) :
    env.Agrees user := by
  intro auth auth' amount hpos
  have hsuccess : env.stateOf c false ≠ .success := by simp [hs]
  rw [balance_eq_ok hc ha, withdrawable_of_expired hpays hc ha hs haccounts, Env.shown,
    if_neg hsuccess, BoundedInt.val_inj]
  constructor
  · rintro ⟨rfl, _⟩
    refine ⟨?_, rfl⟩
    rintro rfl
    rw [haccounts.recipient] at hpos
    exact absurd hpos (lt_irrefl _)
  · rintro ⟨_, hamount⟩
    exact ⟨hamount, rfl⟩

end Answers

/-! ### The states of a run -/

section Runs

variable {env env' env₀ : Env H} {h : History H} {c : Campaign A} {claimed : Bool} {user : A}

/-- In a state a run reaches after the deadline the answers agree for a user unless
    tokens are stranded for it. -/
theorem Run.agrees_iff (hfresh : env₀.Fresh) (hpays : H.tokens.PaysFrom H.contract)
    (hr : Run Step env₀ h env) (hended : env.Ended) :
    env.Agrees user ↔ ¬ env.Stranded user := by
  have hsound := Run.sound hfresh hr
  rcases hended with ⟨d, hd, hover⟩
  rcases hsound.exists_stores hd with ⟨c, claimed, hc⟩
  cases hc.deadline.symm.trans hd
  have ha := hsound.answers c.token
  cases hs : env.stateOf c claimed with
  | running =>
      have hopen := Env.stateOf_eq_running.mp hs
      omega
  | success => exact agrees_iff_of_success hpays hc ha hs
  | expired =>
      have hunclaimed := (Env.stateOf_eq_expired.mp hs).2.1
      subst hunclaimed
      have haccounts := Run.accounts hfresh hr hc
      have hnot : ¬ env.Stranded user := by
        intro hstranded
        cases (hc.stranded_iff.mp hstranded).1
      exact iff_of_true (agrees_of_expired hpays hc ha hs haccounts) hnot

/-- Tokens reach a contract whose recipient has claimed: somebody sends them, or the
    recipient is the contract itself and the claim leaves them there. -/
inductive Strands : Move (Env H) (Label H) → Prop
  | sent {env env' : Env H} {s : H.tokens.State} {tok : A}
      (hclaimed : env.inst .recipientClaimed = some true) (htok : env.inst .token = some tok)
      (hmore : env.balance tok < H.tokens.balance s tok H.contract) :
      Strands ⟨env, .tokens s, env'⟩
  | kept {env env' : Env H} {auth : A → Bool} {tok : A}
      (hrecipient : env.inst .recipient = some H.contract) (htok : env.inst .token = some tok)
      (hheld : 0 < env.balance tok) :
      Strands ⟨env, .call auth (.withdraw H.contract) (), env'⟩

/-- What the claim of the recipient settles: the campaign is over, and the contract
    is empty unless a step of the run stranded tokens in it. -/
structure Settled (h : History H) (env : Env H) (c : Campaign A) : Prop where
  ended : c.deadline.val ≤ env.timestamp.val
  nonneg : 0 ≤ env.balance c.token
  empty : (∀ t ∈ h, ¬ Strands t) → env.balance c.token = 0

/-- What neither lowers the clock nor touches the tokens keeps the settlement. -/
theorem Settled.congr (hsettled : Settled h env c) {t : Move (Env H) (Label H)}
    (htime : env.timestamp.val ≤ env'.timestamp.val) (hpurse : env'.purse = env.purse) :
    Settled (t :: h) env' c := by
  have hbalance : env'.balance c.token = env.balance c.token := by
    unfold Env.balance
    rw [hpurse]
  refine ⟨hsettled.ended.trans htime, ?_, fun hnot => ?_⟩
  · rw [hbalance]
    exact hsettled.nonneg
  · rw [hbalance]
    exact hsettled.empty fun t ht => hnot t (List.mem_cons_of_mem _ ht)

/-- A payout takes the whole balance, unless the recipient is the contract itself. -/
theorem Env.PaysOut.balance_eq (hp : env.PaysOut c claimed env') :
    env'.balance c.token = if c.recipient = H.contract then env.balance c.token else 0 := by
  cases hp with
  | @intro amount p _ _ hamount hm =>
    have hb := hm.balance_eq c.token H.contract
    have hbefore : env.purse.balance c.token H.contract = amount.val := hamount.symm
    show p.balance c.token H.contract = _
    by_cases hself : c.recipient = H.contract
    · simp only [hself, true_and, if_true] at hb
      rw [if_pos hself, ← hamount]
      omega
    · simp only [Ne.symm hself, true_and, if_true, and_false, if_false] at hb
      rw [if_neg hself]
      omega

/-- A payout is after the deadline. -/
theorem Env.PaysOut.ended (hp : env.PaysOut c claimed env') :
    c.deadline.val ≤ env'.timestamp.val := by
  cases hp with
  | intro hsuccess => exact (Env.stateOf_eq_success.mp hsuccess).1

/-- A payout settles: the balance goes to the recipient, or stays and is stranded. -/
theorem Env.PaysOut.settled (hp : env.PaysOut c claimed env') (hc : env.Stores c claimed)
    {auth : A → Bool} :
    Settled (⟨env, .call auth (.withdraw c.recipient) (), env'⟩ :: h) env' c := by
  have hbalance := hp.balance_eq
  have h0 : 0 ≤ env.balance c.token := by
    cases hp with
    | intro _ _ hamount hm => exact hamount ▸ hm.nonneg
  by_cases hself : c.recipient = H.contract
  · rw [if_pos hself] at hbalance
    refine ⟨hp.ended, hbalance ▸ h0, fun hnot => ?_⟩
    have hrecipient : env.inst .recipient = some H.contract := hself ▸ hc.recipient
    have hheld : ¬ 0 < env.balance c.token := by
      intro hheld
      apply hnot _ List.mem_cons_self
      rw [hself]
      exact .kept hrecipient hc.token hheld
    omega
  · rw [if_neg hself] at hbalance
    exact ⟨hp.ended, hbalance.ge, fun _ => hbalance⟩

/-- After the claim every step keeps the settlement. -/
theorem Campaign.Step.settled {l : Label H} (hs : c.Step claimed env l true env')
    (hc : env.Stores c claimed) (hP : claimed = true → Settled h env c) :
    Settled (⟨env, l, env'⟩ :: h) env' c := by
  cases hs with
  | read | failed => exact (hP rfl).congr le_rfl rfl
  | close hle => exact (hP rfl).congr hle rfl
  | deposit _ _ hd =>
      have hended := (hP rfl).ended
      cases hd with
      | intro _ hopen => omega
  | refund hr => cases (Env.stateOf_eq_expired.mp hr.expired).2.1
  | payout hp => exact hp.settled hc
  | @tokens s hkeeps =>
      have hsettled := hP rfl
      have hle := hkeeps c.token
      refine ⟨hsettled.ended, hsettled.nonneg.trans hle, fun hnot => ?_⟩
      have hempty := hsettled.empty fun t ht => hnot t (List.mem_cons_of_mem _ ht)
      have hsent : ¬ env.balance c.token < H.tokens.balance s c.token H.contract := by
        intro hmore
        exact hnot _ List.mem_cons_self (.sent hc.claimed hc.token hmore)
      show H.tokens.balance s c.token H.contract = 0
      omega

theorem Run.settled (hfresh : env₀.Fresh) (hr : Run Step env₀ h env) (hc : env.Stores c true) :
    Settled h env c := by
  have hrun := Run.campaign_invariant (B := fun _ _ => True)
    (P := fun h env c claimed => claimed = true → Settled h env c) hfresh trivial
    (fun _ _ _ => trivial) ?_ ?_ hr hc
  · exact hrun rfl
  · intro h env c _ _ hclaimed
    cases hclaimed
  · rintro h env l env' c claimed claimed' hc hP hs rfl
    exact hs.settled hc hP

/-- A step that strands tokens leaves them for the recipient to see. -/
theorem Strands.stranded {l : Label H} (ht : Strands ⟨env, l, env'⟩) (hfresh : env₀.Fresh)
    (hr : Run Step env₀ h env) (hs : Step env l env') :
    env'.Ended ∧ ∃ user, env'.Stranded user := by
  have hsound := Run.sound hfresh hr
  have hpost {c : Campaign A} (hc : env'.Stores c true)
      (hover : c.deadline.val ≤ env'.timestamp.val) (hheld : 0 < env'.balance c.token) :
      env'.Ended ∧ ∃ user, env'.Stranded user :=
    ⟨⟨c.deadline, hc.deadline, hover⟩, c.recipient, hc.stranded_iff.mpr ⟨rfl, rfl, hheld⟩⟩
  cases ht with
  | @sent _ _ s tok hclaimed htok hmore =>
    rcases hsound.exists_stores htok with ⟨c, claimed, hc⟩
    cases hc.token.symm.trans htok
    cases hc.claimed.symm.trans hclaimed
    have hsettled := Run.settled hfresh hr hc
    cases hs.tokens_post
    exact hpost (hc.congr fun _ _ => rfl) hsettled.ended (lt_of_le_of_lt hsettled.nonneg hmore)
  | @kept _ _ auth tok hrecipient htok hheld =>
    rcases hsound.exists_stores htok with ⟨c, claimed, hc⟩
    cases hc.token.symm.trans htok
    have hself : c.recipient = H.contract :=
      Option.some.inj (hc.recipient.symm.trans hrecipient)
    rcases hs.withdraw_post hc (hsound.answers _) with ⟨_, hp⟩ | hrefund
    · have hstep : c.Step claimed env (.call auth (.withdraw c.recipient) ()) true env' :=
        .payout hp
      have hbalance := hp.balance_eq
      rw [if_pos hself] at hbalance
      exact hpost (hstep.stores hc) hp.ended (hbalance ▸ hheld)
    · cases hrefund with
      | intro _ hdonor => exact absurd hself.symm hdonor

/-- In every run, for a state after the deadline and a user: the view agrees with
    `withdraw` unless the user is a recipient that has claimed while the contract holds
    tokens.  And it agrees in all such states of the run and for all users exactly when
    no step of the run brings tokens to the contract after the claim. -/
theorem balance_agrees_iff (hfresh : env₀.Fresh) (hpays : H.tokens.PaysFrom H.contract)
    (hr : Run Step env₀ h env) :
    (∀ x ∈ env :: h.map Move.pre, x.Ended → ∀ user, x.Agrees user ↔ ¬ x.Stranded user) ∧
      ((∀ x ∈ env :: h.map Move.pre, x.Ended → ∀ user, x.Agrees user) ↔
        ∀ t ∈ h, ¬ Strands t) := by
  have hagrees : ∀ x ∈ env :: h.map Move.pre, x.Ended → ∀ user,
      x.Agrees user ↔ ¬ x.Stranded user := by
    intro x hx hended user
    rcases hr.of_mem hx with ⟨earlier, hr', _⟩
    exact Run.agrees_iff hfresh hpays hr' hended
  refine ⟨hagrees, ?_, ?_⟩
  · intro hall t ht hstrands
    rcases hr.split_mem ht with ⟨_, earlier, _, he, hs, _⟩
    rcases hstrands.stranded hfresh he hs with ⟨hended, user, hstranded⟩
    have hpost := hr.post_mem ht
    exact (hagrees t.post hpost hended user).mp (hall t.post hpost hended user) hstranded
  · intro hnot x hx hended user
    rw [hagrees x hx hended user]
    intro hstranded
    rcases hr.of_mem hx with ⟨earlier, hr', hearlier⟩
    rcases (Run.sound hfresh hr').exists_stores hstranded.recipient with ⟨c, claimed, hc⟩
    rcases hc.stranded_iff.mp hstranded with ⟨rfl, _, hheld⟩
    have hempty := (Run.settled hfresh hr' hc).empty fun t ht => hnot t (hearlier t ht)
    omega

/-- Addresses 1 and 2 deposit 10 and 5, which reaches the target, and past the deadline
    the recipient claims. -/
def claimedCampaign : List (Action Nat) :=
  [.call (fun _ => false) (.initialise 5 (.ofNat 11) (.ofNat 15) 9),
   .call (fun a => a == 1) (.deposit 1 (.ofNat 10)),
   .call (fun a => a == 2) (.deposit 2 (.ofNat 5)),
   .close (.ofNat 11),
   .call (fun _ => false) (.withdraw 5)]

/-- Nothing is sent after the claim: the view agrees in every state past the deadline. -/
theorem balance_agrees_iff_sample : ∃ (h : History Host.plain) (env : Env Host.plain),
    Run Step Env.deployed h env ∧ env.Ended ∧ (∃ t ∈ h, t.label.withdrawn? = some 5) ∧
      ∀ x ∈ env :: h.map Move.pre, x.Ended → ∀ user, x.Agrees user := by
  rcases Env.exists_of_plays claimedCampaign
    (fun h env => decide (env.Stores .plain true) && (decide (11 ≤ env.timestamp.val) &&
      (h.any (fun t => t.label.withdrawn? == some 5) &&
      h.all (fun t => t.label.leaves? 9 == none && t.pre.inst .recipient != some 0))))
    (by decide +kernel) with ⟨h, env, hr, hend⟩
  simp only [Bool.and_eq_true, List.any_eq_true, List.all_eq_true, decide_eq_true_eq, beq_iff_eq,
    bne_iff_ne] at hend
  rcases hend with ⟨hc, hended, hwithdrawn, hsteps⟩
  have hpays : Host.plain.tokens.PaysFrom Host.plain.contract := Tokens.balances_paysFrom 0
  refine ⟨h, env, hr, ⟨_, hc.deadline, hended⟩, hwithdrawn, ?_⟩
  refine (balance_agrees_iff Env.deployed_fresh hpays hr).2.mpr fun t ht hstrands => ?_
  have hstep := hsteps t ht
  cases hstrands with
  | sent => cases hstep.1
  | kept hrecipient => exact hstep.2 hrecipient

/-- After the claim address 3 sends 1 to the contract: the view shows it to the
    recipient, whose `withdraw` fails. -/
theorem balance_stranded : ∃ (h : History Host.plain) (env : Env Host.plain),
    Env.deployed.Fresh ∧ Host.plain.tokens.PaysFrom Host.plain.contract ∧
      Run Step Env.deployed h env ∧ env.Ended ∧
      (∀ auth, (balance 5 : Op Host.plain I128) auth env = .ok (.ofNat 1, env)) ∧
      (∀ auth env', ¬ (withdraw 5 : Op Host.plain Unit) auth env = .ok ((), env')) ∧
      ¬ env.Agrees 5 := by
  rcases Env.exists_of_plays (claimedCampaign ++ [.send 9 3 (.ofNat 1)])
    (fun _ env => decide (env.Stores .plain true) && (decide (11 ≤ env.timestamp.val) &&
      decide (env.balance 9 = 1)))
    (by decide +kernel) with ⟨h, env, hr, hend⟩
  simp only [Bool.and_eq_true, decide_eq_true_eq] at hend
  rcases hend with ⟨hc, hover, hheld⟩
  have hpays : Host.plain.tokens.PaysFrom Host.plain.contract := Tokens.balances_paysFrom 0
  have ha := (Run.sound Env.deployed_fresh hr).answers 9
  have hended : env.Ended := ⟨_, hc.deadline, hover⟩
  have hsuccess : env.stateOf .plain true = .success := Env.stateOf_eq_success.mpr ⟨hover, .inl rfl⟩
  have hshown : env.shown .plain true 5 = 1 := by
    rw [Env.shown, if_pos hsuccess]
    exact hheld
  refine ⟨h, env, Env.deployed_fresh, hpays, hr, hended, fun auth => ?_, fun auth env' hw => ?_, ?_⟩
  · exact (balance_eq_ok hc ha).mpr ⟨hshown.symm, rfl⟩
  · rcases (withdraw_eq_ok hc ha).mp hw with ⟨_, hpayout⟩ | hrefund
    · cases hpayout with
      | intro _ hclaimed => cases hclaimed
    · cases hsuccess.symm.trans hrefund.expired
  · rw [agrees_iff_of_success hpays hc ha hsuccess, hc.stranded_iff]
    have hpositive : 0 < env.balance 9 := by omega
    exact not_not_intro ⟨rfl, rfl, hpositive⟩

end Runs

end Crowdfund
