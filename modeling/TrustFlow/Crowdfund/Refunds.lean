import TrustFlow.Crowdfund.Finality
import TrustFlow.Lib.Sums

/-!
# Refunds are covered

While the recipient has not claimed, nothing leaves the contract but refunds, and
a refund lowers the recorded deposit of its donor by what it pays.  So the
balance covers the sum of the records, each record is what was deposited less
what was refunded, and a refund that is due goes through.
-/

namespace Crowdfund

open Invocation Transition Purse

variable {A : Type} [DecidableEq A] {H : Host A}

/-! ### What a run deposited and refunded -/

/-- What a call that returned deposits for a user. -/
def Label.deposited (user : A) : Label H → Int
  | .call _ (.deposit donor amount) _ => if donor = user then amount.val else 0
  | _ => 0

/-- What a user deposited in a run. -/
def deposited (user : A) (h : History H) : Int := (h.map fun t => t.label.deposited user).sum

/-- What the contract paid to a user in a token. -/
def Env.paid (env : Env H) (tok user : A) : Int :=
  (env.purse.transfers.map fun t =>
    if t.token = tok ∧ t.src = H.contract ∧ t.dst = user then t.amount.val else 0).sum

/-- The recorded deposits are covered by the balance and say what was deposited and
    not refunded. -/
structure Accounts (h : History H) (env : Env H) (c : Campaign A) : Prop where
  covered : ∑ᶠ user, (env.depositOf user).val ≤ env.balance c.token
  exact : ∀ user, (env.depositOf user).val = deposited user h - env.paid c.token user
  recipient : env.depositOf c.recipient = 0
  nonneg : ∀ user, 0 ≤ (env.depositOf user).val

section Accounts

variable {env env' : Env H} {h : History H} {c : Campaign A} {user : A}

theorem deposited_cons (user : A) (t : Move (Env H) (Label H)) (h : History H) :
    deposited user (t :: h) = t.label.deposited user + deposited user h := by
  simp [deposited]

theorem Env.finite_deposits (env : Env H) :
    (Function.support fun user => (env.depositOf user).val).Finite := by
  apply env.instanceStore.finite_support DataKey.user
  · intro a b hab
    cases hab
    rfl
  · intro user hnone
    have : env.inst (.user user) = none := hnone
    simp [depositOf, this]

@[simp] theorem Env.depositOf_setUser_self (env : Env H) (user : A) (v : I128) :
    (env.setInstance (.user user) v).depositOf user = v := by
  simp [depositOf]

@[simp] theorem Env.depositOf_setUser_of_ne (env : Env H) {user donor : A} (v : I128)
    (h : user ≠ donor) : (env.setInstance (.user donor) v).depositOf user = env.depositOf user := by
  have hk : DataKey.user user ≠ .user donor := fun hk => h (DataKey.user.inj hk)
  simp [depositOf, hk]

/-- The records depend on the storage alone. -/
theorem Env.depositOf_congr (h : ∀ k, env'.inst k = env.inst k) (user : A) :
    env'.depositOf user = env.depositOf user := by
  simp [depositOf, h]

/-- The sum of the records follows the record of one user. -/
theorem Env.sum_setUser (env : Env H) (user : A) (v : I128) :
    ∑ᶠ u, ((env.setInstance (.user user) v).depositOf u).val =
      ∑ᶠ u, (env.depositOf u).val - (env.depositOf user).val + v.val := by
  have hchange := finsum_change (g := fun u => ((env.setInstance (.user user) v).depositOf u).val)
    env.finite_deposits (fun u hu => congrArg BoundedInt.val (env.depositOf_setUser_of_ne v hu))
  simpa using hchange

/-- What leaves the records, the log and the balance as they are, or raises the
    balance, keeps the accounts. -/
theorem Accounts.congr (ha : Accounts h env c) {l : Label H}
    (hl : ∀ user, l.deposited user = 0) (hinst : ∀ k, env'.inst k = env.inst k)
    (htransfers : env'.purse.transfers = env.purse.transfers)
    (hbalance : env.balance c.token ≤ env'.balance c.token) :
    Accounts (⟨env, l, env'⟩ :: h) env' c where
  covered := by
    have hsum : ∑ᶠ user, (env'.depositOf user).val = ∑ᶠ user, (env.depositOf user).val :=
      finsum_congr fun user => by rw [Env.depositOf_congr hinst]
    rw [hsum]
    exact ha.covered.trans hbalance
  exact user := by
    have hpaid : env'.paid c.token user = env.paid c.token user := by
      simp [Env.paid, htransfers]
    rw [Env.depositOf_congr hinst, deposited_cons, hl, hpaid, zero_add]
    exact ha.exact user
  recipient := by
    rw [Env.depositOf_congr hinst]
    exact ha.recipient
  nonneg user := by
    rw [Env.depositOf_congr hinst]
    exact ha.nonneg user

/-- A deposit raises one record and the balance by the same amount. -/
theorem Accounts.deposit (ha : Accounts h env c) {auth : A → Bool} {amount : I128}
    (hself : user ≠ H.contract) (hd : env.Deposits c user amount env') :
    Accounts (⟨env, .call auth (.deposit user amount) (), env'⟩ :: h) env' c := by
  cases hd with
  | @intro total pledged p hpos hopen hdonor htotal hm hpledged =>
    generalize hend : ((env.setInstance (.user user) total).setPurse p).announce c
      (env.balance c.token) pledged = env'
    have hrecord (u : A) :
        env'.depositOf u = (env.setInstance (.user user) total).depositOf u := by
      rw [← hend]
      exact Env.depositOf_congr (by simp) u
    have hpurse : env'.purse = p := by
      rw [← hend]
      simp
    have hbalance : env'.balance c.token = env.balance c.token + amount.val := by
      have hb := hm.balance_eq c.token H.contract
      simp only [Env.balance, hpurse]
      simpa [Ne.symm hself] using hb
    have hpaid (u : A) : env'.paid c.token u = env.paid c.token u := by
      simp [Env.paid, hpurse, hm.transfers, hself]
    constructor
    · have hsum := env.sum_setUser user total
      have hcovered := ha.covered
      simp only [hrecord, hbalance]
      omega
    · intro u
      have hu := ha.exact u
      rw [hrecord, hpaid, deposited_cons]
      by_cases h : u = user
      · subst h
        simp only [Env.depositOf_setUser_self, Label.deposited, if_true]
        omega
      · rw [Env.depositOf_setUser_of_ne env total h]
        simp only [Label.deposited, if_neg (Ne.symm h)]
        omega
    · rw [hrecord, Env.depositOf_setUser_of_ne env total (Ne.symm hdonor)]
      exact ha.recipient
    · intro u
      rw [hrecord]
      by_cases h : u = user
      · subst h
        have := ha.nonneg u
        rw [Env.depositOf_setUser_self]
        omega
      · rw [Env.depositOf_setUser_of_ne env total h]
        exact ha.nonneg u

/-- A refund clears one record and pays what it said. -/
theorem Accounts.refund (ha : Accounts h env c) {auth : A → Bool} {claimed : Bool}
    (hr : env.Refunds c claimed user env') :
    Accounts (⟨env, .call auth (.withdraw user) (), env'⟩ :: h) env' c := by
  cases hr with
  | @intro left p hexpired hdonor hm hleft =>
    have h0 := ha.nonneg user
    have hpaid (u : A) : (((env.setInstance (.user user) 0).setPurse p).publish
        ["pledged_amount_changed"] (.amount left)).paid c.token u =
          (if user = u then (env.depositOf user).val else 0) + env.paid c.token u := by
      simp [Env.paid, hm.transfers]
    constructor
    · have hsum := env.sum_setUser user 0
      have hcovered := ha.covered
      have hb := hm.balance_src_ge
      show ∑ᶠ u, ((env.setInstance (.user user) 0).depositOf u).val ≤
        p.balance c.token H.contract
      have hzero : (0 : I128).val = 0 := rfl
      have hbalance : env.balance c.token = env.purse.balance c.token H.contract := rfl
      omega
    · intro u
      have hu := ha.exact u
      rw [hpaid, deposited_cons]
      show ((env.setInstance (.user user) 0).depositOf u).val = _
      by_cases h : u = user
      · subst h
        rw [Env.depositOf_setUser_self]
        simp only [Label.deposited, if_true, I128.val_zero]
        omega
      · rw [Env.depositOf_setUser_of_ne env 0 h]
        simp only [Label.deposited, if_neg (Ne.symm h)]
        omega
    · show (env.setInstance (.user user) 0).depositOf c.recipient = 0
      rw [Env.depositOf_setUser_of_ne env 0 (Ne.symm hdonor)]
      exact ha.recipient
    · intro u
      show 0 ≤ ((env.setInstance (.user user) 0).depositOf u).val
      by_cases h : u = user
      · subst h
        rw [Env.depositOf_setUser_self]
        exact le_rfl
      · rw [Env.depositOf_setUser_of_ne env 0 h]
        exact ha.nonneg u

/-- A step that leaves the recipient's claim open keeps the accounts. -/
theorem Campaign.Step.accounts {l : Label H} {claimed : Bool}
    (hs : c.Step claimed env l false env') (ha : Accounts h env c) :
    Accounts (⟨env, l, env'⟩ :: h) env' c := by
  cases hs with
  | @read auth call r hread =>
      refine ha.congr (fun user => ?_) (fun _ => rfl) rfl le_rfl
      cases hread <;> rfl
  | deposit _ hself hd => exact ha.deposit hself hd
  | refund hr => exact ha.refund hr
  | failed => exact ha.congr (fun _ => rfl) (fun _ => rfl) rfl le_rfl
  | close => exact ha.congr (fun _ => rfl) (fun _ => rfl) rfl le_rfl
  | tokens hkeeps => exact ha.congr (fun _ => rfl) (fun _ => rfl) rfl (hkeeps c.token)

/-- The claim of the recipient is not taken back. -/
theorem Campaign.Step.unclaimed {l : Label H} {claimed : Bool}
    (hs : c.Step claimed env l false env') : claimed = false := by
  cases hs <;> rfl

end Accounts

/-! ### The accounts of a run -/

section Runs

variable {env env' env₀ : Env H} {h : History H} {c : Campaign A} {auth : A → Bool}

/-- Before the terms are stored nobody deposited and nothing was paid. -/
structure Idle (h : History H) (env : Env H) : Prop where
  no_transfers : env.purse.transfers = []
  no_deposits : ∀ user, deposited user h = 0
  balance_nonneg : ∀ tok, 0 ≤ env.balance tok

theorem Env.Blank.label_deposited {l : Label H} (hb : env.Blank) (hs : Step env l env') (user : A) :
    l.deposited user = 0 := by
  cases hs with
  | failed | close | tokens => rfl
  | call _ hcall =>
      rcases hb.call hcall with ⟨_, _, _, _, rfl, _⟩
      rfl

theorem Idle.step {l : Label H} (hi : Idle h env) (hb : env.Blank) (hs : Step env l env') :
    Idle (⟨env, l, env'⟩ :: h) env' := by
  have hdeposits (user : A) : deposited user (⟨env, l, env'⟩ :: h) = 0 := by
    rw [deposited_cons, hb.label_deposited hs, hi.no_deposits, add_zero]
  cases hs with
  | failed | close => exact ⟨hi.no_transfers, hdeposits, hi.balance_nonneg⟩
  | tokens hkeeps _ =>
      exact ⟨hi.no_transfers, hdeposits, fun tok => (hi.balance_nonneg tok).trans (hkeeps tok)⟩
  | call _ hcall =>
      rcases hb.call hcall with ⟨_, _, _, _, _, rfl⟩
      exact ⟨hi.no_transfers, hdeposits, hi.balance_nonneg⟩

/-- A campaign starts with empty accounts. -/
theorem Idle.accounts (hi : Idle h (env.initialised c)) (hb : env.Blank) :
    Accounts h (env.initialised c) c := by
  have hzero (user : A) : (env.initialised c).depositOf user = 0 := by
    simp [Env.depositOf, Env.initialised, hb _]
  have hpaid (user : A) : (env.initialised c).paid c.token user = 0 := by
    simp [Env.paid, hi.no_transfers]
  constructor
  · simpa [hzero] using hi.balance_nonneg c.token
  · intro user
    rw [hzero, hi.no_deposits, hpaid]
    rfl
  · exact hzero c.recipient
  · intro user
    rw [hzero]
    exact le_rfl

/-- In every run the accounts hold as long as the recipient has not claimed. -/
theorem Run.accounts (hfresh : env₀.Fresh) (hr : Run Step env₀ h env) (hc : env.Stores c false) :
    Accounts h env c := by
  have hidle : Idle [] env₀ := ⟨hfresh.no_transfers, fun _ => rfl, hfresh.balance_nonneg⟩
  have hrun := Run.campaign_invariant (B := Idle)
    (P := fun h env c claimed => claimed = false → Accounts h env c) hfresh hidle
    (fun hb hi hs => hi.step hb hs) (fun hb hi _ => hi.accounts hb) ?_ hr hc
  · exact hrun rfl
  · rintro h env l env' c claimed claimed' - hP hs rfl
    exact hs.accounts (hP hs.unclaimed)

/-- What a due refund does. -/
structure Repays (env : Env H) (c : Campaign A) (dest : A) (env' : Env H) : Prop where
  moves : Moves c.token H.contract dest (env.depositOf dest) env.purse env'.purse
  cleared : env'.depositOf dest = 0
  others : ∀ user, user ≠ dest → env'.depositOf user = env.depositOf user

theorem Env.Refunds.repays {claimed : Bool} {dest : A} (hr : env.Refunds c claimed dest env') :
    Repays env c dest env' := by
  cases hr with
  | @intro left p _ _ hm =>
    refine ⟨hm, ?_, fun user huser => ?_⟩
    · show (env.setInstance (.user dest) 0).depositOf dest = 0
      exact env.depositOf_setUser_self dest 0
    · show (env.setInstance (.user dest) 0).depositOf user = _
      exact env.depositOf_setUser_of_ne 0 huser

/-- Covered accounts pay a refund that is due. -/
theorem Accounts.repays (ha : Accounts h env c) (hpays : H.tokens.PaysFrom H.contract)
    (hc : env.Stores c false) (hanswers : env.Answers c.token)
    (hexpired : env.stateOf c false = .expired) {dest : A} (hdest : dest ≠ c.recipient) :
    ∃ env', (withdraw dest : Op H Unit) auth env = .ok ((), env') ∧ Repays env c dest env' := by
  have h0 := ha.nonneg dest
  have hle : (env.depositOf dest).val ≤ env.balance c.token :=
    (single_le_finsum dest env.finite_deposits ha.nonneg).trans ha.covered
  have hmoves : ∃ p, Moves c.token H.contract dest (env.depositOf dest) env.purse p :=
    exists_moves hpays h0 hle
  rcases hmoves with ⟨p, hm⟩
  -- what is left is between zero and what the token answered before
  have hleft : ∃ left : I128, left.val = p.balance c.token H.contract := by
    rcases hanswers with ⟨n, hn⟩
    have hlo := n.lo_le
    have hhi := n.le_hi
    have hb := hm.balance_eq c.token H.contract
    have hbalance : env.balance c.token = env.purse.balance c.token H.contract := rfl
    simp only [true_and, if_true] at hb
    refine ⟨⟨p.balance c.token H.contract, ?_, ?_⟩, rfl⟩
    · split at hb <;> omega
    · split at hb <;> omega
  rcases hleft with ⟨left, hleft⟩
  have hrefund := Env.Refunds.intro hexpired hdest hm hleft
  exact ⟨_, (withdraw_eq_ok hc hanswers).mpr (.inr hrefund), hrefund.repays⟩

/-- As long as the recipient has not claimed, the balance covers all records, each
    record is what was deposited and not refunded, and every refund that is due is
    paid exactly, by a token that pays what its holder covers. -/
theorem refunds_covered (hfresh : env₀.Fresh) (hr : Run Step env₀ h env)
    (hclaimed : env.inst .recipientClaimed = some false) :
    ∃ c : Campaign A, env.Stores c false ∧
      ∑ᶠ user, (env.depositOf user).val ≤ env.balance c.token ∧
      (∀ user, (env.depositOf user).val = deposited user h - env.paid c.token user) ∧
      env.depositOf c.recipient = 0 ∧
      (H.tokens.PaysFrom H.contract → env.Shows .expired →
        ∀ auth dest, dest ≠ c.recipient → ∃ env',
          (withdraw dest : Op H Unit) auth env = .ok ((), env') ∧ Repays env c dest env') := by
  have hsound := Run.sound hfresh hr
  rcases hsound.exists_stores hclaimed with ⟨c, claimed, hc⟩
  have hfalse : claimed = false := Option.some.inj (hc.claimed.symm.trans hclaimed)
  subst hfalse
  have ha := Run.accounts hfresh hr hc
  refine ⟨c, hc, ha.covered, ha.exact, ha.recipient, fun hpays hexpired auth dest hdest => ?_⟩
  have hexpired := (hc.shows (hsound.answers _)).mp hexpired
  exact ha.repays hpays hc (hsound.answers _) hexpired hdest

/-- Past the deadline of a short campaign address 2 still gets the 4 it deposited,
    after address 1 was refunded. -/
theorem refunds_covered_sample : ∃ (h : History Host.plain) (env : Env Host.plain),
    Run Step Env.deployed h env ∧ env.depositOf 2 = .ofNat 4 ∧ deposited 1 h = 6 ∧
      ∃ env', (withdraw 2 : Op Host.plain Unit) (fun _ => false) env = .ok ((), env') ∧
        Repays env .plain 2 env' := by
  rcases Env.exists_of_plays shortCampaign
    (fun h env => decide (env.Stores .plain false) &&
      (decide (env.stateOf .plain false = .expired) &&
      (decide (env.depositOf 2 = .ofNat 4) && decide (deposited 1 h = 6))))
    (by decide +kernel) with ⟨h, env, hr, hend⟩
  simp only [Bool.and_eq_true, decide_eq_true_eq] at hend
  rcases hend with ⟨hc, hexpired, hrecord, hdeposited⟩
  have hanswers := (Run.sound Env.deployed_fresh hr).answers
  rcases refunds_covered Env.deployed_fresh hr hc.claimed with ⟨c, hc', _, _, _, hrefund⟩
  rcases hc'.unique hc with ⟨rfl, _⟩
  have hshows := (hc.shows (hanswers _)).mpr hexpired
  have hpays : Host.plain.tokens.PaysFrom Host.plain.contract := Tokens.balances_paysFrom 0
  exact ⟨h, env, hr, hrecord, hdeposited, hrefund hpays hshows _ 2 (by decide)⟩

end Runs

end Crowdfund
