import TrustFlow.Crowdfund.Runs

/-!
# When the outcome of a campaign is final

After the deadline only the balance and the recipient's claim decide between
success and expiry.  Success is kept: nothing takes tokens from the contract but
its refunds, which need an expired campaign, and the claim, which is recorded.
Expiry is not: tokens sent to the contract late can lift its balance to the
target.  The outcome of a run is final exactly when it has no such transfer.
-/

namespace Crowdfund

open Invocation Transition Purse

variable {A : Type} [DecidableEq A] {H : Host A}

/-! ### What `state` answers -/

/-- `state()` answers `s`. -/
def Env.Shows (env : Env H) (s : State) : Prop :=
  ∃ auth, (state : Op H U32) auth env = .ok (s.code, env)

section Shows

variable {env : Env H} {c : Campaign A} {claimed : Bool} {s : State}

theorem Env.Stores.shows (hc : env.Stores c claimed) (ha : env.Answers c.token) :
    env.Shows s ↔ env.stateOf c claimed = s := by
  constructor
  · rintro ⟨auth, h⟩
    simp only [state, bind_eq_ok, getState_eq hc ha, pure_eq_ok] at h
    rcases h with ⟨_, _, ⟨rfl⟩, hcode, _⟩
    exact State.code_injective hcode.symm
  · rintro rfl
    refine ⟨fun _ => true, ?_⟩
    simp [state, getState_eq hc ha]

theorem Env.Sound.shows (h : env.Sound) :
    env.Shows s ↔ ∃ c claimed, env.Stores c claimed ∧ env.stateOf c claimed = s := by
  constructor
  · rintro ⟨auth, hs⟩
    rcases h.stored with hb | ⟨c, claimed, hc⟩
    · simp [state, hb.getState] at hs
    · exact ⟨c, claimed, hc, (hc.shows (h.answers _)).mp ⟨auth, hs⟩⟩
  · rintro ⟨c, claimed, hc, hs⟩
    exact (hc.shows (h.answers _)).mpr hs

end Shows

/-! ### What a step does to the state -/

/-- A token operation of others lifts the balance of a campaign that is over, and
    not claimed, to its target. -/
inductive Revives : Move (Env H) (Label H) → Prop
  | intro {env env' : Env H} {c : Campaign A} {s : H.tokens.State} (hc : env.Stores c false)
      (hover : c.deadline.val ≤ env.timestamp.val) (hshort : env.balance c.token < c.target.val)
      (hlift : c.target.val ≤ H.tokens.balance s c.token H.contract) :
      Revives ⟨env, .tokens s, env'⟩

namespace Campaign.Step

variable {env env' : Env H} {c : Campaign A} {claimed claimed' : Bool} {l : Label H}

/-- A campaign that succeeded stays successful. -/
theorem success (hs : c.Step claimed env l claimed' env')
    (h : env.stateOf c claimed = .success) : env'.stateOf c claimed' = .success := by
  rcases Env.stateOf_eq_success.mp h with ⟨hover, hmet⟩
  cases hs with
  | read | failed => exact h
  | deposit _ _ hd =>
      cases hd with
      | intro _ hopen => omega
  | refund hr => cases h.symm.trans hr.expired
  | payout hp =>
      cases hp with
      | intro => exact Env.stateOf_eq_success.mpr ⟨hover, .inl rfl⟩
  | close hle => exact Env.stateOf_eq_success.mpr ⟨hover.trans hle, hmet⟩
  | tokens hkeeps =>
      refine Env.stateOf_eq_success.mpr ⟨hover, hmet.imp_right fun hb => ?_⟩
      exact hb.trans (hkeeps c.token)

/-- A campaign that expired stays so unless it is revived. -/
theorem expired (hs : c.Step claimed env l claimed' env') (hc : env.Stores c claimed)
    (h : env.stateOf c claimed = .expired) (hnot : ¬ Revives ⟨env, l, env'⟩) :
    env'.stateOf c claimed' = .expired := by
  rcases Env.stateOf_eq_expired.mp h with ⟨hover, rfl, hshort⟩
  cases hs with
  | read | failed => exact h
  | deposit _ _ hd =>
      cases hd with
      | intro _ hopen => omega
  | refund hr =>
      cases hr with
      | @intro left p _ _ hm =>
        have h0 := hm.nonneg
        have hshort : env.purse.balance c.token H.contract < c.target.val := hshort
        refine Env.stateOf_eq_expired.mpr ⟨hover, rfl, ?_⟩
        show p.balance c.token H.contract < _
        rw [hm.balance_eq, if_pos (And.intro rfl rfl : c.token = c.token ∧ H.contract = H.contract)]
        split <;> omega
  | payout hp => cases h.symm.trans hp.success
  | close hle => exact Env.stateOf_eq_expired.mpr ⟨hover.trans hle, rfl, hshort⟩
  | tokens =>
      refine Env.stateOf_eq_expired.mpr ⟨hover, rfl, ?_⟩
      by_contra hlift
      exact hnot (.intro hc hover hshort (not_lt.mp hlift))

end Campaign.Step

section Reachable

variable {env env' env₀ : Env H} {l : Label H} {h : History H}

theorem Env.Sound.success_step (hsound : env.Sound) (hshows : env.Shows .success)
    (hs : Step env l env') : env'.Shows .success := by
  rcases hsound.shows.mp hshows with ⟨c, claimed, hc, hstate⟩
  rcases hs.stored hc (hsound.answers _) with ⟨claimed', hstep, hc'⟩
  exact (hs.sound hsound).shows.mpr ⟨c, claimed', hc', hstep.success hstate⟩

theorem Env.Sound.expired_step (hsound : env.Sound) (hshows : env.Shows .expired)
    (hs : Step env l env') (hnot : ¬ Revives ⟨env, l, env'⟩) : env'.Shows .expired := by
  rcases hsound.shows.mp hshows with ⟨c, claimed, hc, hstate⟩
  rcases hs.stored hc (hsound.answers _) with ⟨claimed', hstep, hc'⟩
  exact (hs.sound hsound).shows.mpr ⟨c, claimed', hc', hstep.expired hc hstate hnot⟩

theorem Env.Shows.unique {s s' : State} (hs : env.Shows s) (hs' : env.Shows s') (h : env.Sound) :
    s = s' := by
  rcases h.shows.mp hs with ⟨c, claimed, hc, rfl⟩
  rcases h.shows.mp hs' with ⟨c', claimed', hc', rfl⟩
  rcases hc.unique hc' with ⟨rfl, rfl⟩
  rfl

end Reachable

/-! ### The outcome of a run -/

namespace Label

/-- A donor took its deposit back: a `withdraw` for somebody else than the recipient. -/
inductive Refunds (env : Env H) : Label H → Prop
  | intro {auth : A → Bool} {dest r : A} (hr : env.inst .recipient = some r) (hdest : dest ≠ r) :
      Refunds env (.call auth (.withdraw dest) ())

/-- The recipient took the balance: a `withdraw` for it. -/
inductive PaysOut (env : Env H) : Label H → Prop
  | intro {auth : A → Bool} {r : A} (hr : env.inst .recipient = some r) :
      PaysOut env (.call auth (.withdraw r) ())

end Label

/-- The outcome of a run is final: from an expired state on it does not succeed,
    from success on it does not expire, and it has no refund beside a payout. -/
structure Final (h : History H) (env : Env H) : Prop where
  expired : (env :: h.map Move.pre).Pairwise fun later earlier =>
    earlier.Shows .expired → ¬ later.Shows .success
  success : (env :: h.map Move.pre).Pairwise fun later earlier =>
    earlier.Shows .success → ¬ later.Shows .expired
  exclusive : ¬ ((∃ t ∈ h, t.label.Refunds t.pre) ∧ ∃ t ∈ h, t.label.PaysOut t.pre)

section Final

variable {env env' env₀ : Env H} {l : Label H} {h : History H}

/-- A refund needs an expired campaign. -/
theorem Step.refund_expired (hs : Step env l env') (hsound : env.Sound) (hl : l.Refunds env) :
    env.Shows .expired := by
  cases hl with
  | @intro auth dest r hr hdest =>
    rcases hsound.exists_stores hr with ⟨c, claimed, hc⟩
    cases hc.recipient.symm.trans hr
    rcases hs.withdraw_post hc (hsound.answers _) with ⟨hd, _⟩ | hrefund
    · exact absurd hd hdest
    · exact hsound.shows.mpr ⟨c, claimed, hc, hrefund.expired⟩

/-- A payout needs a successful one. -/
theorem Step.payout_success (hs : Step env l env') (hsound : env.Sound) (hl : l.PaysOut env) :
    env.Shows .success := by
  cases hl with
  | @intro auth r hr =>
    rcases hsound.exists_stores hr with ⟨c, claimed, hc⟩
    cases hc.recipient.symm.trans hr
    rcases hs.withdraw_post hc (hsound.answers _) with ⟨_, hpayout⟩ | hrefund
    · exact hsound.shows.mpr ⟨c, claimed, hc, hpayout.success⟩
    · cases hrefund with
      | intro _ hdonor => exact absurd rfl hdonor

theorem Run.sound_of_mem (hfresh : env₀.Fresh) (hr : Run Step env₀ h env) {x : Env H}
    (hx : x ∈ env :: h.map Move.pre) : x.Sound := by
  rcases hr.of_mem hx with ⟨_, hr', _⟩
  exact Run.sound hfresh hr'

theorem Step.tokens_post {s : H.tokens.State} (hs : Step env (.tokens s) env') :
    env' = env.setPurse ⟨s, env.purse.transfers⟩ := by
  cases hs
  rfl

theorem Revives.shows {t : Move (Env H) (Label H)} (ht : Revives t) (hs : Step t.pre t.label t.post)
    (hsound : t.pre.Sound) : t.pre.Shows .expired ∧ t.post.Shows .success := by
  have hpost := hs.sound hsound
  cases ht with
  | @intro env env' c s hc hover hshort hlift =>
    constructor
    · exact hsound.shows.mpr ⟨c, false, hc, Env.stateOf_eq_expired.mpr ⟨hover, rfl, hshort⟩⟩
    · have hs : Step env (.tokens s) env' := hs
      cases hs.tokens_post
      have hc' : (env.setPurse ⟨s, env.purse.transfers⟩).Stores c false := hc.congr fun _ _ => rfl
      exact hpost.shows.mpr ⟨c, false, hc', Env.stateOf_eq_success.mpr ⟨hover, .inr hlift⟩⟩

/-- The outcome of a run is final exactly when no transfer to the contract lifts an
    expired campaign to its target. -/
theorem outcome_final_iff (hfresh : env₀.Fresh) (hr : Run Step env₀ h env) :
    Final h env ↔ ∀ t ∈ h, ¬ Revives t := by
  constructor
  · intro hfinal t ht hrevives
    have hpre := Run.sound_of_mem hfresh hr (List.mem_cons_of_mem _ (List.mem_map_of_mem ht))
    rcases hrevives.shows (hr.step_of_mem ht) hpre with ⟨hexpired, hsuccess⟩
    exact hr.pairwise_step ht hfinal.expired hexpired hsuccess
  · intro hnot
    have hexpired := Run.pairwise_of_guard hfresh.sound (fun hI hs => hs.sound hI)
      (fun hI hP hs hG => hI.expired_step hP hs hG) hr hnot
    have hsuccess := Run.pairwise_of_guard hfresh.sound (fun hI hs => hs.sound hI)
      (fun hI hP hs _ => hI.success_step hP hs) hr hnot
    have hne {x : Env H} (hx : x ∈ env :: h.map Move.pre) (hs : x.Shows .success)
        (he : x.Shows .expired) : False := by
      cases hs.unique he (Run.sound_of_mem hfresh hr hx)
    refine ⟨?_, ?_, ?_⟩
    · exact hexpired.imp_of_mem fun hx _ hpersists he hs => hne hx hs (hpersists he)
    · exact hsuccess.imp_of_mem fun hx _ hpersists hs he => hne hx (hpersists hs) he
    · -- both outcomes would show in the last state
      rintro ⟨⟨t, ht, hrefund⟩, t', ht', hpayout⟩
      have he := (hr.step_of_mem ht).refund_expired
        (Run.sound_of_mem hfresh hr (List.mem_cons_of_mem _ (List.mem_map_of_mem ht))) hrefund
      have hs := (hr.step_of_mem ht').payout_success
        (Run.sound_of_mem hfresh hr (List.mem_cons_of_mem _ (List.mem_map_of_mem ht'))) hpayout
      refine hne List.mem_cons_self ?_ ?_
      · exact (List.pairwise_cons.mp hsuccess).1 _ (List.mem_map_of_mem ht') hs
      · exact (List.pairwise_cons.mp hexpired).1 _ (List.mem_map_of_mem ht) he

end Final

/-! ### Two runs -/

/-- The address a successful `withdraw` was for. -/
def Label.withdrawn? : Label H → Option A
  | .call _ (.withdraw dest) _ => some dest
  | _ => none

theorem Label.Refunds.of_withdrawn {l : Label H} {env : Env H} {dest r : A}
    (hl : l.withdrawn? = some dest) (hr : env.inst .recipient = some r) (hne : dest ≠ r) :
    l.Refunds env := by
  cases l with
  | failed | close | tokens => cases hl
  | call auth c result =>
      cases c with
      | withdraw =>
          cases hl
          exact .intro hr hne
      | _ => cases hl

theorem Label.PaysOut.of_withdrawn {l : Label H} {env : Env H} {r : A}
    (hl : l.withdrawn? = some r) (hr : env.inst .recipient = some r) : l.PaysOut env := by
  cases l with
  | failed | close | tokens => cases hl
  | call auth c result =>
      cases c with
      | withdraw =>
          cases hl
          exact .intro hr
      | _ => cases hl

/-- The contract's balance a token operation of others leaves. -/
def Label.leaves? (tok : A) : Label H → Option Int
  | .tokens s => some (H.tokens.balance s tok H.contract)
  | _ => none

/-- A campaign of the plain host: 15 of token 9 for address 5, until time 11. -/
def Campaign.plain : Campaign Nat := ⟨5, .ofNat 11, 1, .ofNat 15, 9⟩

/-- Addresses 1 and 2 deposit 6 and 4; past the deadline address 1 gets its refund. -/
def shortCampaign : List (Action Nat) :=
  [.call (fun _ => false) (.initialise 5 (.ofNat 11) (.ofNat 15) 9),
   .call (fun a => a == 1) (.deposit 1 (.ofNat 6)),
   .call (fun a => a == 2) (.deposit 2 (.ofNat 4)),
   .close (.ofNat 11),
   .call (fun _ => false) (.withdraw 1)]

/-- The campaign stored when a step starts is the plain one, when there is one. -/
def plainCampaign (t : Move (Env Host.plain) (Label Host.plain)) : Bool :=
  (t.pre.inst .target).all (fun n => n == Campaign.plain.target) &&
    (t.pre.inst .token).all (fun a => a == Campaign.plain.token)

/-- The outcome is final in a run where tokens sent late do not reach the target. -/
theorem outcome_final_iff_sample : ∃ (h : History Host.plain) (env : Env Host.plain),
    Run Step Env.deployed h env ∧ (∃ t ∈ h, t.label.withdrawn? = some 1) ∧
      (∃ t ∈ h, t.label.leaves? 9 = some 14) ∧ Final h env := by
  rcases Env.exists_of_plays (shortCampaign ++ [.send 9 3 (.ofNat 10)])
    (fun h _ => h.any (fun t => t.label.withdrawn? == some 1) &&
      (h.any (fun t => t.label.leaves? 9 == some 14) &&
      h.all (fun t => plainCampaign t && (t.label.leaves? 9).all fun n => decide (n < 15))))
    (by decide +kernel) with ⟨h, env, hr, hend⟩
  simp only [Bool.and_eq_true, List.any_eq_true, List.all_eq_true, beq_iff_eq] at hend
  rcases hend with ⟨hwithdrawn, hsent, hshort⟩
  refine ⟨h, env, hr, hwithdrawn, hsent, (outcome_final_iff Env.deployed_fresh hr).mpr ?_⟩
  intro t ht hrevives
  have hshort := hshort t ht
  cases hrevives with
  | @intro env env' c s hc _ _ hlift =>
    simp only [plainCampaign, hc.target, hc.token, Option.all_some, Bool.and_eq_true, beq_iff_eq,
      Label.leaves?, decide_eq_true_eq] at hshort
    rcases hshort with ⟨⟨htarget, htoken⟩, hshort⟩
    rw [htarget, htoken] at hlift
    exact absurd hlift (not_le.mpr hshort)

/-- After the refund somebody sends 11 to the contract: the recipient takes all of
    it, and address 2 loses its deposit. -/
theorem outcome_reversed : ∃ (h : History Host.plain) (env : Env Host.plain),
    Env.deployed.Fresh ∧ Run Step Env.deployed h env ∧
      ¬ (env :: h.map Move.pre).Pairwise (fun later earlier =>
        earlier.Shows .expired → ¬ later.Shows .success) ∧
      (∃ t ∈ h, t.label.Refunds t.pre) ∧ (∃ t ∈ h, t.label.PaysOut t.pre) ∧
      env.depositOf 2 = .ofNat 4 ∧ env.balance 9 = 0 := by
  rcases Env.exists_of_plays (shortCampaign ++ [.send 9 3 (.ofNat 11),
      .call (fun _ => false) (.withdraw 5)])
    (fun h env =>
      h.any (fun t => t.label.withdrawn? == some 1 && t.pre.inst .recipient == some 5) &&
      (h.any (fun t => t.label.withdrawn? == some 5 && t.pre.inst .recipient == some 5) &&
      (h.any (fun t => decide (t.pre.Stores .plain false) && decide (t.post.Stores .plain false) &&
        decide (t.pre.stateOf .plain false = .expired) &&
        decide (t.post.stateOf .plain false = .success)) &&
      (decide (env.depositOf 2 = .ofNat 4) && decide (env.balance 9 = 0)))))
    (by decide +kernel) with ⟨h, env, hr, hend⟩
  simp only [Bool.and_eq_true, List.any_eq_true, beq_iff_eq, decide_eq_true_eq] at hend
  rcases hend with ⟨⟨t₁, ht₁, hdest₁, hr₁⟩, ⟨t₂, ht₂, hdest₂, hr₂⟩,
    ⟨t, ht, ⟨⟨hc, hc'⟩, hpre⟩, hpost⟩, hend⟩
  have hsound := Run.sound_of_mem Env.deployed_fresh hr
    (List.mem_cons_of_mem _ (List.mem_map_of_mem ht))
  have hexpired := (hc.shows (hsound.answers _)).mpr hpre
  have hsuccess := (hc'.shows (((hr.step_of_mem ht).sound hsound).answers _)).mpr hpost
  refine ⟨h, env, Env.deployed_fresh, hr, ?_, ⟨t₁, ht₁, ?_⟩, ⟨t₂, ht₂, ?_⟩, hend⟩
  · intro hpair
    exact hr.pairwise_step ht hpair hexpired hsuccess
  · exact .of_withdrawn hdest₁ hr₁ (by decide)
  · exact .of_withdrawn hdest₂ hr₂

end Crowdfund
