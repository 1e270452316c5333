import TrustFlow.Crowdfund.View
import TrustFlow.Lib.Journal
import TrustFlow.Lib.Trades

/-!
# Where the money goes

`Label.transfer?` is the one transfer a call makes when it returns, and `Due` what
entitles it to that.  The log of a run is the list of these transfers, the contract's
balance is what they and the transfers of others brought it, and the claim of the
recipient is the last of them.
-/

namespace Crowdfund

open Invocation Transition Purse

variable {A : Type} [DecidableEq A] {H : Host A}

/-! ### The transfer of a call -/

/-- What `withdraw` pays to an address: the whole balance to the recipient, and its
    record to everybody else. -/
def Env.due (env : Env H) (tok dest : A) : Option I128 :=
  if env.inst .recipient = some dest then BoundedInt.ofInt? (env.balance tok)
  else some (env.depositOf dest)

/-- The transfer a call makes when it returns. -/
def Label.transfer? (env : Env H) : Label H → Option (Transfer A)
  | .call _ (.deposit user amount) _ =>
      (env.inst .token).map fun tok => ⟨tok, user, H.contract, amount⟩
  | .call _ (.withdraw dest) _ =>
      (env.inst .token).bind fun tok =>
        (env.due tok dest).map fun amount => ⟨tok, H.contract, dest, amount⟩
  | _ => none

/-- What entitles a call of the campaign `c` to its transfer. -/
inductive Due (c : Campaign A) (env : Env H) : Label H → Transfer A → Prop
  | deposit {auth : A → Bool} {user : A} {amount : I128} (hauth : auth user = true)
      (hdonor : user ≠ c.recipient) (hpos : 0 < amount.val)
      (hopen : env.timestamp.val < c.deadline.val) :
      Due c env (.call auth (.deposit user amount) ()) ⟨c.token, user, H.contract, amount⟩
  | refund {auth : A → Bool} {dest : A} (hdonor : dest ≠ c.recipient)
      (hexpired : env.stateOf c false = .expired) :
      Due c env (.call auth (.withdraw dest) ())
        ⟨c.token, H.contract, dest, env.depositOf dest⟩
  | payout {auth : A → Bool} {amount : I128} (hunclaimed : env.Stores c false)
      (hover : c.deadline.val ≤ env.timestamp.val) (hmet : c.target.val ≤ env.balance c.token)
      (hall : amount.val = env.balance c.token) :
      Due c env (.call auth (.withdraw c.recipient) ())
        ⟨c.token, H.contract, c.recipient, amount⟩

/-- What others brought to the contract in a step. -/
def sent (tok : A) (t : Move (Env H) (Label H)) : Int :=
  match t.label with
  | .tokens s => H.tokens.balance s tok H.contract - t.pre.balance tok
  | _ => 0

section Steps

variable {env env' : Env H} {c : Campaign A} {claimed claimed' : Bool} {l : Label H}

/-- A step of a campaign logs the transfer of its label, and is entitled to it. -/
theorem Campaign.Step.transfer (hs : c.Step claimed env l claimed' env')
    (hc : env.Stores c claimed) :
    env'.purse.transfers = (l.transfer? env).toList ++ env.purse.transfers ∧
      ∀ tr, l.transfer? env = some tr → Due c env l tr := by
  have hquiet (hl : l.transfer? env = none) (hlog : env'.purse.transfers = env.purse.transfers) :
      env'.purse.transfers = (l.transfer? env).toList ++ env.purse.transfers ∧
        ∀ tr, l.transfer? env = some tr → Due c env l tr := by
    rw [hl]
    refine ⟨hlog, fun tr htr => ?_⟩
    cases htr
  cases hs with
  | @read auth call r hread =>
      refine hquiet ?_ rfl
      cases hread <;> rfl
  | failed | close | tokens => exact hquiet rfl rfl
  | @deposit auth user amount env' hauth _ hd =>
      have htransfer : (Label.call auth (.deposit user amount) () : Label H).transfer? env =
          some ⟨c.token, user, H.contract, amount⟩ := by
        simp [Label.transfer?, hc.token]
      rw [htransfer]
      cases hd with
      | @intro total pledged p hpos hopen hdonor _ hm =>
        refine ⟨?_, ?_⟩
        · rw [Env.purse_announce]
          exact hm.transfers
        · rintro tr ⟨⟩
          exact .deposit hauth hdonor hpos hopen
  | @refund auth dest env' hr =>
      cases hr with
      | @intro left p hexpired hdonor hm =>
        have hdue : env.due c.token dest = some (env.depositOf dest) := by
          simp [Env.due, hc.recipient, Ne.symm hdonor]
        have htransfer : (Label.call auth (.withdraw dest) () : Label H).transfer? env =
            some ⟨c.token, H.contract, dest, env.depositOf dest⟩ := by
          simp [Label.transfer?, hc.token, hdue]
        rw [htransfer]
        refine ⟨hm.transfers, ?_⟩
        rintro tr ⟨⟩
        have hunclaimed : claimed = false := (Env.stateOf_eq_expired.mp hexpired).2.1
        subst hunclaimed
        exact .refund hdonor hexpired
  | @payout auth env' hp =>
      cases hp with
      | @intro amount p hsuccess hclaimed hamount hm =>
        have hdue : env.due c.token c.recipient = some amount := by
          simp [Env.due, hc.recipient, BoundedInt.ofInt?_eq_some, hamount]
        have htransfer : (Label.call auth (.withdraw c.recipient) () : Label H).transfer? env =
            some ⟨c.token, H.contract, c.recipient, amount⟩ := by
          simp [Label.transfer?, hc.token, hdue]
        rw [htransfer]
        refine ⟨hm.transfers, ?_⟩
        rintro tr ⟨⟩
        subst hclaimed
        have hover := Env.stateOf_eq_success.mp hsuccess
        exact .payout hc hover.1 (by simpa using hover.2) hamount

/-- What the log does not account for is what others sent. -/
theorem Campaign.Step.unlogged (hs : c.Step claimed env l claimed' env') (tok : A) :
    env'.purse.unlogged tok H.contract =
      env.purse.unlogged tok H.contract + sent tok ⟨env, l, env'⟩ := by
  cases hs with
  | read | failed | close => exact (add_zero _).symm
  | deposit _ _ hd =>
      cases hd with
      | intro _ _ _ _ hm =>
        rw [Env.purse_announce]
        exact (hm.unlogged_eq tok H.contract).trans (add_zero _).symm
  | refund hr =>
      cases hr with
      | intro _ _ hm => exact (hm.unlogged_eq tok H.contract).trans (add_zero _).symm
  | payout hp =>
      cases hp with
      | intro _ _ _ hm => exact (hm.unlogged_eq tok H.contract).trans (add_zero _).symm
  | tokens =>
      simp only [Purse.unlogged, sent, Env.purse_setPurse, Env.balance, Purse.balance]
      omega

/-- A claim is not taken back. -/
theorem Campaign.Step.stays_claimed (hs : c.Step true env l claimed' env') : claimed' = true := by
  cases hs <;> rfl

/-- After the claim of a campaign that is over no call makes a transfer. -/
theorem Campaign.Step.silent (hs : c.Step true env l claimed' env')
    (hover : c.deadline.val ≤ env.timestamp.val) : l.transfer? env = none := by
  cases hs with
  | read hread => cases hread <;> rfl
  | failed | close | tokens => rfl
  | deposit _ _ hd =>
      cases hd with
      | intro _ hopen => omega
  | refund hr => cases (Env.stateOf_eq_expired.mp hr.expired).2.1
  | payout hp =>
      cases hp with
      | intro _ hclaimed => cases hclaimed

end Steps

/-! ### The transfers of a run -/

section Runs

variable {env env' env₀ : Env H} {l : Label H} {h : History H}

/-- Before the campaign a step makes no transfer. -/
theorem Env.Blank.silent (hb : env.Blank) (hs : Step env l env') :
    l.transfer? env = none ∧ env'.purse.transfers = env.purse.transfers := by
  cases hs with
  | failed | close | tokens => exact ⟨rfl, rfl⟩
  | call _ hcall =>
      rcases hb.call hcall with ⟨_, _, _, _, rfl, rfl⟩
      exact ⟨rfl, rfl⟩

theorem Step.transfer (hs : Step env l env') (hsound : env.Sound) :
    env'.purse.transfers = (l.transfer? env).toList ++ env.purse.transfers ∧
      ∀ tr, l.transfer? env = some tr → ∃ c claimed, env.Stores c claimed ∧ Due c env l tr := by
  rcases hsound.stored with hb | ⟨c, claimed, hc⟩
  · rcases hb.silent hs with ⟨hnone, hlog⟩
    rw [hnone]
    refine ⟨hlog, fun tr htr => ?_⟩
    cases htr
  · rcases hs.stored hc (hsound.answers _) with ⟨claimed', hstep, _⟩
    rcases hstep.transfer hc with ⟨hlog, hdue⟩
    exact ⟨hlog, fun tr htr => ⟨c, claimed, hc, hdue tr htr⟩⟩

theorem Step.unlogged (hs : Step env l env') (hsound : env.Sound) (tok : A) :
    env'.purse.unlogged tok H.contract =
      env.purse.unlogged tok H.contract + sent tok ⟨env, l, env'⟩ := by
  rcases hsound.stored with hb | ⟨c, claimed, hc⟩
  · cases hs with
    | failed | close => exact (add_zero _).symm
    | call _ hcall =>
        rcases hb.call hcall with ⟨_, _, _, _, rfl, rfl⟩
        exact (add_zero _).symm
    | tokens =>
        simp only [Purse.unlogged, sent, Env.purse_setPurse, Env.balance, Purse.balance]
        omega
  · rcases hs.stored hc (hsound.answers _) with ⟨claimed', hstep, _⟩
    exact hstep.unlogged tok

/-- The balance is what it was at the start, what others sent, and what the log brought. -/
theorem Run.balance_eq (hfresh : env₀.Fresh) (hr : Run Step env₀ h env) (tok : A) :
    env.balance tok = env₀.balance tok + (h.map (sent tok)).sum +
      (env.purse.transfers.map (Transfer.flow tok H.contract)).sum := by
  have hunlogged : env.purse.unlogged tok H.contract =
      env₀.balance tok + (h.map (sent tok)).sum := by
    refine Run.history_invariant (P := fun h env => env.purse.unlogged tok H.contract =
      env₀.balance tok + (h.map (sent tok)).sum) ?_ ?_ hr
    · simp [Purse.unlogged, hfresh.no_transfers, Env.balance]
    · intro h env l env' hr hP hs
      rw [hs.unlogged (Run.sound hfresh hr), hP, List.map_cons, List.sum_cons]
      omega
  simp only [Purse.unlogged] at hunlogged
  show env.purse.balance tok H.contract = _
  omega

theorem Step.claims (hs : Step env l env') (hsound : env.Sound) (hl : l.PaysOut env) :
    ∃ c, env'.Stores c true := by
  cases hl with
  | @intro auth r hr =>
    rcases hsound.exists_stores hr with ⟨c, claimed, hc⟩
    cases hc.recipient.symm.trans hr
    rcases hs.withdraw_post hc (hsound.answers _) with ⟨_, hp⟩ | hrefund
    · have hstep : c.Step claimed env (.call auth (.withdraw c.recipient) ()) true env' :=
        .payout hp
      exact ⟨c, hstep.stores hc⟩
    · cases hrefund with
      | intro _ hdonor => exact absurd rfl hdonor

/-- Once the recipient was paid, nothing moves any more. -/
theorem Run.payout_last (hfresh : env₀.Fresh) (hr : Run Step env₀ h env) :
    h.Pairwise (fun later earlier =>
      earlier.label.PaysOut earlier.pre → later.label.transfer? later.pre = none) := by
  have hrun : h.Pairwise (fun later earlier =>
      earlier.label.PaysOut earlier.pre → later.label.transfer? later.pre = none) ∧
        ∀ t ∈ h, t.label.PaysOut t.pre → ∃ c, env.Stores c true := by
    refine Run.history_invariant (P := fun h env => h.Pairwise (fun later earlier =>
      earlier.label.PaysOut earlier.pre → later.label.transfer? later.pre = none) ∧
        ∀ t ∈ h, t.label.PaysOut t.pre → ∃ c, env.Stores c true) ?_ ?_ hr
    · exact ⟨.nil, fun _ ht => absurd ht List.not_mem_nil⟩
    · rintro h env l env' hr ⟨hpairs, hclaimed⟩ hs
      have hsound := Run.sound hfresh hr
      refine ⟨List.pairwise_cons.mpr ⟨fun t ht hpaid => ?_, hpairs⟩, fun t ht hpaid => ?_⟩
      · rcases hclaimed t ht hpaid with ⟨c, hc⟩
        rcases hs.stored hc (hsound.answers _) with ⟨claimed', hstep, _⟩
        exact hstep.silent (Run.settled hfresh hr hc).ended
      · rcases List.mem_cons.mp ht with rfl | ht
        · exact hs.claims hsound hpaid
        · rcases hclaimed t ht hpaid with ⟨c, hc⟩
          rcases hs.stored hc (hsound.answers _) with ⟨claimed', hstep, hc'⟩
          cases hstep.stays_claimed
          exact ⟨c, hc'⟩
  exact hrun.1

/-- The log of a run has the transfers of its calls, each of which the campaign was
    entitled to: a deposit of whoever signed it, a refund of a record of an expired
    campaign, or the whole balance to the recipient when the target was met.  The last is
    made once and nothing moves after it; and the contract holds, in every token, what it
    started with, what others sent, and what the log brought it. -/
theorem funds_flow (hfresh : env₀.Fresh) (hr : Run Step env₀ h env) :
    env.purse.transfers = h.filterMap (fun t => t.label.transfer? t.pre) ∧
      (∀ t ∈ h, ∀ tr, t.label.transfer? t.pre = some tr →
        ∃ c claimed, t.pre.Stores c claimed ∧ Due c t.pre t.label tr) ∧
      h.Pairwise (fun later earlier =>
        earlier.label.PaysOut earlier.pre → later.label.transfer? later.pre = none) ∧
      ∀ tok, env.balance tok = env₀.balance tok + (h.map (sent tok)).sum +
        (env.purse.transfers.map (Transfer.flow tok H.contract)).sum := by
  refine ⟨?_, fun t ht => ?_, Run.payout_last hfresh hr, Run.balance_eq hfresh hr⟩
  · exact Run.log_eq_filterMap_of hfresh.sound hfresh.no_transfers (fun hI hs => hs.sound hI)
      (fun hI hs => (hs.transfer hI).1) hr
  · rcases hr.split_mem ht with ⟨_, _, _, he, hs, _⟩
    exact (hs.transfer (Run.sound hfresh he)).2

/-- Two deposits, the claim, and 1 sent by address 3 afterwards. -/
theorem funds_flow_sample : ∃ (h : History Host.plain) (env : Env Host.plain),
    Run Step Env.deployed h env ∧ env.balance 9 = 1 ∧ (h.map (sent 9)).sum = 1 ∧
      env.purse.transfers = h.filterMap (fun t => t.label.transfer? t.pre) ∧
      env.purse.transfers =
        [⟨9, 0, 5, .ofNat 15⟩, ⟨9, 2, 0, .ofNat 5⟩, ⟨9, 1, 0, .ofNat 10⟩] := by
  rcases Env.exists_of_plays (claimedCampaign ++ [.send 9 3 (.ofNat 1)])
    (fun h env => decide (env.balance 9 = 1 ∧ (h.map (sent 9)).sum = 1 ∧ env.purse.transfers =
      [⟨9, 0, 5, .ofNat 15⟩, ⟨9, 2, 0, .ofNat 5⟩, ⟨9, 1, 0, .ofNat 10⟩]))
    (by decide +kernel) with ⟨h, env, hr, hend⟩
  rcases of_decide_eq_true hend with ⟨hbalance, hsent, htransfers⟩
  exact ⟨h, env, hr, hbalance, hsent, (funds_flow Env.deployed_fresh hr).1, htransfers⟩

end Runs

end Crowdfund
