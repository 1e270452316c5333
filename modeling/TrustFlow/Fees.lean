import TrustFlow.Openings

/-!
# The fees of an escrow

The fee of a tranche is the difference of two shares of the running total, under
the rate and for the treasury in force at the creation of the escrow.  Over a
whole history the differences telescope: however an amount is cut into
tranches, the fees on it are its share, rounded down once.
-/

namespace TrustFlow

open Transition Purse

variable {A D : Type} [DecidableEq A] {H : Host A D}

/-- The fees the tranches of an escrow were charged, as their events report them. -/
def Env.feesOf (env : Env H) (id : U64) : Int := (env.events.map (Event.trancheFee id)).sum

/-- A release as it was charged: its event, the two payments it reports, and how
    they divide the gross amount. -/
inductive Charged (id : U64) (i : U32) (gross : I128) (treasury : A) (pre post : Env H) : Prop
  | intro {fee payout milestoneReleased released : I128} {beneficiary tok : A}
      (hevent : post.events = ⟨[.symbol "mstone", .symbol "release", .u64 id, .u32 i],
        .milestoneTrancheReleased gross fee payout milestoneReleased released beneficiary
          treasury⟩ :: pre.events)
      (htoken : pre.inst .token = some tok)
      (hpaid : since pre.purse post.purse =
        payment tok H.self treasury fee ++ payment tok H.self beneficiary payout)
      (hgross : gross.val = payout.val + fee.val) (hnonneg : 0 ≤ fee.val)
      (hle : fee.val ≤ gross.val)

variable [DecidableEq D]

/-- What a release of an escrow in order charges goes to the treasury of its
    snapshot. -/
theorem Step.charged {env env' : Env H} {auth : A → Bool} {id : U64} {i : U32} {gross : I128}
    {caller : A} {u : Unit}
    (h : Step env (.call auth (.releaseMilestoneTranche id i gross caller) u) env')
    (hb : env.book.Sound) :
    ∃ c, env.book.feeConfig id = some c ∧ Charged id i gross c.treasury env env' := by
  cases h with
  | call hself h =>
    rcases releaseMilestoneTranche_eq_ok.mp h with ⟨t, ht, p, hpayout, p', hfee, rfl⟩
    have hbounds := ht.fee_bounds (hb.accounts ht.escrow_eq)
    have hsplit := ht.payout_eq
    refine ⟨t.feeConfig, ht.feeConfig_eq, ?_⟩
    have hevent : (env.afterRelease id i gross t p').events =
        ⟨[.symbol "mstone", .symbol "release", .u64 id, .u32 i],
          .milestoneTrancheReleased gross t.fee t.payout t.milestoneAfter t.releasedAfter
            t.escrow.beneficiary t.feeConfig.treasury⟩ :: env.events := by
      simp [Env.afterRelease]
    refine .intro hevent ht.token_eq ?_ (by omega) hbounds.1 hbounds.2
    apply since_eq
    show p'.transfers = _
    rw [hfee.transfers, hpayout.transfers, List.append_assoc]

section Histories

variable {env₀ env : Env H} {h : History H} {id : U64}

/-- The snapshot of a creation, and the fees charged since. -/
theorem SingleInit.fees_eq (hs : SingleInit env₀ h env) {t₀ : Move (Env H) (Label H)}
    (ht₀ : t₀ ∈ h) {auth : A → Bool} {depositor beneficiary : A} {amount : I128}
    {milestones : Vec Milestone}
    (hl : t₀.label.Opens auth depositor beneficiary amount milestones id) :
    ∃ treasury, t₀.pre.inst .treasury = some treasury ∧
      env.get (.escrowFeeConfig id) = some ⟨treasury, t₀.pre.feeBps⟩ ∧
      env.feesOf id = (env.releasedOf id).val * t₀.pre.feeBps.val / 10000 := by
  rcases hs.opened ht₀ hl with ⟨⟨e, he, -⟩, treasury, htreasury, hconfig⟩
  rcases (hs.sound.accounts he).feeConfig with ⟨c, hc, -, hfees⟩
  cases hconfig.symm.trans hc
  exact ⟨treasury, htreasury, hconfig, hfees⟩

/-- The fee configuration of an escrow is the one in force at its creation, every
    tranche divides into payout and fee, and the fees so far are the share of the
    released total rounded down: two runs that released the same total under the
    same terms charged the same fees to the same treasury. -/
theorem fees_of_any_fragmentation (hs : SingleInit env₀ h env) {t₀ : Move (Env H) (Label H)}
    (ht₀ : t₀ ∈ h) {auth : A → Bool} {depositor beneficiary : A} {amount : I128}
    {milestones : Vec Milestone}
    (hl : t₀.label.Opens auth depositor beneficiary amount milestones id) :
    (∃ treasury, t₀.pre.inst .treasury = some treasury ∧
      env.get (.escrowFeeConfig id) = some ⟨treasury, t₀.pre.feeBps⟩ ∧
      (∀ t ∈ h, ∀ auth i gross caller,
        t.label = .call auth (.releaseMilestoneTranche id i gross caller) () →
          Charged id i gross treasury t.pre t.post)) ∧
    env.feesOf id = (env.releasedOf id).val * t₀.pre.feeBps.val / 10000 ∧
    ∀ {env₀' env' : Env H} {h' : History H}, SingleInit env₀' h' env' →
      ∀ t₀' ∈ h', ∀ auth depositor beneficiary amount milestones id',
        t₀'.label.Opens auth depositor beneficiary amount milestones id' →
        t₀'.pre.feeBps = t₀.pre.feeBps → t₀'.pre.inst .treasury = t₀.pre.inst .treasury →
        env'.releasedOf id' = env.releasedOf id →
          env'.feesOf id' = env.feesOf id ∧
          env'.get (.escrowFeeConfig id') = env.get (.escrowFeeConfig id) := by
  rcases hs.fees_eq ht₀ hl with ⟨treasury, htreasury, hconfig, hfees⟩
  refine ⟨⟨treasury, htreasury, hconfig, ?_⟩, hfees, ?_⟩
  · intro t ht auth i gross caller hrelease
    rcases hs.split_mem ht with ⟨later, earlier, rfl, hearlier, -, -⟩
    have hsub : ∀ x ∈ earlier, x ∈ later ++ t :: earlier := fun x hx =>
      List.mem_append_right _ (List.mem_cons_of_mem _ hx)
    have hstep := hs.run.step_of_mem ht
    rw [hrelease] at hstep
    rcases hstep.charged hearlier.sound with ⟨c, hc, hcharged⟩
    -- the release found the escrow, so its snapshot is the one of the creation
    rcases hs.opened ht₀ hl with ⟨⟨e, he, -⟩, -⟩
    have hconfig' : t.pre.book.feeConfig id = env.book.feeConfig id := by
      cases hstep with
      | call _ hcall =>
        rcases releaseMilestoneTranche_eq_ok.mp hcall with ⟨tranche, htranche, -⟩
        exact (hs.agreed hearlier hsub he htranche.escrow_eq).2.2.2.2
    cases (hc.symm.trans hconfig').trans hconfig
    exact hcharged
  · intro env₀' env' h' hs' t₀' ht₀' auth' depositor' beneficiary' amount' milestones' id' hl'
      hbps htreas hreleased
    rcases hs'.fees_eq ht₀' hl' with ⟨treasury', htreasury', hconfig', hfees'⟩
    cases (htreasury'.symm.trans htreas).trans htreasury
    rw [hfees', hfees, hconfig', hconfig, hreleased, hbps]
    exact ⟨rfl, rfl⟩

end Histories

/-- An escrow of 333 at 50 basis points, released in three tranches: the fees of
    the tranches are 0, 1 and 0. -/
def threeTranches : List (Action Nat (List UInt8)) :=
  [.call (fun a => a == 1) (.initialise 1 9 DEFAULT_SLASH_BPS),
    .call (fun a => a == 2) (.initEscrow 2 4
      ⟨[⟨"all", .ofNat 333, false, 0⟩], by decide⟩),
    .call (fun a => a == 2) (.releaseMilestoneTranche 1 0 (.ofNat 100) 2),
    .call (fun a => a == 1) (.setFeeBps 1 MAX_FEE_BPS),
    .call (fun a => a == 2) (.releaseMilestoneTranche 1 0 (.ofNat 150) 2),
    .call (fun a => a == 2) (.releaseMilestoneTranche 1 0 (.ofNat 83) 2)]

theorem fees_of_any_fragmentation_sample :
    ∃ (h : History Host.plain) (env : Env Host.plain) (t₀ : Move (Env Host.plain)
      (Label Host.plain)), SingleInit Env.deployed h env ∧ t₀ ∈ h ∧ env.feesOf 1 = 1 ∧
        env.feesOf 1 = (env.releasedOf 1).val * t₀.pre.feeBps.val / 10000 := by
  rcases Env.exists_of_plays threeTranches
    (fun _ env => (env.get (.escrow 1)).isSome && decide (env.feesOf 1 = 1))
    (by decide +kernel) with ⟨h, env, hs, hend⟩
  rcases Bool.and_eq_true_iff.mp hend with ⟨hsome, hfees⟩
  rcases Option.isSome_iff_exists.mp hsome with ⟨e, he⟩
  rcases hs.exists_opens he with ⟨t₀, ht₀, auth, depositor, beneficiary, amount, milestones, hl⟩
  exact ⟨h, env, t₀, hs, ht₀, of_decide_eq_true hfees,
    (fees_of_any_fragmentation hs ht₀ hl).2.1⟩

end TrustFlow
