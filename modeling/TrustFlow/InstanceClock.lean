import TrustFlow.Lifetimes
import TrustFlow.Deployment

/-!
# The instance and the escrows on one clock

The instance and the entries are renewed by the same rule, and every call that
renews an escrow renews the instance as well.  The rule looks at each lifetime
alone, though: when an escrow is due and the instance is not, the escrow comes
out with the longer lifetime.  `instance_outlives_iff` says that this is the one
way an escrow outlives the instance, in every run.
-/

namespace TrustFlow

open Invocation Transition

variable {A D : Type} [DecidableEq A] {H : Host A D}

/-- The escrow whose record a call writes or extends. -/
def Call.escrowOn (env : Env H) : Call A D → Option U64
  | .createEscrow .. | .initEscrow .. => env.escrowCounter.checkedAdd 1
  | .releaseMilestoneTranche id .. | .raiseDispute id .. | .resolveDispute id
  | .bumpEscrowTtl id => some id
  | _ => none

/-- No escrow that is still live outlives the instance. -/
def Env.InstanceOutlives (env : Env H) : Prop :=
  ∀ id l, env.liveUntil (.escrow id) = some l → env.now ≤ l → l ≤ env.instanceLiveUntil

/-- When a transition makes an escrow or finds it due for renewal, the instance is
    due as well or was renewed at this ledger already. -/
def OnClock (t : Move (Env H) (Label H)) : Bool :=
  match t.label with
  | .call _ c _ => decide (∀ id ∈ c.escrowOn t.pre,
      (∀ l ∈ t.pre.liveUntil (.escrow id), l ≤ t.pre.now + LIFETIME_THRESHOLD.val.toNat) →
      t.pre.instanceLiveUntil ≤ t.pre.now + LIFETIME_THRESHOLD.val.toNat ∨
        t.pre.now + BUMP_AMOUNT.val.toNat ≤ t.pre.instanceLiveUntil)
  | _ => true

variable {auth : A → Bool} {env env' : Env H} {c : Call A D} {r : c.Result} {id : U64}

/-- The id of a new escrow is the one after the counter. -/
theorem lockEscrow_id {depositor beneficiary : A} {amount : I128} {milestones : Vec Milestone}
    (h : (lockEscrow depositor beneficiary amount milestones : Op H U64) auth
      env.extendInstanceTtl = .ok (id, env')) : env.escrowCounter.checkedAdd 1 = some id := by
  rcases lockEscrow_eq_ok.mp h with ⟨_, -, _, -, hid, -⟩
  exact BoundedInt.checkedAdd_eq_some.mpr hid

variable [DecidableEq D]

/-- A call on an escrow leaves it renewed, from its birth if it is new. -/
theorem Call.liveUntil_escrowOn (h : c.exec auth env = .ok (r, env'))
    (hc : c.escrowOn env = some id) : env'.liveUntil (.escrow id) =
      some (renewed env.now ((env.liveUntil (.escrow id)).getD (env.now + H.defaultTtl))) := by
  have haccessed := (Call.accessed h).liveUntil_eq (.escrow id)
  cases c with
  | createEscrow depositor beneficiary amount =>
      have hid := lockEscrow_id (createEscrow_eq_ok.mp h).2.2.2
      cases hc.symm.trans hid
      rw [haccessed]
      simp [Call.access]
  | initEscrow depositor beneficiary milestones =>
      rcases initEscrow_eq_ok.mp h with ⟨-, -, _, -, -, -, _, hlock, -⟩
      cases hc.symm.trans (lockEscrow_id hlock)
      rw [haccessed]
      simp [Call.access]
  | releaseMilestoneTranche | raiseDispute | resolveDispute =>
      cases hc
      rw [haccessed]
      simp [Call.access]
  | bumpEscrowTtl =>
      cases hc
      rcases exists_of_bumpEscrowTtl h with ⟨e, he⟩
      have hlive : (env.liveUntil (.escrow id)).isSome = true := by
        rw [Env.liveUntil_isSome, he]
        rfl
      rcases Option.isSome_iff_exists.mp hlive with ⟨l, hl⟩
      rw [haccessed, hl]
      simp [Call.access, Env.bumpsKey]
  | _ => cases hc

/-- Any other call leaves the lifetime of an escrow as it is. -/
theorem Call.liveUntil_not_escrowOn (h : c.exec auth env = .ok (r, env'))
    (hc : c.escrowOn env ≠ some id) :
    env'.liveUntil (.escrow id) = env.liveUntil (.escrow id) := by
  have haccessed := (Call.accessed h).liveUntil_eq (.escrow id)
  cases c with
  | createEscrow depositor beneficiary amount =>
      have hid := lockEscrow_id (createEscrow_eq_ok.mp h).2.2.2
      have hne : id ≠ r := by
        rintro rfl
        exact hc hid
      rw [haccessed]
      simp [Call.access, hne]
  | initEscrow depositor beneficiary milestones =>
      rcases initEscrow_eq_ok.mp h with ⟨-, -, _, -, -, -, _, hlock, -⟩
      have hne : id ≠ r := by
        rintro rfl
        exact hc (lockEscrow_id hlock)
      rw [haccessed]
      simp [Call.access, hne]
  | releaseMilestoneTranche id' | raiseDispute id' | resolveDispute id' | bumpEscrowTtl id' =>
      have hne : id ≠ id' := by
        rintro rfl
        exact hc rfl
      rw [haccessed]
      simp [Call.access, Env.bumpsKey, hne]
  | _ =>
      rw [haccessed]
      simp [Call.access]

/-- A call on an escrow renews the instance. -/
theorem Call.instance_escrowOn (h : c.exec auth env = .ok (r, env'))
    (hc : c.escrowOn env = some id) :
    env'.instanceLiveUntil = renewed env.now env.instanceLiveUntil := by
  have hgetter : c.Getter = false := by
    cases c <;> first | rfl | cases hc
  rw [(Call.accessed h).instance_eq, hgetter]
  rfl

/-! ### One transition -/

/-- The lifetime of the instance never shrinks. -/
theorem Step.instanceLiveUntil_le {l : Label H} (h : Step env l env') :
    env.instanceLiveUntil ≤ env'.instanceLiveUntil := by
  cases h with
  | call _ h =>
      rw [(Call.accessed h).instance_eq]
      split
      · exact le_renewed ..
      · exact le_rfl
  | failed | close | tokens => exact le_rfl

/-- On the clock, a transition keeps every escrow within the instance's lifetime. -/
theorem Step.outlives_of_onClock {l : Label H}
    (hbirth : H.defaultTtl ≤ LIFETIME_THRESHOLD.val.toNat)
    (hpre : ∀ id m, env.liveUntil (.escrow id) = some m → m ≤ env.instanceLiveUntil)
    (h : Step env l env') (hclock : OnClock ⟨env, l, env'⟩ = true) (id : U64) (m : Nat)
    (hm : env'.liveUntil (.escrow id) = some m) : m ≤ env'.instanceLiveUntil := by
  have hle := h.instanceLiveUntil_le
  have hold (hsame : env'.liveUntil (.escrow id) = env.liveUntil (.escrow id)) :
      m ≤ env'.instanceLiveUntil := (hpre id m (hsame.symm.trans hm)).trans hle
  cases h with
  | failed | close | tokens => exact hold rfl
  | @call _ auth c r hself h =>
      by_cases hc : c.escrowOn env = some id
      · have hcall := Call.liveUntil_escrowOn h hc
        have hinst := Call.instance_escrowOn h hc
        have hclock : (∀ m ∈ env.liveUntil (.escrow id), m ≤ env.now + 518400) →
            env.instanceLiveUntil ≤ env.now + 518400 ∨
              env.now + 1555200 ≤ env.instanceLiveUntil := of_decide_eq_true hclock id hc
        have hkept := le_renewed env.now env.instanceLiveUntil
        have hdue : env.instanceLiveUntil ≤ env.now + 518400 →
            renewed env.now env.instanceLiveUntil = env.now + 1555200 := renewed_of_le
        rw [LIFETIME_THRESHOLD_toNat] at hbirth
        cases hm.symm.trans hcall
        rw [hinst]
        cases hl : env.liveUntil (.escrow id) with
        | none =>
            rw [hl] at hclock
            have hclock := hclock nofun
            rw [Option.getD_none, renewed_of_le (by omega)]
            omega
        | some m₀ =>
            rw [Option.getD_some]
            rcases Nat.lt_or_ge (env.now + 518400) m₀ with hlong | hshort
            · rw [renewed_of_lt hlong]
              exact (hpre id m₀ hl).trans hkept
            · have hclock := hclock fun m hm => by
                cases hl.symm.trans hm
                exact hshort
              rw [renewed_of_le hshort]
              omega
      · exact hold (Call.liveUntil_not_escrowOn h hc)

/-- Off the clock, it leaves an escrow that outlives the instance. -/
theorem Step.onClock_of_outlives {l : Label H}
    (hbirth : H.defaultTtl ≤ LIFETIME_THRESHOLD.val.toNat)
    (h : Step env l env') (hpost : env'.InstanceOutlives) : OnClock ⟨env, l, env'⟩ = true := by
  cases h with
  | failed | close | tokens => rfl
  | @call _ auth c r hself h =>
      apply decide_eq_true
      intro id hc (hdue : ∀ m ∈ env.liveUntil (.escrow id), m ≤ env.now + 518400)
      show env.instanceLiveUntil ≤ env.now + 518400 ∨ env.now + 1555200 ≤ env.instanceLiveUntil
      have hcall := Call.liveUntil_escrowOn h hc
      have hinst := Call.instance_escrowOn h hc
      have hnow : env'.now = env.now := (Call.accessed h).now_eq
      rw [LIFETIME_THRESHOLD_toNat] at hbirth
      have hfull : (env.liveUntil (.escrow id)).getD (env.now + H.defaultTtl) ≤
          env.now + 518400 := by
        cases hl : env.liveUntil (.escrow id) with
        | none =>
            rw [Option.getD_none]
            omega
        | some m => exact hdue m hl
      rw [renewed_of_le hfull] at hcall
      have hle := hpost id _ hcall (by omega)
      rw [hinst] at hle
      by_contra hoff
      rw [not_or] at hoff
      rw [renewed_of_lt (by omega)] at hle
      omega

/-! ### Every run -/

/-- In a run of a fresh contract no live escrow ever outlives the instance exactly
    when every transition is on the clock. -/
theorem instance_outlives_iff {env₀ : Env H} {h : History H} (hfresh : env₀.Fresh)
    (hbirth : H.defaultTtl ≤ LIFETIME_THRESHOLD.val.toNat) (hrun : Run Step env₀ h env) :
    (env₀.InstanceOutlives ∧ ∀ t ∈ h, t.post.InstanceOutlives) ↔ ∀ t ∈ h, OnClock t = true := by
  have hstart : ∀ id m, env₀.liveUntil (.escrow id) = some m → m ≤ env₀.instanceLiveUntil := by
    intro id m hm
    have hsome := env₀.liveUntil_isSome (.escrow id)
    rw [hm, hfresh.persistent_empty] at hsome
    cases hsome
  constructor
  · rintro ⟨-, hpost⟩ t ht
    exact (hrun.step_of_mem ht).onClock_of_outlives hbirth (hpost t ht)
  · intro hclock
    refine ⟨fun id m hm _ => hstart id m hm, fun t ht id m hm _ => ?_⟩
    exact Run.post_of_guard (P := fun env : Env H =>
      ∀ id m, env.liveUntil (.escrow id) = some m → m ≤ env.instanceLiveUntil) hstart
      (fun hpre hs hG => hs.outlives_of_onClock hbirth hpre hG) hrun hclock t ht id m hm

/-- An escrow created with the instance stays on its clock when a keeper renews both. -/
theorem instance_outlives_iff_sample :
    ∃ (h : History Host.plain) (env : Env Host.plain), Run Step Env.deployed h env ∧
      env.now = 1036802 ∧ env.liveUntil (.escrow 1) = some 2592002 ∧
      ∀ t ∈ h, t.post.InstanceOutlives := by
  rcases Env.exists_of_plays
    [.call (fun a => a == 1) (.initialise 1 9 DEFAULT_SLASH_BPS),
      .call (fun a => a == 2) (.createEscrow 2 4 (.ofNat 100)),
      .close (.ofNat 1036802),
      .call (fun _ => false) (.bumpEscrowTtl 1)]
    (fun h env => decide (env.now = 1036802 ∧ env.liveUntil (.escrow 1) = some 2592002 ∧
      ∀ t ∈ h, OnClock t = true)) (by decide +kernel) with ⟨h, env, hs, hend⟩
  rcases of_decide_eq_true hend with ⟨hnow, hlive, hclock⟩
  exact ⟨h, env, hs.run, hnow, hlive,
    ((instance_outlives_iff hs.fresh (Nat.zero_le _) hs.run).mpr hclock).2⟩

/-- An escrow created a ledger after `initialize` is still live when the instance
    is not any more: at the creation only the escrow was due. -/
theorem escrow_outlives_instance :
    ∃ (h : History Host.plain) (env : Env Host.plain), SingleInit Env.deployed h env ∧
      Host.plain.defaultTtl ≤ LIFETIME_THRESHOLD.val.toNat ∧ env.instanceLiveUntil < env.now ∧
      env.liveUntil (.escrow 1) = some env.now ∧ ¬ env.InstanceOutlives := by
  rcases Env.exists_of_plays
    [.call (fun a => a == 1) (.initialise 1 9 DEFAULT_SLASH_BPS),
      .close (.ofNat 2),
      .call (fun a => a == 2) (.createEscrow 2 4 (.ofNat 100)),
      .close (.ofNat 1555202)]
    (fun _ env => decide (env.instanceLiveUntil < env.now ∧
      env.liveUntil (.escrow 1) = some env.now)) (by decide +kernel) with ⟨h, env, hs, hend⟩
  rcases of_decide_eq_true hend with ⟨hinst, hlive⟩
  refine ⟨h, env, hs, Nat.zero_le _, hinst, hlive, fun houtlives => ?_⟩
  have hle := houtlives 1 env.now hlive le_rfl
  omega

end TrustFlow
