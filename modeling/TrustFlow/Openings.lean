import TrustFlow.Soundness

/-!
# An escrow and its creation

An escrow record keeps its parties, its amount and the terms of its milestones
from the call that created it, and its fee configuration is the snapshot of the
settings that call found.  `File.Opened` says so of a file, and the history of a
deployment ties the two together: every escrow has a creation, and what a
creation agreed still stands.

The accounts of an escrow (`File.Accounts`) then read as a statement about
every state of a deployment.
-/

namespace TrustFlow

open Transition

variable {A D : Type}

/-- The file of an escrow created under the settings `s`. -/
structure File.Opened (s : Settings A) (depositor beneficiary : A) (amount : I128)
    (milestones : Vec Milestone) (f : File A D) : Prop where
  escrow : ∃ e, f.escrow = some e ∧ e.depositor = depositor ∧ e.beneficiary = beneficiary ∧
    e.amount = amount ∧ e.terms = milestones.toList.map Milestone.terms
  feeConfig : ∃ treasury, s.treasury = some treasury ∧
    f.feeConfig = some ⟨treasury, s.feeBps.getD DEFAULT_FEE_BPS⟩

variable [DecidableEq A] {H : Host A D}

section Steps

variable {b b' : Book H} {l : Label H} {id : U64} {s : Settings A} {auth : A → Bool}
  {depositor beneficiary : A} {amount : I128} {milestones : Vec Milestone}

/-- What a creation leaves. -/
theorem Book.Step.opened (h : b.Step l b')
    (hl : l.Opens auth depositor beneficiary amount milestones id) :
    (b'.file id).Opened b.settings depositor beneficiary amount milestones := by
  have hopen := h.open_of_opens hl
  cases h.on_file id with
  | untouched hother => exact absurd hl.escrow?_eq hother
  | opened _ hl' _ htreasury hnew =>
      rw [hnew]
      cases hopen.lock with
      | intro =>
        cases hl with
        | create =>
            cases hl'
            exact ⟨⟨_, rfl, rfl, rfl, rfl, rfl⟩, _, htreasury, rfl⟩
        | init hamount =>
            cases hl' with
            | init hamount' =>
              cases BoundedInt.ext (hamount.trans hamount'.symm)
              exact ⟨⟨_, rfl, rfl, rfl, rfl, rfl⟩, _, htreasury, rfl⟩
  | released | raised | committed | revealed | resolved => cases hl

/-- What a creation agreed no later step changes. -/
theorem File.Opened.step (hf : (b.file id).Opened s depositor beneficiary amount milestones)
    (hb : b.Sound) (h : b.Step l b') :
    (b'.file id).Opened s depositor beneficiary amount milestones := by
  obtain ⟨⟨e, he, hdep, hben, hamount, hterms⟩, hfee⟩ := hf
  cases h.on_file id with
  | untouched _ hsame =>
      rw [hsame]
      exact ⟨⟨e, he, hdep, hben, hamount, hterms⟩, hfee⟩
  | opened _ _ hopen =>
      rw [hb.unusedAbove.opens hopen] at he
      cases he
  | @released _ i _ _ t _ _ ht _ _ hnew =>
      cases he.symm.trans ht.escrow_eq
      rw [hnew]
      refine ⟨⟨t.escrowAfter i, rfl, hdep, hben, hamount, ?_⟩, hfee⟩
      rw [Tranche.terms_escrowAfter ht.milestone_eq]
      exact hterms
  | raised _ he' _ hnew =>
      cases he.symm.trans he'
      rw [hnew]
      exact ⟨⟨_, rfl, hdep, hben, hamount, hterms⟩, hfee⟩
  | committed _ _ _ _ _ _ _ hnew =>
      rw [hnew]
      exact ⟨⟨e, he, hdep, hben, hamount, hterms⟩, hfee⟩
  | revealed _ _ _ _ _ _ _ _ _ hnew =>
      rw [hnew]
      exact ⟨⟨e, he, hdep, hben, hamount, hterms⟩, hfee⟩
  | resolved _ _ _ _ _ he' hnew =>
      cases he.symm.trans he'
      rw [hnew]
      exact ⟨⟨_, rfl, hdep, hben, hamount, hterms⟩, hfee⟩

/-- An escrow is there before a step unless the step creates it. -/
theorem Book.Sound.escrow_of_step (hb : b.Sound) (h : b.Step l b') {e : EscrowRecord A}
    (he : b'.escrow id = some e) :
    (∃ e₀, b.escrow id = some e₀) ∨ ∃ auth depositor beneficiary amount milestones,
      l.Opens auth depositor beneficiary amount milestones id := by
  cases h.on_file id with
  | untouched _ hsame => exact Or.inl ⟨e, (congrArg File.escrow hsame).symm.trans he⟩
  | opened _ hl => exact Or.inr ⟨_, _, _, _, _, hl⟩
  | released ht => exact Or.inl ⟨_, ht.escrow_eq⟩
  | raised _ hold => exact Or.inl ⟨_, hold⟩
  | committed _ _ _ hd => exact Or.inl ((hb.file id).escrow_of_dispute hd)
  | revealed _ _ hd => exact Or.inl ((hb.file id).escrow_of_dispute hd)
  | resolved _ _ _ _ _ hold => exact Or.inl ⟨_, hold⟩

end Steps

section Histories

variable [DecidableEq D] {env₀ env : Env H} {h : History H} {id : U64}

namespace SingleInit

/-- What a creation of the history agreed still stands. -/
theorem opened (hs : SingleInit env₀ h env) {t : Move (Env H) (Label H)} (ht : t ∈ h)
    {auth : A → Bool} {depositor beneficiary : A} {amount : I128} {milestones : Vec Milestone}
    (hl : t.label.Opens auth depositor beneficiary amount milestones id) :
    (env.book.file id).Opened t.pre.book.settings depositor beneficiary amount milestones := by
  revert ht
  refine history_invariant (P := fun h b => t ∈ h →
    (b.file id).Opened t.pre.book.settings depositor beneficiary amount milestones) ?_ ?_ hs
  · intro _ ht
    cases ht
  · intro h env l env' hs hP hstep ht
    rcases List.mem_cons.mp ht with rfl | ht
    · exact hstep.step.opened hl
    · exact (hP ht).step hs.sound hstep.step

/-- Every escrow has a creation in the history. -/
theorem exists_opens (hs : SingleInit env₀ h env) {e : EscrowRecord A}
    (he : env.book.escrow id = some e) :
    ∃ t ∈ h, ∃ auth depositor beneficiary amount milestones,
      t.label.Opens auth depositor beneficiary amount milestones id := by
  revert e
  refine history_invariant (P := fun h b => ∀ {e}, b.escrow id = some e →
    ∃ t ∈ h, ∃ auth depositor beneficiary amount milestones,
      t.label.Opens auth depositor beneficiary amount milestones id) ?_ ?_ hs
  · intro hb e he
    have hnone : env₀.book.escrow id = none := congrArg File.escrow (hb.file id)
    cases hnone.symm.trans he
  · intro h env l env' hs hP hstep e he
    rcases hs.sound.escrow_of_step hstep.step he with ⟨e₀, he₀⟩ | hl
    · obtain ⟨t, ht, hopens⟩ := hP he₀
      exact ⟨t, List.mem_cons_of_mem _ ht, hopens⟩
    · exact ⟨_, List.mem_cons_self, hl⟩

/-- At two points of a history an escrow has the same parties, amount, terms and
    fee configuration. -/
theorem agreed {earlier : History H} {m : Env H} (hs : SingleInit env₀ h env)
    (hm : SingleInit env₀ earlier m) (hsub : ∀ t ∈ earlier, t ∈ h) {e e' : EscrowRecord A}
    (he : env.book.escrow id = some e) (he' : m.book.escrow id = some e') :
    e'.depositor = e.depositor ∧ e'.beneficiary = e.beneficiary ∧ e'.amount = e.amount ∧
      e'.terms = e.terms ∧ m.book.feeConfig id = env.book.feeConfig id := by
  rcases hm.exists_opens he' with ⟨t, ht, auth, depositor, beneficiary, amount, milestones, hl⟩
  rcases hs.opened (hsub t ht) hl with
    ⟨⟨e₁, he₁, hdep, hben, hamount, hterms⟩, treasury, htreasury, hfee⟩
  rcases hm.opened ht hl with
    ⟨⟨e₂, he₂, hdep', hben', hamount', hterms'⟩, treasury', htreasury', hfee'⟩
  cases he₁.symm.trans he
  cases he₂.symm.trans he'
  cases htreasury.symm.trans htreasury'
  refine ⟨hdep'.trans hdep.symm, hben'.trans hben.symm, hamount'.trans hamount.symm,
    hterms'.trans hterms.symm, ?_⟩
  exact hfee'.trans hfee.symm

end SingleInit

end Histories

/-! ### The release accounting -/

variable {env₀ env : Env H} {h : History H} {id : U64}

/-- The release accounting of an escrow, as its stored entries show it. -/
structure Env.ReleaseAccounts (env : Env H) (id : U64) (e : EscrowRecord A) : Prop where
  released_eq : (env.releasedOf id).val = ∑ᶠ i, (env.milestoneReleasedOf id i).val
  counter_bounds : ∀ i m, e.milestones.get i = some m →
    0 ≤ (env.milestoneReleasedOf id i).val ∧ (env.milestoneReleasedOf id i).val ≤ m.amount.val
  counter_none : ∀ i, e.milestones.get i = none → env.get (.milestoneReleased ⟨id, i⟩) = none
  total : e.milestones.toList ≠ [] → e.amount.val = milestoneTotal e.milestones.toList ∧
    ∀ m ∈ e.milestones.toList, 0 < m.amount.val
  no_milestones : e.milestones.toList = [] → (env.releasedOf id).val = 0
  open_lt : e.status = .active ∨ e.status = .disputed → (env.releasedOf id).val < e.amount.val
  settled_eq : e.status = .settled → env.get (.dispute id) = none →
    (env.releasedOf id).val = e.amount.val
  unlocked : ∀ i m, e.milestones.get i = some m → (env.milestoneReleasedOf id i).val ≠ 0 →
    m.releaseTime.val ≤ env.sequence.val

theorem Env.releaseAccounts {e : EscrowRecord A}
    (ha : (env.book.file id).Accounts H.self env.sequence e) : env.ReleaseAccounts id e := by
  have hget {i : U32} {m : Milestone} (hm : e.milestones.get i = some m) :
      e.term? i = some m.terms := by
    rw [e.term?_eq, hm]
    rfl
  have hnone {i : U32} (hi : e.milestones.get i = none) : e.term? i = none := by
    rw [e.term?_eq, hi]
    rfl
  refine ⟨ha.released_eq, ?_, fun i hi => ha.counter_none i (hnone hi), ?_, ?_, ?_,
    ha.settled_eq, fun i m hm => ha.unlocked i _ (hget hm)⟩
  · exact fun i m hm => ⟨ha.counter_nonneg i, ha.counter_le i _ (hget hm)⟩
  · intro hne
    have hterms : e.terms ≠ [] := fun hnil => hne (List.map_eq_nil_iff.mp hnil)
    refine ⟨(ha.total hterms).trans e.terms_total, fun m hm => ?_⟩
    exact ha.milestones_pos m.terms (List.mem_map_of_mem hm)
  · intro hnil
    -- without milestones there are no counters to add up
    have hzero (i : U32) : ((env.book.file id).milestoneReleasedOf i).val = 0 := by
      have hi : (env.book.file id).milestoneReleased i = none :=
        ha.counter_none i (hnone (by simp [Vec.get, hnil]))
      rw [File.milestoneReleasedOf, hi]
      rfl
    have hsum := ha.released_eq
    simp only [hzero, finsum_zero] at hsum
    exact hsum
  · rintro (hs | hs) <;> exact ha.open_lt (by rw [hs]; decide)

/-- In every state of a deployment the release counters of an escrow add up and
    stay within its milestones, and its parties, its amount and the labels,
    amounts and release times of its milestones are those of its creation. -/
theorem release_accounting [DecidableEq D] (hs : SingleInit env₀ h env) {e : EscrowRecord A}
    (he : env.get (.escrow id) = some e) :
    env.ReleaseAccounts id e ∧
      (∃ t ∈ h, ∃ auth depositor beneficiary amount milestones,
        t.label.Opens auth depositor beneficiary amount milestones id) ∧
      ∀ t ∈ h, ∀ auth depositor beneficiary amount milestones,
        t.label.Opens auth depositor beneficiary amount milestones id →
          e.depositor = depositor ∧ e.beneficiary = beneficiary ∧ e.amount = amount ∧
            e.milestones.toList.map Milestone.terms = milestones.toList.map Milestone.terms := by
  refine ⟨Env.releaseAccounts (hs.sound.accounts he), hs.exists_opens he, ?_⟩
  intro t ht auth depositor beneficiary amount milestones hl
  obtain ⟨e', he', hterms⟩ := (hs.opened ht hl).escrow
  cases he'.symm.trans he
  exact hterms

/-- Two milestones of 60 and 40, and 25 of the first released. -/
def partRelease : List (Action Nat (List UInt8)) :=
  [.call (fun a => a == 1) (.initialise 1 9 DEFAULT_SLASH_BPS),
    .call (fun a => a == 2) (.initEscrow 2 4
      ⟨[⟨"design", .ofNat 60, false, 0⟩,
        ⟨"build", .ofNat 40, false, 1⟩], by decide⟩),
    .call (fun a => a == 2) (.releaseMilestoneTranche 1 0 (.ofNat 25) 2)]

theorem release_accounting_sample :
    ∃ (h : History Host.plain) (env : Env Host.plain) (e : EscrowRecord Nat),
      SingleInit Env.deployed h env ∧ env.get (.escrow 1) = some e ∧
        (env.releasedOf 1).val = 25 ∧ env.ReleaseAccounts 1 e := by
  rcases Env.exists_of_plays partRelease
    (fun _ env => (env.get (.escrow 1)).isSome && decide ((env.releasedOf 1).val = 25))
    (by decide +kernel) with ⟨h, env, hs, hend⟩
  rcases Bool.and_eq_true_iff.mp hend with ⟨hsome, hreleased⟩
  rcases Option.isSome_iff_exists.mp hsome with ⟨e, he⟩
  exact ⟨h, env, e, hs, he, of_decide_eq_true hreleased, (release_accounting hs he).1⟩

end TrustFlow
