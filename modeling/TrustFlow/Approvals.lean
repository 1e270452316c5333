import TrustFlow.Openings

/-!
# The approval of a milestone

A release raises the flag of its milestone and its counter, and no other call
moves either.  But `init_escrow` stores the milestones as the depositor passed
them, flags included.  So the flag says that something was released unless the
depositor raised it at creation.
-/

namespace TrustFlow

open Transition

variable {A D : Type} [DecidableEq A] {H : Host A D}

/-- A successful release of a milestone. -/
inductive Label.Releases (id : U64) (i : U32) : Label H → Prop
  | intro {auth : A → Bool} {gross : I128} {caller : A} :
      Releases id i (.call auth (.releaseMilestoneTranche id i gross caller) ())

theorem Label.Releases.escrow?_eq {id : U64} {i : U32} {l : Label H} (h : l.Releases id i) :
    l.escrow? = some id := by
  cases h
  rfl

section Steps

variable {b b' : Book H} {l : Label H} {id : U64} {i : U32} {milestones : Vec Milestone}

/-- The counter of a milestone is positive after a step exactly when it was before or
    the step released the milestone. -/
theorem Book.Step.milestoneReleased_pos (h : b.Step l b') (hb : b.Sound) :
    0 < (b'.milestoneReleasedOf id i).val ↔
      l.Releases id i ∨ 0 < (b.milestoneReleasedOf id i).val := by
  have hkept (hnot : ¬ l.Releases id i)
      (hsame : (b'.file id).milestoneReleased = (b.file id).milestoneReleased) :
      0 < (b'.milestoneReleasedOf id i).val ↔
        l.Releases id i ∨ 0 < (b.milestoneReleasedOf id i).val := by
    have hval : b'.milestoneReleasedOf id i = b.milestoneReleasedOf id i :=
      congrArg (fun r : U32 → Option I128 => (r i).getD 0) hsame
    rw [hval]
    exact (or_iff_right hnot).symm
  cases h.on_file id with
  | untouched hl hsame =>
      apply hkept (fun hr => hl hr.escrow?_eq)
      rw [hsame]
  | opened _ hl _ _ hnew =>
      refine hkept ?_ (by rw [hnew]; rfl)
      intro hr
      cases hr
      cases hl
  | @released _ j _ _ t _ _ ht _ _ hnew =>
      have hgross := ht.gross_pos
      have hnew' : b'.milestoneReleased id =
          Function.update (b.milestoneReleased id) j (some t.milestoneAfter) :=
        congrArg File.milestoneReleased hnew
      by_cases hij : i = j
      · subst hij
        have hafter : b'.milestoneReleasedOf id i = t.milestoneAfter := by
          simp [Book.milestoneReleasedOf, hnew']
        have h0 : 0 ≤ (b.milestoneReleasedOf id i).val :=
          (hb.accounts ht.escrow_eq).counter_nonneg i
        have hsum := ht.milestoneAfter_eq
        rw [hafter]
        exact iff_of_true (by omega) (.inl .intro)
      · have hold : b'.milestoneReleasedOf id i = b.milestoneReleasedOf id i := by
          simp [Book.milestoneReleasedOf, hnew', hij]
        rw [hold]
        refine (or_iff_right ?_).symm
        intro hr
        cases hr
        exact hij rfl
  | raised _ _ _ hnew | committed _ _ _ _ _ _ _ hnew | revealed _ _ _ _ _ _ _ _ _ hnew
  | resolved _ _ _ _ _ _ hnew =>
      refine hkept ?_ (by rw [hnew]; rfl)
      intro hr
      cases hr

/-- The flags of an escrow created with `milestones`: raised by the depositor or by a
    release. -/
def Book.Flagged (b : Book H) (id : U64) (milestones : Vec Milestone) : Prop :=
  ∀ e, b.escrow id = some e → ∀ i m, e.milestones.get i = some m →
    ∃ m₀, milestones.get i = some m₀ ∧
      (m.approved = true ↔ m₀.approved = true ∨ 0 < (b.milestoneReleasedOf id i).val)

theorem Book.Flagged.congr (hf : b.Flagged id milestones)
    (hcounters : (b'.file id).milestoneReleased = (b.file id).milestoneReleased)
    (hmilestones : ∀ e', b'.escrow id = some e' →
      ∃ e, b.escrow id = some e ∧ e'.milestones = e.milestones) :
    b'.Flagged id milestones := by
  intro e' he' i m hm
  rcases hmilestones e' he' with ⟨e, he, heq⟩
  have hval : b'.milestoneReleasedOf id i = b.milestoneReleasedOf id i :=
    congrArg (fun r : U32 → Option I128 => (r i).getD 0) hcounters
  rw [heq] at hm
  rw [hval]
  exact hf e he i m hm

/-- A new escrow has the flags it was created with, and nothing released. -/
theorem Book.Step.flagged_of_opens {auth : A → Bool} {depositor beneficiary : A} {amount : I128}
    (h : b.Step l b') (hb : b.Sound)
    (hl : l.Opens auth depositor beneficiary amount milestones id) :
    b'.Flagged id milestones := by
  have hfile : (b'.file id).milestoneReleased = fun _ => none := by
    have hempty : (b.file id).milestoneReleased = fun _ => none :=
      congrArg File.milestoneReleased (hb.unusedAbove.opens (h.open_of_opens hl))
    cases h.on_file id with
    | untouched hother => exact absurd hl.escrow?_eq hother
    | opened _ _ _ _ hnew =>
        rw [hnew]
        exact hempty
    | released | raised | committed | revealed | resolved => cases hl
  intro e he i m hm
  have hzero : b'.milestoneReleasedOf id i = 0 :=
    congrArg (fun r : U32 → Option I128 => (r i).getD 0) hfile
  have hmilestones : e.milestones = milestones := by
    cases h.on_file id with
    | untouched hother => exact absurd hl.escrow?_eq hother
    | opened _ hl' _ _ hnew =>
        have he' := (congrArg File.escrow hnew).symm.trans he
        cases he'
        cases hl with
        | create => cases hl'; rfl
        | init => cases hl'; rfl
    | released | raised | committed | revealed | resolved => cases hl
  rw [hmilestones] at hm
  refine ⟨m, hm, ?_⟩
  rw [hzero]
  simp

theorem Book.Flagged.step (hf : b.Flagged id milestones) (hb : b.Sound) (h : b.Step l b')
    (hopened : ∃ e, b.escrow id = some e) : b'.Flagged id milestones := by
  cases h.on_file id with
  | untouched _ hsame =>
      refine hf.congr (by rw [hsame]) fun e' he' => ⟨e', ?_, rfl⟩
      exact (congrArg File.escrow hsame).symm.trans he'
  | opened _ _ hopen =>
      have hnone : b.escrow id = none := congrArg File.escrow (hb.unusedAbove.opens hopen)
      rcases hopened with ⟨e, he⟩
      cases hnone.symm.trans he
  | @released _ j _ _ t _ _ ht _ _ hnew =>
      have hpos {i : U32} : 0 < (b'.milestoneReleasedOf id i).val ↔ _ :=
        h.milestoneReleased_pos hb
      intro e' he' i m hm
      cases (congrArg File.escrow hnew).symm.trans he'
      by_cases hij : i = j
      · subst hij
        rcases hf _ ht.escrow_eq i _ ht.milestone_eq with ⟨m₀, hm₀, -⟩
        have hset := Vec.get_set_self (b := { t.milestone with approved := true }) ht.milestone_eq
        cases hset.symm.trans hm
        exact ⟨m₀, hm₀, iff_of_true rfl (.inr (hpos.mpr (.inl .intro)))⟩
      · have hset : t.escrow.milestones.get i = some m :=
          (Vec.get_set_of_ne hij).symm.trans hm
        rcases hf _ ht.escrow_eq i _ hset with ⟨m₀, hm₀, hiff⟩
        refine ⟨m₀, hm₀, hiff.trans (or_congr_right ?_)⟩
        rw [hpos]
        refine (or_iff_right ?_).symm
        intro hr
        cases hr
        exact hij rfl
  | raised _ hold _ hnew | resolved _ _ _ _ _ hold hnew =>
      refine hf.congr (by rw [hnew]; rfl) fun e' he' => ?_
      cases (congrArg File.escrow hnew).symm.trans he'
      exact ⟨_, hold, rfl⟩
  | committed _ _ _ _ _ _ _ hnew | revealed _ _ _ _ _ _ _ _ _ hnew =>
      refine hf.congr (by rw [hnew]; rfl) fun e' he' => ⟨e', ?_, rfl⟩
      exact (congrArg File.escrow hnew).symm.trans he'

end Steps

/-! ### The flags of a deployment -/

section Histories

variable [DecidableEq D] {env₀ env : Env H} {h : History H} {id : U64} {i : U32}
  {auth : A → Bool} {depositor beneficiary : A} {amount : I128} {milestones : Vec Milestone}

namespace SingleInit

/-- A milestone has a positive counter exactly when the history released it. -/
theorem milestoneReleased_pos (hs : SingleInit env₀ h env) :
    0 < (env.milestoneReleasedOf id i).val ↔ ∃ t ∈ h, t.label.Releases id i := by
  refine history_invariant (P := fun h b =>
    0 < (b.milestoneReleasedOf id i).val ↔ ∃ t ∈ h, t.label.Releases id i) ?_ ?_ hs
  · intro hb
    have hempty : env₀.book.milestoneReleased id = fun _ => none :=
      congrArg File.milestoneReleased (hb.file id)
    simp [Book.milestoneReleasedOf, hempty]
  · intro h env l env' hs hP hstep
    rw [hstep.step.milestoneReleased_pos hs.sound, hP]
    simp

/-- The flags of an escrow follow the milestones its creation passed. -/
theorem flagged (hs : SingleInit env₀ h env) {t : Move (Env H) (Label H)} (ht : t ∈ h)
    (hl : t.label.Opens auth depositor beneficiary amount milestones id) :
    env.book.Flagged id milestones := by
  revert ht
  refine history_invariant (P := fun h b => t ∈ h → b.Flagged id milestones) ?_ ?_ hs
  · intro _ ht
    cases ht
  · intro h env l env' hs hP hstep ht
    rcases List.mem_cons.mp ht with rfl | ht
    · exact hstep.step.flagged_of_opens hs.sound hl
    · rcases (hs.opened ht hl).escrow with ⟨e, he, -⟩
      exact (hP ht).step hs.sound hstep.step ⟨e, he⟩

end SingleInit

/-- The flag of a milestone says whether something of it was released, exactly when
    its creation passed it with the flag down or something was released. -/
theorem approved_tells_iff (hs : SingleInit env₀ h env) {t : Move (Env H) (Label H)} (ht : t ∈ h)
    (hl : t.label.Opens auth depositor beneficiary amount milestones id) {e : EscrowRecord A}
    (he : env.get (.escrow id) = some e) {m : Milestone} (hm : e.milestones.get i = some m) :
    (m.approved = true ↔ 0 < (env.milestoneReleasedOf id i).val) ↔
      (∃ m₀, milestones.get i = some m₀ ∧ m₀.approved = false) ∨
        ∃ t' ∈ h, t'.label.Releases id i := by
  rcases hs.flagged ht hl e he i m hm with ⟨m₀, hm₀, hflag⟩
  have hflag : m.approved = true ↔ m₀.approved = true ∨ 0 < (env.milestoneReleasedOf id i).val :=
    hflag
  have hdown : (∃ m₀, milestones.get i = some m₀ ∧ m₀.approved = false) ↔
      ¬ m₀.approved = true := by
    simp [hm₀]
  rw [← hs.milestoneReleased_pos, hdown, hflag]
  constructor
  · intro htells
    by_cases hreleased : 0 < (env.milestoneReleasedOf id i).val
    · exact .inr hreleased
    · exact .inl fun hup => hreleased (htells.mp (.inl hup))
  · rintro (hdown | hreleased)
    · exact or_iff_right hdown
    · exact iff_of_true (.inr hreleased) hreleased

end Histories

/-- A new escrow of two milestones, the flag of the first raised by the depositor. -/
def raisedFlag : List (Action Nat (List UInt8)) :=
  [.call (fun a => a == 1) (.initialise 1 9 DEFAULT_SLASH_BPS),
    .call (fun a => a == 2) (.initEscrow 2 4
      ⟨[⟨"design", .ofNat 60, true, 0⟩, ⟨"build", .ofNat 40, false, 0⟩], by decide⟩)]

/-- The second flag is down, as the depositor passed it. -/
theorem approved_tells_iff_sample :
    ∃ (h : History Host.plain) (env : Env Host.plain) (milestones : Vec Milestone),
      SingleInit Env.deployed h env ∧ (∃ t ∈ h, ∃ auth depositor beneficiary amount,
        t.label.Opens auth depositor beneficiary amount milestones 1) ∧
      ((∃ m₀, milestones.get 1 = some m₀ ∧ m₀.approved = false) ∨
        ∃ t' ∈ h, t'.label.Releases 1 1) := by
  rcases Env.exists_of_plays raisedFlag
    (fun _ env => (env.get (.escrow 1)).any (fun e : EscrowRecord Nat =>
      (e.milestones.get 1).any fun m => m.approved == false) &&
      decide ((env.milestoneReleasedOf 1 1).val = 0))
    (by decide +kernel) with ⟨h, env, hs, hend⟩
  simp only [Bool.and_eq_true, Option.any_eq_true, decide_eq_true_eq, beq_iff_eq] at hend
  rcases hend with ⟨⟨e, he, m, hm, hflag⟩, hzero⟩
  rcases hs.exists_opens he with ⟨t, ht, auth, depositor, beneficiary, amount, milestones, hl⟩
  refine ⟨h, env, milestones, hs, ⟨t, ht, auth, depositor, beneficiary, amount, hl⟩, ?_⟩
  refine (approved_tells_iff hs ht hl he hm).mp ?_
  simp [hflag, hzero]

/-- The first flag is up although nothing was released. -/
theorem approved_unreleased :
    ∃ (h : History Host.plain) (env : Env Host.plain) (e : EscrowRecord Nat) (m : Milestone),
      SingleInit Env.deployed h env ∧ env.get (.escrow 1) = some e ∧
        e.milestones.get 0 = some m ∧
        ¬ (m.approved = true ↔ 0 < (env.milestoneReleasedOf 1 0).val) := by
  rcases Env.exists_of_plays raisedFlag
    (fun _ env => (env.get (.escrow 1)).any (fun e : EscrowRecord Nat =>
      (e.milestones.get 0).any fun m => m.approved == true) &&
      decide ((env.milestoneReleasedOf 1 0).val = 0))
    (by decide +kernel) with ⟨h, env, hs, hend⟩
  simp only [Bool.and_eq_true, Option.any_eq_true, decide_eq_true_eq, beq_iff_eq] at hend
  rcases hend with ⟨⟨e, he, m, hm, hflag⟩, hzero⟩
  refine ⟨h, env, e, m, hs, he, hm, ?_⟩
  simp [hflag, hzero]

end TrustFlow
