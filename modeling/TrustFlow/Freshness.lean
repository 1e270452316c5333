import TrustFlow.Deployment

/-!
# Fresh escrow ids

Escrow ids come from a counter, and eight families of keys share an id.  The
invariant is that nothing is stored under an id above the counter.  A creation
takes the id right above it, so it finds the id unused; every other write goes
to the file of an escrow that exists, hence to an id the counter has passed.

`initialize` sets the counter back to zero.  The invariant survives it only
when the counter was at zero before.
-/

namespace TrustFlow

open Transition

variable {A D : Type} [DecidableEq A] {H : Host A D}

namespace Book

variable {b b' : Book H} {l : Label H}

/-- Nothing is stored under an id the counter has not reached. -/
def UnusedAbove (b : Book H) : Prop := ∀ id, b.counter.val < id.val → b.file id = File.empty

theorem Blank.unusedAbove (hb : b.Blank) : b.UnusedAbove := fun id _ => hb.file id

/-- The counter never goes back, unless it is set back. -/
theorem Step.counter_le (h : b.Step l b')
    (hinit : l.Initialises = true → b.counter.val = 0) : b.counter.val ≤ b'.counter.val := by
  cases h with
  | idle => exact le_rfl
  | configure => exact le_rfl
  | initialise => exact (hinit rfl).le
  | close => exact le_rfl
  | tokens => exact le_rfl
  | stake _ h => cases h; exact le_rfl
  | unstake h => cases h; exact le_rfl
  | @opens _ _ _ _ _ _ id _ _ _ h =>
      cases h.lock with
      | intro _ _ hid =>
        show _ ≤ id.val
        omega
  | release h => cases h; exact le_rfl
  | raise h => cases h; exact le_rfl
  | commit _ h => cases h; exact le_rfl
  | reveal _ h => cases h; exact le_rfl
  | resolve h =>
      cases h with
      | intro _ _ _ _ _ hslashes =>
        have hc := congrArg Book.escrowCounter hslashes.frame
        exact (congrArg (fun c : Option U64 => (c.getD 0).val) hc).ge

/-- An id below the counter is the only kind a step writes to, a creation apart. -/
theorem UnusedAbove.step (hb : b.UnusedAbove) (h : b.Step l b')
    (hinit : l.Initialises = true → b.counter.val = 0) : b'.UnusedAbove := by
  intro id hid
  have hfile := hb id ((h.counter_le hinit).trans_lt hid)
  have hescrow : b.escrow id = none := congrArg File.escrow hfile
  have hdispute : b.dispute id = none := congrArg File.dispute hfile
  cases h.on_file id with
  | untouched _ hsame => rw [hsame, hfile]
  | opened _ _ hopen =>
      cases hopen.lock with
      | intro => exact absurd hid (lt_irrefl _)
  | released ht => cases hescrow.symm.trans ht.escrow_eq
  | raised _ he => cases hescrow.symm.trans he
  | committed _ _ _ hd => cases hdispute.symm.trans hd
  | revealed _ _ hd => cases hdispute.symm.trans hd
  | resolved _ hd => cases hdispute.symm.trans hd

/-- A creation takes an id nothing is stored under. -/
theorem UnusedAbove.opens (hb : b.UnusedAbove) {auth : A → Bool} {depositor beneficiary : A}
    {amount : I128} {milestones : Vec Milestone} {id : U64}
    (h : b.Open auth depositor beneficiary amount milestones id b') :
    b.file id = File.empty := by
  cases h.lock with
  | intro _ _ hid =>
    apply hb id
    omega

/-- The transition behind a label that opens an escrow. -/
theorem Step.open_of_opens {auth : A → Bool} {depositor beneficiary : A} {amount : I128}
    {milestones : Vec Milestone} {id : U64} (h : b.Step l b')
    (hl : l.Opens auth depositor beneficiary amount milestones id) :
    b.Open auth depositor beneficiary amount milestones id b' := by
  cases hl with
  | create =>
      cases h with
      | idle h => cases h
      | configure h => cases h
      | opens _ hl h => cases hl; exact h
  | init hamount =>
      cases h with
      | idle h => cases h
      | configure h => cases h
      | opens _ hl h =>
          cases hl with
          | init hamount' =>
            cases BoundedInt.ext (hamount.trans hamount'.symm)
            exact h

end Book

/-- Nothing is stored under the id, in any of the families keyed by it. -/
structure Env.Unused (env : Env H) (id : U64) : Prop where
  escrow : env.get (.escrow id) = none
  escrowFeeConfig : env.get (.escrowFeeConfig id) = none
  escrowReleased : env.get (.escrowReleased id) = none
  milestoneReleased : ∀ i, env.get (.milestoneReleased ⟨id, i⟩) = none
  dispute : env.get (.dispute id) = none
  disputeVoters : env.get (.disputeVoters id) = none
  jurorCommit : ∀ juror, env.get (.jurorCommit ⟨id, juror⟩) = none
  jurorVote : ∀ juror, env.get (.jurorVote ⟨id, juror⟩) = none

theorem Env.unused_of_file {env : Env H} {id : U64} (h : env.book.file id = File.empty) :
    env.Unused id where
  escrow := congrArg File.escrow h
  escrowFeeConfig := congrArg File.feeConfig h
  escrowReleased := congrArg File.released h
  milestoneReleased i := congrFun (congrArg File.milestoneReleased h) i
  dispute := congrArg File.dispute h
  disputeVoters := congrArg File.voters h
  jurorCommit juror := congrFun (congrArg File.commit h) juror
  jurorVote juror := congrFun (congrArg File.vote h) juror

variable [DecidableEq D]

/-- In a run whose every successful `initialize` finds the counter absent or at
    zero, every creation finds its id unused. -/
theorem created_id_unused {env₀ env : Env H} {h : History H} (hfresh : env₀.Fresh)
    (hrun : Run Step env₀ h env)
    (hinit : ∀ t ∈ h, t.label.Initialises = true → (t.pre.inst .escrowCounter).getD 0 = 0)
    {t : Move (Env H) (Label H)} (ht : t ∈ h) {auth : A → Bool} {depositor beneficiary : A}
    {amount : I128} {milestones : Vec Milestone} {id : U64}
    (hl : t.label.Opens auth depositor beneficiary amount milestones id) : t.pre.Unused id := by
  obtain ⟨later, earlier, rfl, hearlier, hstep, -⟩ := hrun.split_mem ht
  have hunused : t.pre.book.UnusedAbove := by
    refine Run.invariant_of_guard (P := fun env : Env H => env.book.UnusedAbove)
      (G := fun t => t.label.Initialises = true → (t.pre.inst .escrowCounter).getD 0 = 0)
      hfresh.blank.unusedAbove ?_ hearlier ?_
    · intro s l s' hs hstep hG
      exact hs.step hstep.book fun hl => congrArg BoundedInt.val (hG hl)
    · intro t' ht'
      exact hinit t' (List.mem_append_right _ (List.mem_cons_of_mem _ ht'))
  exact Env.unused_of_file (hunused.opens (hstep.book.open_of_opens hl))

/-! ### A second `initialize` -/

/-- Two creations with an `initialize` of the outsider 3 in between. -/
def reopened : List (Action Nat (List UInt8)) :=
  [.call (fun a => a == 1) (.initialise 1 9 DEFAULT_SLASH_BPS),
    .call (fun a => a == 2) (.createEscrow 2 4 ⟨100, by decide, by decide⟩),
    .call (fun a => a == 3) (.initialise 3 9 DEFAULT_SLASH_BPS),
    .call (fun a => a == 5) (.createEscrow 5 3 ⟨1, by decide, by decide⟩)]

/-- The second creation finds the first escrow under its id. -/
theorem created_id_in_use :
    ¬ ∀ {h : History Host.plain} {env : Env Host.plain}, Run Step Env.deployed h env →
      ∀ t ∈ h, ∀ auth depositor beneficiary amount milestones id,
        t.label.Opens auth depositor beneficiary amount milestones id → t.pre.Unused id := by
  intro hall
  obtain ⟨h, env, hplay⟩ : ∃ h env, Env.deployed.play reopened = some (h, env) := ⟨_, _, rfl⟩
  obtain ⟨t, rest, hh, hl, hused⟩ : ∃ t rest, h = t :: rest ∧
      t.label.Opens (fun a => a == 5) 5 3 ⟨1, by decide, by decide⟩ Vec.empty 1 ∧
      (t.pre.get (.escrow 1)).isSome = true := by
    cases hplay
    exact ⟨_, _, rfl, .create, by decide⟩
  have hunused := hall (Env.play_run hplay) t (hh ▸ List.mem_cons_self) _ _ _ _ _ _ hl
  rw [hunused.escrow] at hused
  cases hused

/-- Two creations after one `initialize`. -/
def openedTwice : List (Action Nat (List UInt8)) :=
  reopened.take 2 ++ [.call (fun a => a == 5) (.createEscrow 5 3 ⟨1, by decide, by decide⟩)]

/-- The second creation finds the first escrow stored, and nothing under its own id. -/
theorem created_id_unused_sample :
    ∃ (h : History Host.plain) (env : Env Host.plain) (t : Move (Env Host.plain)
      (Label Host.plain)), Run Step Env.deployed h env ∧ t ∈ h ∧
        t.label.Opens (fun a => a == 5) 5 3 ⟨1, by decide, by decide⟩ Vec.empty (.ofNat 2) ∧
        (t.pre.get (.escrow 1)).isSome = true ∧ t.pre.Unused (.ofNat 2) := by
  obtain ⟨h, env, hplay⟩ : ∃ h env, Env.deployed.play openedTwice = some (h, env) := ⟨_, _, rfl⟩
  obtain ⟨t, rest, hh, hl, hstored⟩ : ∃ t rest, h = t :: rest ∧
      t.label.Opens (fun a => a == 5) 5 3 ⟨1, by decide, by decide⟩ Vec.empty (.ofNat 2) ∧
      (t.pre.get (.escrow 1)).isSome = true := by
    cases hplay
    exact ⟨_, _, rfl, .create, by decide⟩
  have hinit : ∀ t ∈ h, t.label.Initialises = true →
      (t.pre.inst .escrowCounter).getD 0 = 0 := by
    cases hplay
    decide
  have hrun := Env.play_run hplay
  have ht : t ∈ h := hh ▸ List.mem_cons_self
  exact ⟨h, env, t, hrun, ht, hl, hstored,
    created_id_unused Env.deployed_fresh hrun hinit ht hl⟩

end TrustFlow
