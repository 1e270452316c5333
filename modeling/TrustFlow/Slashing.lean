import TrustFlow.Backing
import TrustFlow.StakeLedger
import TrustFlow.Lib.Erosion

/-!
# What repeated slashing leaves

Each lost vote cuts a stake by a share of what the last one left.  A juror that
neither stakes nor unstakes therefore keeps a stake that decays geometrically, is
not emptied unless the rate is the whole, and is out of reach of all further
slashes once its share is less than one token unit.
-/

namespace TrustFlow

open Transition

variable {A D : Type} [DecidableEq A] {H : Host A D}

/-- A slash is a cut of the stake by the rate. -/
theorem slashAmount_cut {stake : I128} {bps : U32} (h : 0 ≤ stake.val) (hbps : bps.val ≤ 10000) :
    Cut bps.val 10000 stake.val (slashAmount stake bps).val := by
  rcases slashAmount_bounds bps h with ⟨h0, hle⟩
  have hval := slashAmount_val h hbps
  have hhi := stake.le_hi
  have hlo := bps.lo_le
  refine ⟨h0, hle, ?_, fun hshare => ?_⟩
  · rw [hval]
    split
    · exact Int.ediv_mul_le _ (by decide)
    · have hquot := Int.ediv_mul_le stake.val (show (10000 : Int) ≠ 0 by decide)
      calc stake.val / 10000 * bps.val * 10000 = stake.val / 10000 * 10000 * bps.val := by ring
        _ ≤ stake.val * bps.val := Int.mul_le_mul_of_nonneg_right hquot hlo
  · rw [hval]
    split
    · exact Int.le_ediv_of_mul_le (by decide) (by omega)
    · next hover =>
      -- the last tier has a stake of at least the whole and a rate of at least one
      have hstake : 1 ≤ stake.val / 10000 := by
        by_contra hsmall
        have hprod : stake.val * bps.val ≤ 9999 * 10000 :=
          Int.mul_le_mul (by omega) hbps hlo (by decide)
        omega
      have hrate : 1 ≤ bps.val := by
        by_contra hnone
        have hzero : bps.val = 0 := by omega
        rw [hzero, mul_zero] at hover
        exact hover (by decide)
      exact one_le_mul_of_one_le_of_one_le hstake hrate

/-- The rate is the admin's that initialised the contract. -/
theorem Book.Step.slashBps_eq {b b' : Book H} {l : Label H} (h : b.Step l b')
    (hl : l.Initialises = false) : b'.settings.slashBps = b.settings.slashBps := by
  cases h.on_settings with
  | untouched _ hsame => rw [hsame]
  | configured hconf => exact hconf.frame.2.2
  | initialised => cases hl

section Stretch

variable {env : Env H} {later : History H} {juror : A}

/-- What the lost votes of the stretch `later` leave of the stake of `juror`. -/
structure Slashed (juror : A) (env : Env H) (later : History H) (env' : Env H) : Prop where
  rate : env'.slashBps = env.slashBps
  count : (env'.slashCountOf juror).val =
    (env.slashCountOf juror).val + later.countP fun t => Loses juror t
  eroded : Eroded env.slashBps.val 10000 (later.countP fun t => Loses juror t)
    (env.stakeOf juror).val (env'.stakeOf juror).val

theorem Slashed.step {m m' : Env H} {l : Label H} (hs : Slashed juror env later m)
    (hsound : m.book.Sound) (hbps : m.slashBps.val ≤ 10000) (hstep : m.book.Step l m'.book)
    (hl : l.Initialises = false) (hstaked : l.stakedBy juror = 0)
    (hunstaked : l.unstakedBy juror = 0) : Slashed juror env (⟨m, l, m'⟩ :: later) m' := by
  have hledger := hstep.ledgered hsound juror
  have hstake : (m'.stakeOf juror).val = (m.stakeOf juror).val + l.stakedBy juror -
      l.unstakedBy juror - slashOf juror ⟨m, l, m'⟩ := hledger.stake
  have hcount : (m'.slashCountOf juror).val = (m.slashCountOf juror).val + _ := hledger.count
  have h0 : 0 ≤ (m.stakeOf juror).val := hsound.stake_nonneg juror
  rw [hstaked, hunstaked, add_zero, sub_zero, slashOf] at hstake
  have hrate : m'.slashBps = m.slashBps :=
    congrArg (fun o => Option.getD o DEFAULT_SLASH_BPS) (hstep.slashBps_eq hl)
  refine ⟨hrate.trans hs.rate, ?_, ?_⟩
  · rw [hcount, hs.count, List.countP_cons]
    push_cast
    omega
  · rw [List.countP_cons, hstake]
    split
    · have hcut := slashAmount_cut h0 hbps
      rw [hs.rate] at hbps hcut ⊢
      exact hs.eroded.cut hbps (by decide) hcut
    · rw [sub_zero]
      exact hs.eroded

end Stretch

variable [DecidableEq D] {env₀ env env' : Env H} {h later : History H} {juror : A}

/-- Over a stretch in which a juror neither stakes nor unstakes, with `n` votes lost at
    the rate `bps`: at least `((10000 - bps) / 10000) ^ n` of its stake is left, at a rate
    below the whole some of it always, and each vote cost it something until the share of
    what is left was less than one; from there on no vote costs it anything. -/
theorem slashing_limits (hs : SingleInit env₀ h env) (hr : Run Step env later env')
    (hinit : ∀ t ∈ later, t.label.Initialises = false)
    (hown : ∀ t ∈ later, t.label.stakedBy juror = 0 ∧ t.label.unstakedBy juror = 0) :
    Slashed juror env later env' ∧
      (env.slashBps.val < 10000 → 0 < (env.stakeOf juror).val → 0 < (env'.stakeOf juror).val) := by
  have hslashed : Slashed juror env later env' := by
    induction hr with
    | nil => exact ⟨rfl, (add_zero _).symm, .refl (hs.sound.stake_nonneg juror)⟩
    | @snoc later m l m' hr hstep ih =>
        have hinit' (t) (ht : t ∈ later) := hinit t (List.mem_cons_of_mem _ ht)
        have hm := hs.extend hr hinit'
        rcases hown _ List.mem_cons_self with ⟨hstaked, hunstaked⟩
        exact (ih hinit' fun t ht => hown t (List.mem_cons_of_mem _ ht)).step hm.sound
          hm.slashBps_le hstep.book (hinit _ List.mem_cons_self) hstaked hunstaked
  exact ⟨hslashed, fun hrate hpos => hslashed.eroded.pos hrate (by decide) hpos⟩

/-- Two escrows, and 30 staked by each of the jurors 3 and 5. -/
def twoEscrows : List (Action Nat (List UInt8)) :=
  [.call (fun a => a == 1) (.initialise 1 9 DEFAULT_SLASH_BPS),
    .call (fun a => a == 2) (.createEscrow 2 4 (.ofNat 100)),
    .call (fun a => a == 2) (.createEscrow 2 4 (.ofNat 50)),
    .call (fun a => a == 3) (.stake 3 (.ofNat 30)),
    .call (fun a => a == 5) (.stake 5 (.ofNat 30))]

/-- On both of them juror 3 votes for the beneficiary and juror 5 for the depositor. -/
def twoTies : List (Action Nat (List UInt8)) :=
  let vote (id : U64) (juror : Nat) (forDepositor : Bool) : Action Nat (List UInt8) :=
    .call (fun a => a == juror) (.revealVote id juror forDepositor (Vector.replicate 32 7))
  let commit (id : U64) (juror : Nat) (byte : UInt8) : Action Nat (List UInt8) :=
    .call (fun a => a == juror) (.commitVote id juror (byte :: List.replicate 32 7))
  [.call (fun a => a == 4) (.raiseDispute 1 4 "late"),
    .call (fun a => a == 4) (.raiseDispute (.ofNat 2) 4 "late"),
    commit 1 3 0, commit 1 5 1, commit (.ofNat 2) 3 0, commit (.ofNat 2) 5 1,
    .close (.ofNat 17281),
    vote 1 3 false, vote 1 5 true, vote (.ofNat 2) 3 false, vote (.ofNat 2) 5 true,
    .close (.ofNat 34561),
    .call (fun _ => false) (.resolveDispute 1),
    .call (fun _ => false) (.resolveDispute (.ofNat 2))]

theorem slashing_limits_sample : ∃ (env env' : Env Host.plain) (later : History Host.plain),
    Run Step env later env' ∧ (later.countP fun t => Loses 3 t) = 2 ∧
      (env.stakeOf 3).val = 30 ∧ (env'.stakeOf 3).val = 25 ∧ Slashed 3 env later env' := by
  rcases Env.exists_of_plays twoEscrows
    (fun _ env => (env.play twoTies).any fun p : History Host.plain × Env Host.plain =>
      p.1.all (fun t => !t.label.Initialises && decide (t.label.stakedBy 3 = 0 ∧
        t.label.unstakedBy 3 = 0)) && decide ((p.1.countP fun t => Loses 3 t) = 2 ∧
        (env.stakeOf 3).val = 30 ∧ (p.2.stakeOf 3).val = 25))
    (by decide +kernel) with ⟨h, env, hs, hend⟩
  simp only [Option.any_eq_true, Bool.and_eq_true, List.all_eq_true, Bool.not_eq_true',
    decide_eq_true_eq] at hend
  rcases hend with ⟨⟨later, env'⟩, hplay, hall, hlost, hbefore, hleft⟩
  have hr := Env.play_run hplay
  have hslashed := (slashing_limits hs hr (fun t ht => (hall t ht).1) fun t ht => (hall t ht).2).1
  exact ⟨env, env', later, hr, hlost, hbefore, hleft, hslashed⟩

end TrustFlow
