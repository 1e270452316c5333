import TrustFlow.Solvency

/-!
# The exits

The three ways tokens leave the contract ask for what their callers control and
for nothing else.  The checks behind those (the total of the escrow, its fee
configuration, every overflow, the transfers) pass in every state of a
deployment: the accounts bound the amounts, and the contract holds what it owes.

This rests on one assumption about the tokens: a transfer out of the contract
succeeds when the amount is not negative and the balance covers it
(`Tokens.PaysFrom`).
-/

namespace TrustFlow

open Transition Purse Invocation

variable {A D : Type} [DecidableEq A] {H : Host A D}

/-! ### What is owed is covered -/

namespace Book

variable {b : Book H} {id : U64}

theorem locked_le_liabilities (hb : b.Sound) (hslashed : 0 ≤ b.slashed) (id : U64) :
    (b.file id).locked ≤ b.liabilities := by
  have hstakes : 0 ≤ ∑ᶠ juror, (b.stake juror).val := finsum_nonneg hb.stake_nonneg
  have hfile : (b.file id).locked ≤ ∑ᶠ id, (b.file id).locked :=
    single_le_finsum id (Set.toFinite _) fun id => (hb.file id).locked_nonneg
  rw [liabilities]
  omega

theorem stake_le_liabilities (hb : b.Sound) (hslashed : 0 ≤ b.slashed)
    (hfin : (Function.support fun j => (b.stake j).val).Finite) (juror : A) :
    (b.stake juror).val ≤ b.liabilities := by
  have hstake : (b.stake juror).val ≤ ∑ᶠ juror, (b.stake juror).val :=
    single_le_finsum juror hfin hb.stake_nonneg
  have hfiles : 0 ≤ ∑ᶠ id, (b.file id).locked :=
    finsum_nonneg fun id => (hb.file id).locked_nonneg
  rw [liabilities]
  omega

theorem Step.slashed_nonneg {b' : Book H} {l : Label H} (h : b.Step l b') (hb : b.Sound)
    (h0 : 0 ≤ b.slashed) : 0 ≤ b'.slashed := by
  cases h.on_stakes with
  | untouched _ _ hsame => rwa [hsame]
  | staked _ _ _ _ _ _ hsame => rwa [hsame]
  | unstaked _ _ _ _ _ hsame => rwa [hsame]
  | slashed hslashes _ _ hsame =>
      rw [hsame]
      exact h0.trans (hslashes.slashed_le hb.stake_nonneg)

end Book

variable [DecidableEq D] {env₀ env : Env H} {h : History H} {id : U64} {tok : A}

namespace SingleInit

theorem slashed_nonneg (hs : SingleInit env₀ h env) : 0 ≤ env.book.slashed := by
  refine history_invariant (P := fun _ b => 0 ≤ b.slashed) ?_ ?_ hs
  · exact fun hb => hb.slashed.ge
  · exact fun hs hP hstep => hstep.step.slashed_nonneg hs.sound hP

/-- The contract holds what an open escrow still locks. -/
theorem locked_covered (hs : SingleInit env₀ h env) (htok : env.inst .token = some tok)
    {e : EscrowRecord A} (he : env.book.escrow id = some e) (hopen : e.status ≠ .settled) :
    e.amount.val - (env.releasedOf id).val ≤ env.purse.balance tok H.self := by
  have hlocked : (env.book.file id).locked = e.amount.val - (env.releasedOf id).val :=
    File.locked_of_open he hopen
  have hle := Book.locked_le_liabilities hs.sound hs.slashed_nonneg id
  have hcovers := hs.covers htok
  omega

/-- The contract holds every stake. -/
theorem stake_covered (hs : SingleInit env₀ h env) (htok : env.inst .token = some tok)
    (juror : A) : (env.stakeOf juror).val ≤ env.purse.balance tok H.self :=
  (Book.stake_le_liabilities hs.sound hs.slashed_nonneg env.finite_stake juror).trans
    (hs.covers htok)

/-- Once initialised the contract has a token. -/
theorem exists_token (hs : SingleInit env₀ h env) (hinit : ∃ t ∈ h, t.label.Initialises = true) :
    ∃ tok, env.inst .token = some tok := by
  apply Option.isSome_iff_exists.mp
  revert hinit
  refine history_invariant (P := fun h b => (∃ t ∈ h, t.label.Initialises = true) →
    b.settings.token.isSome = true) ?_ ?_ hs
  · rintro - ⟨t, ht, -⟩
    cases ht
  · rintro h env l env' hs hP hstep ⟨t, ht, hinit⟩
    rcases List.mem_cons.mp ht with rfl | ht
    · cases hstep.step.on_settings with
      | untouched hl => cases hl.symm.trans hinit
      | @configured _ _ r _ hconf => cases (hconf.initialises r).symm.trans hinit
      | initialised _ _ _ hset =>
          rw [hset]
          rfl
    · exact (hs.sound.settings_step hstep.step).2.2.2 (hP ⟨t, ht, hinit⟩)

end SingleInit

/-! ### Release -/

section Release

variable {auth : A → Bool} {i : U32} {gross : I128} {caller : A}

/-- What a release asks for. -/
def Env.Releasable (env : Env H) (id : U64) (i : U32) (gross : I128) (caller : A) : Prop :=
  ∃ e m, env.get (.escrow id) = some e ∧ e.status = .active ∧ caller = e.depositor ∧
    e.milestones.get i = some m ∧ m.releaseTime.val ≤ env.sequence.val ∧ 0 < gross.val ∧
    (env.milestoneReleasedOf id i).val + gross.val ≤ m.amount.val

theorem SingleInit.release_succeeds (hs : SingleInit env₀ h env) (hpays : H.tokens.PaysFrom H.self)
    (htok : env.inst .token = some tok) (hpaused : env.isPaused = false)
    (hauth : auth caller = true) (hr : env.Releasable id i gross caller) :
    ∃ env', (releaseMilestoneTranche id i gross caller : Op H Unit) auth env = .ok ((), env') := by
  rcases hr with ⟨e, m, he, hactive, rfl, hm, htime, hpos, hle⟩
  rcases (hs.sound.accounts he).exists_admissible hauth hpaused htok he hactive hm htime hpos hle
    with ⟨t, ht, rfl⟩
  have hopen := ht.active.trans_ne EscrowStatus.active_ne_settled
  have hcovered := hs.locked_covered ht.token_eq he hopen
  have hbounds := ht.fee_bounds (hs.sound.accounts he)
  have hsplit := ht.payout_eq
  have hreleased : t.releasedAfter.val = (env.releasedOf id).val + gross.val := ht.releasedAfter_eq
  have hfits := ht.released_le
  obtain ⟨p, hpayout⟩ : ∃ p, Pays t.token H.self t.escrow.beneficiary t.payout env.purse p :=
    exists_pays hpays (by omega) (by omega)
  have hleft := hpayout.balance_src_ge
  obtain ⟨p', hfee⟩ : ∃ p', Pays t.token H.self t.feeConfig.treasury t.fee p p' :=
    exists_pays hpays (by omega) (by omega)
  exact ⟨_, releaseMilestoneTranche_eq_ok.mpr ⟨t, ht, p, hpayout, p', hfee, rfl⟩⟩

theorem SingleInit.release_succeeds_iff (hs : SingleInit env₀ h env)
    (hpays : H.tokens.PaysFrom H.self) (htok : env.inst .token = some tok)
    (hpaused : env.isPaused = false) (hauth : auth caller = true) :
    (∃ env', (releaseMilestoneTranche id i gross caller : Op H Unit) auth env = .ok ((), env')) ↔
      env.Releasable id i gross caller := by
  constructor
  · rintro ⟨env', h⟩
    rcases releaseMilestoneTranche_eq_ok.mp h with ⟨t, ht, -⟩
    have hafter : t.milestoneAfter.val = (env.milestoneReleasedOf id i).val + gross.val :=
      ht.milestoneAfter_eq
    have hle := ht.milestone_le
    exact ⟨t.escrow, t.milestone, ht.escrow_eq, ht.active, ht.caller_eq, ht.milestone_eq,
      ht.unlocked, ht.gross_pos, by omega⟩
  · exact hs.release_succeeds hpays htok hpaused hauth

/-- The refusals of a release, by what its caller got wrong; the addition of
    `overflow` exceeds the milestone as well. -/
inductive Env.RefusesRelease (env : Env H) (id : U64) (i : U32) (gross : I128) (caller : A) :
    TrustFlowError → Prop
  | amount (h : gross.val ≤ 0) : RefusesRelease env id i gross caller .invalidAmount
  | escrow (h : env.get (.escrow id) = none) : RefusesRelease env id i gross caller .escrowNotFound
  | caller {e : EscrowRecord A} (he : env.get (.escrow id) = some e) (h : caller ≠ e.depositor) :
      RefusesRelease env id i gross caller .unauthorized
  | status {e : EscrowRecord A} (he : env.get (.escrow id) = some e) (h : e.status ≠ .active) :
      RefusesRelease env id i gross caller .invalidState
  | index {e : EscrowRecord A} (he : env.get (.escrow id) = some e)
      (h : e.milestones.get i = none) : RefusesRelease env id i gross caller .milestoneNotFound
  | locked {e : EscrowRecord A} {m : Milestone} (he : env.get (.escrow id) = some e)
      (hm : e.milestones.get i = some m) (h : env.sequence.val < m.releaseTime.val) :
      RefusesRelease env id i gross caller .milestoneTimeLocked
  | overflow {e : EscrowRecord A} {m : Milestone} (he : env.get (.escrow id) = some e)
      (hm : e.milestones.get i = some m)
      (h : 170141183460469231731687303715884105727 <
        (env.milestoneReleasedOf id i).val + gross.val) :
      RefusesRelease env id i gross caller .invalidAmount
  | exceeded {e : EscrowRecord A} {m : Milestone} (he : env.get (.escrow id) = some e)
      (hm : e.milestones.get i = some m)
      (h : m.amount.val < (env.milestoneReleasedOf id i).val + gross.val) :
      RefusesRelease env id i gross caller .milestoneAmountMismatch

/-- A release fails for one of these reasons only: past the check of its
    milestone it succeeds. -/
theorem SingleInit.release_refused (hs : SingleInit env₀ h env)
    (hpays : H.tokens.PaysFrom H.self) (htok : env.inst .token = some tok)
    (hpaused : env.isPaused = false) (hauth : auth caller = true) {f : Fault}
    (hf : (releaseMilestoneTranche id i gross caller : Op H Unit) auth env = .error f) :
    ∃ err, f = .error err ∧ env.RefusesRelease id i gross caller err := by
  have hnot : ¬ env.Releasable id i gross caller := by
    intro hr
    rcases hs.release_succeeds hpays htok hpaused hauth hr with ⟨env', hok⟩
    cases hok.symm.trans hf
  have hm0 : 0 ≤ (env.milestoneReleasedOf id i).val ∨ env.get (.escrow id) = none := by
    cases he : env.get (.escrow id) with
    | none => exact Or.inr rfl
    | some e => exact Or.inl ((hs.sound.accounts he).counter_nonneg i)
  simp only [releaseMilestoneTranche, extendInstanceTtl, persistentGet, ledgerSequence,
    bind_eq_error, requireAuth_eq_ok, requireAuth_eq_error, modify_eq_ok, modify_eq_error,
    requireNotPaused_eq_ok, requireNotPaused_eq_error, failIf_eq_ok, failIf_eq_error, reads_eq_ok,
    reads_eq_error, okOr_eq_ok, okOr_eq_error, BoundedInt.checkedAdd_eq_some,
    BoundedInt.checkedAdd_eq_none, ↓existsAndEq, exists_const, and_assoc, exists_and_left,
    true_and, exists_eq_left, false_or, Env.isPaused_extendInstanceTtl, Env.get_extendInstanceTtl,
    Env.sequence_extendInstanceTtl, Env.milestoneReleasedOf_extendInstanceTtl, hauth, hpaused,
    Bool.true_eq_false, Bool.false_eq_true, false_and] at hf
  rcases hf with ⟨hpos, rfl⟩ | ⟨hpos, ⟨he, rfl⟩ | ⟨e, he, ⟨hcaller, rfl⟩ | ⟨hcaller,
    ⟨hactive, rfl⟩ | ⟨hactive, ⟨hm, rfl⟩ | ⟨m, hm, ⟨htime, rfl⟩ | ⟨htime, ⟨hover, rfl⟩ | ⟨n, hn,
    ⟨hexceeded, rfl⟩ | ⟨hfits, -⟩⟩⟩⟩⟩⟩⟩⟩
  · exact ⟨_, rfl, .amount hpos⟩
  · exact ⟨_, rfl, .escrow he⟩
  · exact ⟨_, rfl, .caller he hcaller⟩
  · exact ⟨_, rfl, .status he hactive⟩
  · exact ⟨_, rfl, .index he hm⟩
  · exact ⟨_, rfl, .locked he hm htime⟩
  · refine ⟨_, rfl, .overflow he hm ?_⟩
    rcases hm0 with hm0 | hnone
    · omega
    · cases hnone.symm.trans he
  · exact ⟨_, rfl, .exceeded he hm (by omega)⟩
  · refine absurd ⟨e, m, he, ?_, ?_, hm, by omega, by omega, by omega⟩ hnot
    · exact Decidable.not_not.mp hactive
    · exact Decidable.not_not.mp hcaller

end Release

/-! ### Resolution -/

section Resolution

variable {auth : A → Bool}

/-- What a resolution asks for. -/
def Env.Resolvable (env : Env H) (id : U64) : Prop :=
  ∃ d, env.get (.dispute id) = some d ∧ d.resolved = false ∧
    d.revealDeadline.val ≤ env.sequence.val ∧ (env.votersOf id).toList ≠ []

/-- The one limit of the loop over the minority: none of those it would slash has
    been slashed as often as a word can count. -/
def Env.CountsLeft (env : Env H) (id : U64) : Prop :=
  ∀ juror ∈ env.book.minority id, (env.slashCountOf juror).val < 4294967295

theorem SingleInit.resolve_succeeds (hs : SingleInit env₀ h env) (auth : A → Bool)
    (hpays : H.tokens.PaysFrom H.self) (htok : env.inst .token = some tok)
    (hpaused : env.isPaused = false) (hcounts : env.CountsLeft id) (hr : env.Resolvable id) :
    ∃ ruling env', (resolveDispute id : Op H Bool) auth env = .ok (ruling, env') := by
  rcases hr with ⟨d, hd, hopen, hdeadline, hvoters⟩
  rcases (hs.sound.file id).escrow_of_dispute hd with ⟨e, he⟩
  have hstatus := (hs.sound.proceedings he).status_of_unresolved hd hopen
  have hunsettled := hstatus.trans_ne EscrowStatus.disputed_ne_settled
  rcases Book.Slashes.exists_of_counts env.slashBps env.book hs.sound.stake_nonneg
    (hs.sound.minority_nodup id) hcounts with ⟨b₁, hslashes⟩
  have hlt : (env.releasedOf id).val < e.amount.val := (hs.sound.accounts he).open_lt hunsettled
  have hcovered := hs.locked_covered htok he hunsettled
  have hreleased : 0 ≤ (env.releasedOf id).val := (hs.sound.accounts he).released_nonneg
  have hhi := e.amount.le_hi
  obtain ⟨rest, hrest⟩ : ∃ n : I128, n.val = e.amount.val - (env.releasedOf id).val :=
    ⟨⟨_, by omega, by omega⟩, rfl⟩
  obtain ⟨p, hmove⟩ : ∃ p, Moves tok H.self
      (if env.book.ruling id = true then e.depositor else e.beneficiary) rest env.purse p :=
    exists_moves hpays (by omega) (by omega)
  have hresolve := Book.Resolve.intro (b := env.book) hpaused hd hopen hdeadline hvoters hslashes he
    htok hrest (.moved (by omega) hmove)
  rcases resolveDispute_book.mpr hresolve with ⟨env', hok, -⟩
  exact ⟨_, env', hok⟩

theorem SingleInit.resolve_succeeds_iff (hs : SingleInit env₀ h env)
    (hpays : H.tokens.PaysFrom H.self) (htok : env.inst .token = some tok)
    (hpaused : env.isPaused = false) (hcounts : env.CountsLeft id) :
    (∃ ruling env', (resolveDispute id : Op H Bool) auth env = .ok (ruling, env')) ↔
      env.Resolvable id := by
  constructor
  · rintro ⟨ruling, env', h⟩
    rcases resolveDispute_eq_ok.mp h with ⟨-, d, hd, hopen, hdeadline, hvoters, -⟩
    exact ⟨d, hd, hopen, hdeadline, hvoters⟩
  · exact hs.resolve_succeeds auth hpays htok hpaused hcounts

/-- The refusals of a resolution. -/
inductive Env.RefusesResolve (env : Env H) (id : U64) : TrustFlowError → Prop
  | dispute (h : env.get (.dispute id) = none) : RefusesResolve env id .disputeNotFound
  | resolved {d : DisputeRecord A} (hd : env.get (.dispute id) = some d) (h : d.resolved = true) :
      RefusesResolve env id .disputeAlreadyResolved
  | deadline {d : DisputeRecord A} (hd : env.get (.dispute id) = some d)
      (h : env.sequence.val < d.revealDeadline.val) : RefusesResolve env id .revealPhaseNotEnded
  | voters (h : (env.votersOf id).toList = []) : RefusesResolve env id .noVotesCast

theorem SingleInit.resolve_refused (hs : SingleInit env₀ h env)
    (hpays : H.tokens.PaysFrom H.self) (htok : env.inst .token = some tok)
    (hpaused : env.isPaused = false) (hcounts : env.CountsLeft id) {f : Fault}
    (hf : (resolveDispute id : Op H Bool) auth env = .error f) :
    ∃ err, f = .error err ∧ env.RefusesResolve id err := by
  have hnot : ¬ env.Resolvable id := by
    intro hr
    rcases hs.resolve_succeeds auth hpays htok hpaused hcounts hr with ⟨_, _, hok⟩
    cases hok.symm.trans hf
  have hvoters : env.extendInstanceTtl.votersOf id = env.votersOf id := rfl
  simp only [resolveDispute, extendInstanceTtl, persistentGet, ledgerSequence, bind_eq_error,
    modify_eq_ok, modify_eq_error, requireNotPaused_eq_ok, requireNotPaused_eq_error,
    failIf_eq_ok, failIf_eq_error, reads_eq_ok, reads_eq_error, okOr_eq_ok, okOr_eq_error,
    ↓existsAndEq, exists_const, and_assoc, exists_and_left, true_and, exists_eq_left, false_or,
    Env.isPaused_extendInstanceTtl, Env.get_extendInstanceTtl, Env.sequence_extendInstanceTtl,
    hpaused, hvoters, Bool.false_eq_true, false_and] at hf
  rcases hf with ⟨hd, rfl⟩ | ⟨d, hd, ⟨hresolved, rfl⟩ | ⟨hopen, ⟨hearly, rfl⟩ | ⟨hdeadline,
    ⟨hnone, rfl⟩ | ⟨hsome, -⟩⟩⟩⟩
  · exact ⟨_, rfl, .dispute hd⟩
  · exact ⟨_, rfl, .resolved hd hresolved⟩
  · exact ⟨_, rfl, .deadline hd hearly⟩
  · exact ⟨_, rfl, .voters hnone⟩
  · exact absurd ⟨d, hd, by simpa using hopen, by omega, hsome⟩ hnot

end Resolution

/-! ### Unstaking -/

section Unstaking

variable {auth : A → Bool} {juror : A} {amount : I128}

theorem SingleInit.unstake_succeeds_iff (hs : SingleInit env₀ h env)
    (hpays : H.tokens.PaysFrom H.self) (htok : env.inst .token = some tok)
    (hpaused : env.isPaused = false) (hauth : auth juror = true) :
    (∃ env', (unstake juror amount : Op H Unit) auth env = .ok ((), env')) ↔
      0 ≤ amount.val ∧ amount.val ≤ (env.stakeOf juror).val := by
  constructor
  · rintro ⟨env', h⟩
    rcases unstake_eq_ok.mp h with ⟨-, -, hle, tok', -, p, hmove, -⟩
    exact ⟨hmove.nonneg, hle⟩
  · rintro ⟨hnonneg, hle⟩
    have hcovered := hs.stake_covered htok juror
    have hhi := (env.stakeOf juror).le_hi
    obtain ⟨p, hmove⟩ : ∃ p, Moves tok H.self juror amount env.purse p :=
      exists_moves hpays hnonneg (by omega)
    obtain ⟨rest, hrest⟩ : ∃ n : I128, n.val = (env.stakeOf juror).val - amount.val :=
      ⟨⟨_, by omega, by omega⟩, rfl⟩
    exact ⟨_, unstake_eq_ok.mpr ⟨hauth, hpaused, hle, tok, htok, p, hmove, rest, hrest, rfl⟩⟩

/-- An `unstake` fails for an amount above the stake, which the contract refuses,
    or below zero, which the token does. -/
theorem SingleInit.unstake_refused (hs : SingleInit env₀ h env)
    (hpays : H.tokens.PaysFrom H.self) (htok : env.inst .token = some tok)
    (hpaused : env.isPaused = false) (hauth : auth juror = true) {f : Fault}
    (hf : (unstake juror amount : Op H Unit) auth env = .error f) :
    (f = .error .insufficientStake ∧ (env.stakeOf juror).val < amount.val) ∨
      (f = .tokenCall ∧ amount.val < 0) := by
  have hnot : ¬ (0 ≤ amount.val ∧ amount.val ≤ (env.stakeOf juror).val) := by
    intro hr
    rcases (hs.unstake_succeeds_iff hpays htok hpaused hauth).mpr hr with ⟨env', hok⟩
    cases hok.symm.trans hf
  simp only [unstake, extendInstanceTtl, instanceGet, bind_eq_error, requireAuth_eq_ok,
    requireAuth_eq_error, modify_eq_ok, modify_eq_error, requireNotPaused_eq_ok,
    requireNotPaused_eq_error, failIf_eq_ok, failIf_eq_error, reads_eq_ok, reads_eq_error,
    okOr_eq_ok, okOr_eq_error, tokenTransfer_eq_ok, tokenTransfer_eq_error, ↓existsAndEq,
    exists_const, and_assoc, exists_and_left, true_and, exists_eq_left, false_or,
    Env.isPaused_extendInstanceTtl, Env.stakeOf_extendInstanceTtl, Env.inst_extendInstanceTtl,
    Env.purse_extendInstanceTtl, hauth, hpaused, htok, Bool.true_eq_false, Bool.false_eq_true,
    false_and, reduceCtorEq, Option.some.injEq, exists_eq_left'] at hf
  rcases hf with ⟨hshort, rfl⟩ | ⟨hle, ⟨-, rfl⟩ | ⟨p, hmove, -⟩⟩
  · exact Or.inl ⟨rfl, hshort⟩
  · exact Or.inr ⟨rfl, by omega⟩
  · exact absurd ⟨hmove.nonneg, by omega⟩ hnot

end Unstaking

/-! ### All three -/

/-- In an initialised and unpaused deployment the exits succeed exactly when
    their callers' own conditions hold, and fail only with a refusal of one of
    these: no other check, no overflow and no transfer stops them. -/
theorem exits_never_fail_internally (hs : SingleInit env₀ h env)
    (hinit : ∃ t ∈ h, t.label.Initialises = true) (hpays : H.tokens.PaysFrom H.self)
    (hpaused : env.isPaused = false) (auth : A → Bool) :
    (∀ id i gross caller, auth caller = true →
      ((∃ env', (releaseMilestoneTranche id i gross caller : Op H Unit) auth env =
        .ok ((), env')) ↔ env.Releasable id i gross caller) ∧
      ∀ f, (releaseMilestoneTranche id i gross caller : Op H Unit) auth env = .error f →
        ∃ err, f = .error err ∧ env.RefusesRelease id i gross caller err) ∧
    (∀ id, env.CountsLeft id →
      ((∃ ruling env', (resolveDispute id : Op H Bool) auth env = .ok (ruling, env')) ↔
        env.Resolvable id) ∧
      ∀ f, (resolveDispute id : Op H Bool) auth env = .error f →
        ∃ err, f = .error err ∧ env.RefusesResolve id err) ∧
    ∀ juror amount, auth juror = true →
      ((∃ env', (unstake juror amount : Op H Unit) auth env = .ok ((), env')) ↔
        0 ≤ amount.val ∧ amount.val ≤ (env.stakeOf juror).val) ∧
      ∀ f, (unstake juror amount : Op H Unit) auth env = .error f →
        (f = .error .insufficientStake ∧ (env.stakeOf juror).val < amount.val) ∨
          (f = .tokenCall ∧ amount.val < 0) := by
  rcases hs.exists_token hinit with ⟨tok, htok⟩
  refine ⟨?_, ?_, ?_⟩
  · intro id i gross caller hauth
    exact ⟨hs.release_succeeds_iff hpays htok hpaused hauth,
      fun f => hs.release_refused hpays htok hpaused hauth⟩
  · intro id hcounts
    exact ⟨hs.resolve_succeeds_iff hpays htok hpaused hcounts,
      fun f => hs.resolve_refused hpays htok hpaused hcounts⟩
  · intro juror amount hauth
    exact ⟨hs.unstake_succeeds_iff hpays htok hpaused hauth,
      fun f => hs.unstake_refused hpays htok hpaused hauth⟩

/-- After a stake of 30 and a release of 25 out of 100, the stake can be withdrawn. -/
theorem exits_never_fail_internally_sample :
    ∃ (h : History Host.plain) (env : Env Host.plain), SingleInit Env.deployed h env ∧
      env.isPaused = false ∧ env.lockedOf 1 = 75 ∧ ∃ env',
      (unstake 3 ⟨30, by decide, by decide⟩ : Op Host.plain Unit) (fun a => a == 3) env =
        .ok ((), env') := by
  rcases Env.exists_of_plays stakeAndRelease
    (fun h env => decide ((∃ t ∈ h, t.label.Initialises = true) ∧ env.isPaused = false ∧
      env.lockedOf 1 = 75 ∧ (env.stakeOf 3).val = 30)) (by decide +kernel) with ⟨h, env, hs, hend⟩
  rcases of_decide_eq_true hend with ⟨hinit, hpaused, hlocked, hstake⟩
  have hexits := exits_never_fail_internally hs hinit (Tokens.balances_paysFrom 0) hpaused
    fun a => a == 3
  exact ⟨h, env, hs, hpaused, hlocked, (hexits.2.2 3 _ rfl).1.mpr ⟨by decide, hstake.ge⟩⟩

end TrustFlow
