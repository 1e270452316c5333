import TrustFlow.Exits
import TrustFlow.CommitReveal
import TrustFlow.Openings

/-!
# Can an escrow always be settled?

An active escrow with milestones can be released, and any other open escrow
needs a vote on its dispute.  `Book.Stuck` describes the escrows that will never
get one: nobody can still reveal a vote in time.  No step leaves a stuck escrow
anything but stuck (`Stuck.step`), and an escrow that is not stuck can be
settled by a run the module constructs; so the two exclude each other exactly.

For that the tokens must do what they are asked: a covered transfer of any
holder succeeds, and a juror can be given a token to stake.
-/

namespace TrustFlow

open Transition Purse Invocation

variable {A D : Type}

/-! ### Stuck escrows -/

section Deadlines

variable (id : U64) (caller : A) (reason : String) (now : U32)

theorem DisputeRecord.raised_commitDeadline :
    (DisputeRecord.raised id caller reason now).commitDeadline.val =
      min 4294967295 (now.val + 17280) := by
  have hlo := now.lo_le
  show max 0 (min 4294967295 (now.val + 17280)) = _
  omega

theorem DisputeRecord.raised_revealDeadline :
    (DisputeRecord.raised id caller reason now).revealDeadline.val =
      min 4294967295 ((DisputeRecord.raised id caller reason now).commitDeadline.val + 17280) := by
  have hlo := (DisputeRecord.raised id caller reason now).commitDeadline.lo_le
  show max 0 (min 4294967295
    ((DisputeRecord.raised id caller reason now).commitDeadline.val + 17280)) = _
  omega

end Deadlines

variable [DecidableEq A] {H : Host A D}

namespace Book

variable {b b' : Book H} {l : Label H} {id : U64} {d : DisputeRecord A} {juror : A}

/-- `juror` can still get a vote on the dispute `d` revealed: by committing in
    time, or by opening the commitment it has made. -/
def CanVote (b : Book H) (id : U64) (d : DisputeRecord A) (juror : A) : Prop :=
  d.commitDeadline.val < d.revealDeadline.val ∧
    ((b.commit id juror = none ∧ b.sequence.val < d.commitDeadline.val) ∨
      ((∃ vote salt, b.commit id juror = some (hashVote H vote salt)) ∧
        b.sequence.val < d.revealDeadline.val))

/-- Who can vote later can vote now. -/
theorem CanVote.of_later (h : b'.CanVote id d juror)
    (hcommit : b'.commit id juror = b.commit id juror)
    (hnow : b.sequence.val ≤ b'.sequence.val) : b.CanVote id d juror := by
  rcases h with ⟨hdeadlines, ⟨hnone, hbefore⟩ | ⟨hknown, hbefore⟩⟩
  · exact ⟨hdeadlines, Or.inl ⟨hcommit ▸ hnone, by omega⟩⟩
  · exact ⟨hdeadlines, Or.inr ⟨hcommit ▸ hknown, by omega⟩⟩

/-- An open escrow that will never be settled: it has no milestones and it is too
    late for a dispute with two windows, or its dispute has no vote and nobody
    can bring one. -/
inductive Stuck (b : Book H) (id : U64) : Prop
  | active {e : EscrowRecord A} (he : b.escrow id = some e) (hactive : e.status = .active)
      (hnone : e.milestones.toList = []) (hlate : 4294967295 ≤ b.sequence.val + 17280) : Stuck b id
  | disputed {e : EscrowRecord A} {d : DisputeRecord A} (he : b.escrow id = some e)
      (hdisputed : e.status = .disputed) (hd : b.dispute id = some d) (hopen : d.resolved = false)
      (hquiet : b.votersOf id = [])
      (hnobody : ∀ juror, juror ≠ H.self → ¬ b.CanVote id d juror) : Stuck b id

theorem Stuck.not_settled (h : b.Stuck id) {e : EscrowRecord A} (he : b.escrow id = some e) :
    e.status ≠ .settled := by
  cases h with
  | active he' hactive =>
      cases he.symm.trans he'
      exact hactive.trans_ne EscrowStatus.active_ne_settled
  | disputed he' hdisputed =>
      cases he.symm.trans he'
      exact hdisputed.trans_ne EscrowStatus.disputed_ne_settled

/-- Without milestones there is nothing to release, and a dispute raised too late
    has no time for a reveal. -/
theorem Stuck.step_active {e : EscrowRecord A} (hb : b.Sound) (hstep : b.Step l b')
    (he : b.escrow id = some e) (hactive : e.status = .active) (hnone : e.milestones.toList = [])
    (hlate : 4294967295 ≤ b.sequence.val + 17280) : b'.Stuck id := by
  have hnow := hstep.sequence_le
  have hundisputed : b.dispute id = none := (hb.proceedings he).active hactive
  cases hstep.on_file id with
  | untouched _ hsame =>
      exact .active ((congrArg File.escrow hsame).trans he) hactive hnone (by omega)
  | opened _ _ hopen =>
      have hempty : b.escrow id = none := congrArg File.escrow (hb.unusedAbove.opens hopen)
      cases hempty.symm.trans he
  | released ht =>
      cases he.symm.trans ht.escrow_eq
      have hget := ht.milestone_eq
      rw [Vec.get, hnone] at hget
      cases hget
  | @raised _ caller reason _ _ _ _ _ hnew =>
      rcases (hb.proceedings he).quiet hundisputed with ⟨hvoters, -, -⟩
      have hquiet : b'.votersOf id = [] := by
        show (b'.file id).votersOf = []
        rw [hnew]
        show ((b.file id).voters.getD Vec.empty).toList = []
        rw [hvoters]
        rfl
      refine .disputed (congrArg File.escrow hnew) rfl (congrArg File.dispute hnew) rfl hquiet ?_
      rintro juror - ⟨hdeadlines, -⟩
      have hcommit := DisputeRecord.raised_commitDeadline id caller reason b.sequence
      have hreveal := DisputeRecord.raised_revealDeadline id caller reason b.sequence
      omega
  | committed _ _ _ hd => cases hundisputed.symm.trans hd
  | revealed _ _ hd => cases hundisputed.symm.trans hd
  | resolved _ hd => cases hundisputed.symm.trans hd

/-- A dispute nobody can vote on stays without votes. -/
theorem Stuck.step_disputed {e : EscrowRecord A} (hb : b.Sound) (hstep : b.Step l b')
    (he : b.escrow id = some e) (hdisputed : e.status = .disputed) (hd : b.dispute id = some d)
    (hopen : d.resolved = false) (hquiet : b.votersOf id = [])
    (hnobody : ∀ juror, juror ≠ H.self → ¬ b.CanVote id d juror) : b'.Stuck id := by
  have hnow := hstep.sequence_le
  have hinactive := hdisputed.trans_ne EscrowStatus.disputed_ne_active
  cases hstep.on_file id with
  | untouched _ hsame =>
      refine .disputed ((congrArg File.escrow hsame).trans he) hdisputed
        ((congrArg File.dispute hsame).trans hd) hopen
        ((congrArg File.votersOf hsame).trans hquiet) ?_
      intro juror hj hcan
      exact hnobody juror hj (hcan.of_later (congrFun (congrArg File.commit hsame) juror) hnow)
  | opened _ _ hopen' =>
      have hempty : b.escrow id = none := congrArg File.escrow (hb.unusedAbove.opens hopen')
      cases hempty.symm.trans he
  | released ht =>
      cases he.symm.trans ht.escrow_eq
      exact absurd ht.active hinactive
  | raised _ he' hactive =>
      cases he.symm.trans he'
      exact absurd hactive hinactive
  | @committed auth juror' c _ _ hself hauth _ hd' _ hwindow hfresh hnew =>
      cases hd.symm.trans hd'
      have hj : juror' ≠ H.self := by
        rintro rfl
        exact absurd hauth (by simp [hself])
      -- whoever still commits finds no reveal window behind the commit window
      have hclosed : ¬ d.commitDeadline.val < d.revealDeadline.val := fun hlt =>
        hnobody juror' hj ⟨hlt, Or.inl ⟨hfresh, hwindow⟩⟩
      refine .disputed ((congrArg File.escrow hnew).trans he) hdisputed
        ((congrArg File.dispute hnew).trans hd) hopen
        ((congrArg File.votersOf hnew).trans hquiet) ?_
      exact fun juror _ hcan => hclosed hcan.1
  | @revealed auth juror' vote salt _ _ _ hself hauth hd' _ hfrom huntil _ hcommit =>
      cases hd.symm.trans hd'
      have hj : juror' ≠ H.self := by
        rintro rfl
        exact absurd hauth (by simp [hself])
      exact absurd ⟨by omega, Or.inr ⟨⟨vote, salt, hcommit⟩, huntil⟩⟩ (hnobody juror' hj)
  | resolved _ _ _ _ hvoters => exact absurd hquiet hvoters

theorem Stuck.step (h : b.Stuck id) (hb : b.Sound) (hstep : b.Step l b') : b'.Stuck id := by
  cases h with
  | active he hactive hnone hlate => exact step_active hb hstep he hactive hnone hlate
  | disputed he hdisputed hd hopen hquiet hnobody =>
      exact step_disputed hb hstep he hdisputed hd hopen hquiet hnobody

end Book

/-! ### Ways out -/

/-- A release leaves the settings and the ledger alone. -/
theorem Book.Release.frame {b b' : Book H} {auth : A → Bool} {id : U64} {i : U32} {gross : I128}
    {caller : A} (h : b.Release auth id i gross caller b') :
    b'.settings = b.settings ∧ b'.sequence = b.sequence := by
  cases h
  exact ⟨rfl, rfl⟩

theorem Book.minority_of_single {b : Book H} {id : U64} {juror : A}
    (h : b.votersOf id = [juror]) : b.minority id = [] := by
  rw [minority, ruling, forDepositor, forBeneficiary, h]
  cases hv : b.voteOf id juror <;> simp [hv]

variable [DecidableEq D]

/-- Calls other than `initialize` and the passing of ledgers can settle the escrow. -/
def Env.Settles (env : Env H) (id : U64) : Prop :=
  Possibly Step (fun l : Label H => l.Initialises = false)
    (fun env => ∃ e, env.get (.escrow id) = some e ∧ e.status = .settled) env

/-- The authorisation of one address. -/
def onlyBy (a : A) : A → Bool := fun x => decide (x = a)

theorem onlyBy_self (a : A) : onlyBy a a = true := decide_eq_true rfl

theorem onlyBy_of_ne {a x : A} (h : a ≠ x) : onlyBy a x = false := decide_eq_false h.symm

namespace SingleInit

variable {env₀ env : Env H} {h : History H} {id : U64} {d : DisputeRecord A} {juror : A}

theorem token_of_escrow (hs : SingleInit env₀ h env) {e : EscrowRecord A}
    (he : env.book.escrow id = some e) : ∃ tok, env.inst .token = some tok :=
  Option.isSome_iff_exists.mp (hs.sound.escrow_token id e he)

/-- Once the deadlines have passed a dispute with votes is resolved. -/
theorem settles_by_resolution (hs : SingleInit env₀ h env) (hpays : H.tokens.PaysFrom H.self)
    (hpaused : env.isPaused = false) (hcounts : env.CountsLeft id) (hr : env.Resolvable id) :
    env.Settles id := by
  rcases hr with ⟨d, hd, hr⟩
  rcases (hs.sound.file id).escrow_of_dispute hd with ⟨e, he⟩
  rcases hs.token_of_escrow he with ⟨tok, htok⟩
  rcases hs.resolve_succeeds (fun _ => false) hpays htok hpaused hcounts ⟨d, hd, hr⟩ with
    ⟨ruling, env', hok⟩
  have hstep : Step env (.call (fun _ => false) (.resolveDispute id) ruling) env' := .call rfl hok
  refine .step hstep rfl (.now ?_)
  cases hstep.book.on_file id with
  | untouched hl => exact absurd rfl hl
  | opened _ hl => cases hl
  | resolved _ _ _ _ _ _ hnew => exact ⟨_, congrArg File.escrow hnew, rfl⟩

/-- A dispute with votes only has to wait. -/
theorem settles_by_votes (hs : SingleInit env₀ h env) (hpays : H.tokens.PaysFrom H.self)
    (hpaused : env.isPaused = false) (hcounts : env.CountsLeft id)
    (hd : env.book.dispute id = some d) (hopen : d.resolved = false)
    (hvoters : env.book.votersOf id ≠ []) : env.Settles id := by
  by_cases hdue : d.revealDeadline.val ≤ env.sequence.val
  · exact hs.settles_by_resolution hpays hpaused hcounts ⟨d, hd, hopen, hdue, hvoters⟩
  · have hclose : Step env (.close d.revealDeadline) { env with sequence := d.revealDeadline } :=
      .close (by omega)
    exact .step hclose rfl ((hs.snoc hclose rfl).settles_by_resolution hpays hpaused hcounts
      ⟨d, hd, hopen, le_rfl, hvoters⟩)

/-- The opening of one commitment is a vote. -/
theorem settles_by_reveal (hs : SingleInit env₀ h env) (hpays : H.tokens.PaysFrom H.self)
    (hpaused : env.isPaused = false) (hd : env.book.dispute id = some d)
    (hopen : d.resolved = false) (hquiet : env.book.votersOf id = []) (hself : juror ≠ H.self)
    {vote : Bool} {salt : Vector UInt8 32}
    (hcommit : env.book.commit id juror = some (hashVote H vote salt))
    (hfrom : d.commitDeadline.val ≤ env.sequence.val)
    (huntil : env.sequence.val < d.revealDeadline.val) : env.Settles id := by
  rcases (hs.sound.file id).escrow_of_dispute hd with ⟨e, he⟩
  have hfresh : env.book.vote id juror = none := by
    by_contra hv
    have hmem : juror ∈ env.book.votersOf id := ((hs.sound.proceedings he).mem_voters juror).mpr hv
    rw [hquiet] at hmem
    cases hmem
  obtain ⟨voters, hvoters⟩ : ∃ v : Vec A, v.toList = [juror] := ⟨⟨[juror], by simp⟩, rfl⟩
  have happend : voters.toList = env.book.votersOf id ++ [juror] := by
    rw [hquiet, hvoters]
    rfl
  have hreveal := Book.Reveal.intro (b := env.book) (onlyBy_self juror) hpaused hd hopen hfrom
    huntil hfresh hcommit happend
  rcases revealVote_book.mpr hreveal with ⟨env', hok, hbook⟩
  have hstep : Step env (.call (onlyBy juror) (.revealVote id juror vote salt) ()) env' :=
    .call (onlyBy_of_ne hself) hok
  have hd' : env'.book.dispute id = some d := by
    rw [hbook]
    exact hd
  have hpaused' : env'.book.settings.isPaused = false := by
    rw [hbook]
    exact hpaused
  have hone : env'.book.votersOf id = [juror] := by
    rw [hbook]
    simp [Book.votersOf, hvoters]
  have hcounts : env'.CountsLeft id := by
    rw [Env.CountsLeft, Book.minority_of_single hone]
    exact nofun
  refine .step hstep rfl ((hs.snoc hstep rfl).settles_by_votes hpays hpaused' hcounts hd' hopen ?_)
  rw [hone]
  exact List.cons_ne_nil _ _

/-- A commitment with a known opening only has to wait for the reveal window. -/
theorem settles_by_commitment (hs : SingleInit env₀ h env) (hpays : H.tokens.PaysFrom H.self)
    (hpaused : env.isPaused = false) (hd : env.book.dispute id = some d)
    (hopen : d.resolved = false) (hquiet : env.book.votersOf id = []) (hself : juror ≠ H.self)
    {vote : Bool} {salt : Vector UInt8 32}
    (hcommit : env.book.commit id juror = some (hashVote H vote salt))
    (hdeadlines : d.commitDeadline.val < d.revealDeadline.val)
    (huntil : env.sequence.val < d.revealDeadline.val) : env.Settles id := by
  by_cases hfrom : d.commitDeadline.val ≤ env.sequence.val
  · exact hs.settles_by_reveal hpays hpaused hd hopen hquiet hself hcommit hfrom huntil
  · have hclose : Step env (.close d.commitDeadline) { env with sequence := d.commitDeadline } :=
      .close (by omega)
    exact .step hclose rfl ((hs.snoc hclose rfl).settles_by_reveal hpays hpaused hd hopen hquiet
      hself hcommit le_rfl hdeadlines)

/-- A staked juror commits to a vote it knows. -/
theorem settles_by_commit (hs : SingleInit env₀ h env) (hpays : H.tokens.PaysFrom H.self)
    (hpaused : env.isPaused = false) (hd : env.book.dispute id = some d)
    (hopen : d.resolved = false) (hquiet : env.book.votersOf id = []) (hself : juror ≠ H.self)
    (hstake : 0 < (env.book.stake juror).val) (hfresh : env.book.commit id juror = none)
    (hwindow : env.sequence.val < d.commitDeadline.val)
    (hdeadlines : d.commitDeadline.val < d.revealDeadline.val) : env.Settles id := by
  let salt : Vector UInt8 32 := Vector.replicate 32 0
  have hcommit := Book.Commit.intro (b := env.book) (c := hashVote H true salt)
    (onlyBy_self juror) hpaused hstake hd hopen hwindow hfresh
  rcases commitVote_book.mpr hcommit with ⟨env', hok, hbook⟩
  have hstep : Step env (.call (onlyBy juror) (.commitVote id juror (hashVote H true salt)) ())
      env' := .call (onlyBy_of_ne hself) hok
  have hd' : env'.book.dispute id = some d := by
    rw [hbook]
    exact hd
  have hpaused' : env'.book.settings.isPaused = false := by
    rw [hbook]
    exact hpaused
  have hquiet' : env'.book.votersOf id = [] := by
    rw [hbook]
    exact hquiet
  have hcommitted : env'.book.commit id juror = some (hashVote H true salt) := by
    rw [hbook]
    simp
  have hnow : env'.book.sequence.val = env.sequence.val := by
    rw [hbook]
    rfl
  refine .step hstep rfl ((hs.snoc hstep rfl).settles_by_commitment hpays hpaused' hd' hopen
    hquiet' hself hcommitted hdeadlines ?_)
  show env'.book.sequence.val < _
  omega

/-- An address without stake is given a token and stakes it. -/
theorem settles_by_juror (hs : SingleInit env₀ h env) (hpays : ∀ x, H.tokens.PaysFrom x)
    (hfund : H.tokens.Fundable H.self) (hpaused : env.isPaused = false)
    (hd : env.book.dispute id = some d) (hopen : d.resolved = false)
    (hquiet : env.book.votersOf id = []) (hself : juror ≠ H.self)
    (hfresh : env.book.commit id juror = none) (hwindow : env.sequence.val < d.commitDeadline.val)
    (hdeadlines : d.commitDeadline.val < d.revealDeadline.val) : env.Settles id := by
  by_cases hstake : 0 < (env.book.stake juror).val
  · exact hs.settles_by_commit (hpays _) hpaused hd hopen hquiet hself hstake hfresh hwindow
      hdeadlines
  · rcases (hs.sound.file id).escrow_of_dispute hd with ⟨e, he⟩
    rcases hs.token_of_escrow he with ⟨tok, htok⟩
    rcases hfund env.purse.state tok juror hself with ⟨s, hfunded, hkept⟩
    have htokens : Step env (.tokens s) (env.setPurse ⟨s, env.purse.transfers⟩) := .tokens hkept
    have hs₁ := hs.snoc htokens rfl
    have h0 := hs.sound.stake_nonneg juror
    let one : I128 := ⟨1, by decide, by decide⟩
    obtain ⟨total, htotal⟩ : ∃ n : I128, n.val = (env.book.stake juror).val + one.val :=
      ⟨⟨(env.book.stake juror).val + 1, by omega, by omega⟩, rfl⟩
    obtain ⟨p, hmove⟩ : ∃ p, Moves tok juror H.self one
        (⟨s, env.purse.transfers⟩ : Purse H.tokens) p :=
      exists_moves (hpays juror) (by decide) hfunded
    have hstakes := Book.Stake.intro (b := (env.setPurse ⟨s, env.purse.transfers⟩).book)
      (onlyBy_self juror) hpaused (show 0 < one.val by decide) htok hmove htotal
    rcases stake_book.mpr hstakes with ⟨env', hok, hbook⟩
    have hstep : Step (env.setPurse ⟨s, env.purse.transfers⟩)
        (.call (onlyBy juror) (.stake juror one) ()) env' := .call (onlyBy_of_ne hself) hok
    have hd' : env'.book.dispute id = some d := by
      rw [hbook]
      exact hd
    have hpaused' : env'.book.settings.isPaused = false := by
      rw [hbook]
      exact hpaused
    have hquiet' : env'.book.votersOf id = [] := by
      rw [hbook]
      exact hquiet
    have hfresh' : env'.book.commit id juror = none := by
      rw [hbook]
      exact hfresh
    have hstake' : 0 < (env'.book.stake juror).val := by
      have hone : one.val = 1 := rfl
      rw [hbook]
      simp only [Function.update_self]
      omega
    have hwindow' : env'.book.sequence.val < d.commitDeadline.val := by
      rw [hbook]
      exact hwindow
    exact .step htokens rfl (.step hstep rfl ((hs₁.snoc hstep rfl).settles_by_commit (hpays _)
      hpaused' hd' hopen hquiet' hself hstake' hfresh' hwindow' hdeadlines))

/-- With time for two windows the depositor raises a dispute and votes on it. -/
theorem settles_by_dispute (hs : SingleInit env₀ h env) (hpays : ∀ x, H.tokens.PaysFrom x)
    (hfund : H.tokens.Fundable H.self) (hpaused : env.isPaused = false) {e : EscrowRecord A}
    (he : env.book.escrow id = some e) (hactive : e.status = .active)
    (htime : env.sequence.val + 17280 < 4294967295) : env.Settles id := by
  have hself : e.depositor ≠ H.self := (hs.sound.accounts he).depositor_ne
  rcases (hs.sound.proceedings he).quiet ((hs.sound.proceedings he).active hactive) with
    ⟨hvoters, hcommits, -⟩
  let d : DisputeRecord A := .raised id e.depositor "" env.sequence
  have hraise : env.book.Raise (onlyBy e.depositor) id e.depositor "" _ :=
    .intro (onlyBy_self e.depositor) hpaused he hactive (Or.inl rfl)
  rcases raiseDispute_book.mpr hraise with ⟨env', hok, hbook⟩
  have hstep : Step env (.call (onlyBy e.depositor) (.raiseDispute id e.depositor "") ()) env' :=
    .call (onlyBy_of_ne hself) hok
  have hd : env'.book.dispute id = some d := by
    rw [hbook]
    exact Function.update_self ..
  have hpaused' : env'.book.settings.isPaused = false := by
    rw [hbook]
    exact hpaused
  have hquiet : env'.book.votersOf id = [] := by
    have hnone : env.book.voters id = none := hvoters
    rw [hbook, Book.votersOf]
    show ((env.book.voters id).getD Vec.empty).toList = []
    rw [hnone]
    rfl
  have hfresh : env'.book.commit id e.depositor = none := by
    rw [hbook]
    exact hcommits e.depositor
  have hcommit : d.commitDeadline.val = min 4294967295 (env.sequence.val + 17280) :=
    DisputeRecord.raised_commitDeadline ..
  have hreveal : d.revealDeadline.val = min 4294967295 (d.commitDeadline.val + 17280) :=
    DisputeRecord.raised_revealDeadline ..
  have hwindow : env'.book.sequence.val < d.commitDeadline.val := by
    rw [hbook]
    show env.sequence.val < _
    omega
  exact .step hstep rfl ((hs.snoc hstep rfl).settles_by_juror hpays hfund hpaused' hd rfl hquiet
    hself hfresh hwindow (by omega))

/-- The depositor releases one milestone after the other, as long as one is left. -/
theorem settles_by_releases (hs : SingleInit env₀ h env) (hpays : H.tokens.PaysFrom H.self)
    (hpaused : env.isPaused = false) {e : EscrowRecord A} (he : env.book.escrow id = some e)
    (hactive : e.status = .active) (hne : e.terms ≠ [])
    (hunlocked : ∀ m ∈ e.terms, m.releaseTime.val ≤ env.sequence.val) : env.Settles id := by
  -- induction on what is left to release
  obtain ⟨left, hleft⟩ : ∃ n : Nat, n = (e.amount.val - (env.releasedOf id).val).toNat := ⟨_, rfl⟩
  induction left using Nat.strongRecOn generalizing h env e with
  | ind left ih =>
    have hopen := hactive.trans_ne EscrowStatus.active_ne_settled
    have ha := hs.sound.accounts he
    rcases ha.exists_unpaid hne hopen with ⟨i, m, hm, hlt⟩
    have hmem : m.terms ∈ e.terms := List.mem_map_of_mem (List.mem_of_getElem? hm)
    have hnonneg := ha.counter_nonneg i
    have hhi := m.amount.le_hi
    obtain ⟨gross, hgross⟩ : ∃ n : I128, n.val = m.amount.val -
        ((env.book.file id).milestoneReleasedOf i).val := ⟨⟨_, by omega, by omega⟩, rfl⟩
    have hreleasable : env.Releasable id i gross e.depositor := by
      refine ⟨e, m, he, hactive, rfl, hm, hunlocked _ hmem, by omega, ?_⟩
      have hsame : env.milestoneReleasedOf id i = (env.book.file id).milestoneReleasedOf i := rfl
      rw [hsame]
      omega
    rcases hs.token_of_escrow he with ⟨tok, htok⟩
    rcases hs.release_succeeds hpays htok hpaused (onlyBy_self e.depositor) hreleasable with
      ⟨env', hok⟩
    have hstep : Step env (.call (onlyBy e.depositor)
        (.releaseMilestoneTranche id i gross e.depositor) ()) env' :=
      .call (onlyBy_of_ne ha.depositor_ne) hok
    have hs' := hs.snoc hstep rfl
    refine .step hstep rfl ?_
    rcases (releaseMilestoneTranche_book.mp ⟨env', hok, rfl⟩).frame with ⟨hsettings, hnow⟩
    cases hstep.book.on_file id with
    | untouched hl => exact absurd rfl hl
    | opened _ hl => cases hl
    | @released _ _ _ _ t _ _ ht _ _ hnew =>
      cases he.symm.trans ht.escrow_eq
      have he' : env'.book.escrow id = some (t.escrowAfter i) := congrArg File.escrow hnew
      by_cases hstatus : (t.escrowAfter i).status = .settled
      · exact .now ⟨t.escrowAfter i, he', hstatus⟩
      · have hactive' : (t.escrowAfter i).status = .active := by
          have hsame : (t.escrowAfter i).status = t.escrow.status :=
            if_neg fun heq => hstatus (if_pos heq)
          rw [hsame, hactive]
        have hterms := Tranche.terms_escrowAfter ht.milestone_eq
        have hpaused' : env'.book.settings.isPaused = false := by
          rw [hsettings]
          exact hpaused
        have hreleased : env'.releasedOf id = t.releasedAfter := congrArg File.releasedOf hnew
        have hafter : t.releasedAfter.val = (env.releasedOf id).val + gross.val :=
          ht.releasedAfter_eq
        have hlt := (hs.sound.accounts he).open_lt hopen
        have hbefore : (env.book.file id).releasedOf = env.releasedOf id := rfl
        rw [hbefore] at hlt
        refine ih _ ?_ hs' hpaused' he' hactive' (hterms ▸ hne) ?_ rfl
        · have hamount : (t.escrowAfter i).amount = t.escrow.amount := rfl
          rw [hreleased, hamount]
          omega
        · rw [hterms]
          intro m' hm'
          show m'.releaseTime.val ≤ env'.book.sequence.val
          rw [hnow]
          exact hunlocked m' hm'

/-- Whoever is the admin can lift a pause, so it stops nothing for good. -/
theorem settles_of_unpaused (hs : SingleInit env₀ h env) {e : EscrowRecord A}
    (he : env.book.escrow id = some e)
    (hnext : ∀ {h' : History H} {env' : Env H}, SingleInit env₀ h' env' →
      env'.book = { env.book with settings := env.book.settings.setPaused false } →
      env'.isPaused = false → env'.Settles id) : env.Settles id := by
  have htoken := hs.sound.escrow_token id e he
  rw [hs.sound.token_isSome] at htoken
  rcases Option.isSome_iff_exists.mp htoken with ⟨admin, hadmin⟩
  have hself : admin ≠ H.self := by
    rintro rfl
    exact hs.sound.admin_ne hadmin
  have hok := (unpause_eq_ok (u := ())).mpr ⟨onlyBy_self admin, hadmin, rfl⟩
  have hstep : Step env (.call (onlyBy admin) (.unpause admin) ())
      (env.setPaused false "unpause" (.contractUnpaused admin)) := .call (onlyBy_of_ne hself) hok
  have hbook : (env.setPaused false "unpause" (.contractUnpaused admin)).book =
      { env.book with settings := env.book.settings.setPaused false } := Env.book_setPaused rfl
  refine .step hstep rfl (hnext (hs.snoc hstep rfl) hbook ?_)
  show (env.setPaused false "unpause" (.contractUnpaused admin)).book.settings.isPaused = false
  rw [hbook]
  exact env.book.settings.setPaused_isPaused false

end SingleInit

/-! ### Exactly the escrows that are not stuck -/

/-- Why an open escrow can still be settled. -/
inductive Env.Escapable (env : Env H) (id : U64) (e : EscrowRecord A) : Prop
  | milestones (hactive : e.status = .active) (h : e.milestones.toList ≠ []) : Escapable env id e
  | time (hactive : e.status = .active) (h : env.sequence.val + 17280 < 4294967295) :
      Escapable env id e
  | votes (hdisputed : e.status = .disputed) (h : (env.votersOf id).toList ≠ []) :
      Escapable env id e
  | juror {d : DisputeRecord A} {juror : A} (hdisputed : e.status = .disputed)
      (hd : env.get (.dispute id) = some d) (hself : juror ≠ H.self)
      (h : env.book.CanVote id d juror) : Escapable env id e

section Escapes

variable {env₀ env : Env H} {h : History H} {id : U64} {e : EscrowRecord A}

theorem SingleInit.settles_of_escapable (hs : SingleInit env₀ h env)
    (hpays : ∀ x, H.tokens.PaysFrom x) (hfund : H.tokens.Fundable H.self)
    (he : env.book.escrow id = some e) (hcounts : env.CountsLeft id)
    (hescape : env.Escapable id e) : env.Settles id := by
  apply hs.settles_of_unpaused he
  intro h' env' hs' hbook hpaused
  have he' : env'.book.escrow id = some e := by
    rw [hbook]
    exact he
  have hcounts' : env'.CountsLeft id := by
    show ∀ juror ∈ env'.book.minority id, (env'.book.slashCount juror).val < 4294967295
    rw [hbook]
    exact hcounts
  have hnow : env'.sequence = env.sequence := congrArg Book.sequence hbook
  have hvoters : env'.book.votersOf id = env.book.votersOf id := by
    rw [hbook]
    rfl
  cases hescape with
  | milestones hactive hne =>
      have hterms : e.terms ≠ [] := fun hnil => hne (List.map_eq_nil_iff.mp hnil)
      -- at the last ledger no milestone is locked
      let last : U32 := ⟨4294967295, by decide, le_rfl⟩
      have hclose : Step env' (.close last) { env' with sequence := last } :=
        .close env'.sequence.le_hi
      exact .step hclose rfl ((hs'.snoc hclose rfl).settles_by_releases (hpays _) hpaused he'
        hactive hterms fun m _ => m.releaseTime.le_hi)
  | time hactive htime =>
      exact hs'.settles_by_dispute hpays hfund hpaused he' hactive (by rw [hnow]; exact htime)
  | votes hdisputed hvoted =>
      rcases (hs'.sound.proceedings he').disputed hdisputed with ⟨d, hd, hopen⟩
      apply hs'.settles_by_votes (hpays _) hpaused hcounts' hd hopen
      rw [hvoters]
      exact hvoted
  | @juror d juror hdisputed hd hself hcan =>
      have hd' : env'.book.dispute id = some d := by
        rw [hbook]
        exact hd
      rcases (hs'.sound.proceedings he').disputed hdisputed with ⟨d', hd'', hopen⟩
      cases hd'.symm.trans hd''
      by_cases hquiet : env'.book.votersOf id = []
      · have hcommit : env'.book.commit id juror = env.book.commit id juror := by rw [hbook]
        rcases hcan with ⟨hdeadlines, ⟨hfresh, hwindow⟩ | ⟨⟨vote, salt, hknown⟩, huntil⟩⟩
        · exact hs'.settles_by_juror hpays hfund hpaused hd' hopen hquiet hself
            (hcommit.trans hfresh) (by rw [hnow]; exact hwindow) hdeadlines
        · exact hs'.settles_by_commitment (hpays _) hpaused hd' hopen hquiet hself
            (hcommit.trans hknown) hdeadlines (by rw [hnow]; exact huntil)
      · exact hs'.settles_by_votes (hpays _) hpaused hcounts' hd' hopen hquiet

theorem SingleInit.not_settles_of_stuck (hs : SingleInit env₀ h env)
    (hstuck : env.book.Stuck id) : ¬ env.Settles id := by
  refine Possibly.not_of_invariant
    (I := fun env : Env H => (∃ h, SingleInit env₀ h env) ∧ env.book.Stuck id) ?_ ?_
    ⟨⟨h, hs⟩, hstuck⟩
  · rintro env l env' ⟨⟨h, hs⟩, hstuck⟩ hstep hl
    exact ⟨⟨_, hs.snoc hstep hl⟩, hstuck.step hs.sound hstep.book⟩
  · rintro env ⟨-, hstuck⟩ ⟨e, he, hsettled⟩
    exact hstuck.not_settled he hsettled

/-- An open escrow is stuck unless it is escapable. -/
theorem SingleInit.stuck_or_escapable (hs : SingleInit env₀ h env)
    (he : env.book.escrow id = some e) (hopen : e.status = .active ∨ e.status = .disputed) :
    env.book.Stuck id ∨ env.Escapable id e := by
  by_cases hescape : env.Escapable id e
  · exact Or.inr hescape
  apply Or.inl
  rcases hopen with hactive | hdisputed
  · refine .active he hactive ?_ ?_
    · by_contra hne
      exact hescape (.milestones hactive hne)
    · by_contra hlt
      exact hescape (.time hactive (not_le.mp hlt))
  · rcases (hs.sound.proceedings he).disputed hdisputed with ⟨d, hd, hunresolved⟩
    refine .disputed he hdisputed hd hunresolved ?_ ?_
    · by_contra hvotes
      exact hescape (.votes hdisputed hvotes)
    · exact fun juror hself hcan => hescape (.juror hdisputed hd hself hcan)

/-- An open escrow can be settled exactly when it has milestones to release, time
    for a dispute, or a dispute with a vote or an address that can still bring one
    in. -/
theorem escrow_escapes_iff (hs : SingleInit env₀ h env) (hpays : ∀ x, H.tokens.PaysFrom x)
    (hfund : H.tokens.Fundable H.self) (he : env.get (.escrow id) = some e)
    (hopen : e.status = .active ∨ e.status = .disputed) (hcounts : env.CountsLeft id) :
    (∃ h' env', Run Step env h' env' ∧ (∀ t ∈ h', t.label.Initialises = false) ∧
      ∃ e', env'.get (.escrow id) = some e' ∧ e'.status = .settled) ↔ env.Escapable id e := by
  have hiff : env.Settles id ↔ ∃ h' env', Run Step env h' env' ∧
      (∀ t ∈ h', t.label.Initialises = false) ∧
        ∃ e', env'.get (.escrow id) = some e' ∧ e'.status = .settled := Possibly.iff_run
  rw [← hiff]
  constructor
  · intro hsettles
    rcases hs.stuck_or_escapable he hopen with hstuck | hescape
    · exact absurd hsettles (hs.not_settles_of_stuck hstuck)
    · exact hescape
  · exact hs.settles_of_escapable hpays hfund he hcounts

end Escapes

/-! ### A dispute without votes -/

/-- A dispute nobody commits to before its commit window closes. -/
def unvotedDispute : List (Action Nat (List UInt8)) :=
  [.call (fun a => a == 1) (.initialise 1 9 DEFAULT_SLASH_BPS),
    .call (fun a => a == 2) (.createEscrow 2 4 (.ofNat 100)),
    .call (fun a => a == 4) (.raiseDispute 1 4 "late"),
    .close (.ofNat 17281)]

theorem escrow_without_votes :
    ¬ ∀ {h : History Host.plain} {env : Env Host.plain} {id : U64} {e : EscrowRecord Nat},
      SingleInit Env.deployed h env → env.get (.escrow id) = some e →
      (e.status = .active ∨ e.status = .disputed) →
      ∃ h' env', Run Step env h' env' ∧ (∀ t ∈ h', t.label.Initialises = false) ∧
        ∃ e', env'.get (.escrow id) = some e' ∧ e'.status = .settled := by
  intro hall
  rcases Env.exists_of_plays unvotedDispute
    (fun h env => decide ((∀ t ∈ h, t.label.commit? = none) ∧
      (env.get (.escrow 1)).map (fun e => e.status) = some .disputed ∧
      (env.get (.dispute 1)).map (fun d => decide (d.commitDeadline.val ≤ env.sequence.val)) =
        some true ∧ (env.votersOf 1).toList = [])) (by decide +kernel) with ⟨h, env, hs, hend⟩
  rcases of_decide_eq_true hend with ⟨hnocommit, hstatus, hclosed, hquiet⟩
  rcases Option.map_eq_some_iff.mp hstatus with ⟨e, he, hdisputed⟩
  rcases Option.map_eq_some_iff.mp hclosed with ⟨d, hd, hafter⟩
  have hafter := of_decide_eq_true hafter
  rcases (hs.sound.proceedings he).disputed hdisputed with ⟨d', hd', hopen⟩
  cases hd.symm.trans hd'
  have hnobody : ∀ juror, juror ≠ Host.plain.self → ¬ env.book.CanVote 1 d juror := by
    rintro juror - ⟨-, ⟨-, hbefore⟩ | ⟨⟨vote, salt, hcommit⟩, -⟩⟩
    · have hbefore : env.sequence.val < d.commitDeadline.val := hbefore
      omega
    · have hballot := hs.ballot 1 juror
      rw [hcommit] at hballot
      generalize env.book.vote 1 juror = recorded at hballot
      cases hballot with
      | @hidden t _ _ hcommits _ hl =>
        have ht : t ∈ h := List.mem_of_mem_filter (hcommits ▸ List.mem_singleton_self t)
        have hnone := hnocommit t ht
        rw [hl] at hnone
        cases hnone
  have hstuck : env.book.Stuck 1 := .disputed he hdisputed hd hopen hquiet hnobody
  exact hs.not_settles_of_stuck hstuck (Possibly.iff_run.mpr (hall hs he (Or.inr hdisputed)))

/-- Of two milestones of 60 and 40, 25 of the first are released: the rest can be. -/
theorem escrow_escapes_iff_sample :
    ∃ env : Env Host.plain, (env.releasedOf 1).val = 25 ∧
      ∃ h' env', Run Step env h' env' ∧ (∀ t ∈ h', t.label.Initialises = false) ∧
        ∃ e', env'.get (.escrow 1) = some e' ∧ e'.status = .settled := by
  rcases Env.exists_of_plays partRelease
    (fun _ env => decide ((env.get (.escrow 1)).map
        (fun e => (e.status, e.milestones.toList.length)) = some (.active, 2) ∧
      (env.releasedOf 1).val = 25 ∧ env.book.minority 1 = []))
    (by decide +kernel) with ⟨h, env, hs, hend⟩
  rcases of_decide_eq_true hend with ⟨hescrow, hreleased, hnone⟩
  rcases Option.map_eq_some_iff.mp hescrow with ⟨e, he, hstatus⟩
  rcases Prod.mk.inj hstatus with ⟨hactive, hlength⟩
  have hcounts : env.CountsLeft 1 := by
    rw [Env.CountsLeft, hnone]
    exact nofun
  have hne : e.milestones.toList ≠ [] := List.ne_nil_of_length_pos (by omega)
  exact ⟨env, hreleased, (escrow_escapes_iff hs Tokens.balances_paysFrom
    (Tokens.balances_fundable 0) he (Or.inl hactive) hcounts).mpr (.milestones hactive hne)⟩

end TrustFlow
