import TrustFlow.Book
import Mathlib.Data.List.Count

/-!
# Disputes

`raise_dispute` opens a dispute with a commit and a reveal window,
`commit_vote` and `reveal_vote` are the two phases of a juror's vote and
`resolve_dispute` tallies the revealed votes, slashes the minority and settles
what the escrow still holds.  The two loops of `resolve_dispute` over the
voters are the recursions `tally` and `slashVoters`.
-/

namespace TrustFlow

open Invocation Purse

variable {A D : Type} [DecidableEq A] {H : Host A D}

/-- `hash_vote`: the digest of the vote byte followed by the 32 bytes of salt. -/
def hashVote (H : Host A D) (voteForDepositor : Bool) (salt : Vector UInt8 32) : D :=
  H.sha256 ((if voteForDepositor then 1 else 0) :: salt.toList)

def raiseDispute (escrowId : U64) (caller : A) (reason : String) : Op H Unit := do
  requireAuth caller
  extendInstanceTtl
  requireNotPaused
  let escrow ← okOr (← persistentGet (.escrow escrowId)) (.error .escrowNotFound)
  failIf (escrow.status ≠ .active) (.error .invalidState)
  failIf (caller ≠ escrow.depositor ∧ caller ≠ escrow.beneficiary) (.error .unauthorized)
  persistentSet (.escrow escrowId) { escrow with status := .disputed }
  extendPersistentTtl (.escrow escrowId)
  extendPersistentTtl (.escrowReleased escrowId)
  let now ← ledgerSequence
  let commitDeadline := now.saturatingAdd COMMIT_WINDOW_LEDGERS
  let revealDeadline := commitDeadline.saturatingAdd REVEAL_WINDOW_LEDGERS
  persistentSet (.dispute escrowId)
    ⟨escrowId, caller, reason, false, false, commitDeadline, revealDeadline⟩
  extendPersistentTtl (.dispute escrowId)

def commitVote (escrowId : U64) (juror : A) (commitment : D) : Op H Unit := do
  requireAuth juror
  extendInstanceTtl
  requireNotPaused
  let stake ← reads fun env => env.stakeOf juror
  failIf (stake.val ≤ 0) (.error .insufficientStake)
  let dispute ← okOr (← persistentGet (.dispute escrowId)) (.error .disputeNotFound)
  failIf (dispute.resolved = true) (.error .disputeAlreadyResolved)
  let now ← ledgerSequence
  failIf (now.val ≥ dispute.commitDeadline.val) (.error .commitPhaseEnded)
  let committed ← persistentHas (.jurorCommit ⟨escrowId, juror⟩)
  failIf (committed = true) (.error .alreadyCommitted)
  persistentSet (.jurorCommit ⟨escrowId, juror⟩) commitment
  extendPersistentTtl (.jurorCommit ⟨escrowId, juror⟩)
  extendPersistentTtl (.dispute escrowId)
  publish [.symbol "vote", .symbol "commit"] (.voteCommitted escrowId juror)

section Reveal

variable [DecidableEq D]

def revealVote (escrowId : U64) (juror : A) (voteForDepositor : Bool) (salt : Vector UInt8 32) :
    Op H Unit := do
  requireAuth juror
  extendInstanceTtl
  requireNotPaused
  let dispute ← okOr (← persistentGet (.dispute escrowId)) (.error .disputeNotFound)
  failIf (dispute.resolved = true) (.error .disputeAlreadyResolved)
  let now ← ledgerSequence
  failIf (now.val < dispute.commitDeadline.val ∨ now.val ≥ dispute.revealDeadline.val)
    (.error .revealPhaseNotOpen)
  -- `AlreadyVoted` is checked first: a successful reveal clears the commitment
  let voted ← persistentHas (.jurorVote ⟨escrowId, juror⟩)
  failIf (voted = true) (.error .alreadyVoted)
  let commitment ← okOr (← persistentGet (.jurorCommit ⟨escrowId, juror⟩)) (.error .noCommitFound)
  failIf (hashVote H voteForDepositor salt ≠ commitment) (.error .invalidReveal)
  persistentSet (.jurorVote ⟨escrowId, juror⟩) voteForDepositor
  extendPersistentTtl (.jurorVote ⟨escrowId, juror⟩)
  persistentRemove (.jurorCommit ⟨escrowId, juror⟩)
  let voters ← reads fun env => env.votersOf escrowId
  let voters ← okOr (voters.pushBack juror) .vecFull
  persistentSet (.disputeVoters escrowId) voters
  extendPersistentTtl (.disputeVoters escrowId)
  extendPersistentTtl (.dispute escrowId)
  publish [.symbol "vote", .symbol "reveal"] (.voteRevealed escrowId juror voteForDepositor)

end Reveal

/-! ### Resolution -/

/-- The first loop of `resolve_dispute`: count the votes of the voters. -/
def tally (escrowId : U64) : List A → U32 → U32 → Op H (U32 × U32)
  | [], forDepositor, forBeneficiary => pure (forDepositor, forBeneficiary)
  | voter :: voters, forDepositor, forBeneficiary => do
      let vote ← reads fun env => env.voteOf escrowId voter
      if vote = true then
        let forDepositor ← okOr (forDepositor.checkedAdd 1) (.error .arithmeticOverflow)
        tally escrowId voters forDepositor forBeneficiary
      else
        let forBeneficiary ← okOr (forBeneficiary.checkedAdd 1) (.error .arithmeticOverflow)
        tally escrowId voters forDepositor forBeneficiary

/-- The body of the second loop for a voter of the minority. -/
def slashVoter (escrowId : U64) (slashBps : U32) (voter : A) : Op H Unit := do
  let stake ← reads fun env => env.stakeOf voter
  let slash := slashAmount stake slashBps
  let remainingStake ← okOr (stake.checkedSub slash) (.error .arithmeticOverflow)
  persistentSet (.jurorStake voter) remainingStake
  extendPersistentTtl (.jurorStake voter)
  let count ← reads fun env => env.slashCountOf voter
  let newCount ← okOr (count.checkedAdd 1) (.error .arithmeticOverflow)
  persistentSet (.jurorSlashCount voter) newCount
  extendPersistentTtl (.jurorSlashCount voter)
  publish [.symbol "slash", .symbol "slashed"]
    (.jurorSlashed escrowId voter slash remainingStake newCount)

/-- The second loop of `resolve_dispute`: slash the voters against the ruling. -/
def slashVoters (escrowId : U64) (slashBps : U32) (ruling : Bool) : List A → Op H Unit
  | [] => pure ()
  | voter :: voters => do
      let vote ← reads fun env => env.voteOf escrowId voter
      if vote ≠ ruling then
        slashVoter escrowId slashBps voter
        slashVoters escrowId slashBps ruling voters
      else
        slashVoters escrowId slashBps ruling voters

/-- `if remaining > 0 { token_client.transfer(…) }` -/
def transferIfPositive (token recipient : A) (remaining : I128) : Op H Unit :=
  if remaining.val > 0 then tokenTransfer token H.self recipient remaining else pure ()

def resolveDispute (escrowId : U64) : Op H Bool := do
  extendInstanceTtl
  requireNotPaused
  let dispute ← okOr (← persistentGet (.dispute escrowId)) (.error .disputeNotFound)
  failIf (dispute.resolved = true) (.error .disputeAlreadyResolved)
  let now ← ledgerSequence
  failIf (now.val < dispute.revealDeadline.val) (.error .revealPhaseNotEnded)
  let voters ← reads fun env => env.votersOf escrowId
  failIf (voters.toList = []) (.error .noVotesCast)
  let (forDepositor, forBeneficiary) ← tally escrowId voters.toList 0 0
  -- a tie favours the depositor
  let ruling := decide (forDepositor.val ≥ forBeneficiary.val)
  let slashBps ← reads Env.slashBps
  slashVoters escrowId slashBps ruling voters.toList
  persistentSet (.dispute escrowId)
    { dispute with resolved := true, rulingForDepositor := ruling }
  extendPersistentTtl (.dispute escrowId)
  let escrow ← okOr (← persistentGet (.escrow escrowId)) (.error .escrowNotFound)
  let token ← okOr (← instanceGet .token) .unwrapNone
  let released ← reads fun env => env.releasedOf escrowId
  let remaining ← okOr (escrow.amount.checkedSub released) (.error .arithmeticOverflow)
  let recipient := if ruling = true then escrow.depositor else escrow.beneficiary
  transferIfPositive token recipient remaining
  persistentSet (.escrow escrowId) { escrow with status := .settled }
  extendPersistentTtl (.escrow escrowId)
  return ruling

/-! ### Raising, committing and revealing on the book -/

variable {auth : A → Bool} {env env' : Env H} {u : Unit} {id : U64} {caller juror : A}
  {reason : String}

/-- The record `raise_dispute` writes: two windows from now, saturating. -/
def DisputeRecord.raised (id : U64) (caller : A) (reason : String) (now : U32) : DisputeRecord A :=
  let commitDeadline := now.saturatingAdd COMMIT_WINDOW_LEDGERS
  let revealDeadline := commitDeadline.saturatingAdd REVEAL_WINDOW_LEDGERS
  ⟨id, caller, reason, false, false, commitDeadline, revealDeadline⟩

/-- The environment after a dispute was raised. -/
def Env.afterRaise (env : Env H) (id : U64) (e : EscrowRecord A) (d : DisputeRecord A) : Env H :=
  ((((env.extendInstanceTtl.setPersistent (.escrow id)
    { e with status := .disputed }).extendPersistentTtl (.escrow id)).extendPersistentTtl
    (.escrowReleased id)).setPersistent (.dispute id) d).extendPersistentTtl (.dispute id)

theorem raiseDispute_eq_ok :
    (raiseDispute id caller reason : Op H Unit) auth env = .ok (u, env') ↔
      auth caller = true ∧ env.isPaused = false ∧
        ∃ e : EscrowRecord A, env.get (.escrow id) = some e ∧ e.status = .active ∧
          (caller = e.depositor ∨ caller = e.beneficiary) ∧
          env' = env.afterRaise id e (.raised id caller reason env.sequence) := by
  simp [raiseDispute, persistentGet, persistentSet, extendInstanceTtl, extendPersistentTtl,
    ledgerSequence, Env.afterRaise, DisputeRecord.raised, or_iff_not_imp_left]

/-- The environment after a commitment was stored. -/
def Env.afterCommit (env : Env H) (id : U64) (juror : A) (c : D) : Env H :=
  (((env.extendInstanceTtl.setPersistent (.jurorCommit ⟨id, juror⟩) c).extendPersistentTtl
    (.jurorCommit ⟨id, juror⟩)).extendPersistentTtl (.dispute id)).publish
    [.symbol "vote", .symbol "commit"] (.voteCommitted id juror)

theorem commitVote_eq_ok {c : D} :
    (commitVote id juror c : Op H Unit) auth env = .ok (u, env') ↔
      auth juror = true ∧ env.isPaused = false ∧ 0 < (env.stakeOf juror).val ∧
        ∃ d : DisputeRecord A, env.get (.dispute id) = some d ∧ d.resolved = false ∧
          env.sequence.val < d.commitDeadline.val ∧
          env.get (.jurorCommit ⟨id, juror⟩) = none ∧ env' = env.afterCommit id juror c := by
  simp [commitVote, persistentGet, persistentHas, persistentSet, extendInstanceTtl,
    extendPersistentTtl, ledgerSequence, publish, Env.afterCommit]

/-- The environment after a vote was revealed. -/
def Env.afterReveal (env : Env H) (id : U64) (juror : A) (vote : Bool) (voters : Vec A) : Env H :=
  ((((((env.extendInstanceTtl.setPersistent (.jurorVote ⟨id, juror⟩) vote).extendPersistentTtl
    (.jurorVote ⟨id, juror⟩)).removePersistent (.jurorCommit ⟨id, juror⟩)).setPersistent
    (.disputeVoters id) voters).extendPersistentTtl (.disputeVoters id)).extendPersistentTtl
    (.dispute id)).publish [.symbol "vote", .symbol "reveal"] (.voteRevealed id juror vote)

theorem revealVote_eq_ok [DecidableEq D] {vote : Bool} {salt : Vector UInt8 32} :
    (revealVote id juror vote salt : Op H Unit) auth env = .ok (u, env') ↔
      auth juror = true ∧ env.isPaused = false ∧
        ∃ d : DisputeRecord A, env.get (.dispute id) = some d ∧ d.resolved = false ∧
          d.commitDeadline.val ≤ env.sequence.val ∧ env.sequence.val < d.revealDeadline.val ∧
          env.get (.jurorVote ⟨id, juror⟩) = none ∧
          env.get (.jurorCommit ⟨id, juror⟩) = some (hashVote H vote salt) ∧
        ∃ voters : Vec A, voters.toList = (env.votersOf id).toList ++ [juror] ∧
          env' = env.afterReveal id juror vote voters := by
  have hvoters : (((env.extendInstanceTtl.setPersistent (.jurorVote ⟨id, juror⟩)
      vote).extendPersistentTtl (.jurorVote ⟨id, juror⟩)).removePersistent
      (.jurorCommit ⟨id, juror⟩)).votersOf id = env.votersOf id := by
    simp [Env.votersOf]
  simp [revealVote, persistentGet, persistentHas, persistentSet, persistentRemove,
    extendInstanceTtl, extendPersistentTtl, ledgerSequence, publish, Env.afterReveal, hvoters,
    @eq_comm _ (hashVote H vote salt), and_assoc]

namespace Book

variable (b : Book H)

inductive Raise (auth : A → Bool) (id : U64) (caller : A) (reason : String) : Book H → Prop
  | intro {e : EscrowRecord A} (hauth : auth caller = true)
      (hpaused : b.settings.isPaused = false) (hescrow : b.escrow id = some e)
      (hactive : e.status = .active) (hparty : caller = e.depositor ∨ caller = e.beneficiary) :
      Raise auth id caller reason
        { b with
          escrow := Function.update b.escrow id (some { e with status := .disputed })
          dispute := Function.update b.dispute id (some (.raised id caller reason b.sequence)) }

inductive Commit (auth : A → Bool) (id : U64) (juror : A) (c : D) : Book H → Prop
  | intro {d : DisputeRecord A} (hauth : auth juror = true)
      (hpaused : b.settings.isPaused = false) (hstake : 0 < (b.stake juror).val)
      (hdispute : b.dispute id = some d) (hopen : d.resolved = false)
      (hwindow : b.sequence.val < d.commitDeadline.val) (hfresh : b.commit id juror = none) :
      Commit auth id juror c
        { b with
          commit := Function.update b.commit id (Function.update (b.commit id) juror (some c)) }

inductive Reveal (auth : A → Bool) (id : U64) (juror : A) (vote : Bool) (salt : Vector UInt8 32) :
    Book H → Prop
  | intro {d : DisputeRecord A} {voters : Vec A} (hauth : auth juror = true)
      (hpaused : b.settings.isPaused = false) (hdispute : b.dispute id = some d)
      (hopen : d.resolved = false) (hfrom : d.commitDeadline.val ≤ b.sequence.val)
      (huntil : b.sequence.val < d.revealDeadline.val) (hfresh : b.vote id juror = none)
      (hcommit : b.commit id juror = some (hashVote H vote salt))
      (hvoters : voters.toList = b.votersOf id ++ [juror]) :
      Reveal auth id juror vote salt
        { b with
          vote := Function.update b.vote id (Function.update (b.vote id) juror (some vote))
          commit := Function.update b.commit id (Function.update (b.commit id) juror none)
          voters := Function.update b.voters id (some voters) }

end Book

theorem raiseDispute_book {b' : Book H} :
    (∃ env', (raiseDispute id caller reason : Op H Unit) auth env = .ok ((), env') ∧
      env'.book = b') ↔ env.book.Raise auth id caller reason b' := by
  have hbook (e : EscrowRecord A) (d : DisputeRecord A) :
      (env.afterRaise id e d).book = { env.book with
        escrow := Function.update env.book.escrow id (some { e with status := .disputed })
        dispute := Function.update env.book.dispute id (some d) } := by
    simp [Env.afterRaise]
  constructor
  · rintro ⟨_, h, rfl⟩
    obtain ⟨hauth, hpaused, e, he, hactive, hparty, rfl⟩ := raiseDispute_eq_ok.mp h
    rw [hbook]
    exact .intro hauth hpaused he hactive hparty
  · rintro ⟨hauth, hpaused, he, hactive, hparty⟩
    exact ⟨_, raiseDispute_eq_ok.mpr ⟨hauth, hpaused, _, he, hactive, hparty, rfl⟩, hbook _ _⟩

theorem commitVote_book {c : D} {b' : Book H} :
    (∃ env', (commitVote id juror c : Op H Unit) auth env = .ok ((), env') ∧ env'.book = b') ↔
      env.book.Commit auth id juror c b' := by
  have hbook : (env.afterCommit id juror c).book = { env.book with
      commit := Function.update env.book.commit id
        (Function.update (env.book.commit id) juror (some c)) } := by
    simp [Env.afterCommit, Event.slashed, Event.trancheFee]
  constructor
  · rintro ⟨_, h, rfl⟩
    obtain ⟨hauth, hpaused, hstake, d, hd, hopen, hwindow, hfresh, rfl⟩ := commitVote_eq_ok.mp h
    rw [hbook]
    exact .intro hauth hpaused hstake hd hopen hwindow hfresh
  · rintro ⟨hauth, hpaused, hstake, hd, hopen, hwindow, hfresh⟩
    exact ⟨_, commitVote_eq_ok.mpr ⟨hauth, hpaused, hstake, _, hd, hopen, hwindow, hfresh, rfl⟩,
      hbook⟩

theorem revealVote_book [DecidableEq D] {vote : Bool} {salt : Vector UInt8 32} {b' : Book H} :
    (∃ env', (revealVote id juror vote salt : Op H Unit) auth env = .ok ((), env') ∧
      env'.book = b') ↔ env.book.Reveal auth id juror vote salt b' := by
  have hbook (voters : Vec A) : (env.afterReveal id juror vote voters).book = { env.book with
      vote := Function.update env.book.vote id
        (Function.update (env.book.vote id) juror (some vote))
      commit := Function.update env.book.commit id
        (Function.update (env.book.commit id) juror none)
      voters := Function.update env.book.voters id (some voters) } := by
    simp [Env.afterReveal, Event.slashed, Event.trancheFee]
  constructor
  · rintro ⟨_, h, rfl⟩
    obtain ⟨hauth, hpaused, d, hd, hopen, hfrom, huntil, hfresh, hcommit, voters, hvoters, rfl⟩ :=
      revealVote_eq_ok.mp h
    rw [hbook]
    exact .intro hauth hpaused hd hopen hfrom huntil hfresh hcommit hvoters
  · rintro ⟨hauth, hpaused, hd, hopen, hfrom, huntil, hfresh, hcommit, hvoters⟩
    exact ⟨_, revealVote_eq_ok.mpr ⟨hauth, hpaused, _, hd, hopen, hfrom, huntil, hfresh, hcommit, _,
      hvoters, rfl⟩, hbook _⟩

/-! ### Resolving on the book -/

namespace Book

/-- The book after the slashes of `jurors`, each on the stake the previous left. -/
inductive Slashes (bps : U32) : List A → Book H → Book H → Prop
  | nil {b : Book H} : Slashes bps [] b b
  | cons {b b' : Book H} {juror : A} {jurors : List A} {remaining : I128} {count : U32}
      (hremaining : remaining.val =
        (b.stake juror).val - (slashAmount (b.stake juror) bps).val)
      (hcount : count.val = (b.slashCount juror).val + 1)
      (hrest : Slashes bps jurors
        { b with
          stake := Function.update b.stake juror remaining
          slashCount := Function.update b.slashCount juror count
          slashed := (slashAmount (b.stake juror) bps).val + b.slashed } b') :
      Slashes bps (juror :: jurors) b b'

variable (b : Book H) (id : U64)

def forDepositor : Nat := (b.votersOf id).countP fun juror => b.voteOf id juror
def forBeneficiary : Nat := (b.votersOf id).countP fun juror => !b.voteOf id juror

/-- The ruling the revealed votes amount to; a tie favours the depositor. -/
def ruling : Bool := decide (b.forBeneficiary id ≤ b.forDepositor id)

/-- The voters against the ruling, in the order they revealed. -/
def minority : List A := (b.votersOf id).filter fun juror => b.voteOf id juror != b.ruling id

end Book

variable {voters : List A} {bps : U32}

/-- The tally counts the votes; it overflows only past the range of its counters. -/
theorem tally_eq_ok {d b d' b' : U32} :
    (tally id voters d b : Op H (U32 × U32)) auth env = .ok ((d', b'), env') ↔
      env' = env ∧ d'.val = d.val + voters.countP (fun juror => env.voteOf id juror) ∧
        b'.val = b.val + voters.countP (fun juror => !env.voteOf id juror) := by
  induction voters generalizing d b with
  | nil => simp [tally, ← BoundedInt.val_inj, and_comm]
  | cons voter voters ih =>
      have hd' := d'.le_hi
      have hb' := b'.le_hi
      have hd := d.lo_le
      have hb := b.lo_le
      cases hv : env.voteOf id voter with
      | true =>
          simp only [tally, bind_eq_ok, reads_eq_ok, ite_eq_ok, okOr_eq_ok,
            BoundedInt.checkedAdd_eq_some, ↓existsAndEq, hv, not_true,
            false_and, or_false, true_and, exists_eq_left, and_assoc, exists_and_left, ih,
            List.countP_cons, if_true, Bool.not_true, Bool.false_eq_true, if_false, Nat.cast_add,
            Nat.cast_one, add_zero, U32.val_one]
          constructor
          · rintro ⟨c, hc, rfl, h₁, h₂⟩
            exact ⟨rfl, by omega, h₂⟩
          · rintro ⟨rfl, h₁, h₂⟩
            exact ⟨⟨d.val + 1, by omega, by omega⟩, rfl, rfl, by
              show d'.val = d.val + 1 + _
              omega, h₂⟩
      | false =>
          simp only [tally, bind_eq_ok, reads_eq_ok, ite_eq_ok, okOr_eq_ok,
            BoundedInt.checkedAdd_eq_some, ↓existsAndEq, hv, not_false_eq_true,
            false_and, false_or, true_and, exists_eq_left, and_assoc, exists_and_left, ih,
            List.countP_cons, if_true, Bool.not_false, Bool.false_eq_true, if_false, Nat.cast_add,
            Nat.cast_one, add_zero, U32.val_one]
          constructor
          · rintro ⟨c, hc, rfl, h₁, h₂⟩
            exact ⟨rfl, h₁, by omega⟩
          · rintro ⟨rfl, h₁, h₂⟩
            exact ⟨⟨b.val + 1, by omega, by omega⟩, rfl, rfl, h₁, by
              show b'.val = b.val + 1 + _
              omega⟩

/-- The environment after a voter was slashed. -/
def Env.afterSlash (env : Env H) (id : U64) (voter : A) (slash remaining : I128) (count : U32) :
    Env H :=
  ((((env.setPersistent (.jurorStake voter) remaining).extendPersistentTtl
    (.jurorStake voter)).setPersistent (.jurorSlashCount voter) count).extendPersistentTtl
    (.jurorSlashCount voter)).publish [.symbol "slash", .symbol "slashed"]
    (.jurorSlashed id voter slash remaining count)

theorem slashVoter_eq_ok {voter : A} :
    (slashVoter id bps voter : Op H Unit) auth env = .ok (u, env') ↔
      ∃ remaining : I128, remaining.val =
          (env.stakeOf voter).val - (slashAmount (env.stakeOf voter) bps).val ∧
      ∃ count : U32, count.val = (env.slashCountOf voter).val + 1 ∧
        env' = env.afterSlash id voter (slashAmount (env.stakeOf voter) bps) remaining count := by
  have hcount (n : I128) : ((env.setPersistent (.jurorStake voter) n).extendPersistentTtl
      (.jurorStake voter)).slashCountOf voter = env.slashCountOf voter := by
    simp [Env.slashCountOf]
  simp [slashVoter, persistentSet, extendPersistentTtl, publish, Env.afterSlash, hcount]

/-- The second loop slashes exactly the voters whose vote is not the ruling. -/
theorem slashVoters_book {ruling : Bool} (env : Env H) {b' : Book H} :
    (∃ env', (slashVoters id bps ruling voters : Op H Unit) auth env = .ok ((), env') ∧
      env'.book = b') ↔
      Book.Slashes bps (voters.filter fun juror => env.voteOf id juror != ruling) env.book b' := by
  induction voters generalizing env with
  | nil =>
      simp only [slashVoters, pure_eq_ok, true_and, exists_eq_left, List.filter_nil]
      constructor
      · rintro rfl
        exact .nil
      · rintro ⟨⟩
        rfl
  | cons voter voters ih =>
      by_cases hv : env.voteOf id voter = ruling
      · have hloop (env' : Env H) :
            (slashVoters id bps ruling (voter :: voters) : Op H Unit) auth env = .ok ((), env') ↔
              (slashVoters id bps ruling voters : Op H Unit) auth env = .ok ((), env') := by
          simp [slashVoters, ite_eq_ok, hv]
        simp only [hloop, ih, List.filter_cons, hv, bne_self_eq_false, Bool.false_eq_true, if_false]
      · have hloop (env' : Env H) :
            (slashVoters id bps ruling (voter :: voters) : Op H Unit) auth env = .ok ((), env') ↔
              ∃ env₁, (slashVoter id bps voter : Op H Unit) auth env = .ok ((), env₁) ∧
                (slashVoters id bps ruling voters : Op H Unit) auth env₁ = .ok ((), env') := by
          simp only [slashVoters, bind_eq_ok, reads_eq_ok, ite_eq_ok, ↓existsAndEq, hv, ne_eq,
            not_true, not_false_eq_true, true_and, false_and, or_false]
          constructor
          · rintro ⟨_, env₁, h⟩
            exact ⟨env₁, h⟩
          · rintro ⟨env₁, h⟩
            exact ⟨(), env₁, h⟩
        have hbook (slash remaining : I128) (count : U32) :
            (env.afterSlash id voter slash remaining count).book = { env.book with
              stake := Function.update env.book.stake voter remaining
              slashCount := Function.update env.book.slashCount voter count
              slashed := slash.val + env.book.slashed } := by
          simp [Env.afterSlash, Event.slashed, Event.trancheFee]
        have hvote (slash remaining : I128) (count : U32) :
            (env.afterSlash id voter slash remaining count).voteOf id = env.voteOf id := by
          funext juror
          simp [Env.afterSlash, Env.voteOf]
        have hne : (env.voteOf id voter != ruling) = true := by simpa using hv
        rw [List.filter_cons, if_pos hne]
        simp only [hloop]
        constructor
        · rintro ⟨env', ⟨env₁, hslash, hrest⟩, rfl⟩
          obtain ⟨remaining, hremaining, count, hcount, rfl⟩ := slashVoter_eq_ok.mp hslash
          have hs := (ih (env.afterSlash id voter _ remaining count)).mp ⟨env', hrest, rfl⟩
          rw [hbook, hvote] at hs
          exact .cons hremaining hcount hs
        · rintro (⟨⟩ | ⟨hremaining, hcount, hs⟩)
          have hs' := hs
          rw [← hbook, ← hvote (slashAmount (env.stakeOf voter) bps)] at hs'
          obtain ⟨env', hrest, hb⟩ := (ih _).mpr hs'
          exact ⟨env', ⟨_, slashVoter_eq_ok.mpr ⟨_, hremaining, _, hcount, rfl⟩, hrest⟩, hb⟩

/-- A slash touches the stakes, the slash counts and the slashed total only. -/
theorem Book.Slashes.frame {jurors : List A} {b b' : Book H} (h : b.Slashes bps jurors b') :
    b' = { b with stake := b'.stake, slashCount := b'.slashCount, slashed := b'.slashed } := by
  induction h with
  | nil => rfl
  | cons _ _ _ ih => rw [ih]

namespace Book.Slashes

variable {jurors : List A} {b b' : Book H}

theorem settings (h : b.Slashes bps jurors b') : b'.settings = b.settings := by rw [h.frame]
theorem escrow (h : b.Slashes bps jurors b') : b'.escrow = b.escrow := by rw [h.frame]
theorem dispute (h : b.Slashes bps jurors b') : b'.dispute = b.dispute := by rw [h.frame]
theorem released (h : b.Slashes bps jurors b') : b'.released = b.released := by rw [h.frame]
theorem purse (h : b.Slashes bps jurors b') : b'.purse = b.purse := by rw [h.frame]

end Book.Slashes

/-- The environment after a resolution, from the one the slashes left. -/
def Env.afterResolve (env : Env H) (id : U64) (d : DisputeRecord A) (e : EscrowRecord A)
    (p : Purse H.tokens) : Env H :=
  ((((env.setPersistent (.dispute id) d).extendPersistentTtl (.dispute id)).setPurse
    p).setPersistent (.escrow id) { e with status := .settled }).extendPersistentTtl (.escrow id)

@[simp] theorem transferIfPositive_eq_ok {token recipient : A} {remaining : I128} :
    (transferIfPositive token recipient remaining : Op H Unit) auth env = .ok (u, env') ↔
      ∃ p, PaysPositive token H.self recipient remaining env.purse p ∧ env' = env.setPurse p := by
  rw [transferIfPositive, ite_eq_ok, tokenTransfer_eq_ok, pure_eq_ok]
  constructor
  · rintro (⟨hpos, p, hmove, rfl⟩ | ⟨hnot, -, rfl⟩)
    · exact ⟨p, .moved hpos hmove, rfl⟩
    · exact ⟨_, .nothing (by omega), rfl⟩
  · rintro ⟨p, ⟨hnot⟩ | ⟨hpos, hmove⟩, rfl⟩
    · exact Or.inr ⟨by omega, rfl, rfl⟩
    · exact Or.inl ⟨hpos, p, hmove, rfl⟩

theorem resolveDispute_eq_ok {ruling : Bool} :
    (resolveDispute id : Op H Bool) auth env = .ok (ruling, env') ↔
      env.isPaused = false ∧ ∃ d : DisputeRecord A, env.get (.dispute id) = some d ∧
        d.resolved = false ∧ d.revealDeadline.val ≤ env.sequence.val ∧
        (env.votersOf id).toList ≠ [] ∧ ruling = env.book.ruling id ∧
      ∃ env₁, (slashVoters id env.slashBps ruling (env.votersOf id).toList : Op H Unit) auth
          env.extendInstanceTtl = .ok ((), env₁) ∧
      ∃ e : EscrowRecord A, env₁.get (.escrow id) = some e ∧
      ∃ token, env₁.inst .token = some token ∧
      ∃ remaining : I128, remaining.val = e.amount.val - (env₁.releasedOf id).val ∧
      ∃ p, PaysPositive token H.self (if ruling = true then e.depositor else e.beneficiary)
          remaining env₁.purse p ∧
        env' = env₁.afterResolve id
          { d with resolved := true, rulingForDepositor := ruling } e p := by
  have hvoters : env.extendInstanceTtl.votersOf id = env.votersOf id := rfl
  have hslash : env.extendInstanceTtl.slashBps = env.slashBps := rfl
  have hreleased (env₁ : Env H) (d : DisputeRecord A) :
      ((env₁.setPersistent (.dispute id) d).extendPersistentTtl (.dispute id)).releasedOf id =
        env₁.releasedOf id := by
    simp [Env.releasedOf]
  have hget (env₁ : Env H) (d : DisputeRecord A) :
      ((env₁.setPersistent (.dispute id) d).extendPersistentTtl (.dispute id)).get (.escrow id) =
        env₁.get (.escrow id) := by
    simp
  have hruling (m n : U32) (hm : m.val = env.book.forDepositor id)
      (hn : n.val = env.book.forBeneficiary id) :
      decide (m.val ≥ n.val) = env.book.ruling id := by
    simp [Book.ruling, hm, hn]
  simp only [resolveDispute, extendInstanceTtl, persistentGet, persistentSet, instanceGet,
    extendPersistentTtl, ledgerSequence, bind_eq_ok, modify_eq_ok, requireNotPaused_eq_ok,
    reads_eq_ok, okOr_eq_ok, failIf_eq_ok, tally_eq_ok, transferIfPositive_eq_ok, pure_eq_ok,
    BoundedInt.checkedSub_eq_some, Prod.exists, ↓existsAndEq, true_and, exists_const,
    and_assoc, exists_and_left, not_lt, Env.isPaused_extendInstanceTtl,
    Env.get_extendInstanceTtl, Env.sequence_extendInstanceTtl, hvoters, hslash, hreleased, hget,
    Env.inst_extendPersistentTtl, Env.inst_setPersistent, Env.purse_extendPersistentTtl,
    Env.purse_setPersistent]
  constructor
  · rintro ⟨hpaused, d, hd, hopen, hdead, hne, m, hm, n, hn, _, env₁, hloop, e, he, token, htoken,
      remaining, hremaining, p, hp, h, rfl⟩
    have hr := hruling m n (hm.trans (zero_add _)) (hn.trans (zero_add _))
    rw [hr] at hloop hp h
    rw [h, hr]
    exact ⟨hpaused, d, hd, by simpa using hopen, hdead, hne, rfl, env₁, hloop, e, he, token,
      htoken, remaining, hremaining, p, hp, rfl⟩
  · rintro ⟨hpaused, d, hd, hopen, hdead, hne, rfl, env₁, hloop, e, he, token, htoken,
      remaining, hremaining, p, hp, rfl⟩
    obtain ⟨m, hm⟩ := (env.votersOf id).exists_countP fun juror => env.voteOf id juror
    obtain ⟨n, hn⟩ := (env.votersOf id).exists_countP fun juror => !env.voteOf id juror
    have hr := hruling m n hm hn
    rw [← hr] at hloop hp ⊢
    exact ⟨hpaused, d, hd, by simpa using hopen, hdead, hne, m, hm.trans (zero_add _).symm, n,
      hn.trans (zero_add _).symm, (), env₁, hloop, e, he, token, htoken, remaining, hremaining, p,
      hp, rfl, rfl⟩

namespace Book

/-- A resolution: the minority is slashed and the winner receives what the
    escrow still holds. -/
inductive Resolve (b : Book H) (id : U64) : Bool → Book H → Prop
  | intro {d : DisputeRecord A} {e : EscrowRecord A} {b₁ : Book H} {token : A} {remaining : I128}
      {p : Purse H.tokens} (hpaused : b.settings.isPaused = false)
      (hdispute : b.dispute id = some d) (hopen : d.resolved = false)
      (hdeadline : d.revealDeadline.val ≤ b.sequence.val) (hvoters : b.votersOf id ≠ [])
      (hslashes :
        b.Slashes (b.settings.slashBps.getD DEFAULT_SLASH_BPS) (b.minority id) b₁)
      (hescrow : b.escrow id = some e) (htoken : b.settings.token = some token)
      (hremaining : remaining.val = e.amount.val - (b.releasedOf id).val)
      (hpay : PaysPositive token H.self (if b.ruling id = true then e.depositor else e.beneficiary)
        remaining b.purse p) :
      Resolve b id (b.ruling id)
        { b₁ with
          dispute := Function.update b.dispute id
            (some { d with resolved := true, rulingForDepositor := b.ruling id })
          escrow := Function.update b.escrow id (some { e with status := .settled })
          purse := p }

end Book

theorem resolveDispute_book {ruling : Bool} {b' : Book H} :
    (∃ env', (resolveDispute id : Op H Bool) auth env = .ok (ruling, env') ∧ env'.book = b') ↔
      env.book.Resolve id ruling b' := by
  have hbook (env₁ : Env H) (d : DisputeRecord A) (e : EscrowRecord A) (p : Purse H.tokens) :
      (env₁.afterResolve id d e p).book = { env₁.book with
        dispute := Function.update env₁.book.dispute id (some d)
        escrow := Function.update env₁.book.escrow id (some { e with status := .settled })
        purse := p } := by
    simp [Env.afterResolve]
  constructor
  · rintro ⟨_, h, rfl⟩
    obtain ⟨hpaused, d, hd, hopen, hdead, hne, rfl, env₁, hloop, e, he, token, htoken, remaining,
      hremaining, p, hp, rfl⟩ := resolveDispute_eq_ok.mp h
    have hslashes := (slashVoters_book env.extendInstanceTtl).mp ⟨env₁, hloop, rfl⟩
    have hescrow : env₁.book.escrow = env.book.escrow := hslashes.escrow
    have hdispute : env₁.book.dispute = env.book.dispute := hslashes.dispute
    have hsettings : env₁.book.settings = env.book.settings := hslashes.settings
    have hreleased : env₁.book.released = env.book.released := hslashes.released
    have hpurse : env₁.purse = env.purse := hslashes.purse
    rw [hbook, hdispute, hescrow]
    refine .intro hpaused hd hopen hdead hne hslashes ((congrFun hescrow id).symm.trans he)
      ((congrArg Settings.token hsettings).symm.trans htoken) ?_ (hpurse ▸ hp)
    rw [hremaining]
    show _ - ((env₁.book.released id).getD 0).val = _
    rw [hreleased]
    rfl
  · intro h
    cases h with
    | @intro d e b₁ token remaining p hpaused hd hopen hdead hne hslashes he htoken hremaining hp =>
      obtain ⟨env₁, hloop, rfl⟩ := (slashVoters_book env.extendInstanceTtl).mpr hslashes
      have hescrow : env₁.book.escrow = env.book.escrow := hslashes.escrow
      have hdispute : env₁.book.dispute = env.book.dispute := hslashes.dispute
      have hsettings : env₁.book.settings = env.book.settings := hslashes.settings
      have hreleased : env₁.book.released = env.book.released := hslashes.released
      have hpurse : env₁.purse = env.purse := hslashes.purse
      refine ⟨_, resolveDispute_eq_ok.mpr ⟨hpaused, d, hd, hopen, hdead, hne, rfl, env₁, hloop, e,
        (congrFun hescrow id).trans he, token, (congrArg Settings.token hsettings).trans htoken,
        remaining, ?_, p, ?_, rfl⟩, ?_⟩
      · rw [hremaining]
        show _ = _ - ((env₁.book.released id).getD 0).val
        rw [hreleased]
        rfl
      · rw [hpurse]
        exact hp
      · rw [hbook, hdispute, hescrow]

end TrustFlow
