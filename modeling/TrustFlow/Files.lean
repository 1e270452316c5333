import TrustFlow.Transitions

/-!
# The file of an escrow

Nine registers of the book are indexed by an escrow id; `Book.file` collects
what they hold for one of them.  A step writes to the file of at most one
escrow, and `Book.Step.on_file` lists the six ways it can.
-/

namespace TrustFlow

open Transition Purse

variable {A D : Type} [DecidableEq A] {H : Host A D}

/-- Everything stored about one escrow, and the fees it was charged. -/
@[ext] structure File (A D : Type) where
  escrow : Option (EscrowRecord A)
  feeConfig : Option (EscrowFeeConfig A)
  released : Option I128
  milestoneReleased : U32 → Option I128
  dispute : Option (DisputeRecord A)
  voters : Option (Vec A)
  commit : A → Option D
  vote : A → Option Bool
  fees : Int

namespace File

def empty : File A D where
  escrow := none
  feeConfig := none
  released := none
  milestoneReleased _ := none
  dispute := none
  voters := none
  commit _ := none
  vote _ := none
  fees := 0

variable (f : File A D)

def releasedOf : I128 := f.released.getD 0
def milestoneReleasedOf (i : U32) : I128 := (f.milestoneReleased i).getD 0
def votersOf : List A := (f.voters.getD Vec.empty).toList

/-! What the six writing transitions leave. -/

def opened (e : EscrowRecord A) (c : EscrowFeeConfig A) : File A D :=
  { f with escrow := some e, feeConfig := some c }

def tranche (t : Tranche A) (i : U32) : File A D :=
  { f with
    escrow := some (t.escrowAfter i)
    milestoneReleased := Function.update f.milestoneReleased i (some t.milestoneAfter)
    released := some t.releasedAfter
    fees := t.fee.val + f.fees }

def raised (e : EscrowRecord A) (d : DisputeRecord A) : File A D :=
  { f with escrow := some { e with status := .disputed }, dispute := some d }

def committed (juror : A) (c : D) : File A D :=
  { f with commit := Function.update f.commit juror (some c) }

def revealed (juror : A) (vote : Bool) (voters : Vec A) : File A D :=
  { f with
    vote := Function.update f.vote juror (some vote)
    commit := Function.update f.commit juror none
    voters := some voters }

def resolved (e : EscrowRecord A) (d : DisputeRecord A) (ruling : Bool) : File A D :=
  { f with
    escrow := some { e with status := .settled }
    dispute := some { d with resolved := true, rulingForDepositor := ruling } }

end File

namespace Book

/-- What the book holds under one escrow id. -/
def file (b : Book H) (id : U64) : File A D where
  escrow := b.escrow id
  feeConfig := b.feeConfig id
  released := b.released id
  milestoneReleased := b.milestoneReleased id
  dispute := b.dispute id
  voters := b.voters id
  commit := b.commit id
  vote := b.vote id
  fees := b.fees id

variable {b b' : Book H} {auth : A → Bool} {id id' : U64} {i : U32} {gross amount : I128}
  {caller juror depositor beneficiary : A} {reason : String} {c : D} {vote ruling : Bool}
  {salt : Vector UInt8 32} {milestones : Vec Milestone}

theorem Slashes.file {bps : U32} {jurors : List A} (h : b.Slashes bps jurors b') (id : U64) :
    b'.file id = b.file id := by
  rw [h.frame]
  rfl

/-! ### Other escrows -/

theorem Open.file_ne (h : b.Open auth depositor beneficiary amount milestones id b')
    (hne : id' ≠ id) : b'.file id' = b.file id' := by
  cases h.lock with
  | intro => simp [Book.file, hne]

theorem Release.file_ne (h : b.Release auth id i gross caller b') (hne : id' ≠ id) :
    b'.file id' = b.file id' := by
  cases h with
  | intro => simp [Book.file, hne, hne.symm]

theorem Raise.file_ne (h : b.Raise auth id caller reason b') (hne : id' ≠ id) :
    b'.file id' = b.file id' := by
  cases h with
  | intro => simp [Book.file, hne]

theorem Commit.file_ne (h : b.Commit auth id juror c b') (hne : id' ≠ id) :
    b'.file id' = b.file id' := by
  cases h with
  | intro => simp [Book.file, hne]

theorem Reveal.file_ne (h : b.Reveal auth id juror vote salt b') (hne : id' ≠ id) :
    b'.file id' = b.file id' := by
  cases h with
  | intro => simp [Book.file, hne]

theorem Resolve.file_ne (h : b.Resolve id ruling b') (hne : id' ≠ id) :
    b'.file id' = b.file id' := by
  cases h with
  | intro _ _ _ _ _ hslashes =>
    rw [← hslashes.file id']
    simp [Book.file, hne, hslashes.escrow, hslashes.dispute]

end Book

/-! ### The escrow a label writes to -/

/-- The escrow a successful call writes to. -/
def Label.escrow? : Label H → Option U64
  | .call _ (.createEscrow ..) id => some id
  | .call _ (.initEscrow ..) id => some id
  | .call _ (.releaseMilestoneTranche id ..) _ => some id
  | .call _ (.raiseDispute id ..) _ => some id
  | .call _ (.commitVote id ..) _ => some id
  | .call _ (.revealVote id ..) _ => some id
  | .call _ (.resolveDispute id) _ => some id
  | _ => none

/-- What one step can do to the file of `id`. -/
inductive Book.OnFile (b : Book H) (id : U64) : Label H → Book H → Prop
  | untouched {l : Label H} {b' : Book H} (hl : l.escrow? ≠ some id)
      (h : b'.file id = b.file id) : OnFile b id l b'
  | opened {l : Label H} {auth : A → Bool} {depositor beneficiary treasury : A} {amount : I128}
      {milestones : Vec Milestone} {b' : Book H} (hself : auth H.self = false)
      (hl : l.Opens auth depositor beneficiary amount milestones id)
      (h : b.Open auth depositor beneficiary amount milestones id b')
      (htreasury : b.settings.treasury = some treasury)
      (hfile : b'.file id = (b.file id).opened
        ⟨id, depositor, beneficiary, amount, .active, milestones⟩
        ⟨treasury, b.settings.feeBps.getD DEFAULT_FEE_BPS⟩) : OnFile b id l b'
  | released {auth : A → Bool} {i : U32} {gross : I128} {caller : A} {t : Tranche A}
      {p : Purse H.tokens} {b' : Book H} (h : t.Admissible b i auth id gross caller)
      (hpayout : Pays t.token H.self t.escrow.beneficiary t.payout b.purse p)
      (hfee : Pays t.token H.self t.feeConfig.treasury t.fee p b'.purse)
      (hfile : b'.file id = (b.file id).tranche t i) :
      OnFile b id (.call auth (.releaseMilestoneTranche id i gross caller) ()) b'
  | raised {auth : A → Bool} {caller : A} {reason : String} {e : EscrowRecord A} {b' : Book H}
      (h : b.Raise auth id caller reason b') (hescrow : b.escrow id = some e)
      (hactive : e.status = .active)
      (hfile : b'.file id = (b.file id).raised e (.raised id caller reason b.sequence)) :
      OnFile b id (.call auth (.raiseDispute id caller reason) ()) b'
  | committed {auth : A → Bool} {juror : A} {c : D} {d : DisputeRecord A} {b' : Book H}
      (hself : auth H.self = false) (hauth : auth juror = true)
      (hstake : 0 < (b.stake juror).val) (hdispute : b.dispute id = some d)
      (hopen : d.resolved = false) (hwindow : b.sequence.val < d.commitDeadline.val)
      (hfresh : b.commit id juror = none) (hfile : b'.file id = (b.file id).committed juror c) :
      OnFile b id (.call auth (.commitVote id juror c) ()) b'
  | revealed {auth : A → Bool} {juror : A} {vote : Bool} {salt : Vector UInt8 32}
      {d : DisputeRecord A} {voters : Vec A} {b' : Book H}
      (hself : auth H.self = false) (hauth : auth juror = true)
      (hdispute : b.dispute id = some d) (hopen : d.resolved = false)
      (hfrom : d.commitDeadline.val ≤ b.sequence.val)
      (huntil : b.sequence.val < d.revealDeadline.val) (hfresh : b.vote id juror = none)
      (hcommit : b.commit id juror = some (hashVote H vote salt))
      (hvoters : voters.toList = b.votersOf id ++ [juror])
      (hfile : b'.file id = (b.file id).revealed juror vote voters) :
      OnFile b id (.call auth (.revealVote id juror vote salt) ()) b'
  | resolved {auth : A → Bool} {ruling : Bool} {d : DisputeRecord A} {e : EscrowRecord A}
      {b' : Book H} (h : b.Resolve id ruling b') (hdispute : b.dispute id = some d)
      (hopen : d.resolved = false) (hdeadline : d.revealDeadline.val ≤ b.sequence.val)
      (hvoters : b.votersOf id ≠ []) (hescrow : b.escrow id = some e)
      (hfile : b'.file id = (b.file id).resolved e d ruling) :
      OnFile b id (.call auth (.resolveDispute id) ruling) b'

namespace Label.Opens

variable {l : Label H} {auth : A → Bool} {depositor beneficiary : A} {amount : I128}
  {milestones : Vec Milestone} {id : U64}

theorem escrow?_eq (h : l.Opens auth depositor beneficiary amount milestones id) :
    l.escrow? = some id := by
  cases h <;> rfl

end Label.Opens

/-- A step writes to the file of `id` in one of six ways or not at all. -/
theorem Book.Step.on_file {b b' : Book H} {l : Label H} (h : b.Step l b') (id : U64) :
    b.OnFile id l b' := by
  have hother {id' : U64} (hl : l.escrow? = some id') (hne : id ≠ id') : l.escrow? ≠ some id := by
    rw [hl]
    simpa using hne.symm
  cases h with
  | idle h =>
      refine .untouched ?_ rfl
      cases l with
      | call auth c r => cases c <;> cases h <;> exact nofun
      | failed => exact nofun
      | close => cases h
      | tokens => cases h
  | configure h =>
      refine .untouched ?_ rfl
      cases h <;> exact nofun
  | initialise => exact .untouched nofun rfl
  | close => exact .untouched nofun rfl
  | tokens => exact .untouched nofun rfl
  | stake _ h =>
      cases h
      exact .untouched nofun rfl
  | unstake h =>
      cases h
      exact .untouched nofun rfl
  | @opens _ _ _ _ _ _ id' _ hself hl h =>
      by_cases hid : id = id'
      · subst hid
        cases hlock : h.lock with
        | intro htoken hmove hid htreasury =>
          exact .opened hself hl h htreasury (by simp [file, File.opened])
      · exact .untouched (hother hl.escrow?_eq hid) (h.file_ne hid)
  | @release _ id' _ _ _ _ h =>
      by_cases hid : id = id'
      · subst hid
        cases h with
        | intro ht hpayout hfee => exact .released ht hpayout hfee (by simp [file, File.tranche])
      · exact .untouched (hother rfl hid) (h.file_ne hid)
  | @raise _ id' _ _ _ h =>
      by_cases hid : id = id'
      · subst hid
        cases h' : h with
        | intro hauth hpaused hescrow hactive hparty =>
          exact .raised h hescrow hactive (by simp [file, File.raised])
      · exact .untouched (hother rfl hid) (h.file_ne hid)
  | @commit _ id' _ _ _ hself h =>
      by_cases hid : id = id'
      · subst hid
        cases h with
        | intro hauth hpaused hstake hdispute hopen hwindow hfresh =>
          exact .committed hself hauth hstake hdispute hopen hwindow hfresh
            (by simp [file, File.committed])
      · exact .untouched (hother rfl hid) (h.file_ne hid)
  | @reveal _ id' _ _ _ _ hself h =>
      by_cases hid : id = id'
      · subst hid
        cases h with
        | intro hauth hpaused hdispute hopen hfrom huntil hfresh hcommit hvoters =>
          exact .revealed hself hauth hdispute hopen hfrom huntil hfresh hcommit hvoters
            (by simp [file, File.revealed])
      · exact .untouched (hother rfl hid) (h.file_ne hid)
  | @resolve _ id' _ _ h =>
      by_cases hid : id = id'
      · subst hid
        cases h' : h with
        | intro hpaused hdispute hopen hdeadline hvoters hslashes hescrow =>
          refine .resolved h hdispute hopen hdeadline hvoters hescrow ?_
          rw [← hslashes.file id]
          simp [file, File.resolved]
      · exact .untouched (hother rfl hid) (h.file_ne hid)

end TrustFlow
