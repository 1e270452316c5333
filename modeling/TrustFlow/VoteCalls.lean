import TrustFlow.Lib.Local
import TrustFlow.Soundness

/-!
# Votes as calls on the jurors' parts

A commitment or a reveal on a dispute reads and writes the entries of its own
juror, and a reveal appends its juror to the list of voters.  `Env.voting` reads
the votes so, and `VotingRun.outcome` says what a run of them leaves: each kept
to its juror's part, and nothing else of the storage changed.
-/

namespace TrustFlow

open Transition Invocation

variable {A D : Type} [DecidableEq A] {H : Host A D}

/-! ### Votes -/

/-- A call of `commit_vote` or of `reveal_vote` on one dispute. -/
inductive VoteCall (A D : Type) where
  | commit (auth : A → Bool) (juror : A) (c : D)
  | reveal (auth : A → Bool) (juror : A) (vote : Bool) (salt : Vector UInt8 32)

namespace VoteCall

def juror : VoteCall A D → A
  | .commit _ juror _ => juror
  | .reveal _ juror _ _ => juror

def isCommit : VoteCall A D → Bool
  | .commit .. => true
  | .reveal .. => false

/-- What a juror does at most once: commit, and reveal. -/
def slot (q : VoteCall A D) : Bool × A := (q.isCommit, q.juror)

/-- The window of the dispute the call belongs to is open. -/
def Timely (d : DisputeRecord A) (now : U32) : VoteCall A D → Prop
  | .commit .. => now.val < d.commitDeadline.val
  | .reveal .. => d.commitDeadline.val ≤ now.val ∧ now.val < d.revealDeadline.val

instance (d : DisputeRecord A) (now : U32) : DecidablePred (Timely (D := D) d now)
  | .commit .. => inferInstanceAs (Decidable (_ < _))
  | .reveal .. => inferInstanceAs (Decidable (_ ∧ _))

/-- The voter an accepted call adds to the list. -/
def voter? : VoteCall A D × Bool → Option A
  | (.reveal _ juror _ _, true) => some juror
  | _ => none

omit [DecidableEq A] in
/-- Only reveals add voters. -/
theorem length_voters_le (answers : List (VoteCall A D × Bool)) :
    (answers.filterMap voter?).length ≤
      (answers.map Prod.fst).countP fun q => !q.isCommit := by
  induction answers with
  | nil => exact le_rfl
  | cons p answers ih =>
      rw [List.map_cons, List.countP_cons]
      rcases p with ⟨q, answer⟩
      cases q with
      | commit auth juror c =>
          rw [List.filterMap_cons_none rfl]
          exact ih
      | reveal auth juror vote salt =>
          cases answer with
          | true => exact Nat.succ_le_succ ih
          | false =>
              rw [List.filterMap_cons_none rfl]
              exact ih.trans (Nat.le_add_right _ _)

/-- What a vote leaves of the juror's commitment and revealed vote. -/
def write : VoteCall A D → Option D × Option Bool → Option D × Option Bool
  | .commit _ _ c, v => (some c, v.2)
  | .reveal _ _ vote _, _ => (none, some vote)

end VoteCall

/-- The vote on `id` a call is. -/
def Call.voteCall? (auth : A → Bool) (id : U64) : Call A D → Option (VoteCall A D)
  | .commitVote id' juror c => if id' = id then some (.commit auth juror c) else none
  | .revealVote id' juror vote salt =>
      if id' = id then some (.reveal auth juror vote salt) else none
  | _ => none

/-- The vote on `id` a label stands for, with whether it was accepted. -/
def Label.voteCall? (id : U64) : Label H → Option (VoteCall A D × Bool)
  | .call auth c _ => (c.voteCall? auth id).map (·, true)
  | .failed auth c _ => (c.voteCall? auth id).map (·, false)
  | _ => none

def Label.closes : Label H → Bool
  | .close _ => true
  | _ => false

/-- The keys votes on `id` write to. -/
def DataKey.VotesOn (id : U64) : DataKey A → Prop
  | .jurorCommit key => key.escrowId = id
  | .jurorVote key => key.escrowId = id
  | .disputeVoters i => i = id
  | _ => False

/-- The storage and the purse are those of `env`, but for the votes on `id`. -/
structure Env.VotesOnly (id : U64) (env env' : Env H) : Prop where
  inst : ∀ k, env'.inst k = env.inst k
  get : ∀ k : DataKey A, ¬ k.VotesOn id → env'.get k = env.get k
  purse : env'.purse = env.purse

namespace Env.VotesOnly

variable {id : U64} {env env' : Env H}

theorem refl (id : U64) (env : Env H) : env.VotesOnly id env := ⟨fun _ => rfl, fun _ _ => rfl, rfl⟩

theorem trans {env'' : Env H} (h : env.VotesOnly id env') (h' : env'.VotesOnly id env'') :
    env.VotesOnly id env'' where
  inst k := (h'.inst k).trans (h.inst k)
  get k hk := (h'.get k hk).trans (h.get k hk)
  purse := h'.purse.trans h.purse

theorem isPaused (h : env.VotesOnly id env') : env'.isPaused = env.isPaused := by
  rw [Env.isPaused, h.inst]
  rfl

theorem stakeOf (h : env.VotesOnly id env') (juror : A) :
    env'.stakeOf juror = env.stakeOf juror := by
  rw [Env.stakeOf, h.get (.jurorStake juror) not_false]
  rfl

end Env.VotesOnly

/-! ### What a vote does -/

section Votes

variable {auth : A → Bool} {env env' : Env H} {u : Unit} {id : U64} {juror : A}

theorem Env.afterCommit_votesOnly {c : D} : env.VotesOnly id (env.afterCommit id juror c) where
  inst k := by simp [Env.afterCommit]
  get k hk := by
    have hne : k ≠ .jurorCommit ⟨id, juror⟩ := by
      rintro rfl
      exact hk rfl
    simp [Env.afterCommit, hne]
  purse := by simp [Env.afterCommit]

theorem Env.afterReveal_votesOnly {vote : Bool} {voters : Vec A} :
    env.VotesOnly id (env.afterReveal id juror vote voters) where
  inst k := by simp [Env.afterReveal]
  get k hk := by
    have hne : k ≠ .jurorCommit ⟨id, juror⟩ ∧ k ≠ .jurorVote ⟨id, juror⟩ ∧
        k ≠ .disputeVoters id := by
      refine ⟨?_, ?_, ?_⟩ <;> rintro rfl <;> exact hk rfl
    simp [Env.afterReveal, hne]
  purse := by simp [Env.afterReveal]

/-- The commitments and the revealed votes of the jurors on `id`. -/
def Env.part (id : U64) (env : Env H) (juror : A) : Option D × Option Bool :=
  (env.get (.jurorCommit ⟨id, juror⟩), env.get (.jurorVote ⟨id, juror⟩))

theorem Env.part_afterCommit {c : D} : (env.afterCommit id juror c).part id =
    Function.update (env.part id) juror (some c, (env.part id juror).2) := by
  funext j
  by_cases hj : j = juror
  · subst hj
    simp [Env.part, Env.afterCommit]
  · simp [Env.part, Env.afterCommit, hj]

theorem Env.part_afterReveal {vote : Bool} {voters : Vec A} :
    (env.afterReveal id juror vote voters).part id =
      Function.update (env.part id) juror (none, some vote) := by
  funext j
  by_cases hj : j = juror
  · subst hj
    simp [Env.part, Env.afterReveal]
  · simp [Env.part, Env.afterReveal, hj]

theorem Env.votersOf_afterCommit {c : D} :
    (env.afterCommit id juror c).votersOf id = env.votersOf id := by
  simp [Env.votersOf, Env.afterCommit]

theorem Env.votersOf_afterReveal {vote : Bool} {voters : Vec A} :
    (env.afterReveal id juror vote voters).votersOf id = voters := by
  simp [Env.votersOf, Env.afterReveal]

variable [DecidableEq D]

/-- A juror's part accepts a vote, with the stakes and the flag of `env`. -/
def Env.accepts (env : Env H) : VoteCall A D → Option D × Option Bool → Bool
  | .commit auth juror _, v =>
      auth juror && !env.isPaused && decide (0 < (env.stakeOf juror).val) && v.1.isNone
  | .reveal auth juror vote salt, v =>
      auth juror && !env.isPaused && v.2.isNone && decide (v.1 = some (hashVote H vote salt))

/-- The votes on `id` as calls on the jurors' parts. -/
def Env.voting (env : Env H) (id : U64) :
    Local (Env H) (Label H) A (VoteCall A D) (Option D × Option Bool) where
  call? := Label.voteCall? id
  owner := VoteCall.juror
  part := Env.part id
  accepts := env.accepts
  write := VoteCall.write

variable {pre post : Env H} {d : DisputeRecord A} {l : Label H}

/-- What a vote did: it was answered as its juror's part says, and an accepted one
    changed that part and the list of voters. -/
structure Voted (id : U64) (env pre : Env H) (q : VoteCall A D) (answer : Bool) (post : Env H) :
    Prop where
  votesOnly : pre.VotesOnly id post
  answer_eq : answer = env.accepts q (pre.part id q.juror)
  part_eq : post.part id = Function.update (pre.part id) q.juror
    ((env.voting id).after q (pre.part id q.juror))
  voters_eq : (post.votersOf id).toList =
    (pre.votersOf id).toList ++ (VoteCall.voter? (q, answer)).toList

/-- A refused vote leaves everything. -/
theorem Voted.refused {q : VoteCall A D} (h : env.accepts q (env'.part id q.juror) = false) :
    Voted id env env' q false env' where
  votesOnly := .refl id env'
  answer_eq := h.symm
  part_eq := by
    have hafter : (env.voting id).after q (env'.part id q.juror) = env'.part id q.juror := by
      rw [Local.after, if_neg]
      show ¬ env.accepts q (env'.part id q.juror) = true
      rw [h]
      exact nofun
    rw [hafter, Function.update_eq_self]
  voters_eq := by cases q <;> simp [VoteCall.voter?]

theorem after_of_accepts {q : VoteCall A D} {v : Option D × Option Bool}
    (h : env.accepts q v = true) : (env.voting id).after q v = q.write v := if_pos h

theorem Voted.commit {c : D} (hsame : env.VotesOnly id pre) (hd : pre.get (.dispute id) = some d)
    (hopen : d.resolved = false) (hwindow : pre.sequence.val < d.commitDeadline.val) :
    (∀ post, (commitVote id juror c : Op H Unit) auth pre = .ok ((), post) →
      Voted id env pre (.commit auth juror c) true post) ∧
    ∀ f, (commitVote id juror c : Op H Unit) auth pre = .error f →
      Voted id env pre (.commit auth juror c) false pre := by
  have haccepts : env.accepts (.commit auth juror c) (pre.part id juror) = true ↔
      auth juror = true ∧ pre.isPaused = false ∧ 0 < (pre.stakeOf juror).val ∧
        pre.get (.jurorCommit ⟨id, juror⟩) = none := by
    rw [hsame.isPaused, hsame.stakeOf]
    simp [Env.accepts, Env.part, and_assoc]
  constructor
  · intro post h
    rcases commitVote_eq_ok.mp h with ⟨hauth, hpaused, hstake, _, -, -, -, hfresh, rfl⟩
    have hok := haccepts.mpr ⟨hauth, hpaused, hstake, hfresh⟩
    refine ⟨Env.afterCommit_votesOnly, hok.symm, ?_, ?_⟩
    · rw [Env.part_afterCommit]
      exact congrArg _ (after_of_accepts hok).symm
    · rw [Env.votersOf_afterCommit]
      simp [VoteCall.voter?]
  · intro f h
    apply Voted.refused
    apply Bool.eq_false_iff.mpr
    intro hok
    rcases haccepts.mp hok with ⟨hauth, hpaused, hstake, hfresh⟩
    have hok' : (commitVote id juror c : Op H Unit) auth pre = .ok ((), _) :=
      commitVote_eq_ok.mpr ⟨hauth, hpaused, hstake, d, hd, hopen, hwindow, hfresh, rfl⟩
    cases hok'.symm.trans h

theorem Voted.reveal {vote : Bool} {salt : Vector UInt8 32} (hsame : env.VotesOnly id pre)
    (hd : pre.get (.dispute id) = some d) (hopen : d.resolved = false)
    (hfrom : d.commitDeadline.val ≤ pre.sequence.val)
    (huntil : pre.sequence.val < d.revealDeadline.val)
    (hroom : (pre.votersOf id).toList.length + 1 < 2 ^ 32) :
    (∀ post, (revealVote id juror vote salt : Op H Unit) auth pre = .ok ((), post) →
      Voted id env pre (.reveal auth juror vote salt) true post) ∧
    ∀ f, (revealVote id juror vote salt : Op H Unit) auth pre = .error f →
      Voted id env pre (.reveal auth juror vote salt) false pre := by
  have haccepts : env.accepts (.reveal auth juror vote salt) (pre.part id juror) = true ↔
      auth juror = true ∧ pre.isPaused = false ∧ pre.get (.jurorVote ⟨id, juror⟩) = none ∧
        pre.get (.jurorCommit ⟨id, juror⟩) = some (hashVote H vote salt) := by
    show _ ↔ _ ∧ _ ∧ (pre.part id juror).2 = none ∧ (pre.part id juror).1 = some _
    rw [hsame.isPaused]
    simp [Env.accepts, and_assoc]
  constructor
  · intro post h
    rcases revealVote_eq_ok.mp h with ⟨hauth, hpaused, _, -, -, -, -, hfresh, hcommit, voters,
      hvoters, rfl⟩
    have hok := haccepts.mpr ⟨hauth, hpaused, hfresh, hcommit⟩
    refine ⟨Env.afterReveal_votesOnly, hok.symm, ?_, ?_⟩
    · rw [Env.part_afterReveal]
      exact congrArg _ (after_of_accepts hok).symm
    · rw [Env.votersOf_afterReveal, hvoters]
      rfl
  · intro f h
    apply Voted.refused
    apply Bool.eq_false_iff.mpr
    intro hok
    rcases haccepts.mp hok with ⟨hauth, hpaused, hfresh, hcommit⟩
    have hlength : ((pre.votersOf id).toList ++ [juror]).length ≤ 4294967295 := by
      rw [List.length_append, List.length_singleton]
      omega
    have hok' : (revealVote id juror vote salt : Op H Unit) auth pre = .ok ((), _) :=
      revealVote_eq_ok.mpr ⟨hauth, hpaused, d, hd, hopen, hfrom, huntil, hfresh, hcommit,
        ⟨_, hlength⟩, rfl, rfl⟩
    cases hok'.symm.trans h

theorem Step.voted {q : VoteCall A D} {answer : Bool} (hstep : Step pre l post)
    (hl : l.voteCall? id = some (q, answer)) (hsame : env.VotesOnly id pre)
    (hd : pre.get (.dispute id) = some d) (hopen : d.resolved = false)
    (htimely : q.Timely d pre.sequence)
    (hroom : q.isCommit = false → (pre.votersOf id).toList.length + 1 < 2 ^ 32) :
    Voted id env pre q answer post := by
  cases l with
  | call auth c r =>
      rcases Option.map_eq_some_iff.mp hl with ⟨q, hq, ⟨⟩⟩
      rcases hstep with ⟨-, h⟩
      cases c with
      | commitVote id' juror c =>
          simp only [Call.voteCall?, Option.ite_none_right_eq_some, Option.some.injEq] at hq
          rcases hq with ⟨rfl, rfl⟩
          exact (Voted.commit hsame hd hopen htimely).1 post h
      | revealVote id' juror vote salt =>
          simp only [Call.voteCall?, Option.ite_none_right_eq_some, Option.some.injEq] at hq
          rcases hq with ⟨rfl, rfl⟩
          exact (Voted.reveal hsame hd hopen htimely.1 htimely.2 (hroom rfl)).1 post h
      | _ => cases hq
  | failed auth c fault =>
      rcases Option.map_eq_some_iff.mp hl with ⟨q, hq, ⟨⟩⟩
      cases hstep with
      | failed _ h =>
        cases c with
        | commitVote id' juror c =>
            simp only [Call.voteCall?, Option.ite_none_right_eq_some, Option.some.injEq] at hq
            rcases hq with ⟨rfl, rfl⟩
            exact (Voted.commit hsame hd hopen htimely).2 fault h
        | revealVote id' juror vote salt =>
            simp only [Call.voteCall?, Option.ite_none_right_eq_some, Option.some.injEq] at hq
            rcases hq with ⟨rfl, rfl⟩
            exact (Voted.reveal hsame hd hopen htimely.1 htimely.2 (hroom rfl)).2 fault h
        | _ => cases hq
  | close | tokens => cases hl

end Votes

/-! ### Runs of votes -/

section Runs

variable [DecidableEq D] {id : U64} {d : DisputeRecord A} {env env' : Env H} {h : History H}

/-- A run of votes on the dispute `d`: calls of `commit_vote` before its commit
    deadline, calls of `reveal_vote` in its reveal window, and ledgers that close. -/
structure VotingRun (id : U64) (d : DisputeRecord A) (env : Env H) (h : History H) (env' : Env H) :
    Prop where
  run : Run Step env h env'
  votes : ∀ t ∈ h, t.label.closes = true ∨
    ∃ p ∈ t.label.voteCall? id, p.1.Timely d t.pre.sequence

/-- The votes of a history with their answers, newest first. -/
def ballots (id : U64) (h : History H) : List (VoteCall A D × Bool) :=
  h.filterMap fun t => t.label.voteCall? id

/-- The votes of a history whatever their answers, newest first. -/
def votesCast (id : U64) (h : History H) : List (VoteCall A D) := (ballots id h).map Prod.fst

/-- Those listed as voters and the reveals of the history are fewer than 2^32. -/
def Roomy (id : U64) (env : Env H) (h : History H) : Prop :=
  (env.votersOf id).toList.length + (votesCast id h).countP (fun q => !q.isCommit) < 2 ^ 32

/-- What a run of votes leaves: every vote kept to its juror's part, and the voters are
    listed as they revealed. -/
structure VotingRun.Outcome (id : U64) (env : Env H) (h : History H) (env' : Env H) : Prop where
  votesOnly : env.VotesOnly id env'
  keeps : ∀ t ∈ h, (env.voting id).Keeps t
  voters_eq : (env'.votersOf id).toList =
    (env.votersOf id).toList ++ ((ballots id h).filterMap VoteCall.voter?).reverse

theorem VotingRun.outcome (hv : VotingRun id d env h env') (hd : env.get (.dispute id) = some d)
    (hopen : d.resolved = false) (hroom : Roomy id env h) : VotingRun.Outcome id env h env' := by
  rcases hv with ⟨hr, hvotes⟩
  induction hr with
  | nil => exact ⟨.refl id env, fun t ht => absurd ht List.not_mem_nil, by simp [ballots]⟩
  | @snoc h pre l post hr hstep ih =>
      have hfewer : (votesCast id h).countP (fun q => !q.isCommit) ≤
          (votesCast id (⟨pre, l, post⟩ :: h)).countP fun q => !q.isCommit :=
        (((List.sublist_cons_self _ _).filterMap _).map _).countP_le
      have ih := ih (lt_of_le_of_lt (Nat.add_le_add_left hfewer _) hroom)
        fun t ht => hvotes t (List.mem_cons_of_mem _ ht)
      rcases hvotes _ List.mem_cons_self with hl | ⟨⟨q, answer⟩, hl, htimely⟩
      · cases hstep with
        | close =>
          refine ⟨⟨ih.votesOnly.inst, ih.votesOnly.get, ih.votesOnly.purse⟩, ?_, ih.voters_eq⟩
          intro t ht
          rcases List.mem_cons.mp ht with rfl | ht
          · exact .silent rfl rfl
          · exact ih.keeps t ht
        | call | failed | tokens => cases hl
      · have hl : l.voteCall? id = some (q, answer) := hl
        have hd' : pre.get (.dispute id) = some d :=
          (ih.votesOnly.get (.dispute id) not_false).trans hd
        have hroom' : q.isCommit = false → (pre.votersOf id).toList.length + 1 < 2 ^ 32 := by
          intro hreveal
          have hlisted := VoteCall.length_voters_le (ballots id h)
          have hcount : (votesCast id (⟨pre, l, post⟩ :: h)).countP (fun q => !q.isCommit) =
              (votesCast id h).countP (fun q => !q.isCommit) + 1 := by
            simp [votesCast, ballots, hl, hreveal]
          rw [Roomy, hcount] at hroom
          rw [ih.voters_eq, List.length_append, List.length_reverse]
          exact lt_of_le_of_lt (by simpa [votesCast, Nat.add_assoc] using hlisted) hroom
        have hvoted := hstep.voted hl ih.votesOnly hd' hopen htimely hroom'
        refine ⟨ih.votesOnly.trans hvoted.votesOnly, ?_, ?_⟩
        · intro t ht
          rcases List.mem_cons.mp ht with rfl | ht
          · exact .answers hl hvoted.answer_eq hvoted.part_eq
          · exact ih.keeps t ht
        · rw [hvoted.voters_eq, ih.voters_eq]
          cases hvoter : VoteCall.voter? (q, answer) <;> simp [ballots, hl, hvoter]

/-- No commitment is newer than a reveal. -/
theorem VotingRun.pairwise (hv : VotingRun id d env h env') :
    (votesCast id h).Pairwise fun q q' => q.isCommit = true → q'.isCommit = true := by
  have htime := (hv.run.pairwise_le (f := fun env => env.sequence.val) fun hstep =>
    hstep.book.sequence_le).1
  apply List.pairwise_map.mpr
  apply List.pairwise_filterMap.mpr
  apply htime.imp_of_mem
  rintro t t' ht ht' hle ⟨q, answer⟩ hq ⟨q', answer'⟩ hq' hcommit
  have htimely {t : Move (Env H) (Label H)} {q : VoteCall A D} {answer : Bool} (ht : t ∈ h)
      (hq : t.label.voteCall? id = some (q, answer)) : q.Timely d t.pre.sequence := by
    rcases hv.votes t ht with hl | ⟨p, hl, htimely⟩
    · cases hlabel : t.label with
      | close => rw [hlabel] at hq; cases hq
      | call | failed | tokens => rw [hlabel] at hl; cases hl
    · cases hq.symm.trans hl
      exact htimely
  have hnew := htimely ht hq
  have hold := htimely ht' hq'
  cases q with
  | reveal => cases hcommit
  | commit =>
    cases q' with
    | commit => rfl
    | reveal =>
      have hnew : t.pre.sequence.val < d.commitDeadline.val := hnew
      have hfrom := hold.1
      omega

/-- A juror's own votes come in the same order in both runs. -/
theorem VotingRun.callsOf_eq {h' : History H} {env'' : Env H} (hv : VotingRun id d env h env')
    (hv' : VotingRun id d env h' env'') (hsame : (votesCast id h).Perm (votesCast id h'))
    (honce : ((votesCast id h).map VoteCall.slot).Nodup) (juror : A) :
    (env.voting id).callsOf juror h = (env.voting id).callsOf juror h' := by
  have hcalls (h : History H) : (env.voting id).callsOf juror h =
      (votesCast id h).filter fun q => q.juror = juror := by
    rw [votesCast, List.filter_map]
    rfl
  rw [hcalls, hcalls]
  refine List.Perm.eq_of_pairwise ?_ (hv.pairwise.filter _) (hv'.pairwise.filter _)
    (hsame.filter _)
  intro q q' hq hq' hle hge
  rcases List.mem_filter.mp hq with ⟨hq, hj⟩
  rcases List.mem_filter.mp hq' with ⟨hq', hj'⟩
  have hslot : q.slot = q'.slot := by
    rw [VoteCall.slot, VoteCall.slot, of_decide_eq_true hj, of_decide_eq_true hj',
      Bool.eq_iff_iff.mpr ⟨hle, hge⟩]
  exact List.inj_on_of_nodup_map honce hq (hsame.mem_iff.mpr hq') hslot

end Runs

end TrustFlow
