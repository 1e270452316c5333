import TrustFlow.Soundness

/-!
# Commit and reveal

A dispute has one schedule, fixed when it is raised: commitments before the
commit deadline, reveals from there to the reveal deadline, the resolution
after it.  What a step does to a dispute keeps to the schedule
(`Step.on_schedule`), and no later step changes it, so the three kinds of calls
come in that order in every history.

The vote of one juror is followed through the history by `Ballot`: no
commitment, one sealed commitment, or one commitment opened by one reveal.
-/

namespace TrustFlow

open Transition

variable {A D : Type}

/-- `d'` is the record `d` some calls later. -/
structure DisputeRecord.Continues (d d' : DisputeRecord A) : Prop where
  raisedBy_eq : d'.raisedBy = d.raisedBy
  reason_eq : d'.reason = d.reason
  commitDeadline_eq : d'.commitDeadline = d.commitDeadline
  revealDeadline_eq : d'.revealDeadline = d.revealDeadline
  unchanged : d.resolved = true → d' = d

namespace DisputeRecord.Continues

variable {d d' d'' : DisputeRecord A}

theorem refl (d : DisputeRecord A) : d.Continues d := ⟨rfl, rfl, rfl, rfl, fun _ => rfl⟩

theorem trans (h : d.Continues d') (h' : d'.Continues d'') : d.Continues d'' where
  raisedBy_eq := h'.raisedBy_eq.trans h.raisedBy_eq
  reason_eq := h'.reason_eq.trans h.reason_eq
  commitDeadline_eq := h'.commitDeadline_eq.trans h.commitDeadline_eq
  revealDeadline_eq := h'.revealDeadline_eq.trans h.revealDeadline_eq
  unchanged hresolved := by
    have hsame := h.unchanged hresolved
    subst hsame
    exact h'.unchanged hresolved

end DisputeRecord.Continues

variable [DecidableEq A] {H : Host A D}

/-! ### The calls of a dispute -/

namespace Label

/-- The escrow and the juror of a successful `commit_vote`. -/
def commit? : Label H → Option (U64 × A)
  | .call _ (.commitVote id juror _) _ => some (id, juror)
  | _ => none

/-- The escrow and the juror of a successful `reveal_vote`. -/
def reveal? : Label H → Option (U64 × A)
  | .call _ (.revealVote id juror ..) _ => some (id, juror)
  | _ => none

/-- The escrow of a successful `resolve_dispute`. -/
def resolve? : Label H → Option U64
  | .call _ (.resolveDispute id) _ => some id
  | _ => none

/-- A successful call of one of the three, on the escrow `id`. -/
def Disputes (l : Label H) (id : U64) : Prop :=
  (∃ juror, l.commit? = some (id, juror)) ∨ (∃ juror, l.reveal? = some (id, juror)) ∨
    l.resolve? = some id

theorem Disputes.escrow?_eq {l : Label H} {id : U64} (h : l.Disputes id) :
    l.escrow? = some id := by
  cases l with
  | call auth c r =>
      cases c <;> rcases h with ⟨juror, h⟩ | ⟨juror, h⟩ | h <;> first | cases h; rfl | cases h
  | failed | close | tokens => rcases h with ⟨juror, h⟩ | ⟨juror, h⟩ | h <;> cases h

theorem Opens.not_disputes {l : Label H} {auth : A → Bool} {depositor beneficiary : A}
    {amount : I128} {milestones : Vec Milestone} {id id' : U64}
    (h : l.Opens auth depositor beneficiary amount milestones id) : ¬ l.Disputes id' := by
  cases h <;> rintro (⟨juror, h⟩ | ⟨juror, h⟩ | h) <;> cases h

end Label

/-- A call at the sequence `now` is in its window of the dispute `d`. -/
structure OnSchedule (id : U64) (d : DisputeRecord A) (l : Label H) (now : U32) : Prop where
  commit : ∀ juror, l.commit? = some (id, juror) → now.val < d.commitDeadline.val
  reveal : ∀ juror, l.reveal? = some (id, juror) →
    d.commitDeadline.val ≤ now.val ∧ now.val < d.revealDeadline.val
  resolve : l.resolve? = some id → d.revealDeadline.val ≤ now.val ∧ d.resolved = true

namespace Book

variable {b b' : Book H} {l : Label H} {id : U64} {d : DisputeRecord A}

/-- A call on a dispute finds it open, leaves it there and keeps to its schedule. -/
theorem Step.on_schedule (h : b.Step l b') (hl : l.Disputes id) :
    (∃ d, b.dispute id = some d ∧ d.resolved = false) ∧
      ∃ d, b'.dispute id = some d ∧ OnSchedule id d l b.sequence := by
  cases h.on_file id with
  | untouched hother => exact absurd hl.escrow?_eq hother
  | opened _ hopens => exact absurd hl hopens.not_disputes
  | released | raised =>
      rcases hl with ⟨juror, hl⟩ | ⟨juror, hl⟩ | hl <;> cases hl
  | @committed _ _ _ d _ _ _ _ hd hopen hwindow _ hnew =>
      refine ⟨⟨d, hd, hopen⟩, d, (congrArg File.dispute hnew).trans hd, ?_, nofun, nofun⟩
      exact fun _ _ => hwindow
  | @revealed _ _ _ _ d _ _ _ _ hd hopen hfrom huntil _ _ _ hnew =>
      refine ⟨⟨d, hd, hopen⟩, d, (congrArg File.dispute hnew).trans hd, nofun, ?_, nofun⟩
      exact fun _ _ => ⟨hfrom, huntil⟩
  | @resolved _ _ d _ _ _ hd hopen hdeadline _ _ hnew =>
      refine ⟨⟨d, hd, hopen⟩, _, congrArg File.dispute hnew, nofun, nofun, ?_⟩
      exact fun _ => ⟨hdeadline, rfl⟩

/-- A dispute stays, with its windows, and a resolved one stays as it is. -/
theorem Step.dispute_continues (h : b.Step l b') (hb : b.Sound) (hd : b.dispute id = some d) :
    ∃ d', b'.dispute id = some d' ∧ d.Continues d' := by
  have hsame (hdispute : b'.dispute id = b.dispute id) :
      ∃ d', b'.dispute id = some d' ∧ d.Continues d' := ⟨d, hdispute.trans hd, .refl d⟩
  cases h.on_file id with
  | untouched _ hsame' => exact hsame (congrArg File.dispute hsame')
  | opened _ _ _ _ hnew => exact hsame (congrArg File.dispute hnew)
  | released _ _ _ hnew => exact hsame (congrArg File.dispute hnew)
  | raised _ he hactive =>
      have hnone : b.dispute id = none := (hb.proceedings he).active hactive
      cases hnone.symm.trans hd
  | committed _ _ _ _ _ _ _ hnew => exact hsame (congrArg File.dispute hnew)
  | revealed _ _ _ _ _ _ _ _ _ hnew => exact hsame (congrArg File.dispute hnew)
  | resolved _ hd' hopen _ _ _ hnew =>
      cases hd.symm.trans hd'
      refine ⟨_, congrArg File.dispute hnew, rfl, rfl, rfl, rfl, ?_⟩
      intro hresolved
      cases hopen.symm.trans hresolved

end Book

theorem OnSchedule.continues {id : U64} {d d' : DisputeRecord A} {l : Label H} {now : U32}
    (h : OnSchedule id d l now) (hd : d.Continues d') : OnSchedule id d' l now := by
  refine ⟨?_, ?_, ?_⟩
  · rw [hd.commitDeadline_eq]
    exact h.commit
  · rw [hd.commitDeadline_eq, hd.revealDeadline_eq]
    exact h.reveal
  · intro hl
    rcases h.resolve hl with ⟨hdeadline, hresolved⟩
    rw [hd.unchanged hresolved]
    exact ⟨hdeadline, hresolved⟩

/-! ### The order of the calls -/

/-- Of two calls on a dispute, in which order they may come. -/
structure InOrder (id : U64) (later earlier : Move (Env H) (Label H)) : Prop where
  reveal_commit : ∀ juror juror', earlier.label.reveal? = some (id, juror) →
    later.label.commit? ≠ some (id, juror')
  resolve_last : earlier.label.resolve? = some id → ¬ later.label.Disputes id

namespace SingleInit

variable [DecidableEq D] {env₀ env : Env H} {h : History H} {id : U64}

theorem sequence_le (hs : SingleInit env₀ h env) {t : Move (Env H) (Label H)} (ht : t ∈ h) :
    t.pre.sequence.val ≤ env.sequence.val := by
  revert ht
  refine history_invariant (P := fun h b => t ∈ h → t.pre.sequence.val ≤ b.sequence.val) ?_ ?_ hs
  · intro _ ht
    cases ht
  · intro h env l env' hs hP hstep ht
    have hle : env.sequence.val ≤ env'.sequence.val := hstep.step.sequence_le
    rcases List.mem_cons.mp ht with rfl | ht
    · exact hle
    · exact (hP ht).trans hle

/-- Every call of the history on a dispute kept to the schedule it still has. -/
theorem on_schedule (hs : SingleInit env₀ h env) {t : Move (Env H) (Label H)} (ht : t ∈ h)
    (hl : t.label.Disputes id) :
    ∃ d, env.book.dispute id = some d ∧ OnSchedule id d t.label t.pre.sequence := by
  revert ht
  refine history_invariant (P := fun h b => t ∈ h →
    ∃ d, b.dispute id = some d ∧ OnSchedule id d t.label t.pre.sequence) ?_ ?_ hs
  · intro _ ht
    cases ht
  · intro h env l env' hs hP hstep ht
    rcases List.mem_cons.mp ht with rfl | ht
    · exact (hstep.step.on_schedule hl).2
    · rcases hP ht with ⟨d, hd, hsched⟩
      rcases hstep.step.dispute_continues hs.sound hd with ⟨d', hd', hcont⟩
      exact ⟨d', hd', hsched.continues hcont⟩

/-- In every history the calls on a dispute come in order. -/
theorem in_order (hs : SingleInit env₀ h env) (id : U64) : h.Pairwise (InOrder id) := by
  refine history_invariant (P := fun h _ => h.Pairwise (InOrder id)) ?_ ?_ hs
  · exact fun _ => .nil
  · intro h env l env' hs hP hstep
    refine .cons ?_ hP
    intro t ht
    refine ⟨?_, ?_⟩
    · -- a commitment after a reveal would come before the commit deadline and after it
      intro juror juror' hreveal hcommit
      rcases hs.on_schedule ht (Or.inr (Or.inl ⟨juror, hreveal⟩)) with ⟨d, hd, hsched⟩
      rcases hstep.step.on_schedule (Or.inl ⟨juror', hcommit⟩) with ⟨-, d₁, hd₁, hsched₁⟩
      rcases hstep.step.dispute_continues hs.sound hd with ⟨d', hd', hcont⟩
      cases hd'.symm.trans hd₁
      have hafter := (hsched.reveal juror hreveal).1
      have hbefore : env.sequence.val < d₁.commitDeadline.val := hsched₁.commit juror' hcommit
      have htime := hs.sequence_le ht
      rw [hcont.commitDeadline_eq] at hbefore
      omega
    · intro hresolve hl
      rcases hs.on_schedule ht (Or.inr (Or.inr hresolve)) with ⟨d, hd, hsched⟩
      rcases hstep.step.on_schedule hl with ⟨⟨d', hd', hopen⟩, -⟩
      cases hd.symm.trans hd'
      cases hopen.symm.trans (hsched.resolve hresolve).2

/-- A dispute is resolved once. -/
theorem resolve_once (hs : SingleInit env₀ h env) (id : U64) :
    (h.filter fun t => t.label.resolve? = some id).length ≤ 1 := by
  have horder := (hs.in_order id).filter fun t => t.label.resolve? = some id
  have hmem : ∀ t ∈ h.filter fun t => t.label.resolve? = some id,
      t.label.resolve? = some id := fun t ht => of_decide_eq_true (List.mem_filter.mp ht).2
  revert horder hmem
  cases h.filter fun t => t.label.resolve? = some id with
  | nil => exact fun _ _ => Nat.zero_le 1
  | cons t ts =>
      intro horder hmem
      cases ts with
      | nil => exact le_rfl
      | cons t' ts =>
          have hpair := List.rel_of_pairwise_cons horder List.mem_cons_self
          have hlater := hmem t List.mem_cons_self
          have hearlier := hmem t' (List.mem_cons_of_mem _ List.mem_cons_self)
          exact absurd (Or.inr (Or.inr hlater)) (hpair.resolve_last hearlier)

end SingleInit

/-! ### The vote of one juror -/

/-- The commitments and the reveals of a juror on a dispute in a history, next to
    what the contract stores for the juror. -/
inductive Ballot (id : U64) (juror : A) (h : History H) : Option D → Option Bool → Prop
  | absent (hcommits : h.filter (fun t => t.label.commit? = some (id, juror)) = [])
      (hreveals : h.filter (fun t => t.label.reveal? = some (id, juror)) = []) :
      Ballot id juror h none none
  | hidden {t : Move (Env H) (Label H)} {auth : A → Bool} {c : D}
      (hcommits : h.filter (fun t => t.label.commit? = some (id, juror)) = [t])
      (hreveals : h.filter (fun t => t.label.reveal? = some (id, juror)) = [])
      (hl : t.label = .call auth (.commitVote id juror c) ())
      (hstake : 0 < (t.pre.stakeOf juror).val) : Ballot id juror h (some c) none
  | shown {t t' : Move (Env H) (Label H)} {auth auth' : A → Bool} {c : D} {vote : Bool}
      {salt : Vector UInt8 32}
      (hcommits : h.filter (fun t => t.label.commit? = some (id, juror)) = [t])
      (hreveals : h.filter (fun t => t.label.reveal? = some (id, juror)) = [t'])
      (hl : t.label = .call auth (.commitVote id juror c) ())
      (hstake : 0 < (t.pre.stakeOf juror).val)
      (hl' : t'.label = .call auth' (.revealVote id juror vote salt) ())
      (hc : c = hashVote H vote salt) : Ballot id juror h none (some vote)

/-- A step that is no call of the juror on the dispute leaves the ballot alone. -/
theorem Ballot.cons {id : U64} {juror : A} {h : History H} {c : Option D} {vote : Option Bool}
    {t : Move (Env H) (Label H)} (hb : Ballot id juror h c vote)
    (hcommit : t.label.commit? ≠ some (id, juror)) (hreveal : t.label.reveal? ≠ some (id, juror)) :
    Ballot id juror (t :: h) c vote := by
  have hcommits : (t :: h).filter (fun t => t.label.commit? = some (id, juror)) =
      h.filter fun t => t.label.commit? = some (id, juror) :=
    List.filter_cons_of_neg (by simpa using hcommit)
  have hreveals : (t :: h).filter (fun t => t.label.reveal? = some (id, juror)) =
      h.filter fun t => t.label.reveal? = some (id, juror) :=
    List.filter_cons_of_neg (by simpa using hreveal)
  cases hb with
  | absent hc hr => exact .absent (hcommits.trans hc) (hreveals.trans hr)
  | hidden hc hr hl hstake => exact .hidden (hcommits.trans hc) (hreveals.trans hr) hl hstake
  | shown hc hr hl hstake hl' heq =>
      exact .shown (hcommits.trans hc) (hreveals.trans hr) hl hstake hl' heq

theorem Ballot.commit {id : U64} {juror : A} {h : History H} {t : Move (Env H) (Label H)}
    {auth : A → Bool} {c : D} (hb : Ballot id juror h none none)
    (hl : t.label = .call auth (.commitVote id juror c) ())
    (hstake : 0 < (t.pre.stakeOf juror).val) : Ballot id juror (t :: h) (some c) none := by
  have hcommit : t.label.commit? = some (id, juror) := by rw [hl]; rfl
  have hreveal : t.label.reveal? ≠ some (id, juror) := by rw [hl]; exact nofun
  cases hb with
  | absent hcommits hreveals =>
      refine .hidden ?_ ?_ hl hstake
      · rw [List.filter_cons_of_pos (by simpa using hcommit), hcommits]
      · rw [List.filter_cons_of_neg (by simpa using hreveal), hreveals]

theorem Ballot.reveal {id : U64} {juror : A} {h : History H} {t : Move (Env H) (Label H)}
    {auth : A → Bool} {vote : Bool} {salt : Vector UInt8 32}
    (hb : Ballot id juror h (some (hashVote H vote salt)) none)
    (hl : t.label = .call auth (.revealVote id juror vote salt) ()) :
    Ballot id juror (t :: h) none (some vote) := by
  have hcommit : t.label.commit? ≠ some (id, juror) := by rw [hl]; exact nofun
  have hreveal : t.label.reveal? = some (id, juror) := by rw [hl]; rfl
  cases hb with
  | hidden hcommits hreveals hcast hstake =>
      refine .shown ?_ ?_ hcast hstake hl rfl
      · rw [List.filter_cons_of_neg (by simpa using hcommit), hcommits]
      · rw [List.filter_cons_of_pos (by simpa using hreveal), hreveals]

section Histories

variable [DecidableEq D] {env₀ env : Env H} {h : History H} {id : U64}

theorem SingleInit.ballot (hs : SingleInit env₀ h env) (id : U64) (juror : A) :
    Ballot id juror h (env.book.commit id juror) (env.book.vote id juror) := by
  refine history_invariant (P := fun h b => Ballot id juror h (b.commit id juror)
    (b.vote id juror)) ?_ ?_ hs
  · intro hb
    have hcommit : env₀.book.commit id juror = none :=
      congrFun (congrArg File.commit (hb.file id)) juror
    have hvote : env₀.book.vote id juror = none :=
      congrFun (congrArg File.vote (hb.file id)) juror
    rw [hcommit, hvote]
    exact .absent rfl rfl
  · intro h env l env' hs hP hstep
    have hsame (hl : ¬ l.Disputes id) (hcommit : env'.book.commit id = env.book.commit id)
        (hvote : env'.book.vote id = env.book.vote id) : Ballot id juror (⟨env, l, env'⟩ :: h)
        (env'.book.commit id juror) (env'.book.vote id juror) := by
      rw [hcommit, hvote]
      exact hP.cons (fun hc => hl (Or.inl ⟨juror, hc⟩)) fun hr => hl (Or.inr (Or.inl ⟨juror, hr⟩))
    cases hstep.step.on_file id with
    | untouched hl hnew =>
        exact hsame (fun hd => hl hd.escrow?_eq) (congrArg File.commit hnew)
          (congrArg File.vote hnew)
    | opened _ hl _ _ hnew =>
        exact hsame hl.not_disputes (congrArg File.commit hnew) (congrArg File.vote hnew)
    | released _ _ _ hnew =>
        apply hsame _ (congrArg File.commit hnew) (congrArg File.vote hnew)
        rintro (⟨_, hl⟩ | ⟨_, hl⟩ | hl) <;> cases hl
    | raised _ _ _ hnew =>
        apply hsame _ (congrArg File.commit hnew) (congrArg File.vote hnew)
        rintro (⟨_, hl⟩ | ⟨_, hl⟩ | hl) <;> cases hl
    | resolved _ _ _ _ _ _ hnew =>
        have hcommit : env'.book.commit id = env.book.commit id := congrArg File.commit hnew
        have hvote : env'.book.vote id = env.book.vote id := congrArg File.vote hnew
        rw [hcommit, hvote]
        exact hP.cons nofun nofun
    | @committed auth juror' c d _ hself hauth hstake hd hopen hwindow hfresh hnew =>
        have hcommit : env'.book.commit id = Function.update (env.book.commit id) juror' (some c) :=
          congrArg File.commit hnew
        have hvote : env'.book.vote id = env.book.vote id := congrArg File.vote hnew
        rw [hcommit, hvote]
        by_cases hj : juror = juror'
        · subst hj
          -- who has revealed did so after the deadline
          have hnone : env.book.vote id juror = none := by
            by_contra hv
            rcases (hs.sound.file id).escrow_of_dispute hd with ⟨e, he⟩
            have hafter := (hs.sound.proceedings he).vote_after d juror hd hv
            omega
          rw [hfresh, hnone] at hP
          rw [Function.update_self, hnone]
          exact hP.commit rfl hstake
        · rw [Function.update_of_ne hj]
          exact hP.cons (by rintro ⟨⟩; exact hj rfl) nofun
    | @revealed auth juror' vote salt d voters _ hself hauth hd hopen hfrom huntil hfresh hcommitted
        hvoters hnew =>
        have hcommit : env'.book.commit id = Function.update (env.book.commit id) juror' none :=
          congrArg File.commit hnew
        have hvote : env'.book.vote id = Function.update (env.book.vote id) juror' (some vote) :=
          congrArg File.vote hnew
        rw [hcommit, hvote]
        by_cases hj : juror = juror'
        · subst hj
          rw [hcommitted, hfresh] at hP
          rw [Function.update_self, Function.update_self]
          exact hP.reveal rfl
        · rw [Function.update_of_ne hj, Function.update_of_ne hj]
          exact hP.cons nofun (by rintro ⟨⟩; exact hj rfl)

end Histories

/-! ### Integrity -/

/-- The hash has no collision among messages as long as a vote with its salt. -/
def Host.CollisionFree (H : Host A D) : Prop :=
  ∀ x y : List UInt8, x.length = 33 → y.length = 33 → H.sha256 x = H.sha256 y → x = y

/-- Then a commitment opens to one vote only. -/
theorem Host.CollisionFree.vote_eq (hH : H.CollisionFree) {vote vote' : Bool}
    {salt salt' : Vector UInt8 32} (h : hashVote H vote salt = hashVote H vote' salt') :
    vote = vote' := by
  have hbytes := hH _ _ (by simp) (by simp) h
  have hhead := List.head_eq_of_cons_eq hbytes
  cases vote <;> cases vote' <;> first | rfl | exact absurd hhead (by decide)

variable [DecidableEq D] {env₀ env : Env H} {h : History H}

/-- A recorded vote as it came about: one commitment, backed by stake and before
    the deadline, and later one reveal of it.  Unless the hash has collisions no
    deployment with that commitment reveals another vote of the juror. -/
inductive VoteCast (env₀ : Env H) (id : U64) (juror : A) (vote : Bool) (h : History H)
    (env : Env H) : Prop
  | intro {t t' : Move (Env H) (Label H)} {auth auth' : A → Bool} {c : D}
      {salt : Vector UInt8 32} {d : DisputeRecord A}
      (hcommits : h.filter (fun t => t.label.commit? = some (id, juror)) = [t])
      (hl : t.label = .call auth (.commitVote id juror c) ())
      (hstake : 0 < (t.pre.stakeOf juror).val)
      (hdispute : env.get (.dispute id) = some d)
      (hwindow : t.pre.sequence.val < d.commitDeadline.val)
      (hreveals : h.filter (fun t => t.label.reveal? = some (id, juror)) = [t'])
      (hl' : t'.label = .call auth' (.revealVote id juror vote salt) ())
      (hc : c = hashVote H vote salt) (hearlier : t.pre.sequence.val < t'.pre.sequence.val)
      (honly : H.CollisionFree → ∀ {h' : History H} {env' : Env H}, SingleInit env₀ h' env' →
        t ∈ h' → ∀ t'' ∈ h', ∀ auth'' vote'' salt'',
          t''.label = .call auth'' (.revealVote id juror vote'' salt'') () → vote'' = vote)

/-- Whoever reveals after the commitment `t` reveals what `t` committed to. -/
theorem SingleInit.reveal_opens_commit (hs : SingleInit env₀ h env) {id : U64} {juror : A}
    {t t' : Move (Env H) (Label H)} {auth auth' : A → Bool} {c : D} {vote : Bool}
    {salt : Vector UInt8 32} (ht : t ∈ h) (hl : t.label = .call auth (.commitVote id juror c) ())
    (ht' : t' ∈ h) (hl' : t'.label = .call auth' (.revealVote id juror vote salt) ()) :
    c = hashVote H vote salt := by
  have hcommit : t ∈ h.filter fun t => t.label.commit? = some (id, juror) :=
    List.mem_filter.mpr ⟨ht, decide_eq_true (by rw [hl]; rfl)⟩
  have hreveal : t' ∈ h.filter fun t => t.label.reveal? = some (id, juror) :=
    List.mem_filter.mpr ⟨ht', decide_eq_true (by rw [hl']; rfl)⟩
  have hballot := hs.ballot id juror
  generalize env.book.commit id juror = commit at hballot
  generalize env.book.vote id juror = recorded at hballot
  cases hballot with
  | absent hcommits =>
      rw [hcommits] at hcommit
      cases hcommit
  | hidden _ hreveals =>
      rw [hreveals] at hreveal
      cases hreveal
  | shown hcommits hreveals hcast _ hshown hc =>
      rw [hcommits, List.mem_singleton] at hcommit
      rw [hreveals, List.mem_singleton] at hreveal
      subst hcommit hreveal
      cases hl.symm.trans hcast
      cases hl'.symm.trans hshown
      exact hc

/-- Commitments come before reveals and reveals before the one resolution, and
    every recorded vote was cast as `VoteCast` says. -/
theorem commit_reveal_integrity (hs : SingleInit env₀ h env) (id : U64) :
    h.Pairwise (InOrder id) ∧
    (∀ t ∈ h, ∀ t' ∈ h, ∀ juror juror', t.label.commit? = some (id, juror) →
      t'.label.reveal? = some (id, juror') → t.pre.sequence.val < t'.pre.sequence.val) ∧
    (∀ t ∈ h, ∀ t' ∈ h, ∀ juror, t.label.reveal? = some (id, juror) →
      t'.label.resolve? = some id → t.pre.sequence.val < t'.pre.sequence.val) ∧
    (h.filter fun t => t.label.resolve? = some id).length ≤ 1 ∧
    ∀ juror vote, env.get (.jurorVote ⟨id, juror⟩) = some vote →
      VoteCast env₀ id juror vote h env := by
  have hcommit_reveal : ∀ t ∈ h, ∀ t' ∈ h, ∀ juror juror', t.label.commit? = some (id, juror) →
      t'.label.reveal? = some (id, juror') → t.pre.sequence.val < t'.pre.sequence.val := by
    intro t ht t' ht' juror juror' hl hl'
    rcases hs.on_schedule ht (Or.inl ⟨juror, hl⟩) with ⟨d, hd, hsched⟩
    rcases hs.on_schedule ht' (Or.inr (Or.inl ⟨juror', hl'⟩)) with ⟨d', hd', hsched'⟩
    cases hd.symm.trans hd'
    exact (hsched.commit juror hl).trans_le (hsched'.reveal juror' hl').1
  refine ⟨hs.in_order id, hcommit_reveal, ?_, hs.resolve_once id, ?_⟩
  · intro t ht t' ht' juror hl hl'
    rcases hs.on_schedule ht (Or.inr (Or.inl ⟨juror, hl⟩)) with ⟨d, hd, hsched⟩
    rcases hs.on_schedule ht' (Or.inr (Or.inr hl')) with ⟨d', hd', hsched'⟩
    cases hd.symm.trans hd'
    exact (hsched.reveal juror hl).2.trans_le (hsched'.resolve hl').1
  · intro juror vote hvote
    have hballot := hs.ballot id juror
    have hrecorded : env.book.vote id juror = some vote := hvote
    rw [hrecorded] at hballot
    generalize env.book.commit id juror = commit at hballot
    cases hballot with
    | @shown t t' auth auth' c _ salt hcommits hreveals hl hstake hl' hc =>
      have ht : t ∈ h := List.mem_of_mem_filter (hcommits ▸ List.mem_singleton_self t)
      have ht' : t' ∈ h := List.mem_of_mem_filter (hreveals ▸ List.mem_singleton_self t')
      have hcommit : t.label.commit? = some (id, juror) := by rw [hl]; rfl
      have hreveal : t'.label.reveal? = some (id, juror) := by rw [hl']; rfl
      rcases hs.on_schedule ht (Or.inl ⟨juror, hcommit⟩) with ⟨d, hd, hsched⟩
      refine .intro hcommits hl hstake hd (hsched.commit juror hcommit) hreveals hl' hc
        (hcommit_reveal t ht t' ht' juror juror hcommit hreveal) ?_
      intro hH h' env' hs' hin t'' ht'' auth'' vote'' salt'' hl''
      have hsame := hs'.reveal_opens_commit hin hl ht'' hl''
      exact hH.vote_eq (hsame.symm.trans hc)

/-- The juror 3 votes for the beneficiary of a disputed escrow and decides it. -/
def oneVote : List (Action Nat (List UInt8)) :=
  [.call (fun a => a == 1) (.initialise 1 9 DEFAULT_SLASH_BPS),
    .call (fun a => a == 2) (.createEscrow 2 4 (.ofNat 100)),
    .call (fun a => a == 3) (.stake 3 (.ofNat 30)),
    .call (fun a => a == 4) (.raiseDispute 1 4 "late"),
    .call (fun a => a == 3) (.commitVote 1 3 (0 :: List.replicate 32 7)),
    .close (.ofNat 17281),
    .call (fun a => a == 3) (.revealVote 1 3 false (Vector.replicate 32 7)),
    .close (.ofNat 34561),
    .call (fun _ => false) (.resolveDispute 1)]

theorem commit_reveal_integrity_sample :
    ∃ (h : History Host.plain) (env : Env Host.plain), SingleInit Env.deployed h env ∧
      Host.plain.CollisionFree ∧ (h.filter fun t => t.label.resolve? = some 1).length = 1 ∧
        VoteCast Env.deployed 1 3 false h env := by
  rcases Env.exists_of_plays oneVote
    (fun h env => decide ((h.filter fun t => t.label.resolve? = some 1).length = 1 ∧
      env.get (.jurorVote ⟨1, 3⟩) = some false)) (by decide +kernel) with ⟨h, env, hs, hend⟩
  rcases of_decide_eq_true hend with ⟨honce, hvote⟩
  exact ⟨h, env, hs, fun _ _ _ _ heq => heq, honce,
    (commit_reveal_integrity hs 1).2.2.2.2 3 false hvote⟩

end TrustFlow
