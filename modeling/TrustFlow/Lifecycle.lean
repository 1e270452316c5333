import TrustFlow.CommitReveal

/-!
# The lifecycle of an escrow and its dispute

The status of an escrow and the record of its dispute lie under different keys,
and no entrypoint looks at both of them to see that they fit.  That they do is
part of `File.Proceedings`; this module follows the two through a history: a
status only moves forward, a dispute keeps what it was raised with, and the
ruling a resolution returned is the one on record.

The second part is the register of votes: the list of voters, the votes and the
commitments of a dispute, and how many reveals there were.
-/

namespace TrustFlow

open Transition

/-- The moves of a status. -/
inductive EscrowStatus.Moves : EscrowStatus → EscrowStatus → Prop
  | raise : Moves .active .disputed
  | resolve : Moves .disputed .settled
  | release : Moves .active .settled

variable {A D : Type} [DecidableEq A] {H : Host A D}

/-- The escrow of a successful `reveal_vote`. -/
def Label.revealOn? : Label H → Option U64
  | .call _ (.revealVote id ..) _ => some id
  | _ => none

theorem Label.Disputes.of_revealOn? {l : Label H} {id : U64} (h : l.revealOn? = some id) :
    l.Disputes id := by
  cases l with
  | call auth c r =>
      cases c <;> cases h
      exact Or.inr (Or.inl ⟨_, rfl⟩)
  | failed | close | tokens => cases h

namespace Book

variable {b b' : Book H} {l : Label H} {id : U64} {e : EscrowRecord A}

/-- A step leaves the status of an escrow or moves it forward. -/
theorem Step.status_moves (h : b.Step l b') (hb : b.Sound) (he : b.escrow id = some e) :
    ∃ e', b'.escrow id = some e' ∧ (e'.status = e.status ∨ e.status.Moves e'.status) := by
  have hsame (hescrow : b'.escrow id = b.escrow id) :
      ∃ e', b'.escrow id = some e' ∧ (e'.status = e.status ∨ e.status.Moves e'.status) :=
    ⟨e, hescrow.trans he, Or.inl rfl⟩
  cases h.on_file id with
  | untouched _ hsame' => exact hsame (congrArg File.escrow hsame')
  | opened _ _ hopen =>
      have hempty : b.escrow id = none := congrArg File.escrow (hb.unusedAbove.opens hopen)
      cases hempty.symm.trans he
  | @released _ i _ _ t _ _ ht _ _ hnew =>
      cases he.symm.trans ht.escrow_eq
      refine ⟨t.escrowAfter i, congrArg File.escrow hnew, ?_⟩
      by_cases heq : t.releasedAfter = t.escrow.amount
      · have hsettled : (t.escrowAfter i).status = .settled := if_pos heq
        rw [hsettled, ht.active]
        exact Or.inr .release
      · exact Or.inl (if_neg heq)
  | raised _ he' hactive hnew =>
      cases he.symm.trans he'
      refine ⟨_, congrArg File.escrow hnew, Or.inr ?_⟩
      rw [hactive]
      exact .raise
  | committed _ _ _ _ _ _ _ hnew => exact hsame (congrArg File.escrow hnew)
  | revealed _ _ _ _ _ _ _ _ _ hnew => exact hsame (congrArg File.escrow hnew)
  | resolved _ hd hopen _ _ he' hnew =>
      cases he.symm.trans he'
      refine ⟨_, congrArg File.escrow hnew, Or.inr ?_⟩
      rw [(hb.proceedings he).status_of_unresolved hd hopen]
      exact .resolve

/-- An escrow starts out active. -/
theorem Step.status_of_new (h : b.Step l b') (hb : b.Sound) (hnone : b.escrow id = none)
    (he : b'.escrow id = some e) : e.status = .active := by
  cases h.on_file id with
  | untouched _ hsame =>
      have hold : b.escrow id = some e := (congrArg File.escrow hsame).symm.trans he
      cases hnone.symm.trans hold
  | opened _ _ _ _ hnew =>
      cases (congrArg File.escrow hnew).symm.trans he
      rfl
  | released ht => cases hnone.symm.trans ht.escrow_eq
  | raised _ he' => cases hnone.symm.trans he'
  | committed _ _ _ hd =>
      rcases (hb.file id).escrow_of_dispute hd with ⟨e', he'⟩
      cases hnone.symm.trans he'
  | revealed _ _ hd =>
      rcases (hb.file id).escrow_of_dispute hd with ⟨e', he'⟩
      cases hnone.symm.trans he'
  | resolved _ _ _ _ _ he' => cases hnone.symm.trans he'

/-- A reveal adds one voter, and nothing else adds or removes one. -/
theorem Step.voters_length (h : b.Step l b') :
    (b'.votersOf id).length =
      (b.votersOf id).length + (if l.revealOn? = some id then 1 else 0) := by
  have hsame (hl : l.revealOn? ≠ some id) (hvoters : b'.votersOf id = b.votersOf id) :
      (b'.votersOf id).length =
        (b.votersOf id).length + (if l.revealOn? = some id then 1 else 0) := by
    rw [hvoters, if_neg hl]
    rfl
  cases h.on_file id with
  | untouched hl hnew =>
      refine hsame ?_ (congrArg File.votersOf hnew)
      exact fun hreveal => hl (Label.Disputes.of_revealOn? hreveal).escrow?_eq
  | opened _ hl _ _ hnew =>
      refine hsame ?_ (congrArg File.votersOf hnew)
      exact fun hreveal => hl.not_disputes (Label.Disputes.of_revealOn? hreveal)
  | released _ _ _ hnew => exact hsame nofun (congrArg File.votersOf hnew)
  | raised _ _ _ hnew => exact hsame nofun (congrArg File.votersOf hnew)
  | committed _ _ _ _ _ _ _ hnew => exact hsame nofun (congrArg File.votersOf hnew)
  | @revealed auth juror vote salt _ _ _ _ _ _ _ _ _ _ _ hvoters hnew =>
      have hlist : b'.votersOf id = b.votersOf id ++ [juror] :=
        (congrArg File.votersOf hnew).trans hvoters
      have hreveal : (Label.call auth (.revealVote id juror vote salt) () : Label H).revealOn? =
          some id := rfl
      rw [hlist, List.length_append, if_pos hreveal, List.length_singleton]
  | resolved _ _ _ _ _ _ hnew => exact hsame nofun (congrArg File.votersOf hnew)

end Book

/-! ### Over a history -/

variable [DecidableEq D] {env₀ env : Env H} {h : History H} {id : U64}

namespace SingleInit

/-- The records of a dispute from any point of the history on. -/
theorem dispute_continues (hs : SingleInit env₀ h env) {t : Move (Env H) (Label H)} (ht : t ∈ h)
    {d : DisputeRecord A} (hd : t.pre.book.dispute id = some d ∨ t.post.book.dispute id = some d) :
    ∃ d', env.book.dispute id = some d' ∧ d.Continues d' := by
  revert ht
  refine history_invariant (P := fun h b => t ∈ h →
    ∃ d', b.dispute id = some d' ∧ d.Continues d') ?_ ?_ hs
  · intro _ ht
    cases ht
  · intro h env l env' hs hP hstep ht
    rcases List.mem_cons.mp ht with rfl | ht
    · rcases hd with hd | hd
      · exact hstep.step.dispute_continues hs.sound hd
      · exact ⟨d, hd, .refl d⟩
    · rcases hP ht with ⟨d', hd', hcont⟩
      rcases hstep.step.dispute_continues hs.sound hd' with ⟨d'', hd'', hcont'⟩
      exact ⟨d'', hd'', hcont.trans hcont'⟩

/-- A resolved dispute was resolved by a call that returned its ruling. -/
theorem exists_resolution (hs : SingleInit env₀ h env) {d : DisputeRecord A}
    (hd : env.book.dispute id = some d) (hresolved : d.resolved = true) :
    ∃ t ∈ h, ∃ auth, t.label = .call auth (.resolveDispute id) d.rulingForDepositor := by
  revert d
  refine history_invariant (P := fun h b => ∀ {d : DisputeRecord A}, b.dispute id = some d →
    d.resolved = true →
    ∃ t ∈ h, ∃ auth, t.label = .call auth (.resolveDispute id) d.rulingForDepositor) ?_ ?_ hs
  · intro hb d hd
    have hnone : env₀.book.dispute id = none := congrArg File.dispute (hb.file id)
    cases hnone.symm.trans hd
  · intro h env l env' hs hP hstep d hd hresolved
    have hearlier (hsame : env'.book.dispute id = env.book.dispute id) :
        ∃ t ∈ (⟨env, l, env'⟩ :: h : History H), ∃ auth,
          t.label = .call auth (.resolveDispute id) d.rulingForDepositor := by
      rcases hP (hsame.symm.trans hd) hresolved with ⟨t, ht, hl⟩
      exact ⟨t, List.mem_cons_of_mem _ ht, hl⟩
    cases hstep.step.on_file id with
    | untouched _ hnew => exact hearlier (congrArg File.dispute hnew)
    | opened _ _ _ _ hnew => exact hearlier (congrArg File.dispute hnew)
    | released _ _ _ hnew => exact hearlier (congrArg File.dispute hnew)
    | raised _ _ _ hnew =>
        cases (congrArg File.dispute hnew).symm.trans hd
        cases hresolved
    | committed _ _ _ _ _ _ _ hnew => exact hearlier (congrArg File.dispute hnew)
    | revealed _ _ _ _ _ _ _ _ _ hnew => exact hearlier (congrArg File.dispute hnew)
    | resolved _ _ _ _ _ _ hnew =>
        cases (congrArg File.dispute hnew).symm.trans hd
        exact ⟨_, List.mem_cons_self, _, rfl⟩

/-- The ruling a resolution returned is on record ever after. -/
theorem ruling_of_resolution (hs : SingleInit env₀ h env) {t : Move (Env H) (Label H)}
    (ht : t ∈ h) {auth : A → Bool} {ruling : Bool}
    (hl : t.label = .call auth (.resolveDispute id) ruling) :
    ∃ d, env.book.dispute id = some d ∧ d.resolved = true ∧ d.rulingForDepositor = ruling := by
  rcases hs.split_mem ht with ⟨-, -, -, -, hsafe, -⟩
  have hstep : t.pre.book.Step (.call auth (.resolveDispute id) ruling) t.post.book :=
    hl ▸ hsafe.step
  cases hstep.on_file id with
  | untouched hother => exact absurd rfl hother
  | opened _ hopens => cases hopens
  | @resolved _ _ d _ _ _ _ _ _ _ _ hnew =>
      have hpost : t.post.book.dispute id =
          some { d with resolved := true, rulingForDepositor := ruling } :=
        congrArg File.dispute hnew
      rcases hs.dispute_continues ht (Or.inr hpost) with ⟨d', hd', hcont⟩
      have hsame := hcont.unchanged rfl
      subst hsame
      exact ⟨_, hd', rfl, rfl⟩

end SingleInit

/-- What one transition does to the status of the escrow `id`. -/
structure StatusMoves (id : U64) (t : Move (Env H) (Label H)) : Prop where
  moves : ∀ e, t.pre.get (.escrow id) = some e → ∃ e', t.post.get (.escrow id) = some e' ∧
    (e'.status = e.status ∨ e.status.Moves e'.status)
  starts : t.pre.get (.escrow id) = none → ∀ e, t.post.get (.escrow id) = some e →
    e.status = .active

/-- The escrow `id` and its dispute fit together, now and in the history. -/
structure LifecycleAgrees (id : U64) (h : History H) (env : Env H) : Prop where
  disputed_iff : (∃ e, env.get (.escrow id) = some e ∧ e.status = .disputed) ↔
    ∃ d, env.get (.dispute id) = some d ∧ d.resolved = false
  resolved : ∀ d, env.get (.dispute id) = some d → d.resolved = true →
    (∃ e, env.get (.escrow id) = some e ∧ e.status = .settled) ∧
      ∃ t ∈ h, ∃ auth, t.label = .call auth (.resolveDispute id) d.rulingForDepositor
  returned : ∀ t ∈ h, ∀ auth ruling, t.label = .call auth (.resolveDispute id) ruling →
    ∃ d, env.get (.dispute id) = some d ∧ d.resolved = true ∧ d.rulingForDepositor = ruling
  active : ∀ e, env.get (.escrow id) = some e → e.status = .active →
    env.get (.dispute id) = none ∧ env.get (.disputeVoters id) = none ∧
      ∀ juror, env.get (.jurorCommit ⟨id, juror⟩) = none ∧ env.get (.jurorVote ⟨id, juror⟩) = none
  status : ∀ t ∈ h, StatusMoves id t
  record : ∀ t ∈ h, ∀ d, t.pre.get (.dispute id) = some d →
    ∃ d', env.get (.dispute id) = some d' ∧ d.Continues d'

theorem lifecycle_agrees (hs : SingleInit env₀ h env) (id : U64) : LifecycleAgrees id h env := by
  have hfile := hs.sound.file id
  refine ⟨⟨?_, ?_⟩, ?_, ?_, ?_, ?_, ?_⟩
  · rintro ⟨e, he, hdisputed⟩
    exact (hs.sound.proceedings he).disputed hdisputed
  · rintro ⟨d, hd, hopen⟩
    rcases hfile.escrow_of_dispute hd with ⟨e, he⟩
    exact ⟨e, he, (hs.sound.proceedings he).status_of_unresolved hd hopen⟩
  · intro d hd hresolved
    rcases hfile.escrow_of_dispute hd with ⟨e, he⟩
    have hstatus := (hs.sound.proceedings he).status_eq d hd
    rw [if_pos hresolved] at hstatus
    exact ⟨⟨e, he, hstatus⟩, hs.exists_resolution hd hresolved⟩
  · exact fun t ht auth ruling hl => hs.ruling_of_resolution ht hl
  · intro e he hactive
    have hp := hs.sound.proceedings he
    rcases hp.quiet (hp.active hactive) with ⟨hvoters, hcommit, hvote⟩
    exact ⟨hp.active hactive, hvoters, fun juror => ⟨hcommit juror, hvote juror⟩⟩
  · intro t ht
    rcases hs.split_mem ht with ⟨_, _, _, hpre, hsafe, _⟩
    exact ⟨fun e he => hsafe.step.status_moves hpre.sound he,
      fun hnone e he => hsafe.step.status_of_new hpre.sound hnone he⟩
  · exact fun t ht d hd => hs.dispute_continues ht (Or.inl hd)

/-- After the one vote for the beneficiary the dispute is on record with that ruling. -/
theorem lifecycle_agrees_sample :
    ∃ (h : History Host.plain) (env : Env Host.plain), SingleInit Env.deployed h env ∧
      LifecycleAgrees 1 h env ∧ ∃ d, env.get (.dispute 1) = some d ∧ d.resolved = true ∧
        d.rulingForDepositor = false := by
  rcases Env.exists_of_plays oneVote
    (fun _ env => decide ((env.get (.dispute 1)).map (fun d => (d.resolved, d.rulingForDepositor)) =
      some (true, false))) (by decide +kernel) with ⟨h, env, hs, hend⟩
  rcases Option.map_eq_some_iff.mp (of_decide_eq_true hend) with ⟨d, hd, hruling⟩
  rcases Prod.mk.inj hruling with ⟨hresolved, hfor⟩
  exact ⟨h, env, hs, lifecycle_agrees hs 1, d, hd, hresolved, hfor⟩

/-! ### The register of votes -/

/-- There are as many voters as there were reveals. -/
theorem SingleInit.voters_length (hs : SingleInit env₀ h env) (id : U64) :
    (env.book.votersOf id).length = h.countP fun t => t.label.revealOn? = some id := by
  refine history_invariant (P := fun h b => (b.votersOf id).length =
    h.countP fun t => t.label.revealOn? = some id) ?_ ?_ hs
  · intro hb
    have hnone : env₀.book.votersOf id = [] := congrArg File.votersOf (hb.file id)
    rw [hnone]
    rfl
  · intro h env l env' _ hP hstep
    rw [hstep.step.voters_length, hP, List.countP_cons]
    simp only [decide_eq_true_eq]

/-- The votes on `id` are registered once each, for those who revealed, and a
    tally counts them as the jurors cast them. -/
structure VotesRegistered (id : U64) (h : History H) (env : Env H) : Prop where
  nodup : (env.votersOf id).toList.Nodup
  mem_voters : ∀ juror, juror ∈ (env.votersOf id).toList ↔
    ∃ vote, env.get (.jurorVote ⟨id, juror⟩) = some vote
  commit_or_vote : ∀ juror, env.get (.jurorCommit ⟨id, juror⟩) = none ∨
    env.get (.jurorVote ⟨id, juror⟩) = none
  length_eq : (env.votersOf id).toList.length = h.countP fun t => t.label.revealOn? = some id
  recorded : ∀ juror ∈ (env.votersOf id).toList,
    env.get (.jurorVote ⟨id, juror⟩) = some (env.voteOf id juror)
  tally : ∀ auth, ∃ forDepositor forBeneficiary : U32,
    (TrustFlow.tally id (env.votersOf id).toList 0 0 : Op H (U32 × U32)) auth env =
      .ok ((forDepositor, forBeneficiary), env) ∧
    forDepositor.val = {juror | env.get (.jurorVote ⟨id, juror⟩) = some true}.ncard ∧
    forBeneficiary.val = {juror | env.get (.jurorVote ⟨id, juror⟩) = some false}.ncard

theorem votes_registered (hs : SingleInit env₀ h env) (id : U64) : VotesRegistered id h env := by
  rcases (hs.sound.file id).register with ⟨hunique, hmem, hcommit⟩
  have hnodup : (env.votersOf id).toList.Nodup := hunique
  have hmem' (juror : A) : juror ∈ (env.votersOf id).toList ↔
      ∃ vote, env.get (.jurorVote ⟨id, juror⟩) = some vote :=
    (hmem juror).trans Option.ne_none_iff_exists'
  have hrecorded : ∀ juror ∈ (env.votersOf id).toList,
      env.get (.jurorVote ⟨id, juror⟩) = some (env.voteOf id juror) := by
    intro juror hj
    rcases (hmem' juror).mp hj with ⟨vote, hvote⟩
    rw [Env.voteOf, hvote]
    rfl
  have hfor (juror : A) : juror ∈ {j | env.get (.jurorVote ⟨id, j⟩) = some true} ↔
      juror ∈ (env.votersOf id).toList ∧ env.voteOf id juror = true := by
    rw [hmem', Env.voteOf, Set.mem_ofPred_eq]
    cases env.get (.jurorVote ⟨id, juror⟩) <;> simp
  have hagainst (juror : A) : juror ∈ {j | env.get (.jurorVote ⟨id, j⟩) = some false} ↔
      juror ∈ (env.votersOf id).toList ∧ (!env.voteOf id juror) = true := by
    rw [hmem', Env.voteOf, Set.mem_ofPred_eq]
    cases env.get (.jurorVote ⟨id, juror⟩) <;> simp
  refine ⟨hnodup, hmem', ?_, hs.voters_length id, hrecorded, ?_⟩
  · intro juror
    by_contra hboth
    rw [not_or] at hboth
    exact hboth.2 (hcommit juror hboth.1)
  · intro auth
    rcases (env.votersOf id).exists_countP fun juror => env.voteOf id juror with ⟨m, hm⟩
    rcases (env.votersOf id).exists_countP fun juror => !env.voteOf id juror with ⟨n, hn⟩
    refine ⟨m, n, tally_eq_ok.mpr ⟨rfl, ?_, ?_⟩, ?_, ?_⟩
    · exact hm.trans (zero_add _).symm
    · exact hn.trans (zero_add _).symm
    · exact hm.trans (congrArg Nat.cast (countP_eq_ncard hnodup hfor))
    · exact hn.trans (congrArg Nat.cast (countP_eq_ncard hnodup hagainst))

/-- The juror 3 is the one voter of the dispute 1. -/
theorem votes_registered_sample :
    ∃ (h : History Host.plain) (env : Env Host.plain), SingleInit Env.deployed h env ∧
      VotesRegistered 1 h env ∧ (env.votersOf 1).toList = [3] := by
  rcases Env.exists_of_plays oneVote (fun _ env => decide ((env.votersOf 1).toList = [3]))
    (by decide +kernel) with ⟨h, env, hs, hend⟩
  exact ⟨h, env, hs, votes_registered hs 1, of_decide_eq_true hend⟩

end TrustFlow
