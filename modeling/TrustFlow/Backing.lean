import TrustFlow.CommitReveal

/-!
# The stake behind a vote

A juror needs a positive stake to commit, and nothing holds the stake back
afterwards: `unstake` asks only for the stake the juror has.  So a voter may
have no stake left when its dispute is resolved.  Apart from an `unstake` of its
own only a slash at the full rate, in another dispute, can do that
(`votes_backed_unless_drained`).
-/

namespace TrustFlow

open Transition

variable {A D : Type} [DecidableEq A] {H : Host A D}

/-! ### What takes a whole stake away -/

/-- A step that leaves `juror` without stake: an `unstake` of its whole stake, or
    a resolution that slashes it at 10000 basis points. -/
inductive Drains (juror : A) (pre : Env H) : Label H → Prop
  | unstakes {auth : A → Bool} {amount : I128}
      (hall : amount.val = (pre.stakeOf juror).val) :
      Drains juror pre (.call auth (.unstake juror amount) ())
  | slashes {auth : A → Bool} {id : U64} {ruling : Bool} (hbps : pre.slashBps.val = 10000)
      (hmem : juror ∈ pre.book.minority id) :
      Drains juror pre (.call auth (.resolveDispute id) ruling)

namespace Book

variable {b b' : Book H} {l : Label H}

/-- The slash rate is at most the whole. -/
theorem Step.slashBps_le (h : b.Step l b')
    (hb : (b.settings.slashBps.getD DEFAULT_SLASH_BPS).val ≤ 10000) :
    (b'.settings.slashBps.getD DEFAULT_SLASH_BPS).val ≤ 10000 := by
  cases h.on_settings with
  | untouched _ hsame => rwa [hsame]
  | configured hconf => rwa [hconf.frame.2.2]
  | initialised _ _ hbps hset =>
      rw [hset]
      exact hbps

end Book

/-- A step that does not drain a positive stake leaves it positive. -/
theorem Book.Step.stake_pos {env env' : Env H} {l : Label H} {juror : A}
    (h : env.book.Step l env'.book) (hb : env.book.Sound) (hbps : env.slashBps.val ≤ 10000)
    (hpos : 0 < (env.book.stake juror).val) (hl : ¬ Drains juror env l) :
    0 < (env'.book.stake juror).val := by
  cases h.on_stakes with
  | untouched hsame =>
      rw [hsame]
      exact hpos
  | @staked _ juror' amount total _ _ _ hamount htotal hstake =>
      rw [hstake]
      by_cases hj : juror = juror'
      · subst hj
        rw [Function.update_self]
        omega
      · rwa [Function.update_of_ne hj]
  | @unstaked _ juror' amount total _ _ hle htotal hstake =>
      rw [hstake]
      by_cases hj : juror = juror'
      · subst hj
        have hsome : amount.val ≠ (env.book.stake juror).val := fun hall => hl (.unstakes hall)
        rw [Function.update_self]
        omega
      · rwa [Function.update_of_ne hj]
  | @slashed _ id _ b₁ _ hslashes hstake =>
      rw [hstake]
      by_cases hmem : juror ∈ env.book.minority id
      · have hslash := (hslashes.of_mem (hb.minority_nodup id) hmem).1
        have hrate : env.slashBps.val ≠ 10000 := fun hfull => hl (.slashes hfull hmem)
        have hlt : (slashAmount (env.book.stake juror) env.slashBps).val <
            (env.book.stake juror).val := slashAmount_lt hpos (by omega)
        have hrate' : env.book.settings.slashBps.getD DEFAULT_SLASH_BPS = env.slashBps := rfl
        rw [hrate'] at hslash
        omega
      · rw [(hslashes.of_not_mem hmem).1]
        exact hpos

/-! ### From the commitment to the resolution -/

section Histories

variable [DecidableEq D] {env₀ env : Env H} {h : History H} {id : U64} {juror : A}

namespace SingleInit

theorem slashBps_le (hs : SingleInit env₀ h env) : env.slashBps.val ≤ 10000 := by
  refine hs.invariant (P := fun b => (b.settings.slashBps.getD DEFAULT_SLASH_BPS).val ≤ 10000)
    ?_ fun hP hstep => hstep.step.slashBps_le hP
  intro b hb
  rw [hb.settings]
  show (1000 : Int) ≤ 10000
  decide

/-- Since its commitment a juror has stake, unless a step in between drained it. -/
theorem stake_since_commit (hs : SingleInit env₀ h env) {later earlier : History H}
    {t : Move (Env H) (Label H)} (hh : h = later ++ t :: earlier)
    (hl : t.label.commit? = some (id, juror)) :
    0 < (env.book.stake juror).val ∨ ∃ t' ∈ later, Drains juror t'.pre t'.label := by
  revert later
  refine history_invariant (P := fun h b => ∀ {later}, h = later ++ t :: earlier →
    0 < (b.stake juror).val ∨ ∃ t' ∈ later, Drains juror t'.pre t'.label) ?_ ?_ hs
  · intro _ later hh
    exact absurd hh.symm (List.append_ne_nil_of_right_ne_nil _ (List.cons_ne_nil _ _))
  · intro h env l env' hs hP hstep later hh
    cases later with
    | nil =>
        -- the commitment itself: it asks for stake and leaves it alone
        cases hh
        cases hstep.step.on_file id with
        | committed hself hauth hpos =>
            refine Or.inl (hstep.step.stake_pos hs.sound hs.slashBps_le ?_ nofun)
            cases hl
            exact hpos
        | untouched hother => exact absurd (Label.Disputes.escrow?_eq (Or.inl ⟨juror, hl⟩)) hother
        | opened _ hopens => exact absurd (Or.inl ⟨juror, hl⟩) hopens.not_disputes
        | released | raised | revealed | resolved => cases hl
    | cons t₁ later =>
        cases hh
        rcases hP rfl with hpos | ⟨t', ht', hdrains⟩
        · by_cases hdrain : Drains juror env l
          · exact Or.inr ⟨_, List.mem_cons_self, hdrain⟩
          · exact Or.inl (hstep.step.stake_pos hs.sound hs.slashBps_le hpos hdrain)
        · exact Or.inr ⟨t', List.mem_cons_of_mem _ ht', hdrains⟩

end SingleInit

/-- When a dispute is resolved every voter had stake when it committed, and still
    has some unless after the commitment it withdrew its whole stake or lost it
    to a slash at the full rate in another dispute. -/
theorem votes_backed_unless_drained {t : Move (Env H) (Label H)}
    (hs : SingleInit env₀ (t :: h) env) (hl : t.label.resolve? = some id)
    (hvoter : juror ∈ (t.pre.votersOf id).toList) :
    ∃ later c earlier, h = later ++ c :: earlier ∧ c.label.commit? = some (id, juror) ∧
      0 < (c.pre.stakeOf juror).val ∧
      (0 < (t.pre.stakeOf juror).val ∨
        ∃ t' ∈ later, Drains juror t'.pre t'.label ∧ t'.label.resolve? ≠ some id) := by
  have hpre := hs.tail
  rcases hs.safe.step.on_schedule (Or.inr (Or.inr hl)) with ⟨⟨d, hd, -⟩, -⟩
  rcases (hpre.sound.file id).escrow_of_dispute hd with ⟨e, he⟩
  have hvote : t.pre.book.vote id juror ≠ none :=
    ((hpre.sound.proceedings he).mem_voters juror).mp hvoter
  have hballot := hpre.ballot id juror
  generalize t.pre.book.commit id juror = commit at hballot
  generalize t.pre.book.vote id juror = vote at hballot hvote
  cases hballot with
  | absent | hidden => exact absurd rfl hvote
  | @shown c _ _ _ _ _ _ hcommits _ hcast hstake =>
      have hc : c ∈ h := List.mem_of_mem_filter (hcommits ▸ List.mem_singleton_self c)
      have hcommit : c.label.commit? = some (id, juror) := by rw [hcast]; rfl
      rcases List.append_of_mem hc with ⟨later, earlier, hh⟩
      refine ⟨later, c, earlier, hh, hcommit, hstake, ?_⟩
      rcases hpre.stake_since_commit hh hcommit with hpos | ⟨t', ht', hdrains⟩
      · exact Or.inl hpos
      · refine Or.inr ⟨t', ht', hdrains, fun hearlier => ?_⟩
        have hin : t' ∈ h := hh ▸ List.mem_append_left _ ht'
        have hpair := List.rel_of_pairwise_cons (hs.in_order id) hin
        exact hpair.resolve_last hearlier (Or.inr (Or.inr hl))

end Histories

/-! ### A vote without stake -/

/-- The juror 3 withdraws its stake between its commitment and its reveal. -/
def withdrawnVote : List (Action Nat (List UInt8)) :=
  oneVote.take 5 ++ .call (fun a => a == 3) (.unstake 3 (.ofNat 30)) ::
    oneVote.drop 5

/-- The first transition of a history resolves the escrow 1 with the voter 3,
    whose stake is `stake`. -/
def ResolvedByThree (stake : Int) : History Host.plain → Bool
  | [] => false
  | t :: _ => decide (t.label.resolve? = some 1 ∧ 3 ∈ (t.pre.votersOf 1).toList ∧
      (t.pre.stakeOf 3).val = stake)

theorem voter_without_stake :
    ¬ ∀ {h : History Host.plain} {env : Env Host.plain} {t : Move (Env Host.plain)
      (Label Host.plain)} {id : U64}, SingleInit Env.deployed (t :: h) env →
      t.label.resolve? = some id → ∀ juror ∈ (t.pre.votersOf id).toList,
        0 < (t.pre.stakeOf juror).val := by
  intro hall
  rcases Env.exists_of_plays withdrawnVote (fun h _ => ResolvedByThree 0 h) (by decide +kernel)
    with ⟨_ | ⟨t, h⟩, env, hs, hend⟩
  · cases hend
  · rcases of_decide_eq_true hend with ⟨hl, hvoter, hstake⟩
    have hpos := hall hs hl 3 hvoter
    omega

theorem votes_backed_unless_drained_sample :
    ∃ (t : Move (Env Host.plain) (Label Host.plain)) (h : History Host.plain)
      (env : Env Host.plain), SingleInit Env.deployed (t :: h) env ∧
      t.label.resolve? = some 1 ∧ 3 ∈ (t.pre.votersOf 1).toList ∧
      ∃ later c earlier, h = later ++ c :: earlier ∧ c.label.commit? = some (1, 3) ∧
        0 < (c.pre.stakeOf 3).val := by
  rcases Env.exists_of_plays oneVote (fun h _ => ResolvedByThree 30 h) (by decide +kernel)
    with ⟨_ | ⟨t, h⟩, env, hs, hend⟩
  · cases hend
  · rcases of_decide_eq_true hend with ⟨hl, hvoter, -⟩
    rcases votes_backed_unless_drained hs hl hvoter with
      ⟨later, c, earlier, hh, hcommit, hstake, -⟩
    exact ⟨t, h, env, hs, hl, hvoter, later, c, earlier, hh, hcommit, hstake⟩

end TrustFlow
