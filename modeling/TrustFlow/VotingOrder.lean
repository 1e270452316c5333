import TrustFlow.VoteCalls
import TrustFlow.Lifetimes

/-!
# The order of the votes

Votes of different jurors do not see each other, and the resolution does not see
the order of the voters: the tally counts them, and the loop over the minority
slashes each on its own stake.  So any order of the same votes is as good as any
other, as long as the list the votes share has room for all of them.
-/

namespace TrustFlow

open Transition Invocation Purse

variable {A D : Type} [DecidableEq A] {H : Host A D}

/-! ### The resolution after the votes -/

/-- The two states differ in the order of the voters of `id` only (and in the ledger
    they are at). -/
structure Env.SameUpToOrder (id : U64) (env env' : Env H) : Prop where
  inst : ∀ k, env.inst k = env'.inst k
  get : ∀ k, k ≠ .disputeVoters id → env.get k = env'.get k
  voters : (env.votersOf id).toList.Perm (env'.votersOf id).toList
  purse : env.purse = env'.purse

/-- The slashing loop works on the entries of the jurors. -/
theorem slashVoters_frame {auth : A → Bool} {env env' : Env H} {u : Unit} {id : U64} {bps : U32}
    {ruling : Bool} {voters : List A}
    (h : (slashVoters id bps ruling voters : Op H Unit) auth env = .ok (u, env')) :
    (∀ k, env'.inst k = env.inst k) ∧ env'.purse = env.purse ∧
      ∀ k, (∀ juror, k ≠ .jurorStake juror ∧ k ≠ .jurorSlashCount juror) →
        env'.get k = env.get k := by
  induction voters generalizing env with
  | nil =>
      simp only [slashVoters, pure_eq_ok] at h
      rcases h with ⟨-, rfl⟩
      exact ⟨fun _ => rfl, rfl, fun _ _ => rfl⟩
  | cons voter voters ih =>
      simp only [slashVoters, bind_eq_ok, reads_eq_ok, ite_eq_ok, ↓existsAndEq, true_and] at h
      rcases h with ⟨-, _, env₁, hslash, hrest⟩ | ⟨-, hrest⟩
      · rcases slashVoter_eq_ok.mp hslash with ⟨remaining, -, count, -, rfl⟩
        rcases ih hrest with ⟨hinst, hpurse, hget⟩
        refine ⟨fun k => ?_, ?_, fun k hk => ?_⟩
        · rw [hinst]
          simp [Env.afterSlash]
        · rw [hpurse]
          simp [Env.afterSlash]
        · rw [hget k hk]
          simp [Env.afterSlash, hk voter]
      · exact ih hrest

/-- It makes the entries of the minority. -/
theorem slashVoters_isSome {auth : A → Bool} {env m : Env H} {id : U64} {bps : U32}
    (h : (slashVoters id bps (env.book.ruling id) (env.votersOf id).toList : Op H Unit) auth env =
      .ok ((), m)) (k : DataKey A) : (m.get k).isSome = true ↔
      (∃ juror ∈ env.book.minority id, k = .jurorStake juror ∨ k = .jurorSlashCount juror) ∨
        (env.get k).isSome = true := by
  have haccessed : env.Accessed false (fun k =>
      if ∃ juror ∈ env.book.minority id, k = .jurorStake juror ∨ k = .jurorSlashCount juror
      then .write else .keep) m := slashVoters_accessed h
  rw [← Env.liveUntil_isSome, haccessed.liveUntil_eq, ← Env.liveUntil_isSome]
  split
  · next hk => exact iff_of_true rfl (Or.inl hk)
  · next hk => exact (or_iff_right hk).symm

namespace Env.SameUpToOrder

variable {id : U64} {env env' m m' : Env H}

theorem symm (h : env.SameUpToOrder id env') : env'.SameUpToOrder id env where
  inst k := (h.inst k).symm
  get k hk := (h.get k hk).symm
  voters := h.voters.symm
  purse := h.purse.symm

theorem voteOf_eq (h : env.SameUpToOrder id env') : env.voteOf id = env'.voteOf id := by
  funext juror
  rw [Env.voteOf, h.get (.jurorVote ⟨id, juror⟩) (by simp)]
  rfl

theorem stakeOf_eq (h : env.SameUpToOrder id env') : env.stakeOf = env'.stakeOf := by
  funext juror
  rw [Env.stakeOf, h.get (.jurorStake juror) (by simp)]
  rfl

theorem slashCountOf_eq (h : env.SameUpToOrder id env') :
    env.slashCountOf = env'.slashCountOf := by
  funext juror
  rw [Env.slashCountOf, h.get (.jurorSlashCount juror) (by simp)]
  rfl

theorem ruling_eq (h : env.SameUpToOrder id env') : env.book.ruling id = env'.book.ruling id := by
  have hdepositor : env.book.forDepositor id = env'.book.forDepositor id := by
    show (env.votersOf id).toList.countP (fun juror => env.voteOf id juror) =
      (env'.votersOf id).toList.countP fun juror => env'.voteOf id juror
    rw [h.voteOf_eq]
    exact h.voters.countP_eq _
  have hbeneficiary : env.book.forBeneficiary id = env'.book.forBeneficiary id := by
    show (env.votersOf id).toList.countP (fun juror => !env.voteOf id juror) =
      (env'.votersOf id).toList.countP fun juror => !env'.voteOf id juror
    rw [h.voteOf_eq]
    exact h.voters.countP_eq _
  rw [Book.ruling, Book.ruling, hdepositor, hbeneficiary]

theorem minority_perm (h : env.SameUpToOrder id env') :
    (env.book.minority id).Perm (env'.book.minority id) := by
  show ((env.votersOf id).toList.filter fun juror => env.voteOf id juror != env.book.ruling id).Perm
    ((env'.votersOf id).toList.filter fun juror => env'.voteOf id juror != env'.book.ruling id)
  rw [h.voteOf_eq, h.ruling_eq]
  exact h.voters.filter _

/-- Two entries that are both there or both missing are the same when they read the same. -/
theorem eq_of_getD {α : Type} {a : α} {o o' : Option α} (hsome : o.isSome = o'.isSome)
    (hval : o.getD a = o'.getD a) : o = o' := by
  cases o <;> cases o' <;> simp_all

/-- The loop over the other order of the voters leaves the same. -/
theorem slashVoters (h : env.SameUpToOrder id env') {bps : U32} {auth : A → Bool}
    (auth' : A → Bool) (h0 : ∀ juror, 0 ≤ (env.stakeOf juror).val)
    (hnodup : (env.votersOf id).toList.Nodup)
    (hloop : (slashVoters id bps (env.book.ruling id) (env.votersOf id).toList : Op H Unit) auth
      env = .ok ((), m)) :
    ∃ m', (TrustFlow.slashVoters id bps (env'.book.ruling id) (env'.votersOf id).toList :
      Op H Unit) auth' env' = .ok ((), m') ∧ m.SameUpToOrder id m' := by
  have hs : env.book.Slashes bps (env.book.minority id) m.book :=
    (slashVoters_book env).mp ⟨m, hloop, rfl⟩
  have hminority : (env.book.minority id).Nodup := hnodup.filter _
  have hminority' := h.minority_perm.nodup hminority
  have hmem (juror : A) : juror ∈ env.book.minority id ↔ juror ∈ env'.book.minority id :=
    h.minority_perm.mem_iff
  have hstake : env.book.stake = env'.book.stake := h.stakeOf_eq
  have hcount : env.book.slashCount = env'.book.slashCount := h.slashCountOf_eq
  obtain ⟨b', hs'⟩ : ∃ b', env'.book.Slashes bps (env'.book.minority id) b' := by
    apply Book.Slashes.exists_of_counts bps env'.book ?_ hminority' ?_
    · rw [← hstake]
      exact h0
    · intro juror hj
      have hmax := (m.book.slashCount juror).le_hi
      have hslash := (hs.of_mem hminority ((hmem juror).mpr hj)).2
      rw [← hcount]
      omega
  obtain ⟨m', hloop', rfl⟩ : ∃ m', (TrustFlow.slashVoters id bps (env'.book.ruling id)
      (env'.votersOf id).toList : Op H Unit) auth' env' = .ok ((), m') ∧ m'.book = b' :=
    (slashVoters_book env').mpr hs'
  rcases slashVoters_frame hloop with ⟨hinst, hpurse, hget⟩
  rcases slashVoters_frame hloop' with ⟨hinst', hpurse', hget'⟩
  have hsome (k : DataKey A) (hk : k ≠ .disputeVoters id) :
      (m.get k).isSome = (m'.get k).isSome := by
    rw [Bool.eq_iff_iff, slashVoters_isSome hloop, slashVoters_isSome hloop', h.get k hk]
    apply or_congr_left
    exact exists_congr fun juror => and_congr_left' (hmem juror)
  have hjuror (juror : A) := hs.congr hs' hminority hminority' (hmem juror) (congrFun hstake juror)
    (congrFun hcount juror)
  have hvoters : m.votersOf id = env.votersOf id :=
    congrArg (·.getD Vec.empty) (hget (.disputeVoters id) (by simp))
  have hvoters' : m'.votersOf id = env'.votersOf id :=
    congrArg (·.getD Vec.empty) (hget' (.disputeVoters id) (by simp))
  refine ⟨m', hloop', ⟨fun k => ?_, fun k hk => ?_, ?_, ?_⟩⟩
  · rw [hinst, hinst', h.inst]
  · cases k with
    | jurorStake juror => exact eq_of_getD (hsome _ hk) (hjuror juror).1
    | jurorSlashCount juror => exact eq_of_getD (hsome _ hk) (hjuror juror).2
    | _ => exact (hget _ (by simp)).trans ((h.get _ hk).trans (hget' _ (by simp)).symm)
  · rw [hvoters, hvoters']
    exact h.voters
  · rw [hpurse, hpurse', h.purse]

theorem afterResolve (h : env.SameUpToOrder id env') {d : DisputeRecord A} {e : EscrowRecord A}
    {p : Purse H.tokens} :
    (env.afterResolve id d e p).SameUpToOrder id (env'.afterResolve id d e p) where
  inst k := by simpa [Env.afterResolve] using h.inst k
  get k hk := by
    by_cases hdispute : k = .dispute id
    · subst hdispute
      simp [Env.afterResolve]
    · by_cases hescrow : k = .escrow id
      · subst hescrow
        simp [Env.afterResolve]
      · simpa [Env.afterResolve, hdispute, hescrow] using h.get k hk
  voters := by simpa [Env.afterResolve, Env.votersOf] using h.voters
  purse := by simp [Env.afterResolve]

/-- A dispute that can be resolved with its voters in one order is resolved the same
    with them in the other. -/
theorem resolveDispute (h : env.SameUpToOrder id env') {auth : A → Bool} (auth' : A → Bool)
    {ruling : Bool} {d : DisputeRecord A} (h0 : ∀ juror, 0 ≤ (env.stakeOf juror).val)
    (hnodup : (env.votersOf id).toList.Nodup) (hd : env.get (.dispute id) = some d)
    (hdeadline : d.revealDeadline.val ≤ env'.sequence.val)
    (hok : (resolveDispute id : Op H Bool) auth env = .ok (ruling, m)) :
    ∃ m', (TrustFlow.resolveDispute id : Op H Bool) auth' env' = .ok (ruling, m') ∧
      m.SameUpToOrder id m' := by
  rcases resolveDispute_eq_ok.mp hok with ⟨hpaused, d', hd', hopen, -, hvoters, rfl, m₁, hloop, e,
    he, token, htoken, remaining, hremaining, p, hpay, rfl⟩
  cases hd.symm.trans hd'
  have hsame : env.extendInstanceTtl.SameUpToOrder id env'.extendInstanceTtl :=
    ⟨h.inst, h.get, h.voters, h.purse⟩
  rcases hsame.slashVoters auth' h0 hnodup hloop with ⟨m₁', hloop', hsame₁⟩
  have hpaused' : env'.isPaused = false := by
    rw [← hpaused, Env.isPaused, Env.isPaused, h.inst]
  have hbps : env'.slashBps = env.slashBps := by
    rw [Env.slashBps, Env.slashBps, h.inst]
  have hreleased : m₁'.releasedOf id = m₁.releasedOf id := by
    rw [Env.releasedOf, Env.releasedOf, hsame₁.get (.escrowReleased id) (by simp)]
  have hvoters' : (env'.votersOf id).toList ≠ [] := by
    intro hnil
    exact hvoters (List.Perm.eq_nil (hnil ▸ h.voters))
  have hd' : env'.get (.dispute id) = some d := (h.get (.dispute id) (by simp)).symm.trans hd
  have he' : m₁'.get (.escrow id) = some e := (hsame₁.get (.escrow id) (by simp)).symm.trans he
  refine ⟨_, resolveDispute_eq_ok.mpr ⟨hpaused', d, hd', hopen, hdeadline, hvoters', h.ruling_eq,
    m₁', ?_, e, he', token, (hsame₁.inst .token).symm.trans htoken, remaining,
    hreleased ▸ hremaining, p, hsame₁.purse ▸ hpay, rfl⟩, ?_⟩
  · rw [hbps, h.ruling_eq]
    exact hloop'
  · rw [h.ruling_eq]
    exact hsame₁.afterResolve

end Env.SameUpToOrder

/-! ### Any order of the votes -/

/-- Nobody is listed twice, and those listed have revealed. -/
def File.Listed (f : File A D) : Prop :=
  f.votersOf.Nodup ∧ ∀ juror ∈ f.votersOf, f.vote juror ≠ none

theorem File.Listed.step {b b' : Book H} {l : Label H} {id : U64} [DecidableEq D]
    (hf : (b.file id).Listed) (h : b.Step l b') : (b'.file id).Listed := by
  cases h.on_file id with
  | untouched _ hnew => rwa [hnew]
  | opened _ _ _ _ hnew => rwa [hnew]
  | released _ _ _ hnew => rwa [hnew]
  | raised _ _ _ hnew => rwa [hnew]
  | committed _ _ _ _ _ _ _ hnew => rwa [hnew]
  | resolved _ _ _ _ _ _ hnew => rwa [hnew]
  | @revealed _ juror vote _ _ voters _ _ _ _ _ _ _ hfresh _ hvoters hnew =>
      have hlist : ((b.file id).revealed juror vote voters).votersOf =
          (b.file id).votersOf ++ [juror] := hvoters
      have hnew' : juror ∉ (b.file id).votersOf := fun hmem => hf.2 juror hmem hfresh
      rw [hnew]
      refine ⟨?_, ?_⟩
      · rw [hlist]
        exact hf.1.append (List.nodup_singleton juror) (by simpa using hnew')
      · intro j hj
        by_cases heq : j = juror
        · simp [File.revealed, heq]
        · rw [hlist, List.mem_append, List.mem_singleton, or_iff_left heq] at hj
          simpa [File.revealed, heq] using hf.2 j hj

section Order

variable [DecidableEq D] {env₀ env env₁ env₂ : Env H} {h h₁ h₂ : History H} {id : U64}
  {d : DisputeRecord A}

/-- In a run from a fresh contract no stake is negative and nobody votes twice. -/
theorem stakes_and_voters (hfresh : env₀.Fresh) (hr : Run Step env₀ h env) (id : U64) :
    (∀ juror, 0 ≤ (env.stakeOf juror).val) ∧ (env.book.file id).Listed := by
  refine Run.invariant (P := fun env : Env H =>
    (∀ juror, 0 ≤ (env.stakeOf juror).val) ∧ (env.book.file id).Listed) ⟨?_, ?_⟩ ?_ hr
  · intro juror
    have hstake : env₀.stakeOf juror = 0 := hfresh.blank.stake juror
    rw [hstake]
    exact le_rfl
  · rw [hfresh.blank.file id]
    exact ⟨List.nodup_nil, fun _ hj => absurd hj List.not_mem_nil⟩
  · intro env l env' hP hstep
    exact ⟨hstep.book.stake_nonneg hP.1, hP.2.step hstep.book⟩

omit [DecidableEq D] in
theorem Roomy.perm (hroom : Roomy id env h₁) (hsame : (votesCast id h₁).Perm (votesCast id h₂)) :
    Roomy id env h₂ := by
  rw [Roomy, ← hsame.countP_eq]
  exact hroom

/-- Two runs of the same votes answer them the same and leave the same. -/
theorem VotingRun.same (hv₁ : VotingRun id d env h₁ env₁) (hv₂ : VotingRun id d env h₂ env₂)
    (hd : env.get (.dispute id) = some d) (hopen : d.resolved = false)
    (hsame : (votesCast id h₁).Perm (votesCast id h₂))
    (honce : ((votesCast id h₁).map VoteCall.slot).Nodup) (hroom : Roomy id env h₁) :
    (ballots id h₁).Perm (ballots id h₂) ∧ env₁.SameUpToOrder id env₂ := by
  have hout₁ := hv₁.outcome hd hopen hroom
  have hout₂ := hv₂.outcome hd hopen (hroom.perm hsame)
  rcases Local.agree hv₁.run hout₁.keeps hv₂.run hout₂.keeps rfl
    (hv₁.callsOf_eq hv₂ hsame honce) with ⟨hpart, hanswers⟩
  have hballots : (ballots id h₁).Perm (ballots id h₂) := hanswers
  have hpart (juror : A) : env₁.part id juror = env₂.part id juror := congrFun hpart juror
  refine ⟨hballots, fun k => ?_, fun k hk => ?_, ?_, ?_⟩
  · rw [hout₁.votesOnly.inst, hout₂.votesOnly.inst]
  · by_cases hvotes : k.VotesOn id
    · cases k with
      | jurorCommit key =>
          rcases key with ⟨i, juror⟩
          cases hvotes
          exact congrArg Prod.fst (hpart juror)
      | jurorVote key =>
          rcases key with ⟨i, juror⟩
          cases hvotes
          exact congrArg Prod.snd (hpart juror)
      | disputeVoters i =>
          cases hvotes
          exact absurd rfl hk
      | _ => exact hvotes.elim
    · rw [hout₁.votesOnly.get k hvotes, hout₂.votesOnly.get k hvotes]
  · rw [hout₁.voters_eq, hout₂.voters_eq]
    apply List.Perm.append_left
    exact ((List.reverse_perm _).trans (hballots.filterMap _)).trans (List.reverse_perm _).symm
  · rw [hout₁.votesOnly.purse, hout₂.votesOnly.purse]

/-- The order of the votes does not matter: two runs of the same votes, with fewer than
    2^32 voters in all, answer them alike, and the resolutions rule and leave the same. -/
theorem voting_order_irrelevant (hfresh : env₀.Fresh) (hr : Run Step env₀ h env)
    (hd : env.get (.dispute id) = some d) (hopen : d.resolved = false)
    (hv₁ : VotingRun id d env h₁ env₁) (hv₂ : VotingRun id d env h₂ env₂)
    (hsame : (votesCast id h₁).Perm (votesCast id h₂))
    (honce : ((votesCast id h₁).map VoteCall.slot).Nodup) (hroom : Roomy id env h₁)
    (hover₁ : d.revealDeadline.val ≤ env₁.sequence.val)
    (hover₂ : d.revealDeadline.val ≤ env₂.sequence.val) (auth₁ auth₂ : A → Bool) :
    (ballots id h₁).Perm (ballots id h₂) ∧ env₁.SameUpToOrder id env₂ ∧
      (∀ ruling, (∃ env₁', (resolveDispute id : Op H Bool) auth₁ env₁ = .ok (ruling, env₁')) ↔
        ∃ env₂', (resolveDispute id : Op H Bool) auth₂ env₂ = .ok (ruling, env₂')) ∧
      ∀ ruling₁ ruling₂ env₁' env₂',
        (resolveDispute id : Op H Bool) auth₁ env₁ = .ok (ruling₁, env₁') →
        (resolveDispute id : Op H Bool) auth₂ env₂ = .ok (ruling₂, env₂') →
          ruling₁ = ruling₂ ∧ env₁'.SameUpToOrder id env₂' := by
  rcases hv₁.same hv₂ hd hopen hsame honce hroom with ⟨hballots, hsame'⟩
  have hout₁ := hv₁.outcome hd hopen hroom
  have hout₂ := hv₂.outcome hd hopen (hroom.perm hsame)
  have hd₁ : env₁.get (.dispute id) = some d :=
    (hout₁.votesOnly.get (.dispute id) not_false).trans hd
  have hd₂ : env₂.get (.dispute id) = some d :=
    (hout₂.votesOnly.get (.dispute id) not_false).trans hd
  rcases stakes_and_voters hfresh (hr.append hv₁.run) id with ⟨hstakes₁, hnodup₁, -⟩
  rcases stakes_and_voters hfresh (hr.append hv₂.run) id with ⟨hstakes₂, hnodup₂, -⟩
  refine ⟨hballots, hsame', fun ruling => ⟨?_, ?_⟩, ?_⟩
  · rintro ⟨env₁', hok⟩
    rcases hsame'.resolveDispute auth₂ hstakes₁ hnodup₁ hd₁ hover₂ hok with ⟨m, hok', -⟩
    exact ⟨m, hok'⟩
  · rintro ⟨env₂', hok⟩
    rcases hsame'.symm.resolveDispute auth₁ hstakes₂ hnodup₂ hd₂ hover₁ hok with
      ⟨m, hok', -⟩
    exact ⟨m, hok'⟩
  · intro ruling₁ ruling₂ env₁' env₂' hok₁ hok₂
    rcases hsame'.resolveDispute auth₂ hstakes₁ hnodup₁ hd₁ hover₂ hok₁ with
      ⟨m, hok, hsame''⟩
    cases hok.symm.trans hok₂
    exact ⟨rfl, hsame''⟩

end Order

/-! ### Two orders of two votes -/

/-- The vote on `id` an action casts. -/
def Action.voteCall? (id : U64) : Action A D → Option (VoteCall A D)
  | .call auth c => c.voteCall? auth id
  | .close _ => none

theorem Env.act_voteCall? [DecidableEq D] {env env' : Env H} {a : Action A D} {l : Label H}
    (id : U64) (h : env.act a = some (l, env')) :
    (l.voteCall? id).map Prod.fst = a.voteCall? id := by
  cases a with
  | close n =>
      simp only [act, Option.ite_none_right_eq_some, Option.some.injEq] at h
      rcases h with ⟨-, ⟨⟩⟩
      rfl
  | call auth c =>
      simp only [act] at h
      split at h
      · cases h
      · split at h <;> cases h <;> simp [Label.voteCall?, Action.voteCall?, Function.comp_def]

/-- A script casts its votes in order. -/
theorem Env.play_votesCast [DecidableEq D] {script : List (Action A D)} {env env' : Env H}
    {h : History H} (id : U64) (hp : env.play script = some (h, env')) :
    votesCast id h = (script.filterMap (Action.voteCall? id)).reverse := by
  induction script generalizing env h with
  | nil =>
      cases hp
      rfl
  | cons a script ih =>
      simp only [play] at hp
      split at hp
      · next l env₁ ha =>
        split at hp
        · next h₁ env₂ hrest =>
          cases hp
          have hcast := ih hrest
          have hfirst := act_voteCall? id ha
          rw [votesCast, ballots] at hcast ⊢
          rw [List.filterMap_append, List.map_append, hcast, List.filterMap_cons]
          cases hb : l.voteCall? id <;> rw [hb] at hfirst <;> simp [← hfirst]
        · cases hp
      · cases hp

/-- A salt of zeros. -/
def zeroSalt : Vector UInt8 32 := Vector.replicate 32 0

/-- The dispute 1, raised by 4 at ledger 1. -/
def lateDispute : DisputeRecord Nat := .raised 1 4 "late" 1

def commitOf (v : Nat × Bool) : Call Nat (List UInt8) :=
  .commitVote 1 v.1 (hashVote Host.plain v.2 zeroSalt)

def revealOf (v : Nat × Bool) : Call Nat (List UInt8) := .revealVote 1 v.1 v.2 zeroSalt

/-- Two votes, `v` ahead of `w` in both windows. -/
def voteInOrder (v w : Nat × Bool) : List (Action Nat (List UInt8)) :=
  [.call (fun a => a == v.1) (commitOf v), .call (fun a => a == w.1) (commitOf w),
    .close (.ofNat 17281), .call (fun a => a == v.1) (revealOf v),
    .call (fun a => a == w.1) (revealOf w), .close (.ofNat 34561)]

theorem voteInOrder_perm (v w : Nat × Bool) :
    ((voteInOrder v w).filterMap (Action.voteCall? 1)).Perm
      ((voteInOrder w v).filterMap (Action.voteCall? 1)) := by
  simp only [voteInOrder, commitOf, revealOf, Action.voteCall?, Call.voteCall?, List.filterMap_cons,
    List.filterMap_nil, if_true]
  exact .trans (.swap ..) (.cons _ (.cons _ (.swap ..)))

/-- The votes of a script that ends after the reveal window, all in time. -/
def InTime (h : History Host.plain) (env : Env Host.plain) : Prop :=
  (∀ t ∈ h, t.label.closes = true ∨ ∃ p ∈ t.label.voteCall? 1, p.1.Timely lateDispute
    t.pre.sequence) ∧ lateDispute.revealDeadline.val ≤ env.sequence.val

instance (h : History Host.plain) (env : Env Host.plain) : Decidable (InTime h env) :=
  inferInstanceAs (Decidable (_ ∧ _))

theorem InTime.spec {h : History Host.plain} {env env' : Env Host.plain} (ht : InTime h env')
    (hr : Run Step env h env') : VotingRun 1 lateDispute env h env' ∧
      lateDispute.revealDeadline.val ≤ env'.sequence.val := ⟨⟨hr, ht.1⟩, ht.2⟩

/-- A disputed escrow and two jurors with stake. -/
def disputeBefore : List (Action Nat (List UInt8)) :=
  [.call (fun a => a == 1) (.initialise 1 9 DEFAULT_SLASH_BPS),
    .call (fun a => a == 2) (.createEscrow 2 4 (.ofNat 100)),
    .call (fun a => a == 3) (.stake 3 (.ofNat 30)),
    .call (fun a => a == 5) (.stake 5 (.ofNat 30)),
    .call (fun a => a == 4) (.raiseDispute 1 4 "late")]

/-- The voters 3 and 5 are listed in the order they reveal in; nothing else differs. -/
theorem voting_order_irrelevant_sample :
    ∃ (h h₁ h₂ : History Host.plain) (env env₁ env₂ : Env Host.plain),
      SingleInit Env.deployed h env ∧ VotingRun 1 lateDispute env h₁ env₁ ∧
      VotingRun 1 lateDispute env h₂ env₂ ∧ (env₁.votersOf 1).toList = [3, 5] ∧
      (env₂.votersOf 1).toList = [5, 3] ∧ env₁.SameUpToOrder 1 env₂ := by
  rcases Env.exists_of_plays disputeBefore
    (fun _ env => decide (env.get (.dispute 1) = some lateDispute ∧
        (env.votersOf 1).toList = []) &&
      (env.play (voteInOrder (3, false) (5, true))).any
        (fun p : History Host.plain × Env Host.plain =>
          decide (InTime p.1 p.2 ∧ (p.2.votersOf 1).toList = [3, 5])) &&
      (env.play (voteInOrder (5, true) (3, false))).any
        fun p : History Host.plain × Env Host.plain =>
          decide (InTime p.1 p.2 ∧ (p.2.votersOf 1).toList = [5, 3]))
    (by decide +kernel) with ⟨h, env, hs, hend⟩
  simp only [Bool.and_eq_true, Option.any_eq_true, decide_eq_true_eq] at hend
  rcases hend with
    ⟨⟨⟨hd, hnobody⟩, ⟨h₁, env₁⟩, hp₁, ht₁, hvoters₁⟩, ⟨h₂, env₂⟩, hp₂, ht₂, hvoters₂⟩
  rcases ht₁.spec (Env.play_run hp₁) with ⟨hv₁, hover₁⟩
  rcases ht₂.spec (Env.play_run hp₂) with ⟨hv₂, hover₂⟩
  have hcast₁ := Env.play_votesCast 1 hp₁
  have hcast₂ := Env.play_votesCast 1 hp₂
  have hsame : (votesCast 1 h₁).Perm (votesCast 1 h₂) := by
    rw [hcast₁, hcast₂]
    exact ((List.reverse_perm _).trans (voteInOrder_perm _ _)).trans (List.reverse_perm _).symm
  have honce : ((votesCast 1 h₁).map VoteCall.slot).Nodup := by
    rw [hcast₁]
    decide
  have hroom : Roomy 1 env h₁ := by
    rw [Roomy, hcast₁, hnobody]
    decide
  have hend := voting_order_irrelevant hs.fresh hs.run hd rfl hv₁ hv₂ hsame honce hroom hover₁
    hover₂ (fun _ => false) fun _ => false
  exact ⟨h, h₁, h₂, env, env₁, env₂, hs, hv₁, hv₂, hvoters₁, hvoters₂, hend.2.1⟩

end TrustFlow
