import TrustFlow.Commuting
import TrustFlow.Watermark
import TrustFlow.Lifecycle
import TrustFlow.StakeLedger
import TrustFlow.Payouts

/-!
# A resolution as a whole

`resolve_dispute` against what the jurors did: the ruling is that of the larger
side among those who revealed, the smaller side loses a slash each, and what the
escrow still holds goes to the winner.  Nothing else is touched.
-/

namespace TrustFlow

open Transition Invocation Purse

variable {A D : Type} [DecidableEq A] {H : Host A D}

/-! ### The two sides -/

/-- The jurors who revealed `vote` on the dispute of the escrow `id`. -/
def revealed (h : History H) (id : U64) (vote : Bool) : Set A :=
  {juror | ∃ t ∈ h, ∃ auth salt, t.label = .call auth (.revealVote id juror vote salt) ()}

variable [DecidableEq D] {env₀ env env' : Env H} {h : History H} {id : U64} {auth : A → Bool}
  {juror : A} {ruling vote : Bool}

/-- Who revealed has the vote on record, and nobody else. -/
theorem SingleInit.mem_revealed (hs : SingleInit env₀ h env) :
    juror ∈ revealed h id vote ↔ env.get (.jurorVote ⟨id, juror⟩) = some vote := by
  have hballot := hs.ballot id juror
  have hvote : env.get (.jurorVote ⟨id, juror⟩) = env.book.vote id juror := rfl
  rw [hvote]
  generalize env.book.commit id juror = commit at hballot
  generalize env.book.vote id juror = stored at hballot
  have hreveal {t : Move (Env H) (Label H)} {auth : A → Bool} {salt : Vector UInt8 32}
      {revealed : List (Move (Env H) (Label H))} (ht : t ∈ h)
      (hl : t.label = .call auth (.revealVote id juror vote salt) ())
      (hreveals : h.filter (fun t => t.label.reveal? = some (id, juror)) = revealed) :
      t ∈ revealed := by
    rw [← hreveals]
    refine List.mem_filter.mpr ⟨ht, decide_eq_true ?_⟩
    rw [hl]
    rfl
  cases hballot with
  | absent _ hreveals | hidden _ hreveals =>
      refine iff_of_false ?_ (by simp)
      rintro ⟨t, ht, auth, salt, hl⟩
      cases hreveal ht hl hreveals
  | @shown _ t' _ auth' _ vote' salt' _ hreveals _ _ hl' =>
      constructor
      · rintro ⟨t, ht, auth, salt, hl⟩
        have ht' := List.mem_singleton.mp (hreveal ht hl hreveals)
        subst ht'
        cases hl.symm.trans hl'
        rfl
      · intro heq
        cases heq
        have ht' : t' ∈ h.filter fun t => t.label.reveal? = some (id, juror) := by
          rw [hreveals]
          exact List.mem_singleton_self t'
        exact ⟨t', List.mem_of_mem_filter ht', auth', salt', hl'⟩

/-- The ruling is for the depositor when its side is not the smaller one. -/
theorem SingleInit.ruling_iff (hs : SingleInit env₀ h env) :
    env.book.ruling id = true ↔
      (revealed h id false).ncard ≤ (revealed h id true).ncard := by
  have hregistered := votes_registered hs id
  have hside (vote : Bool) (p : A → Bool) (hp : ∀ juror, p juror = true ↔
      env.voteOf id juror = vote) :
      (env.votersOf id).toList.countP p = (revealed h id vote).ncard := by
    apply countP_eq_ncard hregistered.nodup
    intro juror
    rw [hs.mem_revealed, hregistered.mem_voters, hp, Env.voteOf]
    cases env.get (.jurorVote ⟨id, juror⟩) <;> simp
  have hfor : env.book.forDepositor id = (revealed h id true).ncard :=
    hside true (fun juror => env.voteOf id juror) (by simp)
  have hagainst : env.book.forBeneficiary id = (revealed h id false).ncard :=
    hside false (fun juror => !env.voteOf id juror) (by simp)
  rw [Book.ruling, decide_eq_true_eq, hfor, hagainst]

/-- The minority are those who revealed the other vote. -/
theorem SingleInit.mem_minority (hs : SingleInit env₀ h env) :
    juror ∈ env.book.minority id ↔ juror ∈ revealed h id !env.book.ruling id := by
  rw [hs.sound.mem_minority, hs.mem_revealed]
  rfl

/-! ### The resolution -/

/-- A resolution of the escrow `id` for the ruling it returned. -/
structure ResolvesFully (id : U64) (ruling : Bool) (h : History H) (env env' : Env H) :
    Prop where
  ruling_iff : ruling = true ↔ (revealed h id false).ncard ≤ (revealed h id true).ncard
  losers : ∀ juror ∈ revealed h id !ruling,
    (env'.stakeOf juror).val =
      (env.stakeOf juror).val - (slashAmount (env.stakeOf juror) env.slashBps).val ∧
    (env'.slashCountOf juror).val = (env.slashCountOf juror).val + 1
  others : ∀ juror, juror ∉ revealed h id !ruling →
    env'.stakeOf juror = env.stakeOf juror ∧ env'.slashCountOf juror = env.slashCountOf juror
  escrow : env'.get (.escrow id) = (env.get (.escrow id)).map fun e =>
    { e with status := .settled }
  dispute : env'.get (.dispute id) = (env.get (.dispute id)).map fun d =>
    { d with resolved := true, rulingForDepositor := ruling }
  frame : ∀ k, k ≠ .escrow id → k ≠ .dispute id →
    (∀ juror ∈ revealed h id !ruling, k ≠ .jurorStake juror ∧ k ≠ .jurorSlashCount juror) →
    env'.get k = env.get k
  settlement : ∃ e tok, ∃ rest : I128, env.get (.escrow id) = some e ∧
    env.inst .token = some tok ∧ rest.val = e.amount.val - (env.releasedOf id).val ∧
    Moves tok H.self (if ruling = true then e.depositor else e.beneficiary) rest env.purse
      env'.purse

/-- Whenever `resolve_dispute` returns, it has ruled with the larger side of those who
    revealed, slashed each of the smaller side once on the stake it had before, settled
    the escrow towards the winner, and done nothing else. -/
theorem resolves_fully (hs : SingleInit env₀ h env)
    (hcall : (resolveDispute id : Op H Bool) auth env = .ok (ruling, env')) :
    ResolvesFully id ruling h env env' := by
  have hresolve : env.book.Resolve id ruling env'.book :=
    resolveDispute_book.mp ⟨env', hcall, rfl⟩
  have hruling := hresolve.ruling_eq
  have hminority {juror : A} : juror ∈ env.book.minority id ↔ juror ∈ revealed h id !ruling := by
    rw [hs.mem_minority, hruling]
  rcases hresolve.slashes with ⟨b₁, hslashes, hstake, hcount⟩
  have hstake (juror : A) : env'.stakeOf juror = b₁.stake juror := congrFun hstake juror
  have hcount (juror : A) : env'.slashCountOf juror = b₁.slashCount juror := congrFun hcount juror
  constructor
  · rw [hruling]
    exact hs.ruling_iff
  · intro juror hj
    rw [hstake, hcount]
    exact hslashes.of_mem (hs.sound.minority_nodup id) (hminority.mpr hj)
  · intro juror hj
    rw [hstake, hcount]
    exact hslashes.of_not_mem fun hj' => hj (hminority.mp hj')
  · exact hresolve.escrow_eq
  · exact hresolve.dispute_eq
  · intro k hescrow hdispute hlosers
    have hk : ¬ ∃ juror ∈ env.book.minority id,
        k = .jurorStake juror ∨ k = .jurorSlashCount juror := by
      rintro ⟨juror, hj, hk⟩
      rcases hlosers juror (hminority.mp hj) with ⟨hne, hne'⟩
      exact hk.elim hne hne'
    have hcall : (Call.resolveDispute id : Call A D).exec auth env = .ok (ruling, env') := hcall
    have haccess : (Call.resolveDispute id : Call A D).access env ruling k = .keep := by
      simp [Call.access, hescrow, hdispute, hk]
    exact Call.get_eq hcall (by simp [haccess]) (by simp [haccess])
  · rcases hresolve.moves hs.sound with ⟨e, tok, rest, he, htok, -, hrest, hmove⟩
    exact ⟨e, tok, rest, he, htok, hrest, hmove⟩

/-- The juror 3 voted against the depositor and loses 3 of 30; 5 keeps its stake. -/
theorem resolves_fully_sample :
    ∃ (h : History Host.plain) (env env' : Env Host.plain), SingleInit Env.deployed h env ∧
      ResolvesFully 1 true h env env' ∧ (env.stakeOf 3).val = 30 ∧ (env'.stakeOf 3).val = 27 ∧
      (env'.stakeOf 5).val = 30 := by
  rcases Env.exists_of_plays sharedJurors
    (fun _ env => decide ((env.stakeOf 3).val = 30) &&
      ((resolveDispute 1 : Op Host.plain Bool) (fun _ => false) env).toOption.any
        fun p : Bool × Env Host.plain => p.1 && decide ((p.2.stakeOf 3).val = 27) &&
          decide ((p.2.stakeOf 5).val = 30))
    (by decide +kernel) with ⟨h, env, hs, hend⟩
  simp only [Bool.and_eq_true, Option.any_eq_true, decide_eq_true_eq] at hend
  rcases hend with ⟨hbefore, ⟨r, env'⟩, hcall, ⟨rfl, h₃⟩, h₅⟩
  exact ⟨h, env, env', hs, resolves_fully hs (toOption_eq_some.mp hcall), hbefore, h₃, h₅⟩

end TrustFlow
