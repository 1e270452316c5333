import TrustFlow.Lifetimes
import TrustFlow.CommitReveal

/-!
# What a keeper keeps alive

An entry that has run out traps the call that touches it, so a resolution needs
all it reads to be alive.  A keeper who calls the two maintenance entrypoints
often enough renews most of that; the votes are not among what they renew.

`Env.resolveReads` lists the entries.  `Kept` is the keeper's duty towards a
dispute, and `keeper_coverage_iff` tells from the history when, the duty done, all
of them are alive.
-/

namespace TrustFlow

open Invocation Transition

variable {A D : Type} [DecidableEq A] {H : Host A D}

namespace Env

/-- The entry under `k` has run out. -/
def archived (env : Env H) (k : DataKey A) : Bool :=
  (env.liveUntil k).any fun l => decide (l < env.now)

variable {env : Env H} {k : DataKey A}

theorem archived_eq_false (h : ∀ l, env.liveUntil k = some l → env.now ≤ l) :
    env.archived k = false := by
  unfold archived
  cases hl : env.liveUntil k with
  | none => rfl
  | some l => exact decide_eq_false (Nat.not_lt.mpr (h l hl))

theorem le_of_archived {l : Nat} (h : env.archived k = false) (hl : env.liveUntil k = some l) :
    env.now ≤ l := by
  rw [archived, hl] at h
  exact Nat.not_lt.mp (of_decide_eq_false h)

end Env

/-- What a resolution reads of its escrow and dispute, the voters apart. -/
def disputeKeys (id : U64) : List (DataKey A) :=
  [.dispute id, .disputeVoters id, .escrow id, .escrowReleased id]

/-- The entries a resolution reads. -/
def Env.resolveReads (env : Env H) (id : U64) : List (DataKey A) :=
  disputeKeys id ++ (env.votersOf id).toList.flatMap fun juror =>
    [.jurorVote ⟨id, juror⟩, .jurorStake juror, .jurorSlashCount juror]

namespace Label

/-- The escrow of a successful `raise_dispute`. -/
def raise? : Label H → Option U64
  | .call _ (.raiseDispute id ..) _ => some id
  | _ => none

/-- The escrow of a successful `bump_escrow_ttl`. -/
def bumpEscrow? : Label H → Option U64
  | .call _ (.bumpEscrowTtl id) _ => some id
  | _ => none

/-- The juror of a successful `bump_juror_stake_ttl`. -/
def bumpStake? : Label H → Option A
  | .call _ (.bumpJurorStakeTtl juror) _ => some juror
  | _ => none

variable {l : Label H} {id : U64} {juror : A}

theorem eq_of_raise? (h : l.raise? = some id) :
    ∃ auth caller reason, l = .call auth (.raiseDispute id caller reason) () := by
  cases l with
  | call auth c r =>
      cases c <;> cases h
      exact ⟨_, _, _, rfl⟩
  | failed | close | tokens => cases h

theorem eq_of_bumpEscrow? (h : l.bumpEscrow? = some id) :
    ∃ auth n, l = .call auth (.bumpEscrowTtl id) n := by
  cases l with
  | call auth c r =>
      cases c <;> cases h
      exact ⟨_, _, rfl⟩
  | failed | close | tokens => cases h

theorem eq_of_bumpStake? (h : l.bumpStake? = some juror) :
    ∃ auth n, l = .call auth (.bumpJurorStakeTtl juror) n := by
  cases l with
  | call auth c r =>
      cases c <;> cases h
      exact ⟨_, _, rfl⟩
  | failed | close | tokens => cases h

end Label

/-- A keeper's duty towards the dispute on `id` raised at the ledger `raised`: from
    there on to the present each call within every `LIFETIME_THRESHOLD` ledgers. -/
structure Kept (id : U64) (raised : Nat) (h : History H) (env : Env H) : Prop where
  escrow : ∀ m, raised ≤ m → m + LIFETIME_THRESHOLD.val.toNat ≤ env.now →
    ∃ t ∈ h, t.label.bumpEscrow? = some id ∧ m < t.pre.now ∧
      t.pre.now ≤ m + LIFETIME_THRESHOLD.val.toNat
  jurors : ∀ juror, (∃ t ∈ h, t.label.commit? = some (id, juror)) →
    ∀ m, raised ≤ m → m + LIFETIME_THRESHOLD.val.toNat ≤ env.now →
      ∃ t ∈ h, t.label.bumpStake? = some juror ∧ m < t.pre.now ∧
        t.pre.now ≤ m + LIFETIME_THRESHOLD.val.toNat

/-! ### Lifetimes over a run -/

variable [DecidableEq D] {env₀ env env' : Env H} {h : History H} {l : Label H} {k : DataKey A}
  {id : U64} {m : Nat}

theorem Step.now_le (h : Step env l env') : env.now ≤ env'.now :=
  Int.toNat_le_toNat h.book.sequence_le

/-- An entry had its lifetime before the step already, or was given it then. -/
theorem Step.liveUntil_before (h : Step env l env') (hm : env'.liveUntil k = some m) :
    (∃ m₀, env.liveUntil k = some m₀ ∧ m₀ ≤ m) ∨ env.now + 518400 < m := by
  cases h with
  | failed | close | tokens => exact Or.inl ⟨m, hm, le_rfl⟩
  | @call _ auth c r hself h =>
      rw [(Call.accessed h).liveUntil_eq] at hm
      cases ha : c.access env r k with
      | keep =>
          rw [ha] at hm
          exact Or.inl ⟨m, hm, le_rfl⟩
      | extend =>
          rw [ha] at hm
          rcases Option.map_eq_some_iff.mp hm with ⟨m₀, hm₀, rfl⟩
          exact Or.inl ⟨m₀, hm₀, le_renewed ..⟩
      | write =>
          rw [ha] at hm
          cases hm
          exact Or.inr (lt_renewed ..)
      | remove =>
          rw [ha] at hm
          cases hm

/-- The same for the state a run starts from. -/
theorem liveUntil_before (hr : Run Step env₀ h env) (hm : env.liveUntil k = some m) :
    (∃ m₀, env₀.liveUntil k = some m₀ ∧ m₀ ≤ m) ∨ env₀.now + 518400 < m := by
  induction hr generalizing m with
  | nil => exact Or.inl ⟨m, hm, le_rfl⟩
  | snoc hr hs ih =>
      have hnow := Run.invariant (P := fun e : Env H => env₀.now ≤ e.now) le_rfl
        (fun hle hs => hle.trans hs.now_le) hr
      rcases hs.liveUntil_before hm with ⟨m₁, hm₁, hle₁⟩ | hnew
      · rcases ih hm₁ with ⟨m₀, hm₀, hle₀⟩ | hnew
        · exact Or.inl ⟨m₀, hm₀, hle₀.trans hle₁⟩
        · exact Or.inr (hnew.trans_le hle₁)
      · exact Or.inr ((Nat.add_le_add_right hnow _).trans_lt hnew)

/-- In the first `BUMP_AMOUNT` ledgers of a deployment nothing runs out. -/
theorem liveUntil_of_fresh (hfresh : env₀.Fresh) (hbirth : H.defaultTtl ≤ 518400)
    (hr : Run Step env₀ h env) (hm : env.liveUntil k = some m) : env₀.now + 1555200 ≤ m := by
  induction hr generalizing m with
  | nil =>
      have hsome := env₀.liveUntil_isSome k
      rw [hm, hfresh.persistent_empty] at hsome
      cases hsome
  | @snoc _ env l env' hr hs ih =>
      have hnow := Run.invariant (P := fun e : Env H => env₀.now ≤ e.now) le_rfl
        (fun hle hs => hle.trans hs.now_le) hr
      cases hs with
      | failed | close | tokens => exact ih hm
      | @call _ auth c r hself h =>
          rw [(Call.accessed h).liveUntil_eq] at hm
          cases ha : c.access env r k with
          | keep =>
              rw [ha] at hm
              exact ih hm
          | extend =>
              rw [ha] at hm
              rcases Option.map_eq_some_iff.mp hm with ⟨m₀, hm₀, rfl⟩
              exact (ih hm₀).trans (le_renewed ..)
          | remove =>
              rw [ha] at hm
              cases hm
          | write =>
              rw [ha, Access.lifetime_write] at hm
              cases hm
              cases hl : env.liveUntil k with
              | none =>
                  rw [Option.getD_none, renewed_of_le (by omega)]
                  omega
              | some m₀ => exact (ih hl).trans (le_renewed ..)

/-- Who was renewed by a transition of the history has more than the threshold left
    from there. -/
theorem lt_of_renewed {t : Move (Env H) (Label H)} (hr : Run Step env₀ h env) (ht : t ∈ h)
    (hpost : ∀ m, t.post.liveUntil k = some m → t.pre.now + 518400 < m)
    (hm : env.liveUntil k = some m) : t.pre.now + 518400 < m := by
  rcases hr.split_mem ht with ⟨_, _, _, _, hstep, hrest⟩
  have hnow := hstep.now_le
  rcases liveUntil_before hrest hm with ⟨m₀, hm₀, hle⟩ | hnew
  · exact (hpost m₀ hm₀).trans_le hle
  · omega

theorem Step.liveUntil_call {auth : A → Bool} {c : Call A D} {r : c.Result}
    (h : Step env (.call auth c r) env') (k : DataKey A) : env'.liveUntil k =
      (c.access env r k).lifetime env.now (env.now + H.defaultTtl) (env.liveUntil k) := by
  cases h with
  | call _ h => exact (Call.accessed h).liveUntil_eq k

/-- A call renews what it extends and what it writes. -/
theorem Step.renews {auth : A → Bool} {c : Call A D} {r : c.Result}
    (h : Step env (.call auth c r) env') (hk : c.access env r k ≠ .keep)
    (hm : env'.liveUntil k = some m) : env.now + 518400 < m := by
  rw [h.liveUntil_call] at hm
  cases ha : c.access env r k with
  | keep => exact absurd ha hk
  | extend =>
      rw [ha] at hm
      rcases Option.map_eq_some_iff.mp hm with ⟨m₀, -, rfl⟩
      exact lt_renewed ..
  | write =>
      rw [ha] at hm
      cases hm
      exact lt_renewed ..
  | remove =>
      rw [ha] at hm
      cases hm

/-- A call that returned wrote, extended or removed the entry under `k`. -/
def touches (k : DataKey A) (t : Move (Env H) (Label H)) : Bool :=
  match t.label with
  | .call _ c r => decide (c.access t.pre r k ≠ .keep)
  | _ => false

theorem Step.liveUntil_untouched (h : Step env l env') (hl : touches k ⟨env, l, env'⟩ = false) :
    env'.liveUntil k = env.liveUntil k := by
  cases l with
  | call auth c r =>
      have hkeep : c.access env r k = .keep := not_not.mp (of_decide_eq_false hl)
      rw [h.liveUntil_call, hkeep, Access.lifetime_keep]
  | failed | close | tokens =>
      cases h
      rfl

/-- An entry nobody touches keeps its lifetime. -/
theorem liveUntil_of_untouched (hr : Run Step env₀ h env) (hh : ∀ t ∈ h, touches k t = false) :
    env.liveUntil k = env₀.liveUntil k :=
  Run.invariant_of_guard (G := fun t => touches k t = false)
    (P := fun env : Env H => env.liveUntil k = env₀.liveUntil k) rfl
    (fun hP hs hl => (hs.liveUntil_untouched hl).trans hP) hr hh

/-- One that was touched has more than the threshold left from there. -/
theorem lt_of_touched {t : Move (Env H) (Label H)} (hr : Run Step env₀ h env) (ht : t ∈ h)
    (hl : touches k t = true) (hm : env.liveUntil k = some m) : t.pre.now + 518400 < m := by
  refine lt_of_renewed hr ht (fun m hm => ?_) hm
  have hstep := hr.step_of_mem ht
  rcases t with ⟨pre, l, post⟩
  cases l with
  | call auth c r => exact hstep.renews (of_decide_eq_true hl) hm
  | failed | close | tokens => cases hl

/-! ### The keys of a dispute -/

namespace SingleInit

/-- Without a dispute there are no voters. -/
theorem voters_none (hs : SingleInit env₀ h env) (hd : env.get (.dispute id) = none) :
    env.liveUntil (.disputeVoters id) = none := by
  have hnone : env.get (.disputeVoters id) = none := by
    cases he : env.book.escrow id with
    | none => exact congrArg File.voters ((hs.sound.file id).empty he)
    | some e => exact ((hs.sound.proceedings he).quiet hd).1
  rw [← Option.not_isSome_iff_eq_none, Env.liveUntil_isSome, hnone]
  exact Bool.false_ne_true

variable {t : Move (Env H) (Label H)}

/-- A raise leaves the keys of its dispute renewed. -/
theorem raise_renews (hs : SingleInit env₀ h env) (ht : t ∈ h) (hl : t.label.raise? = some id)
    (hk : k ∈ disputeKeys id) (hm : env.liveUntil k = some m) : t.pre.now + 518400 < m := by
  refine lt_of_renewed hs.run ht ?_ hm
  rcases hs.split_mem ht with ⟨_, _, _, hpre, _, _⟩
  have hstep := hs.run.step_of_mem ht
  rcases Label.eq_of_raise? hl with ⟨auth, caller, reason, hlabel⟩
  rw [hlabel] at hstep
  intro m hm
  simp only [disputeKeys, List.mem_cons, List.not_mem_nil, or_false] at hk
  rcases hk with rfl | rfl | rfl | rfl
  · exact hstep.renews (by simp [Call.access]) hm
  · -- an active escrow has no voters yet
    have hnone : t.pre.get (.dispute id) = none := by
      cases hstep with
      | call _ hcall =>
          rcases raiseDispute_eq_ok.mp hcall with ⟨-, -, e, he, hactive, -, -⟩
          exact (hpre.sound.proceedings he).active hactive
    rw [hstep.liveUntil_call, hpre.voters_none hnone] at hm
    simp [Call.access] at hm
  · exact hstep.renews (by simp [Call.access]) hm
  · exact hstep.renews (by simp [Call.access]) hm

/-- So does a `bump_escrow_ttl`. -/
theorem bump_renews (hs : SingleInit env₀ h env) (ht : t ∈ h)
    (hl : t.label.bumpEscrow? = some id) (hk : k ∈ disputeKeys id)
    (hm : env.liveUntil k = some m) : t.pre.now + 518400 < m := by
  refine lt_of_renewed hs.run ht ?_ hm
  rcases hs.split_mem ht with ⟨_, _, _, hpre, _, _⟩
  have hstep := hs.run.step_of_mem ht
  rcases Label.eq_of_bumpEscrow? hl with ⟨auth, n, hlabel⟩
  rw [hlabel] at hstep
  intro m hm
  cases hd : t.pre.get (.dispute id) with
  | some d =>
      refine hstep.renews ?_ hm
      simp only [disputeKeys, List.mem_cons, List.not_mem_nil, or_false] at hk
      rcases hk with rfl | rfl | rfl | rfl <;> simp [Call.access, Env.bumpsKey, hd]
  | none =>
      have hdispute : t.pre.liveUntil (.dispute id) = none := by
        rw [← Option.not_isSome_iff_eq_none, Env.liveUntil_isSome, hd]
        exact Bool.false_ne_true
      simp only [disputeKeys, List.mem_cons, List.not_mem_nil, or_false] at hk
      rcases hk with rfl | rfl | rfl | rfl
      · rw [hstep.liveUntil_call, hdispute] at hm
        simp [Call.access, Env.bumpsKey, hd] at hm
      · rw [hstep.liveUntil_call, hpre.voters_none hd] at hm
        simp [Call.access, Env.bumpsKey, hd] at hm
      · exact hstep.renews (by simp [Call.access, Env.bumpsKey]) hm
      · exact hstep.renews (by simp [Call.access, Env.bumpsKey]) hm

end SingleInit

/-- A `bump_juror_stake_ttl` renews what a resolution reads of its juror. -/
theorem bumpStake_renews {t : Move (Env H) (Label H)} {juror : A} (hr : Run Step env₀ h env)
    (ht : t ∈ h) (hl : t.label.bumpStake? = some juror)
    (hk : k = .jurorStake juror ∨ k = .jurorSlashCount juror)
    (hm : env.liveUntil k = some m) : t.pre.now + 518400 < m := by
  rcases Label.eq_of_bumpStake? hl with ⟨auth, n, hlabel⟩
  exact lt_of_touched hr ht (by simp [touches, hlabel, Call.access, hk]) hm

/-! ### The votes -/

section Votes

variable {juror : A}

/-- A reveal gives the vote its lifetime. -/
theorem Step.liveUntil_reveal (h : Step env l env') (hl : l.reveal? = some (id, juror)) :
    env.liveUntil (.jurorVote ⟨id, juror⟩) = none ∧
      env'.liveUntil (.jurorVote ⟨id, juror⟩) =
        some (renewed env.now (env.now + H.defaultTtl)) := by
  cases h with
  | failed | close | tokens => cases hl
  | @call _ auth c r hself h =>
      cases c <;> cases hl
      rcases revealVote_eq_ok.mp h with ⟨-, -, _, -, -, -, -, hfresh, -⟩
      have hnone : env.liveUntil (.jurorVote ⟨id, juror⟩) = none := by
        rw [← Option.not_isSome_iff_eq_none, Env.liveUntil_isSome, hfresh]
        exact Bool.false_ne_true
      refine ⟨hnone, ?_⟩
      rw [(Call.accessed h).liveUntil_eq, hnone]
      simp [Call.access]

/-- No other call touches the lifetime of a vote. -/
theorem Step.liveUntil_vote (h : Step env l env') (hl : l.reveal? ≠ some (id, juror)) :
    env'.liveUntil (.jurorVote ⟨id, juror⟩) = env.liveUntil (.jurorVote ⟨id, juror⟩) := by
  cases h with
  | failed | close | tokens => rfl
  | @call _ auth c r hself h =>
      rw [(Call.accessed h).liveUntil_eq]
      cases c with
      | revealVote id' juror' vote salt =>
          have hne : ¬ (id = id' ∧ juror = juror') := by
            rintro ⟨rfl, rfl⟩
            exact hl rfl
          simp [Call.access, hne]
      | bumpEscrowTtl => simp [Call.access, Env.bumpsKey]
      | _ => simp [Call.access]

/-- A vote lives as long as its reveal made it. -/
theorem liveUntil_vote (hr : Run Step env₀ h env) : ∀ t ∈ h,
    t.label.reveal? = some (id, juror) → env.liveUntil (.jurorVote ⟨id, juror⟩) =
      some (renewed t.pre.now (t.pre.now + H.defaultTtl)) := by
  refine Run.history_invariant (P := fun h env => ∀ t ∈ h, t.label.reveal? = some (id, juror) →
    env.liveUntil (.jurorVote ⟨id, juror⟩) =
      some (renewed t.pre.now (t.pre.now + H.defaultTtl))) ?_ ?_ hr
  · intro t ht
    cases ht
  · intro h env l env' hr ih hstep t ht hl
    by_cases hreveal : l.reveal? = some (id, juror)
    · rcases hstep.liveUntil_reveal hreveal with ⟨hnone, hnew⟩
      rcases List.mem_cons.mp ht with rfl | ht
      · exact hnew
      · -- nobody reveals twice
        cases hnone.symm.trans (ih t ht hl)
    · rw [hstep.liveUntil_vote hreveal]
      rcases List.mem_cons.mp ht with rfl | ht
      · exact absurd hl hreveal
      · exact ih t ht hl

end Votes

/-! ### Coverage -/

/-- A voter committed and revealed. -/
theorem SingleInit.moves_of_voter (hs : SingleInit env₀ h env) {juror : A}
    (hj : juror ∈ (env.votersOf id).toList) :
    (∃ t ∈ h, t.label.commit? = some (id, juror)) ∧
      ∃ t ∈ h, t.label.reveal? = some (id, juror) := by
  have hvoted : env.book.vote id juror ≠ none := ((hs.sound.file id).register.2.1 juror).mp hj
  rcases Option.ne_none_iff_exists'.mp hvoted with ⟨vote, hvote⟩
  have hballot := hs.ballot id juror
  rw [hvote] at hballot
  generalize env.book.commit id juror = commit at hballot
  cases hballot with
  | shown hcommits hreveals hl _ hl' =>
      refine ⟨⟨_, List.mem_of_mem_filter (hcommits ▸ List.mem_singleton_self _), ?_⟩,
        ⟨_, List.mem_of_mem_filter (hreveals ▸ List.mem_singleton_self _), ?_⟩⟩
      · rw [hl]
        rfl
      · rw [hl']
        rfl

theorem SingleInit.voter_of_reveal (hs : SingleInit env₀ h env) {juror : A}
    {t : Move (Env H) (Label H)} (ht : t ∈ h) (hl : t.label.reveal? = some (id, juror)) :
    juror ∈ (env.votersOf id).toList := by
  apply ((hs.sound.file id).register.2.1 juror).mpr
  have hlive := liveUntil_vote hs.run t ht hl
  have hsome := env.liveUntil_isSome (.jurorVote ⟨id, juror⟩)
  rw [hlive] at hsome
  exact Option.isSome_iff_ne_none.mp hsome.symm

/-- An entry that lived until the ledger `now` when the state was `env`, or was touched
    later on. -/
def CarriedOver (env : Env H) (later : History H) (now : Nat) (k : DataKey A) : Prop :=
  (∀ m, env.liveUntil k = some m → now ≤ m) ∨ ∃ t ∈ later, touches k t = true

/-- Within the threshold nothing else keeps an entry alive. -/
theorem carriedOver_iff {later : History H} (hr : Run Step env₀ later env)
    (hearly : env.now < env₀.now + 518400) :
    env.archived k = false ↔ CarriedOver env₀ later env.now k := by
  by_cases htouched : ∃ t ∈ later, touches k t = true
  · refine iff_of_true ?_ (Or.inr htouched)
    rcases htouched with ⟨t, ht, hl⟩
    apply Env.archived_eq_false
    intro m hm
    have hafter := lt_of_touched hr ht hl hm
    have hpre : env₀.now ≤ t.pre.now := by
      rcases hr.split_mem ht with ⟨_, _, _, hbefore, -, -⟩
      exact Run.invariant (P := fun e : Env H => env₀.now ≤ e.now) le_rfl
        (fun hle hs => hle.trans hs.now_le) hbefore
    omega
  · have hsame : env.liveUntil k = env₀.liveUntil k :=
      liveUntil_of_untouched hr fun t ht => Bool.eq_false_iff.mpr fun hl => htouched ⟨t, ht, hl⟩
    rw [CarriedOver, or_iff_left htouched, ← hsame]
    exact ⟨fun hlive m hm => Env.le_of_archived hlive hm, Env.archived_eq_false⟩

/-- With the keeper's duty towards a dispute done, a resolution finds all it reads
    alive exactly when it comes within the lifetime each reveal gave its vote and, as
    long as the keeper owes no round yet, the entries of those who revealed lived long
    enough when the dispute was raised or were touched since. -/
theorem keeper_coverage_iff {later earlier : History H} {t : Move (Env H) (Label H)}
    (hs : SingleInit env₀ (later ++ t :: earlier) env) (hraise : t.label.raise? = some id)
    (hkept : Kept id t.pre.now (later ++ t :: earlier) env) :
    (∀ k ∈ env.resolveReads id, env.archived k = false) ↔
      ∀ t' ∈ later ++ t :: earlier, ∀ juror, t'.label.reveal? = some (id, juror) →
        env.now ≤ renewed t'.pre.now (t'.pre.now + H.defaultTtl) ∧
        (env.now < t.pre.now + LIFETIME_THRESHOLD.val.toNat →
          ∀ k ∈ [.jurorStake juror, .jurorSlashCount juror],
            CarriedOver t.post later env.now k) := by
  have hthreshold := LIFETIME_THRESHOLD_toNat
  have ht : t ∈ later ++ t :: earlier := List.mem_append_right _ List.mem_cons_self
  have hreads (k : DataKey A) : k ∈ env.resolveReads id ↔
      k ∈ disputeKeys id ∨ ∃ juror ∈ (env.votersOf id).toList,
        k = .jurorVote ⟨id, juror⟩ ∨ k ∈ [.jurorStake juror, .jurorSlashCount juror] := by
    simp [Env.resolveReads]
  have hcarried (hearly : env.now < t.pre.now + 518400) (k : DataKey A) :
      env.archived k = false ↔ CarriedOver t.post later env.now k := by
    rcases hs.run.split with ⟨m, hm, hlater⟩
    rcases hm.last with ⟨-, hstep, rfl⟩
    exact carriedOver_iff hlater (hearly.trans_le (Nat.add_le_add_right hstep.now_le _))
  constructor
  · intro hlive t' ht' juror hl
    have hvoter := hs.voter_of_reveal ht' hl
    refine ⟨?_, fun hearly k hk => ?_⟩
    · have halive := hlive _ ((hreads _).mpr (Or.inr ⟨juror, hvoter, Or.inl rfl⟩))
      exact Env.le_of_archived halive (liveUntil_vote hs.run t' ht' hl)
    · have halive := hlive _ ((hreads k).mpr (Or.inr ⟨juror, hvoter, Or.inr hk⟩))
      exact (hcarried hearly k).mp halive
  · intro hvoters k hk
    rcases (hreads k).mp hk with hk | ⟨juror, hj, hk⟩
    · apply Env.archived_eq_false
      intro m hm
      -- renewed by the raise, or by the keeper within the last threshold
      by_cases hearly : env.now < t.pre.now + 518400
      · have := hs.raise_renews ht hraise hk hm
        omega
      · rcases hkept.escrow (env.now - 518400) (by omega) (by omega) with ⟨t', ht', hl, hafter, -⟩
        have := hs.bump_renews ht' hl hk hm
        omega
    · rcases hs.moves_of_voter hj with ⟨hcommitted, t', ht', hreveal⟩
      rcases hvoters t' ht' juror hreveal with ⟨hvote, hstakes⟩
      rcases hk with rfl | hk
      · apply Env.archived_eq_false
        intro m hm
        cases hm.symm.trans (liveUntil_vote hs.run t' ht' hreveal)
        exact hvote
      · by_cases hearly : env.now < t.pre.now + 518400
        · exact (hcarried hearly k).mpr (hstakes hearly k hk)
        · apply Env.archived_eq_false
          intro m hm
          rcases hkept.jurors juror hcommitted (env.now - 518400) (by omega) (by omega) with
            ⟨t'', ht'', hl, hafter, -⟩
          have hk' : k = .jurorStake juror ∨ k = .jurorSlashCount juror := by simpa using hk
          have := bumpStake_renews hs.run ht'' hl hk' hm
          omega

/-- A dispute raised at ledger 1 with one revealed vote, and a keeper who calls every
    `LIFETIME_THRESHOLD` ledgers until a last ledger closes. -/
def keptDispute (last : Nat) : List (Action Nat (List UInt8)) :=
  [.call (fun a => a == 1) (.initialise 1 9 DEFAULT_SLASH_BPS),
    .call (fun a => a == 2) (.createEscrow 2 4 (.ofNat 100)),
    .call (fun a => a == 3) (.stake 3 (.ofNat 30)),
    .call (fun a => a == 4) (.raiseDispute 1 4 "late"),
    .call (fun a => a == 3) (.commitVote 1 3 (0 :: List.replicate 32 7)),
    .close (.ofNat 17281),
    .call (fun a => a == 3) (.revealVote 1 3 false (Vector.replicate 32 7)),
    .close (.ofNat 518400),
    .call (fun _ => false) (.bumpEscrowTtl 1),
    .call (fun _ => false) (.bumpJurorStakeTtl 3),
    .close (.ofNat 1036800),
    .call (fun _ => false) (.bumpEscrowTtl 1),
    .call (fun _ => false) (.bumpJurorStakeTtl 3),
    .close (.ofNat 1555200),
    .call (fun _ => false) (.bumpEscrowTtl 1),
    .call (fun _ => false) (.bumpJurorStakeTtl 3),
    .close (.ofNat last)]

/-- The keeper's rounds in such a history. -/
def KeptRounds (h : History Host.plain) (env : Env Host.plain) : Prop :=
  (∀ n ∈ [518400, 1036800, 1555200],
    (∃ t ∈ h, t.label.bumpEscrow? = some 1 ∧ t.pre.now = n) ∧
      ∃ t ∈ h, t.label.bumpStake? = some 3 ∧ t.pre.now = n) ∧
    (∀ t ∈ h, ∀ p ∈ t.label.commit?, p = (1, 3)) ∧ env.now < 2073600

instance (h : History Host.plain) (env : Env Host.plain) : Decidable (KeptRounds h env) :=
  inferInstanceAs (Decidable (_ ∧ _ ∧ _))

theorem KeptRounds.kept {h : History Host.plain} {env : Env Host.plain}
    (hr : KeptRounds h env) : Kept 1 1 h env := by
  rcases hr with ⟨hrounds, hcommits, hend⟩
  have hround (m : Nat) (h1 : 1 ≤ m) (hm : m + 518400 ≤ env.now) :
      ∃ n ∈ [518400, 1036800, 1555200], m < n ∧ n ≤ m + 518400 := by
    by_cases h₁ : m < 518400
    · exact ⟨518400, by simp, h₁, by omega⟩
    by_cases h₂ : m < 1036800
    · exact ⟨1036800, by simp, h₂, by omega⟩
    exact ⟨1555200, by simp, by omega, by omega⟩
  refine ⟨fun m h1 hm => ?_, ?_⟩
  · rcases hround m h1 hm with ⟨n, hn, hlt, hle⟩
    rcases (hrounds n hn).1 with ⟨t, ht, hl, rfl⟩
    exact ⟨t, ht, hl, hlt, hle⟩
  · rintro juror ⟨t', ht', hcommit⟩ m h1 hm
    cases hcommits t' ht' _ hcommit
    rcases hround m h1 hm with ⟨n, hn, hlt, hle⟩
    rcases (hrounds n hn).2 with ⟨t, ht, hl, rfl⟩
    exact ⟨t, ht, hl, hlt, hle⟩

/-- When the dispute's first lifetime is over all a resolution reads is still alive. -/
theorem keeper_coverage_iff_sample :
    ∃ (later earlier : History Host.plain) (t : Move (Env Host.plain) (Label Host.plain))
      (env : Env Host.plain), SingleInit Env.deployed (later ++ t :: earlier) env ∧
      t.label.raise? = some 1 ∧ Kept 1 t.pre.now (later ++ t :: earlier) env ∧
      env.now = 1570000 ∧ ∀ k ∈ env.resolveReads 1, env.archived k = false := by
  rcases Env.exists_of_plays (keptDispute 1570000)
    (fun h env => decide ((∃ t ∈ h, t.label.raise? = some 1 ∧ t.pre.now = 1) ∧ KeptRounds h env ∧
      env.now = 1570000 ∧ ∀ t ∈ h, ∀ p ∈ t.label.reveal?, t.pre.now = 17281))
    (by decide +kernel) with ⟨h, env, hs, hend⟩
  rcases of_decide_eq_true hend with ⟨⟨t, ht, hraise, hnow⟩, hrounds, hlast, hreveals⟩
  rcases List.append_of_mem ht with ⟨later, earlier, rfl⟩
  have hkept : Kept 1 t.pre.now _ env := hnow ▸ hrounds.kept
  refine ⟨later, earlier, t, env, hs, hraise, hkept, hlast,
    (keeper_coverage_iff hs hraise hkept).mpr ?_⟩
  refine fun t' ht' juror hl => ⟨?_, fun hearly => ?_⟩
  · rw [hreveals t' ht' _ hl, hlast]
    decide
  · rw [hlast, hnow] at hearly
    exact absurd hearly (by decide)

/-- Some ledgers later the vote has run out, the first entry to do so, and the
    dispute cannot be resolved any more. -/
theorem kept_dispute_archives :
    ∃ (h : History Host.plain) (env : Env Host.plain), SingleInit Env.deployed h env ∧
      (∀ t ∈ h, ∀ k, t.pre.archived k = false) ∧
      (∀ t ∈ h, t.label.Initialises = true ∨ t.pre.now ≤ t.pre.instanceLiveUntil) ∧
      (∃ t ∈ h, t.label.raise? = some 1 ∧ Kept 1 t.pre.now h env) ∧
      (∃ d, env.get (.dispute 1) = some d ∧ d.resolved = false) ∧
      .jurorVote ⟨1, 3⟩ ∈ env.resolveReads 1 ∧ env.archived (.jurorVote ⟨1, 3⟩) = true := by
  rcases Env.exists_of_plays (keptDispute 1600000)
    (fun h env => decide ((∀ t ∈ h, t.pre.now ≤ 1555201) ∧
      (∀ t ∈ h, t.label.Initialises = true ∨ t.pre.now ≤ t.pre.instanceLiveUntil) ∧
      (∃ t ∈ h, t.label.raise? = some 1 ∧ t.pre.now = 1) ∧ KeptRounds h env ∧
      (env.get (.dispute 1)).map (fun d => d.resolved) = some false ∧
      .jurorVote ⟨1, 3⟩ ∈ env.resolveReads 1 ∧ env.archived (.jurorVote ⟨1, 3⟩) = true))
    (by decide +kernel) with ⟨h, env, hs, hend⟩
  rcases of_decide_eq_true hend with ⟨hearly, hinst, ⟨t, ht, hraise, hnow⟩, hrounds, hopen, hvote⟩
  rcases Option.map_eq_some_iff.mp hopen with ⟨d, hd, hresolved⟩
  refine ⟨h, env, hs, fun t ht k => Env.archived_eq_false fun l hl => ?_, hinst,
    ⟨t, ht, hraise, hnow ▸ hrounds.kept⟩, ⟨d, hd, hresolved⟩, hvote⟩
  rcases hs.split_mem ht with ⟨_, _, _, hpre, _, _⟩
  exact (hearly t ht).trans (liveUntil_of_fresh hpre.fresh (Nat.zero_le _) hpre.run hl)

end TrustFlow
