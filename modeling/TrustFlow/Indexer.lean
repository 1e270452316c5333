import TrustFlow.StakeLedger
import TrustFlow.Lib.Journal

/-!
# What the events tell

An indexer follows the contract by its events alone.  `Index` is what it can
know, `Event.tell` how it takes an event in, and `Book.index` the same registers
read off the contract.  `create_escrow` and `raise_dispute` publish nothing, so
the escrow and dispute records are not among them.
-/

namespace TrustFlow

open Invocation Transition Purse

variable {A D : Type} [DecidableEq A] {H : Host A D}

/-- What an indexer keeps: the switch and its pauser, the stakes, the phases of every vote
    and the counters of the releases. -/
@[ext] structure Index (A : Type) where
  paused : Bool
  pauser : Option A
  stake : A → I128
  slashCount : A → U32
  committed : U64 → A → Bool
  vote : U64 → A → Option Bool
  voters : U64 → List A
  released : U64 → Option I128
  milestoneReleased : U64 → U32 → Option I128

namespace Index

def empty : Index A where
  paused := false
  pauser := none
  stake _ := 0
  slashCount _ := 0
  committed _ _ := false
  vote _ _ := none
  voters _ := []
  released _ := none
  milestoneReleased _ _ := none

end Index

/-- An indexer takes an event in.  The escrow and the milestone of a release are in its
    topics. -/
def Event.tell (e : Event A) (x : Index A) : Index A :=
  match e.data with
  | .contractPaused _ => { x with paused := true }
  | .contractUnpaused _ => { x with paused := false }
  | .pauserSet _ pauser => { x with pauser := some pauser }
  | .pauserRevoked _ => { x with pauser := none }
  | .escrowInitialized .. | .escrowTtlBumped .. | .jurorStakeTtlBumped .. => x
  | .milestoneTrancheReleased _ _ _ milestoneReleased escrowReleased _ _ =>
      match e.topics with
      | [_, _, .u64 id, .u32 i] =>
          { x with
            released := Function.update x.released id (some escrowReleased)
            milestoneReleased := Function.update x.milestoneReleased id
              (Function.update (x.milestoneReleased id) i (some milestoneReleased)) }
      | _ => x
  | .voteCommitted id juror =>
      { x with
        committed := Function.update x.committed id
          (Function.update (x.committed id) juror true) }
  | .voteRevealed id juror vote =>
      { x with
        committed := Function.update x.committed id
          (Function.update (x.committed id) juror false)
        vote := Function.update x.vote id (Function.update (x.vote id) juror (some vote))
        voters := Function.update x.voters id (x.voters id ++ [juror]) }
  | .staked juror _ total | .unstaked juror _ total =>
      { x with stake := Function.update x.stake juror total }
  | .jurorSlashed _ juror _ remaining count =>
      { x with
        stake := Function.update x.stake juror remaining
        slashCount := Function.update x.slashCount juror count }

/-- The registers of an indexer, read off the contract. -/
def Book.index (b : Book H) : Index A where
  paused := b.settings.isPaused
  pauser := b.settings.pauser
  stake := b.stake
  slashCount := b.slashCount
  committed id juror := (b.commit id juror).isSome
  vote := b.vote
  voters := b.votersOf
  released := b.released
  milestoneReleased := b.milestoneReleased

theorem Env.Fresh.index {env : Env H} (h : env.Fresh) : env.book.index = Index.empty := by
  simp [Book.index, Index.empty, Env.book, Env.settings, Settings.isPaused, Env.stakeOf,
    Env.slashCountOf, Book.votersOf, funext_iff, h.instance_empty, h.persistent_empty]

/-- The events as a journal of the registers. -/
def told : Journal (Env H) (Event A) (Index A) where
  log := Env.events
  view env := env.book.index
  apply := Event.tell

/-! ### One call -/

variable {auth : A → Bool} {env env' : Env H} {u : Unit} {id : U64} {juror : A}

/-- What leaves the registers and the log alone is accounted for. -/
theorem told_silent (hevents : env'.events = env.events)
    (hindex : env'.book.index = env.book.index) : told.Accounts env env' :=
  .silent hevents hindex

theorem told_single {e : Event A} (hevents : env'.events = e :: env.events)
    (hindex : env'.book.index = e.tell env.book.index) : told.Accounts env env' :=
  .single hevents hindex

theorem told_setPaused {flag : Bool} {topic : String} {data : EventData A}
    (hslash : Event.slashed ⟨[.symbol "circuit", .symbol topic], data⟩ = 0)
    (htell : ∀ x : Index A, Event.tell ⟨[.symbol "circuit", .symbol topic], data⟩ x =
      { x with paused := flag }) : told.Accounts env (env.setPaused flag topic data) := by
  have hp : env.isPaused = env.book.settings.isPaused := rfl
  by_cases h : env.isPaused = flag
  · rw [Env.setPaused, if_pos h]
    exact told_silent rfl rfl
  · refine told_single (e := ⟨[.symbol "circuit", .symbol topic], data⟩) ?_ ?_
    · rw [Env.setPaused, if_neg h]
      rfl
    · rw [Env.book_setPaused hslash, htell, Settings.setPaused, if_neg (hp ▸ h)]
      rfl

theorem told_afterStake {p : Purse H.tokens} {total : I128} {topic : String}
    {data : EventData A} (hslash : Event.slashed ⟨[.symbol "stake", .symbol topic], data⟩ = 0)
    (htell : ∀ x : Index A, Event.tell ⟨[.symbol "stake", .symbol topic], data⟩ x =
      { x with stake := Function.update x.stake juror total }) :
    told.Accounts env (env.afterStake juror p total topic data) := by
  refine told_single (e := ⟨[.symbol "stake", .symbol topic], data⟩) ?_ ?_
  · simp [Env.afterStake]
  · rw [Env.book_afterStake hslash, htell]
    rfl

/-- Whether a register of registers holds something, after one entry changed. -/
theorem isSome_update {ι κ β : Type} [DecidableEq ι] [DecidableEq κ] (f : ι → κ → Option β)
    (i : ι) (j : κ) (v : Option β) :
    (fun x y => (Function.update f i (Function.update (f i) j v) x y).isSome) =
      Function.update (fun x y => (f x y).isSome) i
        (Function.update (fun y => (f i y).isSome) j v.isSome) := by
  apply Env.eq_update_update
  · rw [Function.update_self, Function.update_self]
  · intro y hy
    rw [Function.update_self, Function.update_of_ne hy]
  · intro x y hx
    rw [Function.update_of_ne hx]

theorem told_afterCommit {c : D} : told.Accounts env (env.afterCommit id juror c) := by
  refine told_single (e := ⟨[.symbol "vote", .symbol "commit"], .voteCommitted id juror⟩) ?_ ?_
  · simp [Env.afterCommit]
  · have hbook : (env.afterCommit id juror c).book = { env.book with
        commit := Function.update env.book.commit id
          (Function.update (env.book.commit id) juror (some c)) } := by
      simp [Env.afterCommit, Event.slashed, Event.trancheFee]
    rw [hbook]
    apply Index.ext <;> try rfl
    exact isSome_update env.book.commit id juror (some c)

theorem told_afterReveal {vote : Bool} {voters : Vec A}
    (hvoters : voters.toList = (env.votersOf id).toList ++ [juror]) :
    told.Accounts env (env.afterReveal id juror vote voters) := by
  refine told_single (e := ⟨[.symbol "vote", .symbol "reveal"], .voteRevealed id juror vote⟩) ?_ ?_
  · simp [Env.afterReveal]
  · have hbook : (env.afterReveal id juror vote voters).book = { env.book with
        vote := Function.update env.book.vote id
          (Function.update (env.book.vote id) juror (some vote))
        commit := Function.update env.book.commit id
          (Function.update (env.book.commit id) juror none)
        voters := Function.update env.book.voters id (some voters) } := by
      simp [Env.afterReveal, Event.slashed, Event.trancheFee]
    rw [hbook]
    apply Index.ext <;> try rfl
    · exact isSome_update env.book.commit id juror none
    · apply Function.eq_update_iff.mpr
      constructor
      · show ((Function.update env.book.voters id (some voters) id).getD Vec.empty).toList = _
        rw [Function.update_self]
        exact hvoters
      · intro id' hne
        show ((Function.update env.book.voters id (some voters) id').getD Vec.empty).toList = _
        rw [Function.update_of_ne hne]
        rfl

theorem told_afterRelease {i : U32} {gross : I128} {t : Tranche A} {p : Purse H.tokens} :
    told.Accounts env (env.afterRelease id i gross t p) := by
  refine told_single (e := ⟨[.symbol "mstone", .symbol "release", .u64 id, .u32 i],
    .milestoneTrancheReleased gross t.fee t.payout t.milestoneAfter t.releasedAfter
      t.escrow.beneficiary t.feeConfig.treasury⟩) ?_ ?_
  · simp [Env.afterRelease]
  · have hbook : (env.afterRelease id i gross t p).book = { env.book with
        escrow := Function.update env.book.escrow id (some (t.escrowAfter i))
        milestoneReleased := Function.update env.book.milestoneReleased id
          (Function.update (env.book.milestoneReleased id) i (some t.milestoneAfter))
        released := Function.update env.book.released id (some t.releasedAfter)
        purse := p
        fees := fun id' => (if id = id' then t.fee.val else 0) + env.book.fees id' } := by
      simp [Env.afterRelease, Event.slashed, Event.trancheFee]
    rw [hbook]
    rfl

theorem told_afterSlash {slash remaining : I128} {count : U32} :
    told.Accounts env (env.afterSlash id juror slash remaining count) := by
  refine told_single (e := ⟨[.symbol "slash", .symbol "slashed"],
    .jurorSlashed id juror slash remaining count⟩) ?_ ?_
  · simp [Env.afterSlash]
  · have hbook : (env.afterSlash id juror slash remaining count).book = { env.book with
        stake := Function.update env.book.stake juror remaining
        slashCount := Function.update env.book.slashCount juror count
        slashed := slash.val + env.book.slashed } := by
      simp [Env.afterSlash, Event.slashed, Event.trancheFee]
    rw [hbook]
    rfl

theorem told_slashVoters {bps : U32} {ruling : Bool} {voters : List A}
    (h : (slashVoters id bps ruling voters : Op H Unit) auth env = .ok (u, env')) :
    told.Accounts env env' := by
  induction voters generalizing env with
  | nil =>
      rw [slashVoters, pure_eq_ok] at h
      rw [h.2]
      exact told_silent rfl rfl
  | cons voter voters ih =>
      simp only [slashVoters, bind_eq_ok, reads_eq_ok, ite_eq_ok] at h
      rcases h with ⟨_, _, ⟨-, rfl⟩, ⟨-, _, env₁, hslash, hrest⟩ | ⟨-, hrest⟩⟩
      · rcases slashVoter_eq_ok.mp hslash with ⟨remaining, -, count, -, rfl⟩
        exact told_afterSlash.trans (ih hrest)
      · exact ih hrest

/-- A published event without news. -/
theorem told_publish {topics : List Topic} {data : EventData A}
    (htell : ∀ x : Index A, Event.tell ⟨topics, data⟩ x = x) :
    told.Accounts env (env.publish topics data) := by
  refine told_single (e := ⟨topics, data⟩) rfl ?_
  rw [Env.book_publish, htell]
  rfl

theorem told_lockEscrow {depositor beneficiary : A} {amount : I128} {milestones : Vec Milestone}
    (h : (lockEscrow depositor beneficiary amount milestones : Op H U64) auth env =
      .ok (id, env')) : told.Accounts env env' := by
  rcases lockEscrow_eq_ok.mp h with ⟨token, -, p, -, -, treasury, -, rfl⟩
  refine told_silent ?_ ?_
  · simp [Env.afterLock]
  · have hlock := (lockEscrow_book env).mp ⟨_, h, rfl⟩
    generalize (env.afterLock _ _ p).book = b' at hlock ⊢
    cases hlock
    rfl

theorem told_bumpJurorStakeTtl {n : U32}
    (h : (bumpJurorStakeTtl juror : Op H U32) auth env = .ok (n, env')) :
    told.Accounts env env' := by
  simp only [bumpJurorStakeTtl, persistentHas, extendInstanceTtl, extendPersistentTtl,
    ledgerSequence, publish, bind_eq_ok, reads_eq_ok, failIf_eq_ok, modify_eq_ok, pure_eq_ok,
    ↓existsAndEq, true_and, exists_const] at h
  rw [h.2.2]
  have hquiet : told.Accounts env ((env.extendInstanceTtl.extendPersistentTtl
      (.jurorStake juror)).extendPersistentTtl (.jurorSlashCount juror)) := by
    refine told_silent rfl ?_
    rw [Env.book_extendPersistentTtl, Env.book_extendPersistentTtl, Env.book_extendInstanceTtl]
  exact hquiet.trans (told_publish fun _ => rfl)

theorem told_bumpEscrowTtl {n : U32}
    (h : (bumpEscrowTtl id : Op H U32) auth env = .ok (n, env')) : told.Accounts env env' := by
  simp only [bumpEscrowTtl, persistentGet, extendInstanceTtl, extendPersistentTtl, ledgerSequence,
    publish, bind_eq_ok, okOr_eq_ok, reads_eq_ok, modify_eq_ok, pure_eq_ok, ↓existsAndEq, true_and,
    exists_const] at h
  rcases h with ⟨e, -, _, env₁, hms, _, env₂, hd, -, rfl⟩
  have hkeeps (env : Env H) (k : DataKey A) : (env.events, env.book) =
      ((env.extendPersistentTtl k).events, (env.extendPersistentTtl k).book) := by
    rw [Env.events_extendPersistentTtl, Env.book_extendPersistentTtl]
  have hms' := bumpMilestones_keeps (f := fun env => (env.events, env.book))
    (fun env k => (hkeeps env k).symm) hms
  have hd' := bumpDispute_keeps (f := fun env => (env.events, env.book))
    (fun env k => (hkeeps env k).symm) hd
  rw [Prod.mk.injEq] at hms' hd'
  have hquiet : told.Accounts env env₂ := by
    apply told_silent
    · rw [hd'.1, hms'.1]
      rfl
    · rw [hd'.2, hms'.2]
      simp
  exact hquiet.trans (told_publish fun _ => rfl)

/-! ### Every call -/

variable [DecidableEq D]

/-- What a call changes in the registers it publishes. -/
theorem Call.exec_told {c : Call A D} {r : c.Result} (h : c.exec auth env = .ok (r, env')) :
    told.Accounts env env' := by
  cases c with
  | initialise admin token slashBps =>
      obtain ⟨-, -, rfl⟩ := initialise_eq_ok.mp h
      refine told_silent (by simp) ?_
      simp only [Env.book_extendInstanceTtl, Env.book_set_treasury, Env.book_set_feeBps,
        Env.book_set_escrowCounter, Env.book_set_slashBps, Env.book_set_token, Env.book_set_admin]
      rfl
  | setFeeBps caller n =>
      obtain ⟨-, -, -, rfl⟩ := setFeeBps_eq_ok.mp h
      refine told_silent (by simp) ?_
      rw [Env.book_set_feeBps, Env.book_extendInstanceTtl]
      rfl
  | setTreasury caller treasury =>
      obtain ⟨-, -, rfl⟩ := setTreasury_eq_ok.mp h
      refine told_silent (by simp) ?_
      rw [Env.book_set_treasury, Env.book_extendInstanceTtl]
      rfl
  | setPauser caller pauser =>
      obtain ⟨-, -, rfl⟩ := setPauser_eq_ok.mp h
      refine told_single rfl ?_
      rw [Env.book_publish, Env.book_set_pauser, Env.book_extendInstanceTtl]
      rfl
  | revokePauser caller =>
      obtain ⟨-, -, rfl⟩ := revokePauser_eq_ok.mp h
      refine told_single rfl ?_
      rw [Env.book_publish, Env.book_remove_pauser, Env.book_extendInstanceTtl]
      rfl
  | pause caller =>
      obtain ⟨-, -, rfl⟩ := pause_eq_ok.mp h
      exact told_setPaused rfl fun _ => rfl
  | unpause caller =>
      obtain ⟨-, -, rfl⟩ := unpause_eq_ok.mp h
      exact told_setPaused rfl fun _ => rfl
  | stake juror amount =>
      obtain ⟨-, -, -, token, -, p, -, total, -, rfl⟩ := stake_eq_ok.mp h
      exact told_afterStake rfl fun _ => rfl
  | unstake juror amount =>
      obtain ⟨-, -, -, token, -, p, -, total, -, rfl⟩ := unstake_eq_ok.mp h
      exact told_afterStake rfl fun _ => rfl
  | createEscrow depositor beneficiary amount =>
      have hlock := told_lockEscrow (createEscrow_eq_ok.mp h).2.2.2
      exact (told_silent rfl rfl).trans hlock
  | initEscrow depositor beneficiary milestones =>
      obtain ⟨-, -, amount, -, -, -, env₁, hlock, rfl⟩ := initEscrow_eq_ok.mp h
      have hlock := told_lockEscrow hlock
      exact ((told_silent rfl rfl).trans hlock).trans (told_publish fun _ => rfl)
  | releaseMilestoneTranche id i gross caller =>
      obtain ⟨t, -, p₁, -, p₂, -, rfl⟩ := releaseMilestoneTranche_eq_ok.mp h
      exact told_afterRelease
  | raiseDispute id caller reason =>
      obtain ⟨-, -, e, -, -, -, rfl⟩ := raiseDispute_eq_ok.mp h
      refine told_silent (by simp [Env.afterRaise]) ?_
      simp [Env.afterRaise]
      rfl
  | commitVote id juror c =>
      obtain ⟨-, -, -, d, -, -, -, -, rfl⟩ := commitVote_eq_ok.mp h
      exact told_afterCommit
  | revealVote id juror vote salt =>
      obtain ⟨-, -, d, -, -, -, -, -, -, voters, hvoters, rfl⟩ := revealVote_eq_ok.mp h
      exact told_afterReveal hvoters
  | resolveDispute id =>
      obtain ⟨-, d, -, -, -, -, -, env₁, hslash, e, -, token, -, remaining, -, p, -, rfl⟩ :=
        resolveDispute_eq_ok.mp h
      have hslash := told_slashVoters hslash
      refine ((told_silent rfl rfl).trans hslash).trans (told_silent ?_ ?_)
      · simp [Env.afterResolve]
      · simp [Env.afterResolve]
        rfl
  | bumpJurorStakeTtl juror => exact told_bumpJurorStakeTtl h
  | bumpEscrowTtl id => exact told_bumpEscrowTtl h
  | getTreasury =>
      have h' : (TrustFlow.getTreasury : Op H A) auth env = .ok (r, env') := h
      simp only [TrustFlow.getTreasury, instanceGet, bind_eq_ok, reads_eq_ok, okOr_eq_ok] at h'
      obtain ⟨_, _, ⟨-, rfl⟩, -, rfl⟩ := h'
      exact told_silent rfl rfl
  | getFeeBps | getPauser | isPaused | getStake juror | getSlashCount juror =>
      cases h
      exact told_silent rfl rfl

theorem Step.told_accounts {env env' : Env H} {l : Label H} (h : Step env l env') :
    told.Accounts env env' := by
  cases h with
  | call hself h => exact Call.exec_told h
  | failed hself h => exact told_silent rfl rfl
  | close h => exact told_silent rfl rfl
  | tokens h => exact told_silent rfl rfl

/-- The events tell the switch, the stakes, the phases of every vote and the counters of
    the releases, however often the contract was initialised. -/
theorem events_tell_index {env₀ : Env H} {h : History H} (hfresh : env₀.Fresh)
    (hr : Run Step env₀ h env) : env.book.index = env.events.foldr Event.tell Index.empty := by
  have hreplay := Journal.replay (J := told) hfresh.no_events (fun hs => hs.told_accounts) hr
  rw [← hfresh.index]
  exact hreplay

theorem events_tell_index_sample :
    ∃ (h : History Host.plain) (env : Env Host.plain), Run Step Env.deployed h env ∧
      env.book.index = env.events.foldr Event.tell Index.empty ∧
      env.events.length = 8 ∧ (env.stakeOf 3).val = 7 ∧ (env.slashCountOf 3).val = 1 := by
  rcases Env.exists_of_plays tiedVote
    (fun _ env => decide (env.events.length = 8 ∧ (env.stakeOf 3).val = 7 ∧
      (env.slashCountOf 3).val = 1)) (by decide +kernel) with ⟨h, env, hs, hend⟩
  exact ⟨h, env, hs.run, events_tell_index hs.fresh hs.run, of_decide_eq_true hend⟩

end TrustFlow
