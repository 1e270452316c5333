import TrustFlow.Lifetimes
import TrustFlow.Deployment

/-!
# Promised lifetimes

Every entry a call writes it also extends, so that it lives beyond the threshold
(`ttl_floor`).  The maintenance calls promise more: they return the ledger up to
which what they touch is now guaranteed to live.  But they compute it from the
present ledger, while an entry with more than the threshold left is not extended.
So the promise is kept when every entry was due, or was extended at the same
ledger before.
-/

namespace TrustFlow

open Invocation

variable {A D : Type} [DecidableEq A] {H : Host A D} {auth : A → Bool} {env env' : Env H}
  {u : Unit} {id : U64}

/-! ### Values -/

/-- The loop over the minority changes stakes and counts of the voters in it. -/
theorem slashVoters_get {bps : U32} {ruling : Bool} {voters : List A}
    (h : (slashVoters id bps ruling voters : Op H Unit) auth env = .ok (u, env')) {k : DataKey A}
    (hk : ¬ ∃ juror ∈ voters.filter fun juror => env.voteOf id juror != ruling,
      k = .jurorStake juror ∨ k = .jurorSlashCount juror) : env'.get k = env.get k := by
  induction voters generalizing env with
  | nil =>
      simp only [slashVoters, pure_eq_ok] at h
      rw [h.2]
  | cons voter voters ih =>
      simp only [slashVoters, bind_eq_ok, reads_eq_ok, ite_eq_ok, ↓existsAndEq, true_and] at h
      rcases h with ⟨hne, _, env₁, hslash, hrest⟩ | ⟨heq, hrest⟩
      · rcases slashVoter_eq_ok.mp hslash with ⟨remaining, -, count, -, rfl⟩
        rw [List.filter_cons_of_pos (by simpa using hne)] at hk
        simp only [List.mem_cons, exists_eq_or_imp, not_or] at hk
        rcases hk with ⟨⟨hstake, hcount⟩, hk⟩
        have hvote : (env.afterSlash id voter (slashAmount (env.stakeOf voter) bps) remaining
            count).voteOf id = env.voteOf id := by
          funext juror
          simp [Env.afterSlash, Env.voteOf]
        rw [ih hrest (by rwa [hvote])]
        simp [Env.afterSlash, hstake, hcount]
      · rw [List.filter_cons_of_neg (by simpa using heq)] at hk
        exact ih hrest hk

/-- An entry that a call neither writes nor removes keeps its value. -/
theorem Call.get_eq [DecidableEq D] {c : Call A D} {r : c.Result}
    (h : c.exec auth env = .ok (r, env')) {k : DataKey A}
    (hw : c.access env r k ≠ .write) (hr : c.access env r k ≠ .remove) :
    env'.get k = env.get k := by
  cases c with
  | initialise admin token slashBps =>
      rcases initialise_eq_ok.mp h with ⟨-, -, rfl⟩
      simp
  | setFeeBps caller n =>
      rcases setFeeBps_eq_ok.mp h with ⟨-, -, -, rfl⟩
      rfl
  | setTreasury caller treasury =>
      rcases setTreasury_eq_ok.mp h with ⟨-, -, rfl⟩
      rfl
  | setPauser caller pauser =>
      rcases setPauser_eq_ok.mp h with ⟨-, -, rfl⟩
      rfl
  | revokePauser caller =>
      rcases revokePauser_eq_ok.mp h with ⟨-, -, rfl⟩
      rfl
  | pause caller =>
      rcases pause_eq_ok.mp h with ⟨-, -, rfl⟩
      unfold Env.setPaused
      split <;> rfl
  | unpause caller =>
      rcases unpause_eq_ok.mp h with ⟨-, -, rfl⟩
      unfold Env.setPaused
      split <;> rfl
  | stake juror amount =>
      rcases stake_eq_ok.mp h with ⟨-, -, -, _, -, p, -, total, -, rfl⟩
      have hk : k ≠ .jurorStake juror := by simpa [Call.access] using hw
      simp [Env.afterStake, hk]
  | unstake juror amount =>
      rcases unstake_eq_ok.mp h with ⟨-, -, -, _, -, p, -, total, -, rfl⟩
      have hk : k ≠ .jurorStake juror := by simpa [Call.access] using hw
      simp [Env.afterStake, hk]
  | createEscrow depositor beneficiary amount =>
      rcases createEscrow_eq_ok.mp h with ⟨-, -, -, hlock⟩
      rcases lockEscrow_eq_ok.mp hlock with ⟨_, -, p, -, -, treasury, -, rfl⟩
      have hk : k ≠ .escrow r ∧ k ≠ .escrowFeeConfig r := by simpa [Call.access] using hw
      simp [Env.afterLock, hk]
  | initEscrow depositor beneficiary milestones =>
      rcases initEscrow_eq_ok.mp h with ⟨-, -, amount, -, -, -, env₁, hlock, rfl⟩
      rcases lockEscrow_eq_ok.mp hlock with ⟨_, -, p, -, -, treasury, -, rfl⟩
      have hk : k ≠ .escrow r ∧ k ≠ .escrowFeeConfig r := by simpa [Call.access] using hw
      simp [Env.afterLock, hk]
  | releaseMilestoneTranche id i gross caller =>
      rcases releaseMilestoneTranche_eq_ok.mp h with ⟨t, -, p₁, -, p₂, -, rfl⟩
      have hk : ¬ (k = .escrow id ∨ k = .milestoneReleased ⟨id, i⟩ ∨ k = .escrowReleased id) := by
        intro hk
        exact hw (if_pos hk)
      simp only [not_or] at hk
      simp [Env.afterRelease, hk]
  | raiseDispute id caller reason =>
      rcases raiseDispute_eq_ok.mp h with ⟨-, -, e, -, -, -, rfl⟩
      have hk : ¬ (k = .escrow id ∨ k = .dispute id) := fun hk => hw (if_pos hk)
      simp only [not_or] at hk
      simp [Env.afterRaise, hk]
  | commitVote id juror c =>
      rcases commitVote_eq_ok.mp h with ⟨-, -, -, d, -, -, -, -, rfl⟩
      have hk : k ≠ .jurorCommit ⟨id, juror⟩ := fun hk => hw (if_pos hk)
      simp [Env.afterCommit, hk]
  | revealVote id juror vote salt =>
      rcases revealVote_eq_ok.mp h with ⟨-, -, d, -, -, -, -, -, -, voters, -, rfl⟩
      have hk : ¬ (k = .jurorVote ⟨id, juror⟩ ∨ k = .disputeVoters id) := fun hk => hw (if_pos hk)
      have hc : k ≠ .jurorCommit ⟨id, juror⟩ := by
        intro hc
        exact hr ((if_neg hk).trans (if_pos hc))
      simp only [not_or] at hk
      simp [Env.afterReveal, hk, hc]
  | resolveDispute id =>
      rcases resolveDispute_eq_ok.mp h with ⟨-, d, -, -, -, -, rfl, env₁, hloop, e, -, token, -,
        remaining, -, p, -, rfl⟩
      have hk : ¬ (k = .dispute id ∨ k = .escrow id) := fun hk => hw (if_pos hk)
      have hvoters : ¬ ∃ juror ∈ env.book.minority id,
          k = .jurorStake juror ∨ k = .jurorSlashCount juror := by
        intro hv
        exact hw ((if_neg hk).trans (if_pos hv))
      have hloop : env₁.get k = env.extendInstanceTtl.get k := slashVoters_get hloop hvoters
      simp only [not_or] at hk
      simp [Env.afterResolve, hk, hloop]
  | bumpJurorStakeTtl juror => exact bumpJurorStakeTtl_get h k
  | bumpEscrowTtl id => exact bumpEscrowTtl_get h k
  | getTreasury =>
      have h' : (TrustFlow.getTreasury : Op H A) auth env = .ok (r, env') := h
      simp only [TrustFlow.getTreasury, instanceGet, bind_eq_ok, reads_eq_ok, okOr_eq_ok] at h'
      rcases h' with ⟨_, _, ⟨-, rfl⟩, -, rfl⟩
      rfl
  | getFeeBps | getPauser | isPaused | getStake juror | getSlashCount juror =>
      cases h
      rfl

/-! ### The floor of a write -/

/-- After every call each entry it wrote and left in the storage lives beyond the
    threshold, and so does the instance unless the call only reads.  Written are the
    entries of the `write` accesses; whatever has a new value is among them. -/
theorem ttl_floor [DecidableEq D] {c : Call A D} {r : c.Result}
    (h : c.exec auth env = .ok (r, env')) :
    (∀ k, c.access env r k = .write ∨ env'.get k ≠ env.get k → (env'.get k).isSome = true →
      ∃ l, env'.liveUntil k = some l ∧ env.now + LIFETIME_THRESHOLD.val.toNat < l) ∧
      (c.Getter = false →
        env.now + LIFETIME_THRESHOLD.val.toNat < env'.instanceLiveUntil) := by
  have ha := Call.accessed h
  refine ⟨fun k hk hsome => ?_, fun hgetter => ?_⟩
  · have hwrite : c.access env r k = .write := by
      rcases hk with hk | hchanged
      · exact hk
      · by_contra hnot
        apply hchanged
        apply Call.get_eq h hnot
        intro hremove
        have hlive := ha.liveUntil_eq k
        rw [hremove, Access.lifetime_remove] at hlive
        rw [← Env.liveUntil_isSome, hlive] at hsome
        cases hsome
    have hlive := ha.liveUntil_eq k
    rw [hwrite, Access.lifetime_write] at hlive
    exact ⟨_, hlive, lt_renewed ..⟩
  · rw [ha.instance_eq, hgetter]
    exact lt_renewed ..

/-- An administrator, then a juror with a stake, an escrow, and one more ledger. -/
def dayOld : List (Action Nat (List UInt8)) :=
  [.call (fun a => a == 1) (.initialise 1 9 DEFAULT_SLASH_BPS),
    .call (fun a => a == 3) (.stake 3 (.ofNat 50)),
    .call (fun a => a == 2) (.createEscrow 2 4 (.ofNat 100)),
    .close (.ofNat 2)]

/-- A dispute renews the escrow record it rewrites. -/
theorem ttl_floor_sample : ∃ (env env' : Env Host.plain) (l : Nat), env.now = 2 ∧
    (Call.raiseDispute 1 4 "late" : Call Nat (List UInt8)).exec (fun a => a == 4) env =
      .ok ((), env') ∧
    env'.liveUntil (.escrow 1) = some l ∧ 2 + 518400 < l := by
  rcases Env.exists_of_plays dayOld
    (fun _ env => decide (env.now = 2) &&
      ((Call.raiseDispute 1 4 "late" : Call Nat (List UInt8)).exec (fun a => a == 4)
        env).toOption.any fun p : Unit × Env Host.plain => (p.2.get (.escrow 1)).isSome)
    (by decide +kernel) with ⟨h, env, hs, hend⟩
  simp only [Bool.and_eq_true, Option.any_eq_true, decide_eq_true_eq] at hend
  rcases hend with ⟨hnow, ⟨u, env'⟩, hcall, hsome⟩
  have hcall := toOption_eq_some.mp hcall
  have hfloor := (ttl_floor hcall).1 (.escrow 1) (.inl (by simp [Call.access])) hsome
  rw [hnow] at hfloor
  rcases hfloor with ⟨l, hl, hlt⟩
  exact ⟨env, env', l, hnow, hcall, hl, hlt⟩

/-! ### The watermark of the maintenance calls -/

/-- The ledger the maintenance calls return. -/
theorem saturatingAdd_bump_val (n : U32) :
    (n.saturatingAdd PERSISTENT_BUMP_AMOUNT).val.toNat =
      min 4294967295 (n.val.toNat + 1555200) := by
  have hlo := n.lo_le
  show (max 0 (min 4294967295 (n.val + 1555200))).toNat = _
  omega

/-- A lifetime an extension at `now` brings to the watermark: due for it, or there
    already. -/
def Promised (now l : Nat) : Prop :=
  l ≤ now + LIFETIME_THRESHOLD.val.toNat ∨
    min 4294967295 (now + PERSISTENT_BUMP_AMOUNT.val.toNat) ≤ l

theorem promised_iff (now l : Nat) :
    min 4294967295 (now + 1555200) ≤ renewed now l ↔ Promised now l := by
  unfold Promised
  rw [LIFETIME_THRESHOLD_toNat]
  have hbump : PERSISTENT_BUMP_AMOUNT.val.toNat = 1555200 := rfl
  rw [hbump]
  rcases Nat.lt_or_ge (now + 518400) l with h | h
  · rw [renewed_of_lt h]
    omega
  · rw [renewed_of_le h]
    omega

/-- The entries of the touched keys, and the instance, live until the ledger `n`. -/
structure Env.LivesUntil (env : Env H) (touched : DataKey A → Prop) (n : U32) : Prop where
  entries : ∀ k, touched k → ∀ l, env.liveUntil k = some l → n.val.toNat ≤ l
  inst : n.val.toNat ≤ env.instanceLiveUntil

/-- An extension brings the entries of the touched keys, and the instance, to the
    watermark. -/
structure Env.Due (env : Env H) (touched : DataKey A → Prop) : Prop where
  entries : ∀ k, touched k → ∀ l, env.liveUntil k = some l → Promised env.now l
  inst : Promised env.now env.instanceLiveUntil

theorem Env.Accessed.livesUntil_iff {touched : DataKey A → Prop} {a : DataKey A → Access}
    (ha : env.Accessed true a env') (ht : ∀ k, touched k → a k = .extend) :
    env'.LivesUntil touched (env.sequence.saturatingAdd PERSISTENT_BUMP_AMOUNT) ↔
      env.Due touched := by
  have hmark := saturatingAdd_bump_val env.sequence
  have hinst : env'.instanceLiveUntil = renewed env.now env.instanceLiveUntil := ha.instance_eq
  have hlive {k : DataKey A} (hk : touched k) :
      env'.liveUntil k = (env.liveUntil k).map (renewed env.now) := by
    rw [ha.liveUntil_eq, ht k hk, Access.lifetime_extend]
  constructor
  · intro hlives
    refine ⟨fun k hk l hl => ?_, ?_⟩
    · have hafter : env'.liveUntil k = some (renewed env.now l) := by
        rw [hlive hk, hl]
        rfl
      exact (promised_iff _ _).mp (hmark ▸ hlives.entries k hk _ hafter)
    · exact (promised_iff _ _).mp (hinst ▸ hmark ▸ hlives.inst)
  · intro hdue
    refine ⟨fun k hk l hl => ?_, ?_⟩
    · rw [hlive hk] at hl
      rcases Option.map_eq_some_iff.mp hl with ⟨l₀, hl₀, rfl⟩
      rw [hmark]
      exact (promised_iff _ _).mpr (hdue.entries k hk l₀ hl₀)
    · rw [hmark, hinst]
      exact (promised_iff _ _).mpr hdue.inst

theorem bumpEscrowTtl_returns {n : U32}
    (h : (bumpEscrowTtl id : Op H U32) auth env = .ok (n, env')) :
    n = env.sequence.saturatingAdd PERSISTENT_BUMP_AMOUNT := by
  have hsequence := (bumpEscrowTtl_accessed h).sequence_eq
  simp only [bumpEscrowTtl, persistentGet, extendInstanceTtl, extendPersistentTtl, ledgerSequence,
    publish, bind_eq_ok, okOr_eq_ok, reads_eq_ok, modify_eq_ok, pure_eq_ok, ↓existsAndEq, true_and,
    exists_const] at h
  rcases h with ⟨e, he, _, env₁, hms, _, env₂, hd, rfl, rfl⟩
  rw [← hsequence]
  rfl

theorem bumpJurorStakeTtl_returns {juror : A} {n : U32}
    (h : (bumpJurorStakeTtl juror : Op H U32) auth env = .ok (n, env')) :
    n = env.sequence.saturatingAdd PERSISTENT_BUMP_AMOUNT := by
  have hsequence := (bumpJurorStakeTtl_accessed h).sequence_eq
  simp only [bumpJurorStakeTtl, persistentHas, extendInstanceTtl, extendPersistentTtl,
    ledgerSequence, publish, bind_eq_ok, reads_eq_ok, failIf_eq_ok, modify_eq_ok, pure_eq_ok,
    ↓existsAndEq, true_and, exists_const] at h
  rcases h with ⟨-, rfl, rfl⟩
  rw [← hsequence]
  rfl

/-- What a maintenance call returns is the truth about what it touches exactly when
    everything it touches was due for an extension or lived that long before. -/
theorem watermark_honest_iff :
    (∀ {id : U64} {n : U32}, (bumpEscrowTtl id : Op H U32) auth env = .ok (n, env') →
      (env'.LivesUntil (fun k => env.bumpsKey id k = true) n ↔
        env.Due fun k => env.bumpsKey id k = true)) ∧
      ∀ {juror : A} {n : U32}, (bumpJurorStakeTtl juror : Op H U32) auth env = .ok (n, env') →
        (env'.LivesUntil (fun k => k = .jurorStake juror ∨ k = .jurorSlashCount juror) n ↔
          env.Due fun k => k = .jurorStake juror ∨ k = .jurorSlashCount juror) := by
  refine ⟨fun h => ?_, fun h => ?_⟩
  · rw [bumpEscrowTtl_returns h]
    exact (bumpEscrowTtl_accessed h).livesUntil_iff fun k hk => if_pos hk
  · rw [bumpJurorStakeTtl_returns h]
    exact (bumpJurorStakeTtl_accessed h).livesUntil_iff fun k hk => if_pos hk

/-- A juror with a stake, an escrow, and all but a threshold of their lifetimes gone. -/
def dueOld : List (Action Nat (List UInt8)) := dayOld.take 3 ++ [.close (.ofNat 1036801)]

/-- Then both maintenance calls keep their promise. -/
theorem watermark_honest_iff_sample : ∃ (h : History Host.plain) (env : Env Host.plain),
    SingleInit Env.deployed h env ∧
      (∃ env' : Env Host.plain, (bumpEscrowTtl 1 : Op Host.plain U32) (fun _ => false) env =
          .ok (.ofNat 2592001, env') ∧
        env'.LivesUntil (fun k => env.bumpsKey 1 k = true) (.ofNat 2592001)) ∧
      ∃ env' : Env Host.plain, (bumpJurorStakeTtl 3 : Op Host.plain U32) (fun _ => false) env =
          .ok (.ofNat 2592001, env') ∧
        env'.LivesUntil (fun k => k = .jurorStake 3 ∨ k = .jurorSlashCount 3)
          (.ofNat 2592001) := by
  rcases Env.exists_of_plays dueOld
    (fun _ env => decide (env.now = 1036801 ∧ env.instanceLiveUntil = 1555201 ∧
        env.liveUntil (.escrow 1) = some 1555201 ∧
        env.liveUntil (.escrowFeeConfig 1) = some 1555201 ∧
        env.liveUntil (.escrowReleased 1) = none ∧ env.get (.dispute 1) = none ∧
        (env.get (.escrow 1)).map (fun e => e.milestones.toList) = some [] ∧
        env.liveUntil (.jurorStake 3) = some 1555201 ∧
        env.liveUntil (.jurorSlashCount 3) = none) &&
      ((bumpEscrowTtl 1 : Op Host.plain U32) (fun _ => false) env).toOption.any
        (fun p : U32 × Env Host.plain => decide (p.1 = .ofNat 2592001)) &&
      ((bumpJurorStakeTtl 3 : Op Host.plain U32) (fun _ => false) env).toOption.any
        fun p : U32 × Env Host.plain => decide (p.1 = .ofNat 2592001))
    (by decide +kernel) with ⟨h, env, hs, hend⟩
  simp only [Bool.and_eq_true, Option.any_eq_true, decide_eq_true_eq] at hend
  rcases hend with ⟨⟨⟨hnow, hinst, hescrow, hfee, hreleased, hdispute, hmilestones, hstake, hcount⟩,
    ⟨n₁, env₁⟩, h₁, rfl⟩, ⟨n₂, env₂⟩, h₂, rfl⟩
  have hdue : Promised env.now 1555201 := .inl (by rw [hnow]; decide)
  have h₁ := toOption_eq_some.mp h₁
  have h₂ := toOption_eq_some.mp h₂
  refine ⟨h, env, hs, ⟨env₁, h₁, (watermark_honest_iff.1 h₁).mpr ⟨?_, hinst ▸ hdue⟩⟩, env₂, h₂,
    (watermark_honest_iff.2 h₂).mpr ⟨?_, hinst ▸ hdue⟩⟩
  · intro k hk l hl
    cases k with
    | escrow i =>
        cases of_decide_eq_true hk
        cases hescrow.symm.trans hl
        exact hdue
    | escrowFeeConfig i =>
        cases of_decide_eq_true hk
        cases hfee.symm.trans hl
        exact hdue
    | escrowReleased i =>
        cases of_decide_eq_true hk
        cases hreleased.symm.trans hl
    | milestoneReleased key =>
        rcases Option.map_eq_some_iff.mp hmilestones with ⟨e, he, hnone⟩
        have hlt : key.escrowId = 1 ∧ key.milestoneIndex.val < 0 := by
          simpa [Env.bumpsKey, he, hnone] using hk
        exact absurd key.milestoneIndex.lo_le (not_le.mpr hlt.2)
    | dispute i => simp [Env.bumpsKey, hdispute] at hk
    | disputeVoters i => simp [Env.bumpsKey, hdispute] at hk
    | _ => cases hk
  · rintro k (rfl | rfl) l hl
    · cases hstake.symm.trans hl
      exact hdue
    · cases hcount.symm.trans hl

/-- A ledger after its creation the escrow lives until 1555201, and `bump_escrow_ttl`
    returns 1555202; for the juror it is the same. -/
theorem watermark_early : ∃ (h : History Host.plain) (env : Env Host.plain),
    SingleInit Env.deployed h env ∧
      (∃ env' : Env Host.plain,
        (bumpEscrowTtl 1 : Op Host.plain U32) (fun _ => false) env =
          .ok (.ofNat 1555202, env') ∧
        env'.liveUntil (.escrow 1) = some 1555201 ∧
        ¬ env'.LivesUntil (fun k => env.bumpsKey 1 k = true) (.ofNat 1555202)) ∧
      ∃ env' : Env Host.plain,
        (bumpJurorStakeTtl 3 : Op Host.plain U32) (fun _ => false) env =
          .ok (.ofNat 1555202, env') ∧
        env'.liveUntil (.jurorStake 3) = some 1555201 ∧
        ¬ env'.LivesUntil (fun k => k = .jurorStake 3 ∨ k = .jurorSlashCount 3)
          (.ofNat 1555202) := by
  rcases Env.exists_of_plays dayOld
    (fun _ env =>
      ((bumpEscrowTtl 1 : Op Host.plain U32) (fun _ => false) env).toOption.any
        (fun p : U32 × Env Host.plain => decide (p.1 = .ofNat 1555202) &&
          decide (p.2.liveUntil (.escrow 1) = some 1555201)) &&
      ((bumpJurorStakeTtl 3 : Op Host.plain U32) (fun _ => false) env).toOption.any
        fun p : U32 × Env Host.plain => decide (p.1 = .ofNat 1555202) &&
          decide (p.2.liveUntil (.jurorStake 3) = some 1555201))
    (by decide +kernel) with ⟨h, env, hs, hend⟩
  simp only [Bool.and_eq_true, Option.any_eq_true, decide_eq_true_eq] at hend
  rcases hend with ⟨⟨⟨n₁, env₁⟩, h₁, rfl, hlive₁⟩, ⟨n₂, env₂⟩, h₂, rfl, hlive₂⟩
  refine ⟨h, env, hs, ⟨env₁, toOption_eq_some.mp h₁, hlive₁, ?_⟩, env₂,
    toOption_eq_some.mp h₂, hlive₂, ?_⟩
  · intro hlives
    have hle := hlives.entries _ (by simp [Env.bumpsKey]) _ hlive₁
    exact absurd hle (by decide)
  · intro hlives
    have hle := hlives.entries _ (.inl rfl) _ hlive₂
    exact absurd hle (by decide)

end TrustFlow
