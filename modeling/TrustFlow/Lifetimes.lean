import TrustFlow.Calls

/-!
# Lifetimes

The contract's entries archive when the ledger passes the one they live until,
and every call renews what it works on.  `Call.access` says, key by key, what a
call that returned did to an entry: it left it, extended it where it was, wrote
it and extended it, or removed it.  `Call.liveUntil_eq` and
`Call.instanceLiveUntil_eq` are the one specification of all entrypoints the
results on lifetimes use.
-/

namespace TrustFlow

open Invocation Transition

/-- The index of a milestone the vector has, found by the loop. -/
theorem mem_milestone_keys {A : Type} {ms : Vec Milestone} {key : MilestoneKey} {id : U64} :
    (∃ n ∈ List.range' 0 ms.toList.length,
      (.milestoneReleased key : DataKey A) = .milestoneReleased ⟨id, U32.ofNat n⟩) ↔
      key.escrowId = id ∧ key.milestoneIndex.val < ms.toList.length := by
  have hlength := ms.length_le
  constructor
  · rintro ⟨n, hn, hkey⟩
    have hlt : n < ms.toList.length := by simpa using List.mem_range'_1.mp hn
    cases hkey
    refine ⟨rfl, ?_⟩
    rw [U32.ofNat_val (by omega)]
    omega
  · rintro ⟨rfl, hlt⟩
    have hlo := key.milestoneIndex.lo_le
    refine ⟨key.milestoneIndex.val.toNat, List.mem_range'_1.mpr ⟨by omega, by omega⟩, ?_⟩
    have hindex : U32.ofNat key.milestoneIndex.val.toNat = key.milestoneIndex := by
      apply BoundedInt.ext
      rw [U32.ofNat_val (by omega)]
      omega
    rw [hindex]

variable {A D : Type} [DecidableEq A] {H : Host A D}

/-! ### Renewal -/

@[simp] theorem LIFETIME_THRESHOLD_toNat : LIFETIME_THRESHOLD.val.toNat = 518400 := rfl
@[simp] theorem BUMP_AMOUNT_toNat : BUMP_AMOUNT.val.toNat = 1555200 := rfl

/-- The lifetime `l` after an extension of the contract at `now`. -/
def renewed (now l : Nat) : Nat :=
  extended now LIFETIME_THRESHOLD.val.toNat BUMP_AMOUNT.val.toNat l

variable {now l : Nat}

theorem renewed_of_le (h : l ≤ now + 518400) : renewed now l = now + 1555200 := if_pos h

theorem renewed_of_lt (h : now + 518400 < l) : renewed now l = l := if_neg (by
  rw [LIFETIME_THRESHOLD_toNat]
  omega)

/-- A renewal shortens no lifetime. -/
theorem le_renewed (now l : Nat) : l ≤ renewed now l := by
  rcases Nat.lt_or_ge (now + 518400) l with h | h
  · rw [renewed_of_lt h]
  · rw [renewed_of_le h]
    omega

/-- A renewal leaves more than the threshold. -/
theorem lt_renewed (now l : Nat) : now + 518400 < renewed now l := by
  rcases Nat.lt_or_ge (now + 518400) l with h | h
  · rwa [renewed_of_lt h]
  · rw [renewed_of_le h]
    omega

@[simp] theorem renewed_renewed (now l : Nat) : renewed now (renewed now l) = renewed now l :=
  renewed_of_lt (lt_renewed now l)

/-! ### The lifetimes of an environment -/

namespace Env

variable (env : Env H)

/-- The last ledger the entry under a key is alive at. -/
def liveUntil (k : DataKey A) : Option Nat := env.persistent.liveUntil k

theorem liveUntil_isSome (k : DataKey A) : (env.liveUntil k).isSome = (env.get k).isSome :=
  env.persistent.liveUntil_isSome k

section Updates

variable (k : DataKey A) (v : DataKey.Val A D k) (topics : List Topic) (data : EventData A)
  (p : Purse H.tokens)

@[simp] theorem now_setInstance : (env.setInstance k v).now = env.now := rfl
@[simp] theorem now_setPersistent : (env.setPersistent k v).now = env.now := rfl
@[simp] theorem now_removePersistent : (env.removePersistent k).now = env.now := rfl
@[simp] theorem now_extendInstanceTtl : env.extendInstanceTtl.now = env.now := rfl
@[simp] theorem now_extendPersistentTtl : (env.extendPersistentTtl k).now = env.now := rfl
@[simp] theorem now_publish : (env.publish topics data).now = env.now := rfl
@[simp] theorem now_setPurse : (env.setPurse p).now = env.now := rfl

@[simp] theorem instanceLiveUntil_setInstance :
    (env.setInstance k v).instanceLiveUntil = env.instanceLiveUntil := rfl
@[simp] theorem instanceLiveUntil_removeInstance :
    (env.removeInstance k).instanceLiveUntil = env.instanceLiveUntil := rfl
@[simp] theorem instanceLiveUntil_setPersistent :
    (env.setPersistent k v).instanceLiveUntil = env.instanceLiveUntil := rfl
@[simp] theorem instanceLiveUntil_removePersistent :
    (env.removePersistent k).instanceLiveUntil = env.instanceLiveUntil := rfl
@[simp] theorem instanceLiveUntil_extendInstanceTtl :
    env.extendInstanceTtl.instanceLiveUntil = renewed env.now env.instanceLiveUntil := rfl
@[simp] theorem instanceLiveUntil_extendPersistentTtl :
    (env.extendPersistentTtl k).instanceLiveUntil = env.instanceLiveUntil := rfl
@[simp] theorem instanceLiveUntil_publish :
    (env.publish topics data).instanceLiveUntil = env.instanceLiveUntil := rfl
@[simp] theorem instanceLiveUntil_setPurse :
    (env.setPurse p).instanceLiveUntil = env.instanceLiveUntil := rfl

variable (k' : DataKey A)

@[simp] theorem liveUntil_setInstance : (env.setInstance k v).liveUntil k' = env.liveUntil k' := rfl
@[simp] theorem liveUntil_removeInstance :
    (env.removeInstance k).liveUntil k' = env.liveUntil k' := rfl
@[simp] theorem liveUntil_extendInstanceTtl :
    env.extendInstanceTtl.liveUntil k' = env.liveUntil k' := rfl
@[simp] theorem liveUntil_publish : (env.publish topics data).liveUntil k' = env.liveUntil k' := rfl
@[simp] theorem liveUntil_setPurse : (env.setPurse p).liveUntil k' = env.liveUntil k' := rfl

@[simp] theorem liveUntil_setPersistent : (env.setPersistent k v).liveUntil k' =
    if k' = k then some ((env.liveUntil k').getD (env.now + H.defaultTtl))
    else env.liveUntil k' := by
  split
  · next h =>
    subst h
    exact Persistent.liveUntil_set_self ..
  · next h => exact Persistent.liveUntil_set_of_ne _ _ _ h

@[simp] theorem liveUntil_removePersistent : (env.removePersistent k).liveUntil k' =
    if k' = k then none else env.liveUntil k' := by
  split
  · next h =>
    subst h
    exact Persistent.liveUntil_remove_self ..
  · next h => exact Persistent.liveUntil_remove_of_ne _ h

@[simp] theorem liveUntil_extendPersistentTtl : (env.extendPersistentTtl k).liveUntil k' =
    if k' = k then (env.liveUntil k').map (renewed env.now) else env.liveUntil k' := by
  have hnone (h : ¬ env.persistent.has k = true) : env.liveUntil k = none := by
    rw [Persistent.has_eq_isSome_get, ← Persistent.liveUntil_isSome] at h
    exact Option.not_isSome_iff_eq_none.mp h
  unfold extendPersistentTtl
  by_cases h : k' = k
  · subst h
    rw [if_pos rfl]
    split
    · exact Persistent.liveUntil_bump_self ..
    · next hhas =>
      show env.liveUntil k' = _
      rw [hnone hhas]
      rfl
  · rw [if_neg h]
    split
    · exact Persistent.liveUntil_bump_of_ne _ _ _ _ h
    · rfl

end Updates

end Env

/-! ### What a call does to an entry -/

/-- An entry is left as it is, extended where it exists, written and extended,
    or removed. -/
inductive Access where
  | keep
  | extend
  | write
  | remove
deriving DecidableEq

/-- The lifetime an access at `now` leaves; `birth` is that of an entry just made. -/
def Access.lifetime (now birth : Nat) (l : Option Nat) : Access → Option Nat
  | .keep => l
  | .extend => l.map (renewed now)
  | .write => some (renewed now (l.getD birth))
  | .remove => none

section Lifetime

variable {birth : Nat} {o : Option Nat}

@[simp] theorem Access.lifetime_keep : Access.keep.lifetime now birth o = o := rfl
@[simp] theorem Access.lifetime_extend :
    Access.extend.lifetime now birth o = o.map (renewed now) := rfl
@[simp] theorem Access.lifetime_write :
    Access.write.lifetime now birth o = some (renewed now (o.getD birth)) := rfl
@[simp] theorem Access.lifetime_remove : Access.remove.lifetime now birth o = none := rfl

end Lifetime

/-- Whether `bump_escrow_ttl` extends a key. -/
def Env.bumpsKey (env : Env H) (id : U64) : DataKey A → Bool
  | .escrow i | .escrowFeeConfig i | .escrowReleased i => i = id
  | .milestoneReleased ⟨i, m⟩ =>
      i = id && (env.get (.escrow id)).any fun e => decide (m.val < e.milestones.toList.length)
  | .dispute i | .disputeVoters i => i = id && (env.get (.dispute id)).isSome
  | _ => false

/-- What a call that returned `r` did to the entry under `k`. -/
def Call.access (env : Env H) : (c : Call A D) → (r : c.Result) → DataKey A → Access
  | .stake juror _, _, k => if k = .jurorStake juror then .write else .keep
  | .unstake juror _, _, k => if k = .jurorStake juror then .write else .keep
  | .bumpJurorStakeTtl juror, _, k =>
      if k = .jurorStake juror ∨ k = .jurorSlashCount juror then .extend else .keep
  | .createEscrow .., id, k => if k = .escrow id ∨ k = .escrowFeeConfig id then .write else .keep
  | .initEscrow .., id, k => if k = .escrow id ∨ k = .escrowFeeConfig id then .write else .keep
  | .releaseMilestoneTranche id i _ _, _, k =>
      if k = .escrow id ∨ k = .milestoneReleased ⟨id, i⟩ ∨ k = .escrowReleased id then .write
      else if k = .escrowFeeConfig id then .extend
      else .keep
  | .raiseDispute id _ _, _, k =>
      if k = .escrow id ∨ k = .dispute id then .write
      else if k = .escrowReleased id then .extend
      else .keep
  | .commitVote id juror _, _, k =>
      if k = .jurorCommit ⟨id, juror⟩ then .write
      else if k = .dispute id then .extend
      else .keep
  | .revealVote id juror _ _, _, k =>
      if k = .jurorVote ⟨id, juror⟩ ∨ k = .disputeVoters id then .write
      else if k = .jurorCommit ⟨id, juror⟩ then .remove
      else if k = .dispute id then .extend
      else .keep
  | .resolveDispute id, _, k =>
      if k = .dispute id ∨ k = .escrow id then .write
      else if ∃ juror ∈ env.book.minority id, k = .jurorStake juror ∨ k = .jurorSlashCount juror
      then .write
      else .keep
  | .bumpEscrowTtl id, _, k => if env.bumpsKey id k then .extend else .keep
  | _, _, _ => .keep

/-- The calls that only read; all others renew the instance. -/
def Call.Getter : Call A D → Bool
  | .getFeeBps | .getTreasury | .getPauser | .isPaused | .getStake _ | .getSlashCount _ => true
  | _ => false

variable {auth : A → Bool} {env env' : Env H} {u : Unit} {id : U64}

/-- The entries were accessed as `a` says at the ledger of `env`, and the
    instance renewed if `inst` says so. -/
structure Env.Accessed (env : Env H) (inst : Bool) (a : DataKey A → Access) (env' : Env H) :
    Prop where
  sequence_eq : env'.sequence = env.sequence
  instance_eq : env'.instanceLiveUntil =
    if inst = true then renewed env.now env.instanceLiveUntil else env.instanceLiveUntil
  liveUntil_eq : ∀ k, env'.liveUntil k =
    (a k).lifetime env.now (env.now + H.defaultTtl) (env.liveUntil k)

theorem Env.Accessed.now_eq {inst : Bool} {a : DataKey A → Access} (h : env.Accessed inst a env') :
    env'.now = env.now := by
  rw [Env.now, h.sequence_eq]
  rfl

/-! ### The loops -/

/-- The loop over the minority writes two entries for each voter in it. -/
theorem slashVoters_accessed {bps : U32} {ruling : Bool} {voters : List A}
    (h : (slashVoters id bps ruling voters : Op H Unit) auth env = .ok (u, env')) :
    env.Accessed false (fun k =>
      if ∃ juror ∈ voters.filter fun juror => env.voteOf id juror != ruling,
        k = .jurorStake juror ∨ k = .jurorSlashCount juror then .write else .keep) env' := by
  induction voters generalizing env with
  | nil =>
      simp only [slashVoters, pure_eq_ok] at h
      rcases h with ⟨-, rfl⟩
      exact ⟨rfl, rfl, fun k => by simp⟩
  | cons voter voters ih =>
      simp only [slashVoters, bind_eq_ok, reads_eq_ok, ite_eq_ok, ↓existsAndEq, true_and] at h
      rcases h with ⟨hne, _, env₁, hslash, hrest⟩ | ⟨heq, hrest⟩
      · rcases slashVoter_eq_ok.mp hslash with ⟨remaining, -, count, -, rfl⟩
        have hvote : (env.afterSlash id voter (slashAmount (env.stakeOf voter) bps) remaining
            count).voteOf id = env.voteOf id := by
          funext juror
          simp [Env.afterSlash, Env.voteOf]
        have hrest := ih hrest
        rw [hvote] at hrest
        refine ⟨by simpa [Env.afterSlash] using hrest.sequence_eq,
          by simpa [Env.afterSlash] using hrest.instance_eq, fun k => ?_⟩
        have hlive : (env.afterSlash id voter (slashAmount (env.stakeOf voter) bps) remaining
            count).liveUntil k =
            (if k = .jurorStake voter ∨ k = .jurorSlashCount voter then Access.write
              else .keep).lifetime env.now (env.now + H.defaultTtl) (env.liveUntil k) := by
          cases k <;> simp [Env.afterSlash] <;> split <;> simp
        rw [hrest.liveUntil_eq, hlive, List.filter_cons_of_pos (by simpa using hne)]
        simp only [List.mem_cons, exists_eq_or_imp]
        -- writing an entry twice at one ledger is writing it once
        by_cases hv : k = .jurorStake voter ∨ k = .jurorSlashCount voter
        · simp only [hv, true_or, if_true, Access.lifetime_write]
          split <;> simp [Env.afterSlash]
        · simp only [hv, false_or, if_false, Access.lifetime_keep]
          simp [Env.afterSlash]
      · have hrest := ih hrest
        rw [List.filter_cons_of_neg (by simpa using heq)]
        exact hrest

/-- The loop over the milestones extends their counters. -/
theorem bumpMilestones_accessed {ms : List Milestone} {i : Nat}
    (h : (bumpMilestones id ms i : Op H Unit) auth env = .ok (u, env')) :
    env.Accessed false (fun k =>
      if ∃ n ∈ List.range' i ms.length, k = .milestoneReleased ⟨id, U32.ofNat n⟩ then .extend
      else .keep) env' := by
  induction ms generalizing env i with
  | nil =>
      simp only [bumpMilestones, pure_eq_ok] at h
      rcases h with ⟨-, rfl⟩
      exact ⟨rfl, rfl, fun k => by simp⟩
  | cons m ms ih =>
      simp only [bumpMilestones, extendPersistentTtl, bind_eq_ok, modify_eq_ok] at h
      rcases h with ⟨_, env₁, rfl, hrest⟩
      have hrest := ih hrest
      refine ⟨by simpa using hrest.sequence_eq, by simpa using hrest.instance_eq, fun k => ?_⟩
      rw [hrest.liveUntil_eq, Env.liveUntil_extendPersistentTtl, List.length_cons,
        List.range'_succ]
      simp only [List.mem_cons, exists_eq_or_imp]
      by_cases hk : k = .milestoneReleased ⟨id, U32.ofNat i⟩
      · simp only [hk, true_or, if_true, Access.lifetime_extend]
        split <;> simp [Function.comp_def]
      · simp only [hk, false_or, if_false, Env.now_extendPersistentTtl]

theorem bumpDispute_accessed (h : (bumpDispute id : Op H Unit) auth env = .ok (u, env')) :
    env.Accessed false (fun k =>
      if (k = .dispute id ∨ k = .disputeVoters id) ∧ (env.get (.dispute id)).isSome = true then
        .extend
      else .keep) env' := by
  simp only [bumpDispute, persistentHas, extendPersistentTtl, bind_eq_ok, reads_eq_ok, ite_eq_ok,
    modify_eq_ok, pure_eq_ok, ↓existsAndEq, true_and] at h
  rcases h with ⟨hd, -, ⟨-, rfl⟩ | ⟨hvoters, rfl⟩⟩ | ⟨hd, rfl⟩
  · refine ⟨by simp, by simp, fun k => ?_⟩
    cases k <;> simp [hd] <;> split <;> simp
  · -- extending an entry that does not exist is no extension
    have hnone : env.liveUntil (.disputeVoters id) = none := by
      rw [Env.get_extendPersistentTtl, ← Env.liveUntil_isSome] at hvoters
      exact Option.not_isSome_iff_eq_none.mp hvoters
    refine ⟨by simp, by simp, fun k => ?_⟩
    cases k <;> simp [hd] <;> split <;> simp [*]
  · refine ⟨rfl, rfl, fun k => ?_⟩
    rw [if_neg fun hk => hd hk.2]
    rfl

/-! ### The calls -/

theorem bumpJurorStakeTtl_accessed {juror : A} {n : U32}
    (h : (bumpJurorStakeTtl juror : Op H U32) auth env = .ok (n, env')) :
    env.Accessed true (fun k =>
      if k = .jurorStake juror ∨ k = .jurorSlashCount juror then .extend else .keep) env' := by
  simp only [bumpJurorStakeTtl, persistentHas, extendInstanceTtl, extendPersistentTtl,
    ledgerSequence, publish, bind_eq_ok, reads_eq_ok, failIf_eq_ok, modify_eq_ok, pure_eq_ok,
    ↓existsAndEq, true_and, exists_const] at h
  rcases h with ⟨-, -, rfl⟩
  refine ⟨by simp, by simp, fun k => ?_⟩
  cases k <;> simp <;> split <;> simp

theorem bumpEscrowTtl_accessed {n : U32}
    (h : (bumpEscrowTtl id : Op H U32) auth env = .ok (n, env')) :
    env.Accessed true (fun k => if env.bumpsKey id k then .extend else .keep) env' := by
  simp only [bumpEscrowTtl, persistentGet, extendInstanceTtl, extendPersistentTtl, ledgerSequence,
    publish, bind_eq_ok, okOr_eq_ok, reads_eq_ok, modify_eq_ok, pure_eq_ok, ↓existsAndEq, true_and,
    exists_const] at h
  rcases h with ⟨e, he, _, env₁, hms, _, env₂, hd, -, rfl⟩
  have hdispute : env₁.book.dispute id = env.book.dispute id := by
    rw [bumpMilestones_book hms]
    simp
  have hdispute : env₁.get (.dispute id) = env.get (.dispute id) := hdispute
  have hms := bumpMilestones_accessed hms
  have hd := bumpDispute_accessed hd
  have hnow : env₁.now = env.now := hms.now_eq
  refine ⟨?_, ?_, fun k => ?_⟩
  · simp [hd.sequence_eq, hms.sequence_eq]
  · simp [hd.instance_eq, hms.instance_eq]
  rw [Env.liveUntil_publish, hd.liveUntil_eq, hms.liveUntil_eq, hdispute, hnow]
  cases k with
  | milestoneReleased key =>
      rcases key with ⟨i, m⟩
      simp only [mem_milestone_keys]
      simp [Env.bumpsKey, he]
  | escrow i | escrowFeeConfig i | escrowReleased i =>
      by_cases hi : i = id <;> simp [Env.bumpsKey, hi]
  | _ => simp [Env.bumpsKey]

/-- Every call that returns accesses the entries as `Call.access` says. -/
theorem Call.accessed [DecidableEq D] {c : Call A D} {r : c.Result}
    (h : c.exec auth env = .ok (r, env')) : env.Accessed (!c.Getter) (c.access env r) env' := by
  cases c with
  | initialise admin token slashBps =>
      rcases initialise_eq_ok.mp h with ⟨-, -, rfl⟩
      exact ⟨by simp, by simp [Call.Getter], fun k => by simp [Call.access]⟩
  | setFeeBps caller n =>
      rcases setFeeBps_eq_ok.mp h with ⟨-, -, -, rfl⟩
      exact ⟨rfl, rfl, fun _ => rfl⟩
  | setTreasury caller treasury =>
      rcases setTreasury_eq_ok.mp h with ⟨-, -, rfl⟩
      exact ⟨rfl, rfl, fun _ => rfl⟩
  | setPauser caller pauser =>
      rcases setPauser_eq_ok.mp h with ⟨-, -, rfl⟩
      exact ⟨rfl, rfl, fun _ => rfl⟩
  | revokePauser caller =>
      rcases revokePauser_eq_ok.mp h with ⟨-, -, rfl⟩
      exact ⟨rfl, rfl, fun _ => rfl⟩
  | pause caller =>
      rcases pause_eq_ok.mp h with ⟨-, -, rfl⟩
      unfold Env.setPaused
      split <;> exact ⟨rfl, rfl, fun _ => rfl⟩
  | unpause caller =>
      rcases unpause_eq_ok.mp h with ⟨-, -, rfl⟩
      unfold Env.setPaused
      split <;> exact ⟨rfl, rfl, fun _ => rfl⟩
  | stake juror amount =>
      rcases stake_eq_ok.mp h with ⟨-, -, -, _, -, p, -, total, -, rfl⟩
      refine ⟨by simp [Env.afterStake], by simp [Env.afterStake, Call.Getter], fun k => ?_⟩
      cases k <;> simp [Env.afterStake, Call.access]
      split <;> simp
  | unstake juror amount =>
      rcases unstake_eq_ok.mp h with ⟨-, -, -, _, -, p, -, total, -, rfl⟩
      refine ⟨by simp [Env.afterStake], by simp [Env.afterStake, Call.Getter], fun k => ?_⟩
      cases k <;> simp [Env.afterStake, Call.access]
      split <;> simp
  | createEscrow depositor beneficiary amount =>
      rcases createEscrow_eq_ok.mp h with ⟨-, -, -, hlock⟩
      rcases lockEscrow_eq_ok.mp hlock with ⟨_, -, p, -, -, treasury, -, rfl⟩
      refine ⟨by simp [Env.afterLock], by simp [Env.afterLock, Call.Getter], fun k => ?_⟩
      cases k <;> simp [Env.afterLock, Call.access]
      all_goals split <;> simp
  | initEscrow depositor beneficiary milestones =>
      rcases initEscrow_eq_ok.mp h with ⟨-, -, amount, -, -, -, env₁, hlock, rfl⟩
      rcases lockEscrow_eq_ok.mp hlock with ⟨_, -, p, -, -, treasury, -, rfl⟩
      refine ⟨by simp [Env.afterLock], by simp [Env.afterLock, Call.Getter], fun k => ?_⟩
      cases k <;> simp [Env.afterLock, Call.access]
      all_goals split <;> simp
  | releaseMilestoneTranche id i gross caller =>
      rcases releaseMilestoneTranche_eq_ok.mp h with ⟨t, -, p₁, -, p₂, -, rfl⟩
      refine ⟨by simp [Env.afterRelease], by simp [Env.afterRelease, Call.Getter], fun k => ?_⟩
      cases k <;> simp [Env.afterRelease, Call.access] <;> split <;> simp
  | raiseDispute id caller reason =>
      rcases raiseDispute_eq_ok.mp h with ⟨-, -, e, -, -, -, rfl⟩
      refine ⟨by simp [Env.afterRaise], by simp [Env.afterRaise, Call.Getter], fun k => ?_⟩
      cases k <;> simp [Env.afterRaise, Call.access] <;> split <;> simp
  | commitVote id juror c =>
      rcases commitVote_eq_ok.mp h with ⟨-, -, -, d, -, -, -, -, rfl⟩
      refine ⟨by simp [Env.afterCommit], by simp [Env.afterCommit, Call.Getter], fun k => ?_⟩
      cases k <;> simp [Env.afterCommit, Call.access] <;> split <;> simp
  | revealVote id juror vote salt =>
      rcases revealVote_eq_ok.mp h with ⟨-, -, d, -, -, -, -, -, -, voters, -, rfl⟩
      refine ⟨by simp [Env.afterReveal], by simp [Env.afterReveal, Call.Getter], fun k => ?_⟩
      cases k <;> simp [Env.afterReveal, Call.access] <;> split <;> simp
  | resolveDispute id =>
      rcases resolveDispute_eq_ok.mp h with ⟨-, d, -, -, -, -, rfl, env₁, hloop, e, -, token, -,
        remaining, -, p, -, rfl⟩
      have hloop : env.extendInstanceTtl.Accessed false (fun k =>
          if ∃ juror ∈ env.book.minority id, k = .jurorStake juror ∨ k = .jurorSlashCount juror
          then .write else .keep) env₁ := slashVoters_accessed hloop
      have hnow : env₁.now = env.now := hloop.now_eq
      refine ⟨by simp [Env.afterResolve, hloop.sequence_eq],
        by simp [Env.afterResolve, hloop.instance_eq, Call.Getter], fun k => ?_⟩
      simp only [Env.afterResolve, Call.access]
      cases k with
      | escrow i | dispute i => by_cases hi : i = id <;> simp [hloop.liveUntil_eq, hnow, hi]
      | _ => simp [hloop.liveUntil_eq]
  | bumpJurorStakeTtl juror => exact bumpJurorStakeTtl_accessed h
  | bumpEscrowTtl id => exact bumpEscrowTtl_accessed h
  | getTreasury =>
      have h' : (TrustFlow.getTreasury : Op H A) auth env = .ok (r, env') := h
      simp only [TrustFlow.getTreasury, instanceGet, bind_eq_ok, reads_eq_ok, okOr_eq_ok] at h'
      rcases h' with ⟨_, _, ⟨-, rfl⟩, -, rfl⟩
      exact ⟨rfl, rfl, fun _ => rfl⟩
  | getFeeBps | getPauser | isPaused | getStake juror | getSlashCount juror =>
      cases h
      exact ⟨rfl, rfl, fun _ => rfl⟩

end TrustFlow
