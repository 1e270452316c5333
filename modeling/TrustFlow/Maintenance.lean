import TrustFlow.Book

/-!
# Maintenance of lifetimes

`bump_juror_stake_ttl` and `bump_escrow_ttl` are open to everyone and extend
the lifetimes of stored entries.  They leave the book of the contract as it is.
-/

namespace TrustFlow

open Invocation

variable {A D : Type} [DecidableEq A] {H : Host A D}

def bumpJurorStakeTtl (juror : A) : Op H U32 := do
  let staked ← persistentHas (.jurorStake juror)
  failIf (staked = false) (.error .jurorStakeNotFound)
  extendInstanceTtl
  extendPersistentTtl (.jurorStake juror)
  extendPersistentTtl (.jurorSlashCount juror)
  let now ← ledgerSequence
  let liveUntilLedger := now.saturatingAdd PERSISTENT_BUMP_AMOUNT
  publish [.symbol "juror", .symbol "ttlbump"] (.jurorStakeTtlBumped juror liveUntilLedger)
  return liveUntilLedger

/-- The loop of `bump_escrow_ttl` over the enumerated milestones; the index is
    cast `as u32`. -/
def bumpMilestones (escrowId : U64) : List Milestone → Nat → Op H Unit
  | [], _ => pure ()
  | _ :: ms, index => do
      extendPersistentTtl (.milestoneReleased ⟨escrowId, U32.ofNat index⟩)
      bumpMilestones escrowId ms (index + 1)

/-- The dispute keys of `bump_escrow_ttl`, extended only where they exist. -/
def bumpDispute (escrowId : U64) : Op H Unit := do
  let disputed ← persistentHas (.dispute escrowId)
  if disputed = true then
    extendPersistentTtl (.dispute escrowId)
    let voted ← persistentHas (.disputeVoters escrowId)
    if voted = true then
      extendPersistentTtl (.disputeVoters escrowId)

def bumpEscrowTtl (escrowId : U64) : Op H U32 := do
  let escrow ← okOr (← persistentGet (.escrow escrowId)) (.error .escrowNotFound)
  extendInstanceTtl
  extendPersistentTtl (.escrow escrowId)
  extendPersistentTtl (.escrowFeeConfig escrowId)
  extendPersistentTtl (.escrowReleased escrowId)
  bumpMilestones escrowId escrow.milestones.toList 0
  bumpDispute escrowId
  let now ← ledgerSequence
  let liveUntilLedger := now.saturatingAdd PERSISTENT_BUMP_AMOUNT
  publish [.symbol "escrow", .symbol "ttlbump"] (.escrowTtlBumped escrowId liveUntilLedger)
  return liveUntilLedger

variable {auth : A → Bool} {env env' : Env H} {u : Unit} {id : U64} {n : U32}

/-- `bump_escrow_ttl` asks for the escrow. -/
theorem exists_of_bumpEscrowTtl (h : (bumpEscrowTtl id : Op H U32) auth env = .ok (n, env')) :
    ∃ e, env.get (.escrow id) = some e := by
  simp only [bumpEscrowTtl, persistentGet, bind_eq_ok, okOr_eq_ok, reads_eq_ok, ↓existsAndEq,
    true_and] at h
  rcases h with ⟨e, ⟨he, -⟩, -⟩
  exact ⟨e, he⟩

/-! ### What extending lifetimes keeps

Whatever `extendPersistentTtl` keeps, the loop over the milestones and the extension of the
dispute keys keep. -/

section Keeps

variable {α : Type} {f : Env H → α}

theorem bumpMilestones_keeps (hf : ∀ env k, f (Env.extendPersistentTtl env k) = f env)
    {ms : List Milestone} {i : Nat}
    (h : (bumpMilestones id ms i : Op H Unit) auth env = .ok (u, env')) : f env' = f env := by
  induction ms generalizing env i with
  | nil =>
      simp only [bumpMilestones, pure_eq_ok] at h
      rw [h.2]
  | cons m ms ih =>
      simp only [bumpMilestones, extendPersistentTtl, bind_eq_ok, modify_eq_ok] at h
      rcases h with ⟨_, env₁, rfl, hrest⟩
      rw [ih hrest, hf]

theorem bumpDispute_keeps (hf : ∀ env k, f (Env.extendPersistentTtl env k) = f env)
    (h : (bumpDispute id : Op H Unit) auth env = .ok (u, env')) : f env' = f env := by
  simp only [bumpDispute, persistentHas, extendPersistentTtl, bind_eq_ok, reads_eq_ok, ite_eq_ok,
    modify_eq_ok, pure_eq_ok, ↓existsAndEq, true_and] at h
  rcases h with ⟨-, -, ⟨-, rfl⟩ | ⟨-, rfl⟩⟩ | ⟨-, rfl⟩
  · rw [hf, hf]
  · rw [hf]
  · rfl

end Keeps

/-! ### The book is left alone -/

theorem bumpMilestones_book {ms : List Milestone} {i : Nat}
    (h : (bumpMilestones id ms i : Op H Unit) auth env = .ok (u, env')) :
    env'.book = env.book :=
  bumpMilestones_keeps Env.book_extendPersistentTtl h

theorem bumpJurorStakeTtl_book {juror : A}
    (h : (bumpJurorStakeTtl juror : Op H U32) auth env = .ok (n, env')) :
    env'.book = env.book := by
  simp only [bumpJurorStakeTtl, persistentHas, extendInstanceTtl, extendPersistentTtl,
    ledgerSequence, publish, bind_eq_ok, reads_eq_ok, failIf_eq_ok, modify_eq_ok, pure_eq_ok,
    ↓existsAndEq, true_and, exists_const] at h
  rw [h.2.2]
  simp [Event.slashed, Event.trancheFee]

theorem bumpEscrowTtl_book (h : (bumpEscrowTtl id : Op H U32) auth env = .ok (n, env')) :
    env'.book = env.book := by
  simp only [bumpEscrowTtl, persistentGet, extendInstanceTtl, extendPersistentTtl, ledgerSequence,
    publish, bind_eq_ok, okOr_eq_ok, reads_eq_ok, modify_eq_ok, pure_eq_ok, ↓existsAndEq, true_and,
    exists_const] at h
  obtain ⟨e, he, _, env₁, hms, _, env₂, hd, -, rfl⟩ := h
  have hms' := bumpMilestones_book hms
  have hd' : env₂.book = env₁.book := bumpDispute_keeps Env.book_extendPersistentTtl hd
  simp [Event.slashed, Event.trancheFee, hd', hms']

/-! ### No value is changed -/

theorem bumpJurorStakeTtl_get {juror : A}
    (h : (bumpJurorStakeTtl juror : Op H U32) auth env = .ok (n, env')) (k : DataKey A) :
    env'.get k = env.get k := by
  simp only [bumpJurorStakeTtl, persistentHas, extendInstanceTtl, extendPersistentTtl,
    ledgerSequence, publish, bind_eq_ok, reads_eq_ok, failIf_eq_ok, modify_eq_ok, pure_eq_ok,
    ↓existsAndEq, true_and, exists_const] at h
  rw [h.2.2]
  simp

theorem bumpEscrowTtl_get (h : (bumpEscrowTtl id : Op H U32) auth env = .ok (n, env'))
    (k : DataKey A) : env'.get k = env.get k := by
  simp only [bumpEscrowTtl, persistentGet, extendInstanceTtl, extendPersistentTtl, ledgerSequence,
    publish, bind_eq_ok, okOr_eq_ok, reads_eq_ok, modify_eq_ok, pure_eq_ok, ↓existsAndEq, true_and,
    exists_const] at h
  rcases h with ⟨e, he, _, env₁, hms, _, env₂, hd, -, rfl⟩
  have hkeeps (env : Env H) (k' : DataKey A) : (env.extendPersistentTtl k').get k = env.get k :=
    env.get_extendPersistentTtl k' k
  have hms' : env₁.get k = _ := bumpMilestones_keeps (f := fun env => env.get k) hkeeps hms
  have hd' : env₂.get k = env₁.get k := bumpDispute_keeps (f := fun env => env.get k) hkeeps hd
  rw [Env.get_publish, hd', hms']
  simp

end TrustFlow
