import TrustFlow.Config
import TrustFlow.Arithmetic
import Mathlib.Algebra.BigOperators.Group.List.Basic

/-!
# The book of a contract

`Book` is the contract's state as its participants mean it: the configuration,
one register per family of records, the purse, the total ever slashed and the
fees charged per escrow.  Lifetimes, the layout of the storage and the events
that carry no money are gone.  `Env.book` reads the book off an environment.

Every update of an environment is one update of the book or none at all; these
lemmas are what connects the entrypoints to the transitions proved about.
-/

namespace TrustFlow

variable {A D : Type} [DecidableEq A] {H : Host A D}

/-! ### What the events of the contract amount to -/

/-- The amount a `JurorSlashed` event took. -/
def Event.slashed : Event A → Int
  | ⟨_, .jurorSlashed _ _ slashAmount _ _⟩ => slashAmount.val
  | _ => 0

/-- The fee a `MilestoneTrancheReleased` event of the escrow `id` charged. -/
def Event.trancheFee (id : U64) : Event A → Int
  | ⟨[_, _, .u64 escrowId, _], .milestoneTrancheReleased _ treasuryFee _ _ _ _ _⟩ =>
      if escrowId = id then treasuryFee.val else 0
  | _ => 0

/-! ### The book -/

/-- The configuration the admin controls. -/
@[ext] structure Settings (A : Type) where
  admin : Option A
  token : Option A
  slashBps : Option U32
  feeBps : Option U32
  treasury : Option A
  paused : Option Bool
  pauser : Option A

def Settings.isPaused (c : Settings A) : Bool := c.paused.getD false

structure Book (H : Host A D) where
  sequence : U32
  settings : Settings A
  escrowCounter : Option U64
  escrow : U64 → Option (EscrowRecord A)
  feeConfig : U64 → Option (EscrowFeeConfig A)
  released : U64 → Option I128
  milestoneReleased : U64 → U32 → Option I128
  dispute : U64 → Option (DisputeRecord A)
  voters : U64 → Option (Vec A)
  commit : U64 → A → Option D
  vote : U64 → A → Option Bool
  stake : A → I128
  slashCount : A → U32
  purse : Purse H.tokens
  slashed : Int
  fees : U64 → Int

namespace Book

def releasedOf (b : Book H) (id : U64) : I128 := (b.released id).getD 0
def milestoneReleasedOf (b : Book H) (id : U64) (i : U32) : I128 :=
  (b.milestoneReleased id i).getD 0
def votersOf (b : Book H) (id : U64) : List A := ((b.voters id).getD Vec.empty).toList
def voteOf (b : Book H) (id : U64) (juror : A) : Bool := (b.vote id juror).getD false
def counter (b : Book H) : U64 := b.escrowCounter.getD 0

end Book

namespace Env

variable (env : Env H)

def releasedOf (id : U64) : I128 := (env.get (.escrowReleased id)).getD 0
def milestoneReleasedOf (id : U64) (i : U32) : I128 :=
  (env.get (.milestoneReleased ⟨id, i⟩)).getD 0
def stakeOf (juror : A) : I128 := (env.get (.jurorStake juror)).getD 0
def slashCountOf (juror : A) : U32 := (env.get (.jurorSlashCount juror)).getD 0
def votersOf (id : U64) : Vec A := (env.get (.disputeVoters id)).getD Vec.empty
def voteOf (id : U64) (juror : A) : Bool := (env.get (.jurorVote ⟨id, juror⟩)).getD false

@[simp] theorem releasedOf_extendInstanceTtl (id : U64) :
    env.extendInstanceTtl.releasedOf id = env.releasedOf id := rfl

@[simp] theorem milestoneReleasedOf_extendInstanceTtl (id : U64) (i : U32) :
    env.extendInstanceTtl.milestoneReleasedOf id i = env.milestoneReleasedOf id i := rfl

@[simp] theorem stakeOf_extendInstanceTtl (juror : A) :
    env.extendInstanceTtl.stakeOf juror = env.stakeOf juror := rfl

@[simp] theorem stakeOf_setPurse (p : Purse H.tokens) (juror : A) :
    (env.setPurse p).stakeOf juror = env.stakeOf juror := rfl

def settings : Settings A where
  admin := env.inst .admin
  token := env.inst .token
  slashBps := env.inst .slashBps
  feeBps := env.inst .feeBps
  treasury := env.inst .treasury
  paused := env.inst .paused
  pauser := env.inst .pauser

/-- The book an environment amounts to. -/
def book : Book H where
  sequence := env.sequence
  settings := env.settings
  escrowCounter := env.inst .escrowCounter
  escrow id := env.get (.escrow id)
  feeConfig id := env.get (.escrowFeeConfig id)
  released id := env.get (.escrowReleased id)
  milestoneReleased id i := env.get (.milestoneReleased ⟨id, i⟩)
  dispute id := env.get (.dispute id)
  voters id := env.get (.disputeVoters id)
  commit id juror := env.get (.jurorCommit ⟨id, juror⟩)
  vote id juror := env.get (.jurorVote ⟨id, juror⟩)
  stake := env.stakeOf
  slashCount := env.slashCountOf
  purse := env.purse
  slashed := (env.events.map Event.slashed).sum
  fees id := (env.events.map (Event.trancheFee id)).sum

/-! ### Updates of the environment as updates of the book -/

/-- A register of registers that changed in one place. -/
theorem eq_update_update {ι κ β : Type} [DecidableEq ι] [DecidableEq κ] {f g : ι → κ → β} {i : ι}
    {j : κ} {v : β} (hself : g i j = v) (hrow : ∀ y, y ≠ j → g i y = f i y)
    (hother : ∀ x y, x ≠ i → g x y = f x y) :
    g = Function.update f i (Function.update (f i) j v) := by
  apply Function.eq_update_iff.mpr
  constructor
  · exact Function.eq_update_iff.mpr ⟨hself, hrow⟩
  · intro x hx
    funext y
    exact hother x y hx

@[simp] theorem book_extendInstanceTtl : env.extendInstanceTtl.book = env.book := rfl

@[simp] theorem book_extendPersistentTtl (k : DataKey A) :
    (env.extendPersistentTtl k).book = env.book := by
  simp [book, settings, funext_iff, stakeOf, slashCountOf]

@[simp] theorem book_setPurse (p : Purse H.tokens) :
    (env.setPurse p).book = { env.book with purse := p } := rfl

@[simp] theorem book_publish (topics : List Topic) (data : EventData A) :
    (env.publish topics data).book =
      { env.book with
        slashed := Event.slashed ⟨topics, data⟩ + env.book.slashed
        fees := fun id => Event.trancheFee id ⟨topics, data⟩ + env.book.fees id } := by
  simp [book, settings, stakeOf, slashCountOf, funext_iff]

section Persistent

variable (id : U64)

@[simp] theorem book_set_escrow (e : EscrowRecord A) :
    (env.setPersistent (.escrow id) e).book =
      { env.book with escrow := Function.update env.book.escrow id (some e) } := by
  have h : (env.setPersistent (.escrow id) e).book.escrow =
      Function.update env.book.escrow id (some e) := by
    apply Function.eq_update_iff.mpr
    exact ⟨by simp [book], fun i hi => by simp [book, hi]⟩
  simpa [book, settings, stakeOf, slashCountOf, funext_iff] using h

@[simp] theorem book_set_feeConfig (c : EscrowFeeConfig A) :
    (env.setPersistent (.escrowFeeConfig id) c).book =
      { env.book with feeConfig := Function.update env.book.feeConfig id (some c) } := by
  have h : (env.setPersistent (.escrowFeeConfig id) c).book.feeConfig =
      Function.update env.book.feeConfig id (some c) := by
    apply Function.eq_update_iff.mpr
    exact ⟨by simp [book], fun i hi => by simp [book, hi]⟩
  simpa [book, settings, stakeOf, slashCountOf, funext_iff] using h

@[simp] theorem book_set_released (n : I128) :
    (env.setPersistent (.escrowReleased id) n).book =
      { env.book with released := Function.update env.book.released id (some n) } := by
  have h : (env.setPersistent (.escrowReleased id) n).book.released =
      Function.update env.book.released id (some n) := by
    apply Function.eq_update_iff.mpr
    exact ⟨by simp [book], fun i hi => by simp [book, hi]⟩
  simpa [book, settings, stakeOf, slashCountOf, funext_iff] using h

@[simp] theorem book_set_dispute (d : DisputeRecord A) :
    (env.setPersistent (.dispute id) d).book =
      { env.book with dispute := Function.update env.book.dispute id (some d) } := by
  have h : (env.setPersistent (.dispute id) d).book.dispute =
      Function.update env.book.dispute id (some d) := by
    apply Function.eq_update_iff.mpr
    exact ⟨by simp [book], fun i hi => by simp [book, hi]⟩
  simpa [book, settings, stakeOf, slashCountOf, funext_iff] using h

@[simp] theorem book_set_voters (v : Vec A) :
    (env.setPersistent (.disputeVoters id) v).book =
      { env.book with voters := Function.update env.book.voters id (some v) } := by
  have h : (env.setPersistent (.disputeVoters id) v).book.voters =
      Function.update env.book.voters id (some v) := by
    apply Function.eq_update_iff.mpr
    exact ⟨by simp [book], fun i hi => by simp [book, hi]⟩
  simpa [book, settings, stakeOf, slashCountOf, funext_iff] using h

@[simp] theorem book_set_stake (juror : A) (n : I128) :
    (env.setPersistent (.jurorStake juror) n).book =
      { env.book with stake := Function.update env.book.stake juror n } := by
  have h : (env.setPersistent (.jurorStake juror) n).book.stake =
      Function.update env.book.stake juror n := by
    apply Function.eq_update_iff.mpr
    exact ⟨by simp [book, stakeOf], fun j hj => by simp [book, stakeOf, hj]⟩
  simpa [book, settings, slashCountOf, funext_iff] using h

@[simp] theorem book_set_slashCount (juror : A) (n : U32) :
    (env.setPersistent (.jurorSlashCount juror) n).book =
      { env.book with slashCount := Function.update env.book.slashCount juror n } := by
  have h : (env.setPersistent (.jurorSlashCount juror) n).book.slashCount =
      Function.update env.book.slashCount juror n := by
    apply Function.eq_update_iff.mpr
    exact ⟨by simp [book, slashCountOf], fun j hj => by simp [book, slashCountOf, hj]⟩
  simpa [book, settings, stakeOf, funext_iff] using h

@[simp] theorem book_set_milestoneReleased (i : U32) (n : I128) :
    (env.setPersistent (.milestoneReleased ⟨id, i⟩) n).book =
      { env.book with
        milestoneReleased := Function.update env.book.milestoneReleased id
          (Function.update (env.book.milestoneReleased id) i (some n)) } := by
  have h : (env.setPersistent (.milestoneReleased ⟨id, i⟩) n).book.milestoneReleased =
      Function.update env.book.milestoneReleased id
        (Function.update (env.book.milestoneReleased id) i (some n)) := by
    apply eq_update_update
    · simp [book]
    · intro y hy
      simp [book, hy]
    · intro x y hx
      simp [book, hx]
  simpa [book, settings, stakeOf, slashCountOf, funext_iff] using h

@[simp] theorem book_set_commit (juror : A) (c : D) :
    (env.setPersistent (.jurorCommit ⟨id, juror⟩) c).book =
      { env.book with
        commit := Function.update env.book.commit id
          (Function.update (env.book.commit id) juror (some c)) } := by
  have h : (env.setPersistent (.jurorCommit ⟨id, juror⟩) c).book.commit =
      Function.update env.book.commit id
        (Function.update (env.book.commit id) juror (some c)) := by
    apply eq_update_update
    · simp [book]
    · intro y hy
      simp [book, hy]
    · intro x y hx
      simp [book, hx]
  simpa [book, settings, stakeOf, slashCountOf, funext_iff] using h

@[simp] theorem book_set_vote (juror : A) (v : Bool) :
    (env.setPersistent (.jurorVote ⟨id, juror⟩) v).book =
      { env.book with
        vote := Function.update env.book.vote id
          (Function.update (env.book.vote id) juror (some v)) } := by
  have h : (env.setPersistent (.jurorVote ⟨id, juror⟩) v).book.vote =
      Function.update env.book.vote id
        (Function.update (env.book.vote id) juror (some v)) := by
    apply eq_update_update
    · simp [book]
    · intro y hy
      simp [book, hy]
    · intro x y hx
      simp [book, hx]
  simpa [book, settings, stakeOf, slashCountOf, funext_iff] using h

@[simp] theorem book_remove_commit (juror : A) :
    (env.removePersistent (.jurorCommit ⟨id, juror⟩)).book =
      { env.book with
        commit := Function.update env.book.commit id
          (Function.update (env.book.commit id) juror none) } := by
  have h : (env.removePersistent (.jurorCommit ⟨id, juror⟩)).book.commit =
      Function.update env.book.commit id (Function.update (env.book.commit id) juror none) := by
    apply eq_update_update
    · simp [book]
    · intro y hy
      simp [book, hy]
    · intro x y hx
      simp [book, hx]
  simpa [book, settings, stakeOf, slashCountOf, funext_iff] using h

end Persistent

section Instance

@[simp] theorem book_set_admin (a : A) :
    (env.setInstance .admin a).book =
      { env.book with settings := { env.book.settings with admin := some a } } := by
  simp [book, settings, stakeOf, slashCountOf, funext_iff]

@[simp] theorem book_set_token (a : A) :
    (env.setInstance .token a).book =
      { env.book with settings := { env.book.settings with token := some a } } := by
  simp [book, settings, stakeOf, slashCountOf, funext_iff]

@[simp] theorem book_set_slashBps (n : U32) :
    (env.setInstance .slashBps n).book =
      { env.book with settings := { env.book.settings with slashBps := some n } } := by
  simp [book, settings, stakeOf, slashCountOf, funext_iff]

@[simp] theorem book_set_feeBps (n : U32) :
    (env.setInstance .feeBps n).book =
      { env.book with settings := { env.book.settings with feeBps := some n } } := by
  simp [book, settings, stakeOf, slashCountOf, funext_iff]

@[simp] theorem book_set_treasury (a : A) :
    (env.setInstance .treasury a).book =
      { env.book with settings := { env.book.settings with treasury := some a } } := by
  simp [book, settings, stakeOf, slashCountOf, funext_iff]

@[simp] theorem book_set_paused (p : Bool) :
    (env.setInstance .paused p).book =
      { env.book with settings := { env.book.settings with paused := some p } } := by
  simp [book, settings, stakeOf, slashCountOf, funext_iff]

@[simp] theorem book_set_pauser (a : A) :
    (env.setInstance .pauser a).book =
      { env.book with settings := { env.book.settings with pauser := some a } } := by
  simp [book, settings, stakeOf, slashCountOf, funext_iff]

@[simp] theorem book_set_escrowCounter (n : U64) :
    (env.setInstance .escrowCounter n).book = { env.book with escrowCounter := some n } := by
  simp [book, settings, stakeOf, slashCountOf, funext_iff]

@[simp] theorem book_remove_pauser :
    (env.removeInstance .pauser).book =
      { env.book with settings := { env.book.settings with pauser := none } } := by
  simp [book, settings, stakeOf, slashCountOf, funext_iff]

end Instance

/-! ### The stakes are finite -/

theorem finite_stake : (Function.support fun juror => (env.book.stake juror).val).Finite :=
  env.persistent.finite_support DataKey.jurorStake (fun _ _ => DataKey.jurorStake.inj) _
    fun juror h => by
      have hg : env.get (.jurorStake juror) = none := h
      simp [book, stakeOf, hg]

end Env

end TrustFlow
