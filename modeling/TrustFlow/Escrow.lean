import TrustFlow.Book

/-!
# Escrow lifecycle

`create_escrow` and `init_escrow` lock tokens under a new id; the source
repeats the same statements in both, they are `lockEscrow` here.
`release_milestone_tranche` pays part of a milestone out.  As for staking, each
entrypoint comes with the environment a success leaves and the transition of
the book it amounts to.
-/

namespace TrustFlow

open Invocation Purse

variable {A D : Type} [DecidableEq A] {H : Host A D}

/-! ### Creation -/

/-- `snapshot_fee_config` -/
def snapshotFeeConfig (escrowId : U64) : Op H Unit := do
  let feeBps ← reads Env.feeBps
  let treasury ← okOr (← instanceGet .treasury) .unwrapNone
  persistentSet (.escrowFeeConfig escrowId) ⟨treasury, feeBps⟩
  extendPersistentTtl (.escrowFeeConfig escrowId)

/-- The common tail of `create_escrow` and `init_escrow`. -/
def lockEscrow (depositor beneficiary : A) (amount : I128) (milestones : Vec Milestone) :
    Op H U64 := do
  let token ← okOr (← instanceGet .token) .unwrapNone
  tokenTransfer token depositor H.self amount
  let counter ← reads Env.escrowCounter
  let id ← okOr (counter.checkedAdd 1) (.error .arithmeticOverflow)
  instanceSet .escrowCounter id
  persistentSet (.escrow id) ⟨id, depositor, beneficiary, amount, .active, milestones⟩
  extendPersistentTtl (.escrow id)
  snapshotFeeConfig id
  return id

def createEscrow (depositor beneficiary : A) (amount : I128) : Op H U64 := do
  requireAuth depositor
  extendInstanceTtl
  requireNotPaused
  failIf (amount.val ≤ 0) (.error .invalidAmount)
  lockEscrow depositor beneficiary amount Vec.empty

/-- The loop of `init_escrow` over the milestones. -/
def totalAmount : List Milestone → I128 → Except TrustFlowError I128
  | [], total => .ok total
  | m :: ms, total =>
      if m.amount.val ≤ 0 then .error .invalidAmount
      else do
        let total ← orError (total.checkedAdd m.amount) .arithmeticOverflow
        totalAmount ms total

def initEscrow (depositor beneficiary : A) (milestones : Vec Milestone) : Op H U64 := do
  requireAuth depositor
  extendInstanceTtl
  requireNotPaused
  let total ← ofResult (totalAmount milestones.toList 0)
  failIf (total.val ≤ 0) (.error .invalidAmount)
  let id ← lockEscrow depositor beneficiary total milestones
  publish [.symbol "escrow", .symbol "init"] (.escrowInitialized id depositor beneficiary total)
  return id

/-! ### Release -/

def releaseMilestoneTranche (escrowId : U64) (milestoneIndex : U32) (grossAmount : I128)
    (caller : A) : Op H Unit := do
  requireAuth caller
  extendInstanceTtl
  requireNotPaused
  failIf (grossAmount.val ≤ 0) (.error .invalidAmount)
  let escrow ← okOr (← persistentGet (.escrow escrowId)) (.error .escrowNotFound)
  failIf (caller ≠ escrow.depositor) (.error .unauthorized)
  failIf (escrow.status ≠ .active) (.error .invalidState)
  let milestone ← okOr (escrow.milestones.get milestoneIndex) (.error .milestoneNotFound)
  let currentLedger ← ledgerSequence
  failIf (currentLedger.val < milestone.releaseTime.val) (.error .milestoneTimeLocked)
  let milestoneReleasedBefore ← reads fun env => env.milestoneReleasedOf escrowId milestoneIndex
  let milestoneReleasedAfter ←
    okOr (milestoneReleasedBefore.checkedAdd grossAmount) (.error .invalidAmount)
  failIf (milestoneReleasedAfter.val > milestone.amount.val) (.error .milestoneAmountMismatch)
  let escrowReleasedBefore ← reads fun env => env.releasedOf escrowId
  let escrowReleasedAfter ←
    okOr (escrowReleasedBefore.checkedAdd grossAmount) (.error .invalidAmount)
  failIf (escrowReleasedAfter.val > escrow.amount.val) (.error .milestoneAmountMismatch)
  let feeConfig ← okOr (← persistentGet (.escrowFeeConfig escrowId)) (.error .escrowNotFound)
  extendPersistentTtl (.escrowFeeConfig escrowId)
  let feeBefore ← ofResult (cumulativeFee escrowReleasedBefore feeConfig.feeBps)
  let feeAfter ← ofResult (cumulativeFee escrowReleasedAfter feeConfig.feeBps)
  let treasuryFee ← okOr (feeAfter.checkedSub feeBefore) (.error .invalidAmount)
  let beneficiaryPayout ← okOr (grossAmount.checkedSub treasuryFee) (.error .invalidAmount)
  -- all validation done; accounting is persisted before any transfer
  let approved := { milestone with approved := true }
  let status := if escrowReleasedAfter = escrow.amount then .settled else escrow.status
  persistentSet (.escrow escrowId)
    { escrow with milestones := escrow.milestones.set milestoneIndex approved, status := status }
  extendPersistentTtl (.escrow escrowId)
  persistentSet (.milestoneReleased ⟨escrowId, milestoneIndex⟩) milestoneReleasedAfter
  extendPersistentTtl (.milestoneReleased ⟨escrowId, milestoneIndex⟩)
  persistentSet (.escrowReleased escrowId) escrowReleasedAfter
  extendPersistentTtl (.escrowReleased escrowId)
  let token ← okOr (← instanceGet .token) .unwrapNone
  tryTokenTransfer token H.self escrow.beneficiary beneficiaryPayout
  tryTokenTransfer token H.self feeConfig.treasury treasuryFee
  publish [.symbol "mstone", .symbol "release", .u64 escrowId, .u32 milestoneIndex]
    (.milestoneTrancheReleased grossAmount treasuryFee beneficiaryPayout milestoneReleasedAfter
      escrowReleasedAfter escrow.beneficiary feeConfig.treasury)

/-! ### What the milestone loop computes -/

/-- The sum of the milestone amounts. -/
def milestoneTotal (ms : List Milestone) : Int := (ms.map fun m => m.amount.val).sum

@[simp] theorem milestoneTotal_nil : milestoneTotal [] = 0 := rfl

@[simp] theorem milestoneTotal_cons (m : Milestone) (ms : List Milestone) :
    milestoneTotal (m :: ms) = m.amount.val + milestoneTotal ms := by simp [milestoneTotal]

theorem milestoneTotal_nonneg {ms : List Milestone} (h : ∀ m ∈ ms, 0 < m.amount.val) :
    0 ≤ milestoneTotal ms := by
  induction ms with
  | nil => simp
  | cons m ms ih =>
      have hm := h m List.mem_cons_self
      have hms := ih fun m hm => h m (List.mem_cons_of_mem _ hm)
      rw [milestoneTotal_cons]
      omega

/-- The loop accepts exactly the vectors of positive amounts whose sum is an
    `i128`; with positive amounts no intermediate sum can overflow alone. -/
theorem totalAmount_eq_ok {ms : List Milestone} {t r : I128} :
    totalAmount ms t = .ok r ↔
      (∀ m ∈ ms, 0 < m.amount.val) ∧ r.val = t.val + milestoneTotal ms := by
  induction ms generalizing t with
  | nil => simp [totalAmount, ← BoundedInt.val_inj, eq_comm]
  | cons m ms ih =>
      unfold totalAmount
      by_cases hm : m.amount.val ≤ 0
      · simp only [hm, if_true, reduceCtorEq, List.mem_cons, forall_eq_or_imp, false_iff]
        omega
      · have hstep : (do
            let total ← orError (t.checkedAdd m.amount) .arithmeticOverflow
            totalAmount ms total) = Except.ok r ↔
              ∃ t', t.checkedAdd m.amount = some t' ∧ totalAmount ms t' = .ok r := by
          cases t.checkedAdd m.amount with
          | none => simp [orError, bind, Except.bind]
          | some t' => simp [orError, bind, Except.bind]
        rw [if_neg hm, hstep]
        simp only [BoundedInt.checkedAdd_eq_some, ih, List.mem_cons, forall_eq_or_imp,
          milestoneTotal_cons]
        constructor
        · rintro ⟨t', ht', hpos, hr⟩
          exact ⟨⟨by omega, hpos⟩, by omega⟩
        · rintro ⟨⟨_, hpos⟩, hr⟩
          have hrest := milestoneTotal_nonneg hpos
          have := r.le_hi
          have := t.lo_le
          exact ⟨⟨t.val + m.amount.val, by omega, by omega⟩, rfl, hpos, by
            show r.val = t.val + m.amount.val + milestoneTotal ms
            omega⟩

/-! ### Creation on the book -/

variable {auth : A → Bool} {env env' : Env H} {u : Unit} {depositor beneficiary : A}
  {amount : I128} {milestones : Vec Milestone} {id : U64}

/-- The environment after an escrow was locked. -/
def Env.afterLock (env : Env H) (r : EscrowRecord A) (c : EscrowFeeConfig A)
    (p : Purse H.tokens) : Env H :=
  (((((env.setPurse p).setInstance .escrowCounter r.id).setPersistent (.escrow r.id)
    r).extendPersistentTtl (.escrow r.id)).setPersistent (.escrowFeeConfig r.id)
    c).extendPersistentTtl (.escrowFeeConfig r.id)

theorem lockEscrow_eq_ok :
    (lockEscrow depositor beneficiary amount milestones : Op H U64) auth env = .ok (id, env') ↔
      ∃ token, env.inst .token = some token ∧
      ∃ p, Moves token depositor H.self amount env.purse p ∧
        id.val = env.escrowCounter.val + 1 ∧
      ∃ treasury, env.inst .treasury = some treasury ∧
        env' = env.afterLock ⟨id, depositor, beneficiary, amount, .active, milestones⟩
          ⟨treasury, env.feeBps⟩ p := by
  have hcounter (p : Purse H.tokens) : (env.setPurse p).escrowCounter = env.escrowCounter := rfl
  have hfee (p : Purse H.tokens) (n : U64) (r : EscrowRecord A) :
      ((((env.setPurse p).setInstance .escrowCounter n).setPersistent (.escrow n)
        r).extendPersistentTtl (.escrow n)).feeBps = env.feeBps := by
    simp [Env.feeBps]
  simp [lockEscrow, snapshotFeeConfig, instanceGet, instanceSet, persistentSet,
    extendPersistentTtl, Env.afterLock, hcounter, hfee]

theorem createEscrow_eq_ok :
    (createEscrow depositor beneficiary amount : Op H U64) auth env = .ok (id, env') ↔
      auth depositor = true ∧ env.isPaused = false ∧ 0 < amount.val ∧
        (lockEscrow depositor beneficiary amount Vec.empty : Op H U64) auth env.extendInstanceTtl =
          .ok (id, env') := by
  simp [createEscrow, extendInstanceTtl]

theorem initEscrow_eq_ok :
    (initEscrow depositor beneficiary milestones : Op H U64) auth env = .ok (id, env') ↔
      auth depositor = true ∧ env.isPaused = false ∧
        ∃ amount : I128, (∀ m ∈ milestones.toList, 0 < m.amount.val) ∧
          amount.val = milestoneTotal milestones.toList ∧ 0 < amount.val ∧
        ∃ env₁, (lockEscrow depositor beneficiary amount milestones : Op H U64) auth
            env.extendInstanceTtl = .ok (id, env₁) ∧
          env' = env₁.publish [.symbol "escrow", .symbol "init"]
            (.escrowInitialized id depositor beneficiary amount) := by
  simp only [initEscrow, extendInstanceTtl, publish, bind_eq_ok, requireAuth_eq_ok, modify_eq_ok,
    requireNotPaused_eq_ok, ofResult_eq_ok, failIf_eq_ok, totalAmount_eq_ok, pure_eq_ok]
  constructor
  · rintro ⟨_, _, ⟨hauth, rfl⟩, _, _, rfl, _, _, ⟨hpaused, rfl⟩, amount, _, ⟨⟨hpos, hsum⟩, rfl⟩,
      _, _, ⟨hamount, rfl⟩, id, env₁, hlock, _, _, rfl, rfl, rfl⟩
    exact ⟨hauth, hpaused, amount, hpos, by simpa using hsum, by omega, env₁, hlock, rfl⟩
  · rintro ⟨hauth, hpaused, amount, hpos, hsum, hamount, env₁, hlock, rfl⟩
    exact ⟨(), env, ⟨hauth, rfl⟩, (), _, rfl, (), _, ⟨hpaused, rfl⟩, amount, _,
      ⟨⟨hpos, by simpa using hsum⟩, rfl⟩, (), _, ⟨by omega, rfl⟩, id, env₁, hlock, (), _, rfl,
      rfl, rfl⟩

namespace Book

/-- A new escrow of `depositor` for `beneficiary`, funded with `amount`. -/
inductive Lock (b : Book H) (depositor beneficiary : A) (amount : I128)
    (milestones : Vec Milestone) (id : U64) : Book H → Prop
  | intro {token treasury : A} {p : Purse H.tokens}
      (htoken : b.settings.token = some token)
      (hmove : Moves token depositor H.self amount b.purse p)
      (hid : id.val = b.counter.val + 1) (htreasury : b.settings.treasury = some treasury) :
      Lock b depositor beneficiary amount milestones id
        { b with
          purse := p
          escrowCounter := some id
          escrow := Function.update b.escrow id
            (some ⟨id, depositor, beneficiary, amount, .active, milestones⟩)
          feeConfig := Function.update b.feeConfig id
            (some ⟨treasury, b.settings.feeBps.getD DEFAULT_FEE_BPS⟩) }

/-- What `create_escrow` and `init_escrow` have in common: a positive amount,
    and milestones of positive amounts that add up to it unless there are none. -/
structure Open (b : Book H) (auth : A → Bool) (depositor beneficiary : A) (amount : I128)
    (milestones : Vec Milestone) (id : U64) (b' : Book H) : Prop where
  hauth : auth depositor = true
  notPaused : b.settings.isPaused = false
  amount_pos : 0 < amount.val
  milestones_pos : ∀ m ∈ milestones.toList, 0 < m.amount.val
  total : milestones.toList ≠ [] → amount.val = milestoneTotal milestones.toList
  lock : b.Lock depositor beneficiary amount milestones id b'

end Book

theorem lockEscrow_book (env : Env H) {b' : Book H} :
    (∃ env', (lockEscrow depositor beneficiary amount milestones : Op H U64) auth env =
      .ok (id, env') ∧ env'.book = b') ↔
      env.book.Lock depositor beneficiary amount milestones id b' := by
  have hbook (r : EscrowRecord A) (c : EscrowFeeConfig A) (p : Purse H.tokens) :
      (env.afterLock r c p).book = { env.book with
        purse := p
        escrowCounter := some r.id
        escrow := Function.update env.book.escrow r.id (some r)
        feeConfig := Function.update env.book.feeConfig r.id (some c) } := by
    simp [Env.afterLock]
  constructor
  · rintro ⟨env', h, rfl⟩
    obtain ⟨token, htoken, p, hmove, hid, treasury, htreasury, rfl⟩ := lockEscrow_eq_ok.mp h
    rw [hbook]
    exact .intro htoken hmove hid htreasury
  · rintro ⟨htoken, hmove, hid, htreasury⟩
    exact ⟨_, lockEscrow_eq_ok.mpr ⟨_, htoken, _, hmove, hid, _, htreasury, rfl⟩, hbook _ _ _⟩

theorem createEscrow_book {b' : Book H} :
    (∃ env', (createEscrow depositor beneficiary amount : Op H U64) auth env = .ok (id, env') ∧
      env'.book = b') ↔
      env.book.Open auth depositor beneficiary amount Vec.empty id b' := by
  simp only [createEscrow_eq_ok]
  constructor
  · rintro ⟨env', ⟨hauth, hpaused, hpos, hlock⟩, hb⟩
    exact ⟨hauth, hpaused, hpos, by simp, by simp,
      (lockEscrow_book env.extendInstanceTtl).mp ⟨env', hlock, hb⟩⟩
  · rintro ⟨hauth, hpaused, hpos, _, _, hlock⟩
    obtain ⟨env', h, hb⟩ := (lockEscrow_book env.extendInstanceTtl).mpr hlock
    exact ⟨env', ⟨hauth, hpaused, hpos, h⟩, hb⟩

theorem initEscrow_book {b' : Book H} :
    (∃ env', (initEscrow depositor beneficiary milestones : Op H U64) auth env = .ok (id, env') ∧
      env'.book = b') ↔
      milestones.toList ≠ [] ∧ ∃ amount, env.book.Open auth depositor beneficiary amount milestones
        id b' := by
  have hpublish (env₁ : Env H) (data : EventData A)
      (hs : Event.slashed ⟨[.symbol "escrow", .symbol "init"], data⟩ = 0) :
      (env₁.publish [.symbol "escrow", .symbol "init"] data).book = env₁.book := by
    simp [hs, Event.trancheFee]
  simp only [initEscrow_eq_ok]
  constructor
  · rintro ⟨_, ⟨hauth, hpaused, amount, hpos, hsum, hamount, env₁, hlock, rfl⟩, rfl⟩
    rw [hpublish _ _ rfl]
    refine ⟨?_, amount, hauth, hpaused, hamount, hpos, fun _ => hsum,
      (lockEscrow_book env.extendInstanceTtl).mp ⟨env₁, hlock, rfl⟩⟩
    intro hnil
    rw [hnil, milestoneTotal_nil] at hsum
    omega
  · rintro ⟨hne, amount, hauth, hpaused, hamount, hpos, hsum, hlock⟩
    obtain ⟨env₁, h, rfl⟩ := (lockEscrow_book env.extendInstanceTtl).mpr hlock
    exact ⟨_, ⟨hauth, hpaused, amount, hpos, hsum hne, hamount, env₁, h, rfl⟩, hpublish _ _ rfl⟩

/-! ### Release on the book -/

/-- The values a release computes on its way. -/
structure Tranche (A : Type) where
  escrow : EscrowRecord A
  milestone : Milestone
  milestoneAfter : I128
  releasedAfter : I128
  feeConfig : EscrowFeeConfig A
  feeBefore : I128
  feeAfter : I128
  fee : I128
  payout : I128
  token : A

namespace Tranche

variable (t : Tranche A) (b : Book H) (i : U32)

/-- The escrow record a release writes back. -/
def escrowAfter : EscrowRecord A :=
  { t.escrow with
    milestones := t.escrow.milestones.set i { t.milestone with approved := true }
    status := if t.releasedAfter = t.escrow.amount then .settled else t.escrow.status }

/-- The checks of `release_milestone_tranche`, in the order of the source. -/
structure Admissible (auth : A → Bool) (id : U64) (gross : I128) (caller : A) : Prop where
  hauth : auth caller = true
  notPaused : b.settings.isPaused = false
  gross_pos : 0 < gross.val
  escrow_eq : b.escrow id = some t.escrow
  caller_eq : caller = t.escrow.depositor
  active : t.escrow.status = .active
  milestone_eq : t.escrow.milestones.get i = some t.milestone
  unlocked : t.milestone.releaseTime.val ≤ b.sequence.val
  milestoneAfter_eq : t.milestoneAfter.val = (b.milestoneReleasedOf id i).val + gross.val
  milestone_le : t.milestoneAfter.val ≤ t.milestone.amount.val
  releasedAfter_eq : t.releasedAfter.val = (b.releasedOf id).val + gross.val
  released_le : t.releasedAfter.val ≤ t.escrow.amount.val
  feeConfig_eq : b.feeConfig id = some t.feeConfig
  feeBefore_eq : cumulativeFee (b.releasedOf id) t.feeConfig.feeBps = .ok t.feeBefore
  feeAfter_eq : cumulativeFee t.releasedAfter t.feeConfig.feeBps = .ok t.feeAfter
  fee_eq : t.fee.val = t.feeAfter.val - t.feeBefore.val
  payout_eq : t.payout.val = gross.val - t.fee.val
  token_eq : b.settings.token = some t.token

end Tranche

/-- The environment after a release. -/
def Env.afterRelease (env : Env H) (id : U64) (i : U32) (gross : I128) (t : Tranche A)
    (p : Purse H.tokens) : Env H :=
  ((((((((env.extendInstanceTtl.extendPersistentTtl (.escrowFeeConfig id)).setPersistent
    (.escrow id) (t.escrowAfter i)).extendPersistentTtl (.escrow id)).setPersistent
    (.milestoneReleased ⟨id, i⟩) t.milestoneAfter).extendPersistentTtl
    (.milestoneReleased ⟨id, i⟩)).setPersistent (.escrowReleased id)
    t.releasedAfter).extendPersistentTtl (.escrowReleased id)).setPurse p).publish
    [.symbol "mstone", .symbol "release", .u64 id, .u32 i]
    (.milestoneTrancheReleased gross t.fee t.payout t.milestoneAfter t.releasedAfter
      t.escrow.beneficiary t.feeConfig.treasury)

variable {i : U32} {gross : I128} {caller : A}

theorem releaseMilestoneTranche_eq_ok :
    (releaseMilestoneTranche id i gross caller : Op H Unit) auth env = .ok (u, env') ↔
      ∃ t : Tranche A, t.Admissible env.book i auth id gross caller ∧
      ∃ p₁, Pays t.token H.self t.escrow.beneficiary t.payout env.purse p₁ ∧
      ∃ p₂, Pays t.token H.self t.feeConfig.treasury t.fee p₁ p₂ ∧
        env' = env.afterRelease id i gross t p₂ := by
  simp only [releaseMilestoneTranche, extendInstanceTtl, persistentGet, ne_eq, ledgerSequence,
    extendPersistentTtl, persistentSet, instanceGet, publish, bind_eq_ok, requireAuth_eq_ok,
    modify_eq_ok, requireNotPaused_eq_ok, failIf_eq_ok, not_le, reads_eq_ok, okOr_eq_ok,
    Decidable.not_not, not_lt, BoundedInt.checkedAdd_eq_some, gt_iff_lt, ofResult_eq_ok,
    BoundedInt.checkedSub_eq_some, tryTokenTransfer_eq_ok, ↓existsAndEq, and_true, exists_const,
    Env.purse_setPurse, and_assoc, exists_and_left, true_and, exists_eq_left,
    Env.inst_extendPersistentTtl, Env.purse_extendPersistentTtl, Env.inst_setPersistent,
    Env.purse_setPersistent, Env.isPaused_extendInstanceTtl, Env.get_extendInstanceTtl,
    Env.sequence_extendInstanceTtl, Env.milestoneReleasedOf_extendInstanceTtl,
    Env.releasedOf_extendInstanceTtl, Env.inst_extendInstanceTtl, Env.purse_extendInstanceTtl,
    Env.setPurse_setPurse]
  constructor
  · rintro ⟨hauth, hpaused, hpos, e, he, hcaller, hactive, m, hm, htime, mAfter, hmAfter, hmle,
      rAfter, hrAfter, hrle, c, hc, fB, hfB, fA, hfA, fee, hfee, payout, hpayout, token, htoken,
      p₁, hp₁, p₂, hp₂, rfl⟩
    exact ⟨⟨e, m, mAfter, rAfter, c, fB, fA, fee, payout, token⟩,
      ⟨hauth, hpaused, hpos, he, hcaller, hactive, hm, htime, hmAfter, hmle, hrAfter, hrle, hc,
        hfB, hfA, hfee, hpayout, htoken⟩, p₁, hp₁, p₂, hp₂, rfl⟩
  · rintro ⟨t, ht, p₁, hp₁, p₂, hp₂, rfl⟩
    exact ⟨ht.hauth, ht.notPaused, ht.gross_pos, t.escrow, ht.escrow_eq, ht.caller_eq, ht.active,
      t.milestone, ht.milestone_eq, ht.unlocked, t.milestoneAfter, ht.milestoneAfter_eq,
      ht.milestone_le, t.releasedAfter, ht.releasedAfter_eq, ht.released_le, t.feeConfig,
      ht.feeConfig_eq, t.feeBefore, ht.feeBefore_eq, t.feeAfter, ht.feeAfter_eq, t.fee, ht.fee_eq,
      t.payout, ht.payout_eq, t.token, ht.token_eq, p₁, hp₁, p₂, hp₂, rfl⟩

namespace Book

/-- A release: the payout to the beneficiary, the fee to the treasury, and the
    two counters and the record brought up to date. -/
inductive Release (b : Book H) (auth : A → Bool) (id : U64) (i : U32) (gross : I128) (caller : A) :
    Book H → Prop
  | intro {t : Tranche A} {p₁ p₂ : Purse H.tokens} (ht : t.Admissible b i auth id gross caller)
      (hpayout : Pays t.token H.self t.escrow.beneficiary t.payout b.purse p₁)
      (hfee : Pays t.token H.self t.feeConfig.treasury t.fee p₁ p₂) :
      Release b auth id i gross caller
        { b with
          escrow := Function.update b.escrow id (some (t.escrowAfter i))
          milestoneReleased := Function.update b.milestoneReleased id
            (Function.update (b.milestoneReleased id) i (some t.milestoneAfter))
          released := Function.update b.released id (some t.releasedAfter)
          purse := p₂
          fees := fun id' => (if id = id' then t.fee.val else 0) + b.fees id' }

end Book

theorem releaseMilestoneTranche_book {b' : Book H} :
    (∃ env', (releaseMilestoneTranche id i gross caller : Op H Unit) auth env = .ok ((), env') ∧
      env'.book = b') ↔ env.book.Release auth id i gross caller b' := by
  have hbook (t : Tranche A) (p : Purse H.tokens) :
      (env.afterRelease id i gross t p).book = { env.book with
        escrow := Function.update env.book.escrow id (some (t.escrowAfter i))
        milestoneReleased := Function.update env.book.milestoneReleased id
          (Function.update (env.book.milestoneReleased id) i (some t.milestoneAfter))
        released := Function.update env.book.released id (some t.releasedAfter)
        purse := p
        fees := fun id' => (if id = id' then t.fee.val else 0) + env.book.fees id' } := by
    simp [Env.afterRelease, Event.slashed, Event.trancheFee]
  constructor
  · rintro ⟨_, h, rfl⟩
    obtain ⟨t, ht, p₁, hp₁, p₂, hp₂, rfl⟩ := releaseMilestoneTranche_eq_ok.mp h
    rw [hbook]
    exact .intro ht hp₁ hp₂
  · rintro ⟨ht, hp₁, hp₂⟩
    exact ⟨_, releaseMilestoneTranche_eq_ok.mpr ⟨_, ht, _, hp₁, _, hp₂, rfl⟩, hbook _ _⟩

end TrustFlow
