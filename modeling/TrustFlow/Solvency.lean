import TrustFlow.Soundness

/-!
# Custody

What the contract owes in its token: the stakes, what its open escrows still
hold, and the slashed tokens, which no call pays out.  `Step.net` follows one
step: what the contract holds, less what it paid to itself, and what it owes
change by the same amount, except for tokens sent to it unasked.

The sum over a run is the custody equation; since neither gifts nor payments to
itself are negative, the contract always covers what it owes.
-/

namespace TrustFlow

open Transition Purse

variable {A D : Type}

/-- What an escrow still holds. -/
def File.locked (f : File A D) : Int :=
  match f.escrow with
  | some e => if e.status = .settled then 0 else e.amount.val - f.releasedOf.val
  | none => 0

namespace File

variable {f : File A D} {e : EscrowRecord A}

theorem locked_of_open (he : f.escrow = some e) (hs : e.status ≠ .settled) :
    f.locked = e.amount.val - f.releasedOf.val := by
  rw [locked, he]
  exact if_neg hs

theorem locked_of_settled (he : f.escrow = some e) (hs : e.status = .settled) : f.locked = 0 := by
  rw [locked, he]
  exact if_pos hs

theorem Sound.locked_nonneg {own : A} {now : U32} (h : f.Sound own now) : 0 ≤ f.locked := by
  cases he : f.escrow with
  | none =>
      rw [locked, he]
  | some e =>
      by_cases hs : e.status = .settled
      · rw [locked_of_settled he hs]
      · have hlt := (h.accounts e he).open_lt hs
        rw [locked_of_open he hs]
        omega

end File

variable [DecidableEq A] {H : Host A D}

namespace Book

variable {b b' : Book H} {l : Label H} {tok : A}

/-- What the contract owes: stakes, open escrows and everything ever slashed. -/
noncomputable def liabilities (b : Book H) : Int :=
  ∑ᶠ juror, (b.stake juror).val + ∑ᶠ id, (b.file id).locked + b.slashed

/-- A step on one escrow changes what is owed by what that escrow holds. -/
theorem liabilities_of_file {id : U64} (hstake : b'.stake = b.stake)
    (hslashed : b'.slashed = b.slashed) (h : ∀ id', id' ≠ id → b'.file id' = b.file id') :
    b'.liabilities = b.liabilities - (b.file id).locked + (b'.file id).locked := by
  have hsum := finsum_change (f := fun id' => (b.file id').locked)
    (g := fun id' => (b'.file id').locked) (Set.toFinite _) fun id' hne => by rw [h id' hne]
  rw [liabilities, liabilities, hstake, hslashed]
  omega

/-- A change of one stake changes what is owed by as much. -/
theorem liabilities_of_stake {juror : A} {total : I128}
    (hfin : (Function.support fun j => (b.stake j).val).Finite)
    (hstake : b'.stake = Function.update b.stake juror total) (hslashed : b'.slashed = b.slashed)
    (h : ∀ id, b'.file id = b.file id) :
    b'.liabilities = b.liabilities - (b.stake juror).val + total.val := by
  have hother (j : A) (hj : j ≠ juror) : (b'.stake j).val = (b.stake j).val := by
    rw [hstake, Function.update_of_ne hj]
  have hsum := finsum_change (g := fun j => (b'.stake j).val) hfin hother
  have hnew : (b'.stake juror).val = total.val := by
    rw [hstake, Function.update_self]
  have hfiles : ∑ᶠ id, (b'.file id).locked = ∑ᶠ id, (b.file id).locked :=
    finsum_congr fun id => by rw [h id]
  rw [liabilities, liabilities, hslashed, hfiles]
  omega

/-! ### What each money-moving transition does -/

variable {auth : A → Bool} {juror depositor beneficiary caller : A} {amount gross : I128}
  {milestones : Vec Milestone} {id : U64} {i : U32} {ruling : Bool}

theorem Stake.net (h : b.Stake auth juror amount b') (hself : auth H.self = false)
    (hfin : (Function.support fun j => (b.stake j).val).Finite)
    (htok : ∀ tok', b.settings.token = some tok' → tok' = tok) :
    b'.purse.net H.self tok = b.purse.net H.self tok + amount.val ∧
      b'.liabilities = b.liabilities + amount.val := by
  have hslashed : b'.slashed = b.slashed := by cases h; rfl
  have hfile : ∀ id, b'.file id = b.file id := by cases h; exact fun _ => rfl
  obtain ⟨hauth, hmove, total, htotal, hstake⟩ : auth juror = true ∧
      Moves tok juror H.self amount b.purse b'.purse ∧
      ∃ total : I128, total.val = (b.stake juror).val + amount.val ∧
        b'.stake = Function.update b.stake juror total := by
    cases h with
    | intro hauth _ _ htoken hmove htotal =>
      cases htok _ htoken
      exact ⟨hauth, hmove, _, htotal, rfl⟩
  have hne : juror ≠ H.self := by
    rintro rfl
    exact absurd hauth (by simp [hself])
  have hliab := liabilities_of_stake hfin hstake hslashed hfile
  exact ⟨hmove.net_in hne, by omega⟩

theorem Unstake.net (h : b.Unstake auth juror amount b')
    (hfin : (Function.support fun j => (b.stake j).val).Finite)
    (htok : ∀ tok', b.settings.token = some tok' → tok' = tok) :
    b'.purse.net H.self tok = b.purse.net H.self tok - amount.val ∧
      b'.liabilities = b.liabilities - amount.val := by
  have hslashed : b'.slashed = b.slashed := by cases h; rfl
  have hfile : ∀ id, b'.file id = b.file id := by cases h; exact fun _ => rfl
  obtain ⟨hmove, total, htotal, hstake⟩ : Moves tok H.self juror amount b.purse b'.purse ∧
      ∃ total : I128, total.val = (b.stake juror).val - amount.val ∧
        b'.stake = Function.update b.stake juror total := by
    cases h with
    | intro _ _ _ htoken hmove htotal =>
      cases htok _ htoken
      exact ⟨hmove, _, htotal, rfl⟩
  have hliab := liabilities_of_stake hfin hstake hslashed hfile
  exact ⟨hmove.net_out, by omega⟩

theorem Open.net (h : b.Open auth depositor beneficiary amount milestones id b')
    (hself : auth H.self = false) (hb : b.Sound)
    (htok : ∀ tok', b.settings.token = some tok' → tok' = tok) :
    b'.purse.net H.self tok = b.purse.net H.self tok + amount.val ∧
      b'.liabilities = b.liabilities + amount.val := by
  have hempty := hb.unusedAbove.opens h
  obtain ⟨hmove, hescrow, hreleased, hstake, hslashed⟩ :
      Moves tok depositor H.self amount b.purse b'.purse ∧
      (b'.file id).escrow = some ⟨id, depositor, beneficiary, amount, .active, milestones⟩ ∧
      b'.released = b.released ∧ b'.stake = b.stake ∧ b'.slashed = b.slashed := by
    cases h.lock with
    | intro htoken hmove _ _ =>
      cases htok _ htoken
      exact ⟨hmove, Function.update_self .., rfl, rfl, rfl⟩
  have hne : depositor ≠ H.self := by
    rintro rfl
    exact absurd h.hauth (by simp [hself])
  have hliab := liabilities_of_file hstake hslashed fun id' hne => h.file_ne hne
  have hbefore : (b.file id).locked = 0 := by
    rw [hempty]
    rfl
  have hzero : (b'.file id).releasedOf.val = 0 := by
    have hnone : b.released id = none := congrArg File.released hempty
    simp [file, File.releasedOf, hreleased, hnone]
  have hafter : (b'.file id).locked = amount.val - (b'.file id).releasedOf.val :=
    File.locked_of_open hescrow EscrowStatus.active_ne_settled
  exact ⟨hmove.net_in hne, by omega⟩

theorem Release.net (h : b.Release auth id i gross caller b')
    (htok : ∀ tok', b.settings.token = some tok' → tok' = tok) :
    b'.purse.net H.self tok = b.purse.net H.self tok - gross.val ∧
      b'.liabilities = b.liabilities - gross.val := by
  have hliab := liabilities_of_file (b := b) (by cases h; rfl) (by cases h; rfl)
    fun id' hne => h.file_ne hne
  obtain ⟨t, p, ht, hpayout, hfee, hfile⟩ : ∃ t : Tranche A, ∃ p,
      t.Admissible b i auth id gross caller ∧
      Pays t.token H.self t.escrow.beneficiary t.payout b.purse p ∧
      Pays t.token H.self t.feeConfig.treasury t.fee p b'.purse ∧
      b'.file id = (b.file id).tranche t i := by
    cases h with
    | intro ht hpayout hfee => exact ⟨_, _, ht, hpayout, hfee, by simp [file, File.tranche]⟩
  cases htok _ ht.token_eq
  have hnet₁ := hpayout.net_out
  have hnet₂ := hfee.net_out
  have hsplit := ht.payout_eq
  refine ⟨by omega, ?_⟩
  have hreleased : t.releasedAfter.val = (b.file id).releasedOf.val + gross.val :=
    ht.releasedAfter_eq
  have hbefore : (b.file id).locked = t.escrow.amount.val - (b.file id).releasedOf.val :=
    File.locked_of_open ht.escrow_eq (by rw [ht.active]; decide)
  have hafter : (b'.file id).locked = t.escrow.amount.val - t.releasedAfter.val := by
    rw [hfile]
    by_cases heq : t.releasedAfter = t.escrow.amount
    · rw [File.locked_of_settled rfl (if_pos heq), heq]
      omega
    · have hstatus : (t.escrowAfter i).status = t.escrow.status := if_neg heq
      exact File.locked_of_open (e := t.escrowAfter i) rfl (by rw [hstatus, ht.active]; decide)
  omega

theorem Resolve.net (h : b.Resolve id ruling b') (hb : b.Sound)
    (hfin : (Function.support fun j => (b.stake j).val).Finite)
    (htok : ∀ tok', b.settings.token = some tok' → tok' = tok) :
    b'.purse.net H.self tok - b.purse.net H.self tok = b'.liabilities - b.liabilities := by
  have hlocked := finsum_change (f := fun id' => (b.file id').locked)
    (g := fun id' => (b'.file id').locked) (Set.toFinite _)
    fun id' hne => congrArg File.locked (h.file_ne hne)
  obtain ⟨d, e, b₁, remaining, hdispute, hopen, hescrow, hremaining, hpay, hslashes, hstake,
      hslashed, hafter⟩ : ∃ d e b₁, ∃ remaining : I128, b.dispute id = some d ∧
      d.resolved = false ∧ b.escrow id = some e ∧
      remaining.val = e.amount.val - (b.file id).releasedOf.val ∧
      PaysPositive tok H.self (if b.ruling id = true then e.depositor else e.beneficiary)
        remaining b.purse b'.purse ∧
      b.Slashes (b.settings.slashBps.getD DEFAULT_SLASH_BPS) (b.minority id) b₁ ∧
      b'.stake = b₁.stake ∧ b'.slashed = b₁.slashed ∧
      (b'.file id).escrow = some { e with status := .settled } := by
    cases h with
    | intro _ hdispute hopen _ _ hslashes hescrow htoken hremaining hpay =>
      cases htok _ htoken
      exact ⟨_, _, _, _, hdispute, hopen, hescrow, hremaining, hpay, hslashes, rfl, rfl,
        Function.update_self ..⟩
  have hopen' : e.status ≠ .settled := by
    rw [(hb.proceedings hescrow).status_of_unresolved hdispute hopen]
    exact nofun
  have hlt := (hb.accounts hescrow).open_lt hopen'
  have hnet := (hpay.pays (by omega)).net_out
  have htotal := hslashes.total hfin
  have hbefore : (b.file id).locked = e.amount.val - (b.file id).releasedOf.val :=
    File.locked_of_open hescrow hopen'
  have hsettled : (b'.file id).locked = 0 := File.locked_of_settled hafter rfl
  rw [liabilities, liabilities, hstake, hslashed]
  omega

/-! Raising, committing and revealing leave what the escrow holds. -/

theorem liabilities_of_locked {id : U64} (hstake : b'.stake = b.stake)
    (hslashed : b'.slashed = b.slashed) (h : ∀ id', id' ≠ id → b'.file id' = b.file id')
    (hlocked : (b'.file id).locked = (b.file id).locked) : b'.liabilities = b.liabilities := by
  have hliab := liabilities_of_file hstake hslashed h
  omega

theorem Raise.locked_eq {reason : String} (h : b.Raise auth id caller reason b') :
    (b'.file id).locked = (b.file id).locked := by
  cases h with
  | @intro e _ _ hescrow hactive =>
    have hbefore : (b.file id).locked = e.amount.val - (b.file id).releasedOf.val :=
      File.locked_of_open hescrow (by rw [hactive]; exact nofun)
    rw [hbefore]
    exact File.locked_of_open (e := { e with status := .disputed }) (Function.update_self ..) nofun

theorem Commit.locked_eq {c : D} (h : b.Commit auth id juror c b') :
    (b'.file id).locked = (b.file id).locked := by
  cases h
  rfl

theorem Reveal.locked_eq {vote : Bool} {salt : Vector UInt8 32}
    (h : b.Reveal auth id juror vote salt b') : (b'.file id).locked = (b.file id).locked := by
  cases h
  rfl

end Book

/-! ### One step -/

/-- What a label adds to the contract's balance without its doing. -/
def Label.gift (tok : A) (before : Int) : Label H → Int
  | .tokens s => H.tokens.balance s tok H.self - before
  | _ => 0

namespace Book

variable {b b' : Book H} {l : Label H} {tok : A}

/-- Holdings and debts of the contract change together, gifts apart. -/
theorem Step.net (h : b.Step l b') (hb : b.Sound)
    (hfin : (Function.support fun j => (b.stake j).val).Finite)
    (htok : ∀ tok', b.settings.token = some tok' → tok' = tok) (hinit : l.Initialises = false) :
    b'.purse.net H.self tok - b.purse.net H.self tok =
      b'.liabilities - b.liabilities + l.gift tok (b.purse.balance tok H.self) := by
  cases h with
  | idle h =>
      have hgift : l.gift tok (b.purse.balance tok H.self) = 0 := by
        cases l with
        | tokens => cases h
        | call | failed | close => rfl
      omega
  | configure | close =>
      show b.purse.net H.self tok - b.purse.net H.self tok = b.liabilities - b.liabilities + 0
      omega
  | initialise => cases hinit
  | @tokens s =>
      let paid := (b.purse.transfers.map (selfPaid H.self tok)).sum
      show H.tokens.balance s tok H.self - paid - (b.purse.balance tok H.self - paid) =
        b.liabilities - b.liabilities + (H.tokens.balance s tok H.self - b.purse.balance tok H.self)
      omega
  | stake hself h =>
      obtain ⟨hnet, hliab⟩ := h.net hself hfin htok
      show _ = _ + 0
      omega
  | unstake h =>
      obtain ⟨hnet, hliab⟩ := h.net hfin htok
      show _ = _ + 0
      omega
  | opens hself hl h =>
      obtain ⟨hnet, hliab⟩ := h.net hself hb htok
      have hgift : l.gift tok (b.purse.balance tok H.self) = 0 := by cases hl <;> rfl
      omega
  | release h =>
      obtain ⟨hnet, hliab⟩ := h.net htok
      show _ = _ + 0
      omega
  | raise h =>
      have hpurse : b'.purse = b.purse := by cases h; rfl
      have hliab := liabilities_of_locked (by cases h; rfl) (by cases h; rfl)
        (fun id' hne => h.file_ne hne) h.locked_eq
      rw [hliab, hpurse]
      show _ = _ + 0
      omega
  | commit _ h =>
      have hpurse : b'.purse = b.purse := by cases h; rfl
      have hliab := liabilities_of_locked (by cases h; rfl) (by cases h; rfl)
        (fun id' hne => h.file_ne hne) h.locked_eq
      rw [hliab, hpurse]
      show _ = _ + 0
      omega
  | reveal _ h =>
      have hpurse : b'.purse = b.purse := by cases h; rfl
      have hliab := liabilities_of_locked (by cases h; rfl) (by cases h; rfl)
        (fun id' hne => h.file_ne hne) h.locked_eq
      rw [hliab, hpurse]
      show _ = _ + 0
      omega
  | resolve h =>
      have hnet := h.net hb hfin htok
      show _ = _ + 0
      omega

/-- `initialize` moves nothing and owes nothing. -/
theorem Step.of_initialises (h : b.Step l b') (tok : A) (hinit : l.Initialises = true) :
    b'.purse = b.purse ∧ b'.liabilities = b.liabilities ∧
      l.gift tok (b.purse.balance tok H.self) = 0 := by
  cases h with
  | initialise => exact ⟨rfl, rfl, rfl⟩
  | idle h =>
      cases l with
      | call _ c => cases c <;> cases h <;> cases hinit
      | failed | close | tokens => cases hinit
  | configure h => cases h <;> cases hinit
  | opens _ hl => cases hl <;> cases hinit
  | close | tokens | stake | unstake | release | raise | commit | reveal | resolve => cases hinit

theorem Step.gift_nonneg (h : b.Step l b') (tok : A) :
    0 ≤ l.gift tok (b.purse.balance tok H.self) := by
  cases l with
  | tokens s =>
      cases h with
      | idle h => cases h
      | tokens h => exact sub_nonneg.mpr (h tok)
      | opens _ hl => cases hl
  | call | failed | close => exact le_rfl

theorem Step.honest (h : b.Step l b') (hp : b.purse.Honest) : b'.purse.Honest := by
  cases h with
  | idle | configure | initialise | close => exact hp
  | tokens => exact hp
  | stake _ h =>
      cases h with
      | intro _ _ _ _ hmove => exact hmove.honest hp
  | unstake h =>
      cases h with
      | intro _ _ _ _ hmove => exact hmove.honest hp
  | opens _ _ h =>
      cases h.lock with
      | intro _ hmove => exact hmove.honest hp
  | release h =>
      cases h with
      | intro _ hpayout hfee => exact hfee.honest (hpayout.honest hp)
  | raise h => cases h; exact hp
  | commit _ h => cases h; exact hp
  | reveal _ h => cases h; exact hp
  | resolve h =>
      cases h with
      | intro _ _ _ _ _ _ _ _ _ hpay => exact hpay.honest hp

end Book

/-! ### A run -/

theorem Book.Blank.liabilities_eq {b : Book H} (hb : b.Blank) : b.liabilities = 0 := by
  have hlocked (id : U64) : (b.file id).locked = 0 := by
    rw [hb.file id]
    rfl
  rw [Book.liabilities, hb.slashed]
  simp [hlocked, hb.stake]

/-- What an active or disputed escrow still holds. -/
def Env.lockedOf (env : Env H) (id : U64) : Int :=
  match env.get (.escrow id) with
  | some e =>
      if e.status = .active ∨ e.status = .disputed then e.amount.val - (env.releasedOf id).val
      else 0
  | none => 0

/-- All that resolutions ever slashed, as their events say. -/
def Env.slashedTotal (env : Env H) : Int := (env.events.map Event.slashed).sum

theorem Env.lockedOf_eq (env : Env H) (id : U64) : env.lockedOf id = (env.book.file id).locked := by
  have hescrow : (env.book.file id).escrow = env.get (.escrow id) := rfl
  rw [File.locked, hescrow, lockedOf]
  cases env.get (.escrow id) with
  | none => rfl
  | some e => cases hs : e.status <;> simp [hs] <;> rfl

variable {env₀ env : Env H} {h : History H} {tok : A}

/-- What others sent to the contract in `tok`: what it held when it was deployed
    and what arrived without a call of it. -/
def donated (tok : A) (env₀ : Env H) (h : History H) : Int :=
  env₀.purse.balance tok H.self +
    (h.map fun t => t.label.gift tok (t.pre.purse.balance tok H.self)).sum

theorem donated_cons (tok : A) (env₀ : Env H) (t : Move (Env H) (Label H)) (h : History H) :
    donated tok env₀ (t :: h) =
      donated tok env₀ h + t.label.gift tok (t.pre.purse.balance tok H.self) := by
  simp only [donated, List.map_cons, List.sum_cons]
  omega

variable [DecidableEq D]

namespace SingleInit

/-- The custody equation, for the stored token and before there is one for any. -/
theorem net_eq (hs : SingleInit env₀ h env)
    (htok : ∀ tok', env.book.settings.token = some tok' → tok' = tok) :
    env.book.purse.net H.self tok = env.book.liabilities + donated tok env₀ h := by
  revert htok
  refine history_invariant (P := fun h b => (∀ tok', b.settings.token = some tok' → tok' = tok) →
    b.purse.net H.self tok = b.liabilities + donated tok env₀ h) ?_ ?_ hs
  · intro hb _
    rw [hb.liabilities_eq, Purse.net, hb.transfers]
    simp [donated, Env.book]
  · intro h env l env' hs hP hstep htok
    have hdonated : donated tok env₀ (⟨env, l, env'⟩ :: h) =
        donated tok env₀ h + l.gift tok (env.purse.balance tok H.self) := donated_cons ..
    cases hinit : l.Initialises with
    | true =>
        have hnone : env.book.settings.token = none := by rw [(hstep.blank hinit).settings]
        have hold := hP fun tok' htok' => by cases hnone.symm.trans htok'
        obtain ⟨hpurse, hliab, hgift⟩ := hstep.step.of_initialises tok hinit
        rw [hpurse, hliab, hdonated, hold]
        have hgift : l.gift tok (env.purse.balance tok H.self) = 0 := hgift
        omega
    | false =>
        have hold := htok
        rw [hstep.step.token_eq hinit] at hold
        have hnet := hstep.step.net hs.sound env.finite_stake hold hinit
        have hbefore := hP hold
        have hgift : l.gift tok (env.book.purse.balance tok H.self) =
            l.gift tok (env.purse.balance tok H.self) := rfl
        omega

/-- The log of transfers is honest and gifts only add, so the contract covers
    what it owes. -/
theorem covers (hs : SingleInit env₀ h env) (htok : env.inst .token = some tok) :
    env.book.liabilities ≤ env.purse.balance tok H.self := by
  have hgifts : 0 ≤ donated tok env₀ h := by
    refine history_invariant (P := fun h _ => 0 ≤ donated tok env₀ h) ?_ ?_ hs
    · intro _
      simpa [donated] using hs.fresh.balance_nonneg tok
    · intro h env l env' hs hP hstep
      have hgift : 0 ≤ l.gift tok (env.purse.balance tok H.self) := hstep.step.gift_nonneg tok
      have hdonated : donated tok env₀ (⟨env, l, env'⟩ :: h) =
          donated tok env₀ h + l.gift tok (env.purse.balance tok H.self) := donated_cons ..
      omega
  have hhonest : env.book.purse.Honest :=
    hs.invariant (P := fun b => b.purse.Honest)
      (fun b hb t ht => by rw [hb.transfers] at ht; cases ht)
      fun hP hstep => hstep.step.honest hP
  have hnet := hs.net_eq fun tok' htok' => Option.some.inj (htok'.symm.trans htok)
  have hself := hhonest.selfPaid_nonneg H.self tok
  have hbalance : env.purse.balance tok H.self = env.book.purse.net H.self tok +
      (env.book.purse.transfers.map (selfPaid H.self tok)).sum := by
    show _ = env.book.purse.balance tok H.self - _ + _
    show env.book.purse.balance tok H.self = _
    omega
  omega

end SingleInit

/-! ### The custody equation -/

/-- In every state of a deployment the contract's balance of the stored token is
    the stakes, what the active and disputed escrows still hold, everything ever
    slashed, what others sent it, and what it paid out to itself. -/
theorem custody_solvency (hs : SingleInit env₀ h env) (htok : env.inst .token = some tok) :
    (Function.support fun juror => (env.stakeOf juror).val).Finite ∧
      (Function.support fun id => env.lockedOf id).Finite ∧
      env.purse.balance tok H.self =
        ∑ᶠ juror, (env.stakeOf juror).val + ∑ᶠ id, env.lockedOf id + env.slashedTotal +
          donated tok env₀ h + (env.purse.transfers.map (selfPaid H.self tok)).sum := by
  refine ⟨env.finite_stake, Set.toFinite _, ?_⟩
  have hnet := hs.net_eq fun tok' htok' => Option.some.inj (htok'.symm.trans htok)
  have hlocked : ∑ᶠ id, env.lockedOf id = ∑ᶠ id, (env.book.file id).locked :=
    finsum_congr env.lockedOf_eq
  have hnet' : env.purse.balance tok H.self -
      (env.purse.transfers.map (selfPaid H.self tok)).sum =
      ∑ᶠ juror, (env.stakeOf juror).val + ∑ᶠ id, (env.book.file id).locked + env.slashedTotal +
        donated tok env₀ h := hnet
  omega

/-- A stake of 30, an escrow of 100, and 25 of it released. -/
def stakeAndRelease : List (Action Nat (List UInt8)) :=
  [.call (fun a => a == 1) (.initialise 1 9 DEFAULT_SLASH_BPS),
    .call (fun a => a == 3) (.stake 3 (.ofNat 30)),
    .call (fun a => a == 2) (.initEscrow 2 4
      ⟨[⟨"all", .ofNat 100, false, 0⟩], by decide⟩),
    .call (fun a => a == 2) (.releaseMilestoneTranche 1 0 (.ofNat 25) 2)]

theorem custody_solvency_sample :
    ∃ (h : History Host.plain) (env : Env Host.plain), SingleInit Env.deployed h env ∧
      env.inst .token = some 9 ∧ env.purse.balance 9 0 = 105 ∧
      env.purse.balance 9 0 =
        ∑ᶠ juror, (env.stakeOf juror).val + ∑ᶠ id, env.lockedOf id + env.slashedTotal +
          donated 9 Env.deployed h + (env.purse.transfers.map (selfPaid 0 9)).sum := by
  rcases Env.exists_of_plays stakeAndRelease
    (fun _ env => decide (env.inst .token = some 9 ∧ env.purse.balance 9 0 = 105))
    (by decide +kernel) with ⟨h, env, hs, hend⟩
  rcases of_decide_eq_true hend with ⟨htok, hbalance⟩
  exact ⟨h, env, hs, htok, hbalance, (custody_solvency hs htok).2.2⟩

end TrustFlow
