import TrustFlow.Commuting
import TrustFlow.Escape
import TrustFlow.Isolation
import TrustFlow.Keeper
import TrustFlow.Payouts
import TrustFlow.StakeLedger

/-!
# Exits stay open

Whoever may take tokens out of the contract need not hurry, as long as the
instance and the entries the exit reads are kept alive.  A release is shut only by
the parties of its escrow, an `unstake` only by its juror and by the disputes that
juror voted on, and a resolution by nothing but a resolution: when the reveal
window is over the ruling and the payment are settled, whoever calls.
-/

namespace TrustFlow

open Transition Purse Invocation

variable {A D : Type} [DecidableEq A] {H : Host A D}

/-- A call that `a` signed. -/
def Label.Signed (a : A) : Label H → Bool
  | .call auth _ _ | .failed auth _ _ => auth a
  | _ => false

/-! ### Entries that have not run out -/

/-- What a release of the milestone `i` reads. -/
def releaseReads (id : U64) (i : U32) : List (DataKey A) :=
  [.escrow id, .milestoneReleased ⟨id, i⟩, .escrowReleased id, .escrowFeeConfig id]

/-- The instance and the entries under `ks` have not run out. -/
structure Env.Alive (env : Env H) (ks : List (DataKey A)) : Prop where
  inst : env.now ≤ env.instanceLiveUntil
  entries : ∀ k ∈ ks, env.archived k = false

instance (env : Env H) (ks : List (DataKey A)) : Decidable (env.Alive ks) :=
  decidable_of_iff (env.now ≤ env.instanceLiveUntil ∧ ∀ k ∈ ks, env.archived k = false)
    ⟨fun h => ⟨h.1, h.2⟩, fun h => ⟨h.inst, h.entries⟩⟩

/-- A call on the host, which traps when the instance or an entry the call reads has
    run out. -/
def onHost {α : Type} (reads : Env H → List (DataKey A)) (x : Op H α) (auth : A → Bool)
    (env : Env H) : Option (α × Env H) :=
  if env.Alive (reads env) then (x auth env).toOption else none

theorem onHost_of_ok {α : Type} {reads : Env H → List (DataKey A)} {x : Op H α} {auth : A → Bool}
    {env env' : Env H} {a : α} (halive : env.Alive (reads env)) (hok : x auth env = .ok (a, env')) :
    onHost reads x auth env = some (a, env') := by
  rw [onHost, if_pos halive, hok]
  rfl

/-- On the host the call returns `a` at `env'`, and it pays what it paid out from `env`
    to `env₁`. -/
def PaysAlike {α : Type} (reads : Env H → List (DataKey A)) (x : Op H α) (auth : A → Bool)
    (env env₁ env' : Env H) (a : α) : Prop :=
  ∃ env₁', onHost reads x auth env' = some (a, env₁') ∧
    since env'.purse env₁'.purse = since env.purse env₁.purse

/-! ### One step -/

theorem Tranche.Admissible.unique {b : Book H} {t t' : Tranche A} {i : U32} {auth auth' : A → Bool}
    {id : U64} {gross : I128} {caller : A} (h : t.Admissible b i auth id gross caller)
    (h' : t'.Admissible b i auth' id gross caller) : t' = t := by
  have htoken := Option.some.inj (h'.token_eq.symm.trans h.token_eq)
  calc t' = { t with token := t'.token } := h.agree h' rfl
    _ = t := by rw [htoken]

/-- `c` is `b` later on, with the file of `id` and the token as they were. -/
structure Book.Awaits (b : Book H) (id : U64) (c : Book H) : Prop where
  file : c.file id = b.file id
  token : c.settings.token = b.settings.token
  now : b.sequence.val ≤ c.sequence.val

namespace Book.Awaits

variable {b c c' : Book H} {id : U64} {l : Label H}

theorem refl (b : Book H) (id : U64) : b.Awaits id b := ⟨rfl, rfl, le_rfl⟩

theorem step (h : b.Awaits id c) (hstep : c.Step l c') (hl : l.Initialises = false)
    (hfile : c'.file id = c.file id) : b.Awaits id c' :=
  ⟨hfile.trans h.file, (hstep.token_eq hl).trans h.token, h.now.trans hstep.sequence_le⟩

end Book.Awaits

/-- A release computes the same as long as the file and the token are the same. -/
theorem Tranche.Admissible.later {b c : Book H} {t : Tranche A} {i : U32} {auth : A → Bool}
    {id : U64} {gross : I128} {caller : A} (h : t.Admissible b i auth id gross caller)
    (hpaused : c.settings.isPaused = false) (hc : b.Awaits id c) :
    t.Admissible c i auth id gross caller where
  hauth := h.hauth
  notPaused := hpaused
  gross_pos := h.gross_pos
  escrow_eq := (congrArg File.escrow hc.file).trans h.escrow_eq
  caller_eq := h.caller_eq
  active := h.active
  milestone_eq := h.milestone_eq
  unlocked := h.unlocked.trans hc.now
  milestoneAfter_eq := by
    rw [h.milestoneAfter_eq]
    exact congrArg (fun f => (f.milestoneReleasedOf i).val + gross.val) hc.file.symm
  milestone_le := h.milestone_le
  releasedAfter_eq := by
    rw [h.releasedAfter_eq]
    exact congrArg (fun f => f.releasedOf.val + gross.val) hc.file.symm
  released_le := h.released_le
  feeConfig_eq := (congrArg File.feeConfig hc.file).trans h.feeConfig_eq
  feeBefore_eq := by
    rw [← h.feeBefore_eq]
    exact congrArg (fun f => cumulativeFee f.releasedOf t.feeConfig.feeBps) hc.file
  feeAfter_eq := h.feeAfter_eq
  fee_eq := h.fee_eq
  payout_eq := h.payout_eq
  token_eq := hc.token.trans h.token_eq

namespace Book

variable {b b' : Book H} {l : Label H} {id : U64} {e : EscrowRecord A} {d : DisputeRecord A}

/-- Only its parties touch an active escrow. -/
theorem Step.file_of_unsigned (h : b.Step l b') (hb : b.Sound) (he : b.escrow id = some e)
    (hactive : e.status = .active) (hdepositor : l.Signed e.depositor = false)
    (hbeneficiary : l.Signed e.beneficiary = false) : b'.file id = b.file id := by
  have hundisputed : b.dispute id = none := (hb.proceedings he).active hactive
  cases h.on_file id with
  | untouched _ hsame => exact hsame
  | opened _ _ hopen =>
      have hempty : b.escrow id = none := congrArg File.escrow (hb.unusedAbove.opens hopen)
      cases hempty.symm.trans he
  | released ht =>
      cases he.symm.trans ht.escrow_eq
      cases hdepositor.symm.trans (ht.caller_eq ▸ ht.hauth)
  | raised hraise =>
      cases hraise with
      | intro hauth _ he' _ hparty =>
        cases he.symm.trans he'
        rcases hparty with rfl | rfl
        · cases hdepositor.symm.trans hauth
        · cases hbeneficiary.symm.trans hauth
  | committed _ _ _ hd => cases hundisputed.symm.trans hd
  | revealed _ _ hd => cases hundisputed.symm.trans hd
  | resolved _ hd => cases hundisputed.symm.trans hd

/-- The windows of every dispute follow each other. -/
def WindowsOrdered (b : Book H) : Prop :=
  ∀ id d, b.dispute id = some d → d.commitDeadline.val ≤ d.revealDeadline.val

theorem WindowsOrdered.step (hw : b.WindowsOrdered) (h : b.Step l b') : b'.WindowsOrdered := by
  intro id d hd
  have hkept (hsame : b'.dispute id = b.dispute id) :
      d.commitDeadline.val ≤ d.revealDeadline.val := hw id d (hsame ▸ hd)
  cases h.on_file id with
  | untouched _ hsame => exact hkept (congrArg File.dispute hsame)
  | opened _ _ _ _ hnew => exact hkept (congrArg File.dispute hnew)
  | released _ _ _ hnew => exact hkept (congrArg File.dispute hnew)
  | @raised _ caller reason _ _ _ _ _ hnew =>
      cases (congrArg File.dispute hnew).symm.trans hd
      have hreveal := DisputeRecord.raised_revealDeadline id caller reason b.sequence
      have hcommit := (DisputeRecord.raised id caller reason b.sequence).commitDeadline.le_hi
      omega
  | committed _ _ _ _ _ _ _ hnew => exact hkept (congrArg File.dispute hnew)
  | revealed _ _ _ _ _ _ _ _ _ hnew => exact hkept (congrArg File.dispute hnew)
  | @resolved _ _ d' _ _ _ hold _ _ _ _ hnew =>
      cases (congrArg File.dispute hnew).symm.trans hd
      exact hw id d' hold

/-- When its reveal window is over only a resolution touches a dispute. -/
theorem Step.file_of_closed (h : b.Step l b') (hb : b.Sound) (hw : b.WindowsOrdered)
    (hd : b.dispute id = some d) (hopen : d.resolved = false)
    (hdeadline : d.revealDeadline.val ≤ b.sequence.val) : b'.file id = b.file id ∨
      ∃ auth ruling, l = .call auth (.resolveDispute id) ruling ∧ b.Resolve id ruling b' := by
  rcases (hb.file id).escrow_of_dispute hd with ⟨e, he⟩
  have hstatus := (hb.proceedings he).status_of_unresolved hd hopen
  have hinactive := hstatus.trans_ne EscrowStatus.disputed_ne_active
  have hordered := hw id d hd
  cases h.on_file id with
  | untouched _ hsame => exact .inl hsame
  | opened _ _ hopen' =>
      have hempty : b.escrow id = none := congrArg File.escrow (hb.unusedAbove.opens hopen')
      cases hempty.symm.trans he
  | released ht =>
      cases he.symm.trans ht.escrow_eq
      exact absurd ht.active hinactive
  | raised _ he' hactive =>
      cases he.symm.trans he'
      exact absurd hactive hinactive
  | committed _ _ _ hd' _ hwindow =>
      cases hd.symm.trans hd'
      omega
  | revealed _ _ hd' _ _ huntil =>
      cases hd.symm.trans hd'
      omega
  | resolved hres => exact .inr ⟨_, _, rfl, hres⟩

/-- No revealed vote of the juror is on an open dispute. -/
def Disengaged (b : Book H) (juror : A) : Prop :=
  ∀ id d, b.dispute id = some d → d.resolved = false → b.vote id juror = none

variable {juror : A}

theorem Disengaged.step (hj : b.Disengaged juror) (h : b.Step l b') (hb : b.Sound)
    (hl : l.Signed juror = false) : b'.Disengaged juror := by
  intro id d hd hopen
  have hkept (hdispute : b'.dispute id = b.dispute id) (hvote : b'.vote id = b.vote id) :
      b'.vote id juror = none := by
    rw [hvote]
    exact hj id d (hdispute ▸ hd) hopen
  cases h.on_file id with
  | untouched _ hsame => exact hkept (congrArg File.dispute hsame) (congrArg File.vote hsame)
  | opened _ _ _ _ hnew => exact hkept (congrArg File.dispute hnew) (congrArg File.vote hnew)
  | released _ _ _ hnew => exact hkept (congrArg File.dispute hnew) (congrArg File.vote hnew)
  | raised _ he hactive hnew =>
      -- a dispute starts without votes
      have hvote : b'.vote id = b.vote id := congrArg File.vote hnew
      rw [hvote]
      exact ((hb.proceedings he).quiet ((hb.proceedings he).active hactive)).2.2 juror
  | committed _ _ _ _ _ _ _ hnew =>
      exact hkept (congrArg File.dispute hnew) (congrArg File.vote hnew)
  | @revealed _ juror' vote _ _ _ _ _ hauth hold hunresolved _ _ _ _ _ hnew =>
      have hne : juror ≠ juror' := by
        rintro rfl
        cases hl.symm.trans hauth
      have hvote : b'.vote id = Function.update (b.vote id) juror' (some vote) :=
        congrArg File.vote hnew
      rw [hvote, Function.update_of_ne hne]
      exact hj id _ hold hunresolved
  | resolved _ _ _ _ _ _ hnew =>
      cases (congrArg File.dispute hnew).symm.trans hd
      cases hopen

/-- The stake of a juror who does nothing and has nothing at stake stays. -/
theorem Disengaged.stake_eq (hj : b.Disengaged juror) (h : b.Step l b') (hb : b.Sound)
    (hl : l.Signed juror = false) : b'.stake juror = b.stake juror := by
  have hother {auth : A → Bool} {juror' : A} {total : I128} (hauth : auth juror' = true)
      (hunsigned : auth juror = false)
      (hstake : b'.stake = Function.update b.stake juror' total) :
      b'.stake juror = b.stake juror := by
    have hne : juror ≠ juror' := by
      rintro rfl
      cases hunsigned.symm.trans hauth
    rw [hstake, Function.update_of_ne hne]
  cases h.on_stakes with
  | untouched hstake => rw [hstake]
  | staked _ hauth _ _ hstake => exact hother hauth hl hstake
  | unstaked hauth _ _ hstake => exact hother hauth hl hstake
  | @slashed _ id _ _ _ hslashes hstake =>
      have hspared : juror ∉ b.minority id := by
        rw [hb.mem_minority]
        cases h.on_file id with
        | untouched hother => exact absurd rfl hother
        | opened _ hopens => cases hopens
        | resolved _ hd hopen =>
            rw [hj id _ hd hopen]
            exact nofun
      rw [hstake]
      exact (hslashes.of_not_mem hspared).1

end Book

/-! ### Over a run -/

section Runs

variable [DecidableEq D] {env₀ env env' : Env H} {g h : History H} {id : U64}

/-- The dispute was resolved on the way, with this ruling and these transfers. -/
def ResolvedAs (id : U64) (ruling : Bool) (ts : List (Transfer A)) (g : History H) : Prop :=
  ∃ t ∈ g, ∃ auth, t.label = .call auth (.resolveDispute id) ruling ∧
    since t.pre.purse t.post.purse = ts

namespace SingleInit

/-- What every step allowed by `G` keeps of a sound book, a run of them keeps. -/
theorem continues {G : Label H → Prop} {P : Book H → Prop} (hs : SingleInit env₀ h env)
    (hr : Run Step env g env') (hG : ∀ t ∈ g, t.label.Initialises = false ∧ G t.label)
    (h0 : P env.book)
    (hstep : ∀ {b l b'}, b.Sound → P b → b.Step l b' → l.Initialises = false → G l → P b') :
    P env'.book := by
  refine (Run.invariant_of_guard (G := fun t => t.label.Initialises = false ∧ G t.label)
    (P := fun env => env.book.Sound ∧ P env.book) ⟨hs.sound, h0⟩ ?_ hr hG).2
  rintro s l s' ⟨hb, hP⟩ hs ⟨hinit, hl⟩
  have hsafe : s.book.Safe l s'.book := ⟨hs.book, fun h => by cases hinit.symm.trans h⟩
  exact ⟨hb.step hsafe, hstep hb hP hs.book hinit hl⟩

theorem windowsOrdered (hs : SingleInit env₀ h env) : env.book.WindowsOrdered := by
  refine hs.invariant ?_ fun hw hstep => hw.step hstep.step
  intro b hb id d hd
  have hnone : b.dispute id = none := congrArg File.dispute (hb.file id)
  cases hnone.symm.trans hd

section Exits

variable {auth : A → Bool} {i : U32} {gross amount : I128} {caller juror : A} {ruling : Bool}
  {env₁ : Env H}

/-- A release others cannot take away: it goes through later as it would have before. -/
theorem release_stays_open {e : EscrowRecord A} (hs : SingleInit env₀ h env)
    (hpays : H.tokens.PaysFrom H.self) (hr : Run Step env g env')
    (hinit : ∀ t ∈ g, t.label.Initialises = false) (hpaused : env'.isPaused = false)
    (he : env.get (.escrow id) = some e)
    (hparties : ∀ t ∈ g, t.label.Signed e.depositor = false ∧ t.label.Signed e.beneficiary = false)
    (hok : (releaseMilestoneTranche id i gross caller : Op H Unit) auth env = .ok ((), env₁)) :
    ∃ env₁', (releaseMilestoneTranche id i gross caller : Op H Unit) auth env' = .ok ((), env₁') ∧
      since env'.purse env₁'.purse = since env.purse env₁.purse := by
  rcases releaseMilestoneTranche_eq_ok.mp hok with ⟨t, ht, p, hpayout, p', hfee, rfl⟩
  cases he.symm.trans ht.escrow_eq
  have hkept : env.book.Awaits id env'.book := by
    refine hs.continues (G := fun l => l.Signed t.escrow.depositor = false ∧
      l.Signed t.escrow.beneficiary = false) (P := fun b => env.book.Awaits id b) hr
      (fun t' ht' => ⟨hinit t' ht', hparties t' ht'⟩) (.refl _ _) ?_
    rintro b l b' hb hkept hstep hl ⟨hdepositor, hbeneficiary⟩
    have he : b.escrow id = some t.escrow := (congrArg File.escrow hkept.file).trans ht.escrow_eq
    exact hkept.step hstep hl (hstep.file_of_unsigned hb he ht.active hdepositor hbeneficiary)
  have hlater : t.Admissible env'.book i auth id gross caller := ht.later hpaused hkept
  have hafter := hlater.milestoneAfter_eq
  have hle := hlater.milestone_le
  have hreleasable : env'.Releasable id i gross caller :=
    ⟨t.escrow, t.milestone, hlater.escrow_eq, ht.active, ht.caller_eq, ht.milestone_eq,
      hlater.unlocked, ht.gross_pos, hafter.symm.trans_le hle⟩
  rcases (hs.extend hr hinit).release_succeeds hpays hlater.token_eq hpaused ht.hauth hreleasable
    with ⟨env₁', hok'⟩
  refine ⟨env₁', hok', ?_⟩
  rcases releaseMilestoneTranche_eq_ok.mp hok' with ⟨t', ht', q, hpayout', q', hfee', rfl⟩
  have hsame := hlater.unique ht'
  subst hsame
  exact (hpayout'.since_pays hfee').trans (hpayout.since_pays hfee).symm

/-- From the end of its reveal window on a dispute waits for its resolution. -/
theorem resolved_or_awaits {d : DisputeRecord A} {b₁ : Book H} (hs : SingleInit env₀ h env)
    (hr : Run Step env g env') (hinit : ∀ t ∈ g, t.label.Initialises = false)
    (hres : env.book.Resolve id ruling b₁) (hd : env.book.dispute id = some d)
    (hopen : d.resolved = false) (hdeadline : d.revealDeadline.val ≤ env.sequence.val) :
    ResolvedAs id ruling (since env.purse b₁.purse) g ∨ env.book.Awaits id env'.book := by
  induction hr with
  | nil => exact .inr (.refl _ _)
  | @snoc g s l s' hr hstep ih =>
      have hearlier : ∀ t ∈ g, t.label.Initialises = false := fun t ht =>
        hinit t (List.mem_cons_of_mem _ ht)
      have hs' := hs.extend hr hearlier
      rcases ih hearlier with ⟨t, ht, hdone⟩ | hkept
      · exact .inl ⟨t, List.mem_cons_of_mem _ ht, hdone⟩
      · have hd' : s.book.dispute id = some d := (congrArg File.dispute hkept.file).trans hd
        rcases hstep.book.file_of_closed hs'.sound hs'.windowsOrdered hd' hopen
          (hdeadline.trans hkept.now) with hsame | ⟨auth, ruling', rfl, hres'⟩
        · exact .inr (hkept.step hstep.book (hinit _ List.mem_cons_self) hsame)
        · rcases hres.agree hres' hkept.file hkept.token with ⟨rfl, hsince⟩
          exact .inl ⟨_, List.mem_cons_self, auth, rfl, hsince⟩

/-- A resolution that is due is made once, by whoever comes first, and always the same. -/
theorem resolution_stays_open (hs : SingleInit env₀ h env) (hpays : H.tokens.PaysFrom H.self)
    (hr : Run Step env g env') (hinit : ∀ t ∈ g, t.label.Initialises = false)
    (hpaused : env'.isPaused = false)
    (hok : (resolveDispute id : Op H Bool) auth env = .ok (ruling, env₁)) :
    ResolvedAs id ruling (since env.purse env₁.purse) g ∨
    (env'.CountsLeft id → ∃ env₁', (resolveDispute id : Op H Bool) auth env' =
      .ok (ruling, env₁') ∧ since env'.purse env₁'.purse = since env.purse env₁.purse) := by
  have hres := resolveDispute_book.mp ⟨env₁, hok, rfl⟩
  rcases hres.resolvable with ⟨d, hd, hopen, hdeadline, hvoters⟩
  refine (hs.resolved_or_awaits hr hinit hres hd hopen hdeadline).imp_right fun hkept hcounts => ?_
  have hs' := hs.extend hr hinit
  rcases hres.started with ⟨-, tok, htok⟩
  have hdispute : env'.get (.dispute id) = some d :=
    (congrArg File.dispute hkept.file).trans hd
  have hreveals : env'.votersOf id = env.votersOf id :=
    congrArg (·.voters.getD Vec.empty) hkept.file
  have hresolvable : env'.Resolvable id :=
    ⟨d, hdispute, hopen, hdeadline.trans hkept.now, hreveals ▸ hvoters⟩
  rcases hs'.resolve_succeeds auth hpays (hkept.token.trans htok) hpaused hcounts hresolvable with
    ⟨ruling', env₁', hok'⟩
  have hres' := resolveDispute_book.mp ⟨env₁', hok', rfl⟩
  rcases hres.agree hres' hkept.file hkept.token with ⟨rfl, hsince⟩
  exact ⟨env₁', hok', hsince⟩

/-- A stake that is not voted with stays at its juror's disposal. -/
theorem unstake_stays_open (hs : SingleInit env₀ h env) (hpays : H.tokens.PaysFrom H.self)
    (hr : Run Step env g env') (hinit : ∀ t ∈ g, t.label.Initialises = false)
    (hpaused : env'.isPaused = false) (hfree : env.book.Disengaged juror)
    (hjuror : ∀ t ∈ g, t.label.Signed juror = false)
    (hok : (unstake juror amount : Op H Unit) auth env = .ok ((), env₁)) :
    ∃ env₁', (unstake juror amount : Op H Unit) auth env' = .ok ((), env₁') ∧
      since env'.purse env₁'.purse = since env.purse env₁.purse := by
  rcases unstake_eq_ok.mp hok with ⟨hauth, -, hle, tok, htok, p, hmove, total, -, rfl⟩
  have hkept : env'.book.Disengaged juror ∧ env'.book.stake juror = env.book.stake juror ∧
      env'.book.settings.token = env.book.settings.token := by
    refine hs.continues (G := fun l => l.Signed juror = false) (P := fun b => b.Disengaged juror ∧
      b.stake juror = env.book.stake juror ∧ b.settings.token = env.book.settings.token) hr
      (fun t ht => ⟨hinit t ht, hjuror t ht⟩) ⟨hfree, rfl, rfl⟩ ?_
    rintro b l b' hb ⟨hfree, hstake, htoken⟩ hstep hl hunsigned
    exact ⟨hfree.step hstep hb hunsigned, (hfree.stake_eq hstep hb hunsigned).trans hstake,
      (hstep.token_eq hl).trans htoken⟩
  rcases hkept with ⟨-, hstake, htoken⟩
  have htok' : env'.inst .token = some tok := htoken.trans htok
  have hstake : env'.stakeOf juror = env.stakeOf juror := hstake
  rcases ((hs.extend hr hinit).unstake_succeeds_iff hpays htok' hpaused hauth).mpr
    ⟨hmove.nonneg, hstake ▸ hle⟩ with ⟨env₁', hok'⟩
  rcases unstake_eq_ok.mp hok' with ⟨-, -, -, tok₁, htok₁, p', hmove', _, -, rfl⟩
  cases htok'.symm.trans htok₁
  exact ⟨_, hok', hmove'.since_eq.trans hmove.since_eq.symm⟩

end Exits

end SingleInit

/-- Exits stay open: whatever others do from any reachable state on, as long as the
    contract is not paused and what the exit reads has not run out, a release its caller
    could make it can make then, until a party of the escrow acts; an `unstake` as well,
    until its juror acts, if none of its votes is pending; and a resolution that could be
    made either can be made by anybody or was made.  The payments are the same
    throughout. -/
theorem exits_stay_open (hs : SingleInit env₀ h env) (hpays : H.tokens.PaysFrom H.self)
    (hr : Run Step env g env') (hinit : ∀ t ∈ g, t.label.Initialises = false)
    (hpaused : env'.isPaused = false) (auth : A → Bool) (env₁ : Env H) :
    (∀ id i gross caller e, env.get (.escrow id) = some e → env'.Alive (releaseReads id i) →
      (∀ t ∈ g, t.label.Signed e.depositor = false ∧ t.label.Signed e.beneficiary = false) →
      (releaseMilestoneTranche id i gross caller : Op H Unit) auth env = .ok ((), env₁) →
      PaysAlike (fun _ => releaseReads id i) (releaseMilestoneTranche id i gross caller) auth env
        env₁ env' ()) ∧
    (∀ juror amount, (∀ id d, env.get (.dispute id) = some d → d.resolved = false →
        env.get (.jurorVote ⟨id, juror⟩) = none) → env'.Alive [.jurorStake juror] →
      (∀ t ∈ g, t.label.Signed juror = false) →
      (unstake juror amount : Op H Unit) auth env = .ok ((), env₁) →
      PaysAlike (fun _ => [.jurorStake juror]) (unstake juror amount) auth env env₁ env' ()) ∧
    ∀ id ruling, (resolveDispute id : Op H Bool) auth env = .ok (ruling, env₁) →
      ResolvedAs id ruling (since env.purse env₁.purse) g ∨
      (env'.CountsLeft id → env'.Alive (env'.resolveReads id) →
        PaysAlike (fun env => env.resolveReads id) (resolveDispute id) auth env env₁ env'
          ruling) := by
  refine ⟨?_, ?_, ?_⟩
  · intro id i gross caller e he halive hparties hok
    rcases hs.release_stays_open hpays hr hinit hpaused he hparties hok with ⟨env₁', hok', hsame⟩
    exact ⟨env₁', onHost_of_ok halive hok', hsame⟩
  · intro juror amount hfree halive hjuror hok
    rcases hs.unstake_stays_open hpays hr hinit hpaused hfree hjuror hok with ⟨env₁', hok', hsame⟩
    exact ⟨env₁', onHost_of_ok halive hok', hsame⟩
  · intro id ruling hok
    refine (hs.resolution_stays_open hpays hr hinit hpaused hok).imp_right
      fun hlater hcounts halive => ?_
    rcases hlater hcounts with ⟨env₁', hok', hsame⟩
    exact ⟨env₁', onHost_of_ok halive hok', hsame⟩

end Runs

/-- An escrow of 800 to be released, and a dispute over another that juror 5 decides. -/
def dueExits : List (Action Nat (List UInt8)) :=
  [.call (fun a => a == 1) (.initialise 1 9 DEFAULT_SLASH_BPS),
    .call (fun a => a == 2) (.initEscrow 2 4 ⟨[⟨"all", .ofNat 800, false, 0⟩], by decide⟩),
    .call (fun a => a == 4) (.createEscrow 4 2 (.ofNat 50)),
    .call (fun a => a == 5) (.stake 5 (.ofNat 30)),
    .call (fun a => a == 4) (.raiseDispute (.ofNat 2) 4 "late"),
    .call (fun a => a == 5) (.commitVote (.ofNat 2) 5 (1 :: List.replicate 32 8)),
    .close (.ofNat 17281),
    .call (fun a => a == 5) (.revealVote (.ofNat 2) 5 true (Vector.replicate 32 8)),
    .close (.ofNat 34561)]

/-- Much later, after a stake, a pause and an unpause, both payments are still there. -/
theorem exits_stay_open_sample : ∃ (h g : History Host.plain) (env env' env₁ env₂ : Env Host.plain),
    SingleInit Env.deployed h env ∧ Run Step env g env' ∧ env'.sequence.val = 50000 ∧
    onHost (fun _ => releaseReads 1 0) (releaseMilestoneTranche 1 0 (.ofNat 800) 2)
      (fun a => a == 2) env' = some ((), env₁) ∧
    since env'.purse env₁.purse = [⟨9, 0, 1, .ofNat 4⟩, ⟨9, 0, 4, .ofNat 796⟩] ∧
    onHost (fun env => env.resolveReads (.ofNat 2)) (resolveDispute (.ofNat 2))
      (fun a => a == 2) env' = some (true, env₂) ∧
    since env'.purse env₂.purse = [⟨9, 0, 4, .ofNat 50⟩] := by
  rcases Env.exists_of_plays dueExits
    (fun _ env => (env.play [.call (fun a => a == 3) (.stake 3 (.ofNat 10)),
        .call (fun a => a == 1) (.pause 1), .close (.ofNat 50000),
        .call (fun a => a == 1) (.unpause 1)]).any
      (fun p : History Host.plain × Env Host.plain => p.1.all (fun t => decide (
        t.label.Initialises = false ∧ t.label.escrow? = none ∧ t.label.Signed 2 = false ∧
        t.label.Signed 4 = false)) && decide (p.2.isPaused = false ∧ p.2.sequence.val = 50000 ∧
        p.2.book.minority (.ofNat 2) = [] ∧ p.2.Alive (releaseReads 1 0) ∧
        p.2.Alive (p.2.resolveReads (.ofNat 2)))) &&
      decide ((env.get (.escrow 1)).map (fun e => (e.depositor, e.beneficiary)) = some (2, 4)) &&
      ((releaseMilestoneTranche 1 0 (.ofNat 800) 2 : Op Host.plain Unit) (fun a => a == 2)
        env).toOption.any (fun q : Unit × Env Host.plain => decide (since env.purse q.2.purse =
          [⟨9, 0, 1, .ofNat 4⟩, ⟨9, 0, 4, .ofNat 796⟩])) &&
      ((resolveDispute (.ofNat 2) : Op Host.plain Bool) (fun a => a == 2) env).toOption.any
        fun q : Bool × Env Host.plain => q.1 && decide (since env.purse q.2.purse =
          [⟨9, 0, 4, .ofNat 50⟩]))
    (by decide +kernel) with ⟨h, env, hs, hend⟩
  simp only [Bool.and_eq_true, Option.any_eq_true, List.all_eq_true, decide_eq_true_eq] at hend
  rcases hend with ⟨⟨⟨⟨⟨g, env'⟩, hplay, hall, hpaused, hnow, hnobody, halive₁, halive₂⟩,
    hparties⟩, ⟨⟨⟩, e₁⟩, hrelease, hpaid⟩, ⟨ruling, e₂⟩, hresolve, rfl, hsettled⟩
  have hr := Env.play_run hplay
  have hopen := exits_stay_open hs (Tokens.balances_paysFrom 0) hr (fun t ht => (hall t ht).1)
    hpaused fun a => a == 2
  rcases Option.map_eq_some_iff.mp hparties with ⟨e, he, hnames⟩
  rcases Prod.mk.inj hnames with ⟨hdepositor, hbeneficiary⟩
  rcases (hopen e₁).1 1 0 _ 2 e he halive₁
    (fun t ht => by rw [hdepositor, hbeneficiary]; exact (hall t ht).2.2)
    (toOption_eq_some.mp hrelease) with ⟨env₁, hok₁, hsame₁⟩
  rcases (hopen e₂).2.2 (.ofNat 2) true (toOption_eq_some.mp hresolve) with
    ⟨t, ht, auth', hl, -⟩ | hlater
  · have hnone := (hall t ht).2.1
    rw [hl] at hnone
    cases hnone
  · rcases hlater (fun juror hj => by rw [hnobody] at hj; cases hj) halive₂ with
      ⟨env₂, hok₂, hsame₂⟩
    exact ⟨h, g, env, env', env₁, env₂, hs, hr, hnow, hok₁, hsame₁.trans hpaid, hok₂,
      hsame₂.trans hsettled⟩

end TrustFlow
