import TrustFlow.Calls

/-!
# The contract as a machine on books

`Book.Step` is the abstract machine: what each kind of label does to the book,
with the guards it passed.  `Step.book` is the refinement: a step of the
contract is a step of the book machine under the same label.
-/

namespace TrustFlow

open Invocation Transition Purse

variable {A D : Type} [DecidableEq A] {H : Host A D}

/-! ### Administrative calls -/

/-- The flag is written only when it changes. -/
def Settings.setPaused (s : Settings A) (flag : Bool) : Settings A :=
  if s.isPaused = flag then s else { s with paused := some flag }

/-- The calls of the admin, and of the pauser, that change the settings. -/
inductive Settings.Configures (s : Settings A) (auth : A → Bool) : Call A D → Settings A → Prop
  | setFeeBps {caller : A} {n : U32} (hauth : auth caller = true) (hadmin : s.admin = some caller)
      (hle : n.val ≤ 1000) : Configures s auth (.setFeeBps caller n) { s with feeBps := some n }
  | setTreasury {caller treasury : A} (hauth : auth caller = true)
      (hadmin : s.admin = some caller) :
      Configures s auth (.setTreasury caller treasury) { s with treasury := some treasury }
  | setPauser {caller pauser : A} (hauth : auth caller = true) (hadmin : s.admin = some caller) :
      Configures s auth (.setPauser caller pauser) { s with pauser := some pauser }
  | revokePauser {caller : A} (hauth : auth caller = true) (hadmin : s.admin = some caller) :
      Configures s auth (.revokePauser caller) { s with pauser := none }
  | pause {caller admin : A} (hauth : auth caller = true) (hadmin : s.admin = some admin)
      (hrole : caller = admin ∨ s.pauser = some caller) :
      Configures s auth (.pause caller) (s.setPaused true)
  | unpause {caller : A} (hauth : auth caller = true) (hadmin : s.admin = some caller) :
      Configures s auth (.unpause caller) (s.setPaused false)

/-- The settings `initialize` leaves. -/
def Settings.initialised (s : Settings A) (admin token : A) (slashBps : U32) : Settings A :=
  { s with
    admin := some admin
    token := some token
    slashBps := some slashBps
    feeBps := some DEFAULT_FEE_BPS
    treasury := some admin }

theorem Env.book_setPaused {env : Env H} {flag : Bool} {topic : String} {data : EventData A}
    (hslash : Event.slashed ⟨[.symbol "circuit", .symbol topic], data⟩ = 0) :
    (env.setPaused flag topic data).book =
      { env.book with settings := env.book.settings.setPaused flag } := by
  have hp : env.isPaused = env.book.settings.isPaused := rfl
  by_cases h : env.isPaused = flag
  · rw [Env.setPaused, if_pos h, Settings.setPaused, if_pos (hp ▸ h)]
    rfl
  · rw [Env.setPaused, if_neg h, Settings.setPaused, if_neg (hp ▸ h)]
    simp [hslash, Event.trancheFee]

/-! ### The machine -/

variable [DecidableEq D]

/-- Calls that read or extend lifetimes only. -/
def Call.ReadOnly : Call A D → Bool
  | .getFeeBps | .getTreasury | .getPauser | .isPaused | .getStake _ | .getSlashCount _ => true
  | .bumpJurorStakeTtl _ | .bumpEscrowTtl _ => true
  | _ => false

/-- Labels that leave the book alone. -/
def Label.Idle : Label H → Bool
  | .call _ c _ => c.ReadOnly
  | .failed .. => true
  | _ => false

inductive Book.Step (b : Book H) : Label H → Book H → Prop
  | idle {l : Label H} (h : l.Idle = true) : Step b l b
  | configure {auth : A → Bool} {c : Call A D} {r : c.Result} {s : Settings A}
      (h : b.settings.Configures auth c s) : Step b (.call auth c r) { b with settings := s }
  | initialise {auth : A → Bool} {admin token : A} {slashBps : U32}
      (hself : auth H.self = false) (hauth : auth admin = true) (hbps : slashBps.val ≤ 10000) :
      Step b (.call auth (.initialise admin token slashBps) ())
        { b with
          settings := b.settings.initialised admin token slashBps
          escrowCounter := some 0 }
  | close {n : U32} (h : b.sequence.val ≤ n.val) : Step b (.close n) { b with sequence := n }
  | tokens {s : H.tokens.State}
      (h : ∀ tok, b.purse.balance tok H.self ≤ H.tokens.balance s tok H.self) :
      Step b (.tokens s) { b with purse := ⟨s, b.purse.transfers⟩ }
  | stake {auth : A → Bool} {juror : A} {amount : I128} {b' : Book H}
      (hself : auth H.self = false) (h : b.Stake auth juror amount b') :
      Step b (.call auth (.stake juror amount) ()) b'
  | unstake {auth : A → Bool} {juror : A} {amount : I128} {b' : Book H}
      (h : b.Unstake auth juror amount b') : Step b (.call auth (.unstake juror amount) ()) b'
  | opens {l : Label H} {auth : A → Bool} {depositor beneficiary : A} {amount : I128}
      {milestones : Vec Milestone} {id : U64} {b' : Book H} (hself : auth H.self = false)
      (hl : l.Opens auth depositor beneficiary amount milestones id)
      (h : b.Open auth depositor beneficiary amount milestones id b') : Step b l b'
  | release {auth : A → Bool} {id : U64} {i : U32} {gross : I128} {caller : A} {b' : Book H}
      (h : b.Release auth id i gross caller b') :
      Step b (.call auth (.releaseMilestoneTranche id i gross caller) ()) b'
  | raise {auth : A → Bool} {id : U64} {caller : A} {reason : String} {b' : Book H}
      (h : b.Raise auth id caller reason b') :
      Step b (.call auth (.raiseDispute id caller reason) ()) b'
  | commit {auth : A → Bool} {id : U64} {juror : A} {c : D} {b' : Book H}
      (hself : auth H.self = false) (h : b.Commit auth id juror c b') :
      Step b (.call auth (.commitVote id juror c) ()) b'
  | reveal {auth : A → Bool} {id : U64} {juror : A} {vote : Bool} {salt : Vector UInt8 32}
      {b' : Book H} (hself : auth H.self = false) (h : b.Reveal auth id juror vote salt b') :
      Step b (.call auth (.revealVote id juror vote salt) ()) b'
  | resolve {auth : A → Bool} {id : U64} {ruling : Bool} {b' : Book H}
      (h : b.Resolve id ruling b') : Step b (.call auth (.resolveDispute id) ruling) b'

/-- A successful call is a step of the book. -/
theorem Call.exec_book {auth : A → Bool} {env env' : Env H} {c : Call A D} {r : c.Result}
    (hself : auth H.self = false) (h : c.exec auth env = .ok (r, env')) :
    env.book.Step (.call auth c r) env'.book := by
  cases c with
  | initialise admin token slashBps =>
      obtain ⟨hauth, hbps, rfl⟩ := initialise_eq_ok.mp h
      have hbook : (((((((env.setInstance .admin admin).setInstance .token token).setInstance
          .slashBps slashBps).setInstance .escrowCounter 0).setInstance .feeBps
          DEFAULT_FEE_BPS).setInstance .treasury admin)).extendInstanceTtl.book =
          { env.book with
            settings := env.book.settings.initialised admin token slashBps
            escrowCounter := some 0 } := by
        simp [Settings.initialised]
      rw [hbook]
      exact .initialise hself hauth hbps
  | setFeeBps caller n =>
      obtain ⟨hauth, hadmin, hle, rfl⟩ := setFeeBps_eq_ok.mp h
      rw [Env.book_set_feeBps, Env.book_extendInstanceTtl]
      exact .configure (.setFeeBps hauth hadmin hle)
  | setTreasury caller treasury =>
      obtain ⟨hauth, hadmin, rfl⟩ := setTreasury_eq_ok.mp h
      rw [Env.book_set_treasury, Env.book_extendInstanceTtl]
      exact .configure (.setTreasury hauth hadmin)
  | setPauser caller pauser =>
      obtain ⟨hauth, hadmin, rfl⟩ := setPauser_eq_ok.mp h
      have hbook : ((env.extendInstanceTtl.setInstance .pauser pauser).publish
          [.symbol "pauser", .symbol "set"] (.pauserSet caller pauser)).book =
          { env.book with settings := { env.book.settings with pauser := some pauser } } := by
        simp [Event.slashed, Event.trancheFee]
      rw [hbook]
      exact .configure (.setPauser hauth hadmin)
  | revokePauser caller =>
      obtain ⟨hauth, hadmin, rfl⟩ := revokePauser_eq_ok.mp h
      have hbook : ((env.extendInstanceTtl.removeInstance .pauser).publish
          [.symbol "pauser", .symbol "revoke"] (.pauserRevoked caller)).book =
          { env.book with settings := { env.book.settings with pauser := none } } := by
        simp [Event.slashed, Event.trancheFee]
      rw [hbook]
      exact .configure (.revokePauser hauth hadmin)
  | pause caller =>
      obtain ⟨hauth, ⟨admin, hadmin, hrole⟩, rfl⟩ := pause_eq_ok.mp h
      rw [Env.book_setPaused rfl]
      exact .configure (.pause hauth hadmin hrole)
  | unpause caller =>
      obtain ⟨hauth, hadmin, rfl⟩ := unpause_eq_ok.mp h
      rw [Env.book_setPaused rfl]
      exact .configure (.unpause hauth hadmin)
  | stake juror amount => exact .stake hself (stake_book.mp ⟨env', h, rfl⟩)
  | unstake juror amount => exact .unstake (unstake_book.mp ⟨env', h, rfl⟩)
  | createEscrow depositor beneficiary amount =>
      exact .opens hself .create (createEscrow_book.mp ⟨env', h, rfl⟩)
  | initEscrow depositor beneficiary milestones =>
      obtain ⟨hne, amount, hopen⟩ := initEscrow_book.mp ⟨env', h, rfl⟩
      exact .opens hself (.init (hopen.total hne) hne) hopen
  | releaseMilestoneTranche id i gross caller =>
      exact .release (releaseMilestoneTranche_book.mp ⟨env', h, rfl⟩)
  | raiseDispute id caller reason => exact .raise (raiseDispute_book.mp ⟨env', h, rfl⟩)
  | commitVote id juror c => exact .commit hself (commitVote_book.mp ⟨env', h, rfl⟩)
  | revealVote id juror vote salt => exact .reveal hself (revealVote_book.mp ⟨env', h, rfl⟩)
  | resolveDispute id => exact .resolve (resolveDispute_book.mp ⟨env', h, rfl⟩)
  | bumpJurorStakeTtl juror =>
      rw [bumpJurorStakeTtl_book h]
      exact .idle rfl
  | bumpEscrowTtl id =>
      rw [bumpEscrowTtl_book h]
      exact .idle rfl
  | getTreasury =>
      have h' : (TrustFlow.getTreasury : Op H A) auth env = .ok (r, env') := h
      simp only [TrustFlow.getTreasury, instanceGet, bind_eq_ok, reads_eq_ok, okOr_eq_ok] at h'
      obtain ⟨_, _, ⟨-, rfl⟩, -, rfl⟩ := h'
      exact .idle rfl
  | getFeeBps | getPauser | isPaused | getStake juror | getSlashCount juror =>
      cases h
      exact .idle rfl

/-- The refinement: a step of the contract is a step of its book. -/
theorem Step.book {env env' : Env H} {l : Label H} (h : Step env l env') :
    env.book.Step l env'.book := by
  cases h with
  | call hself h => exact Call.exec_book hself h
  | failed hself h => exact .idle rfl
  | close h => exact .close h
  | tokens h => exact .tokens h

end TrustFlow
