import TrustFlow.Abundance.Tokens
import TrustFlow.Exits
import TrustFlow.Lib.Refinement
import TrustFlow.Provenance

/-!
# The contract on the abundance token

The escrow contract and the tokens as one system, as for a campaign.  A step of
the system is a step of the contract, or two at the end of a ledger, with the
same calls and the same gifts; so the custody equation and the exits hold with
nothing assumed of the tokens.
-/

namespace TrustFlow

open Invocation Transition Purse
open Abundance (Issue AllUnlent)

variable {A D : Type} [DecidableEq A] {contract : A} {sha256 : List UInt8 → D} {defaultTtl : Nat}
  {N : Abundance.Host}

/-- The contract at its address, with abundance tokens at all addresses. -/
abbrev Host.abundant (contract : A) (sha256 : List UInt8 → D) (defaultTtl : Nat)
    (N : Abundance.Host) :
    Host A D :=
  ⟨contract, Abundance.tokens A N, sha256, defaultTtl⟩

namespace Joint

/-! ### The system -/

/-- The environment of the contract on abundance tokens. -/
abbrev State (contract : A) (sha256 : List UInt8 → D) (defaultTtl : Nat) (N : Abundance.Host) :=
  Env (Host.abundant contract sha256 defaultTtl N)

/-- A call of the contract, a step of a token, the end of a ledger. -/
inductive Label (A D : Type) (N : Abundance.Host) where
  | call (auth : A → Bool) (c : Call A D) (result : c.Result)
  | failed (auth : A → Bool) (c : Call A D) (fault : Fault)
  | token (tok : A) (l : Abundance.Label A N)
  | close (sequence : U32)

/-- A successful `initialize`. -/
def Label.Initialises : Label A D N → Bool
  | .call _ (.initialise ..) _ => true
  | _ => false

/-- The tokens at their addresses. -/
def issues (env : State contract sha256 defaultTtl N) : A → Issue A N := env.purse.state

/-- The contract after something happened to the tokens. -/
def withIssues (env : State contract sha256 defaultTtl N) (s : A → Issue A N) :
    State contract sha256 defaultTtl N := env.setPurse ⟨s, env.purse.transfers⟩

/-- What a transition adds to the contract's balance without its doing. -/
def gift (tok : A) (t : Move (State contract sha256 defaultTtl N) (Label A D N)) : Int :=
  match t.label with
  | .token _ _ => t.post.purse.balance tok contract - t.pre.purse.balance tok contract
  | _ => 0

inductive Step [DecidableEq D] : State contract sha256 defaultTtl N → Label A D N →
    State contract sha256 defaultTtl N → Prop
  | call {env env' : State contract sha256 defaultTtl N} {auth : A → Bool} {c : Call A D}
      {r : c.Result}
      (hself : auth contract = false) (h : c.exec auth env = .ok (r, env')) :
      Step env (.call auth c r) env'
  | failed {env : State contract sha256 defaultTtl N} {auth : A → Bool} {c : Call A D}
      {fault : Fault}
      (hself : auth contract = false)
      (h : (c.exec : Op (Host.abundant contract sha256 defaultTtl N) c.Result) auth env =
        .error fault) : Step env (.failed auth c fault) env
  | token {env : State contract sha256 defaultTtl N} {tok : A} {l : Abundance.Label A N}
      {issue : Issue A N} (hself : ¬ l.Authorises contract) (hopen : ∀ n, l ≠ .close n)
      (h : Abundance.Step (issues env tok).1 l issue.1) :
      Step env (.token tok l) (withIssues env (Function.update (issues env) tok issue))
  | close {env : State contract sha256 defaultTtl N} {n : U32} (hn : env.sequence.val ≤ n.val)
      (hm : ∀ tok, (issues env tok).1.sequence.val ≤ n.val) :
      Step env (.close n)
        (withIssues { env with sequence := n } fun tok => (issues env tok).closed n)

/-- The transitions of the system so far, newest first. -/
abbrev History (contract : A) (sha256 : List UInt8 → D) (defaultTtl : Nat) (N : Abundance.Host) :=
  List (Move (State contract sha256 defaultTtl N) (Label A D N))

/-- What others sent to the contract in `tok`: what it held when it was deployed and
    what the steps of the token brought. -/
def received (tok : A) (env₀ : State contract sha256 defaultTtl N)
    (h : History contract sha256 defaultTtl N) : Int :=
  env₀.purse.balance tok contract + (h.map (gift tok)).sum

/-- A contract that was deployed and not called yet; its address has approved
    nothing at any token. -/
structure Fresh (env : State contract sha256 defaultTtl N) : Prop where
  instance_empty : ∀ k, env.inst k = none
  persistent_empty : ∀ k, env.get k = none
  no_transfers : env.purse.transfers = []
  no_events : env.events = []
  unlent : AllUnlent contract (issues env)

/-! ### The simulation -/

/-- The system and the contract alone are in the same state, and the contract has
    approved nothing. -/
structure Related (env env' : State contract sha256 defaultTtl N) : Prop where
  eq : env = env'
  unlent : AllUnlent contract (issues env)

/-- The steps of the contract alone bring the gifts of the step of the system, and
    initialise the contract when it does. -/
structure Matches (t : Move (State contract sha256 defaultTtl N) (Label A D N))
    (new : TrustFlow.History (Host.abundant contract sha256 defaultTtl N)) : Prop where
  gifts : ∀ tok,
    (new.map fun t => t.label.gift tok (t.pre.purse.balance tok contract)).sum = gift tok t
  initialises : new.countP (fun t => t.label.Initialises) =
    if t.label.Initialises = true then 1 else 0

section Simulation

variable {env env' : State contract sha256 defaultTtl N}

theorem Fresh.fresh (h : Fresh env) : env.Fresh where
  instance_empty := h.instance_empty
  persistent_empty := h.persistent_empty
  no_transfers := h.no_transfers
  no_events := h.no_events
  balance_nonneg tok := (issues env tok).2.solvent contract

variable [DecidableEq D]

/-- The contract makes transfers and nothing else at the tokens. -/
theorem unlent_of_call {auth : A → Bool} {c : Call A D} {r : c.Result}
    (hself : auth contract = false) (h : c.exec auth env = .ok (r, env'))
    (hu : AllUnlent contract (issues env)) : AllUnlent contract (issues env') := by
  have htrades := (Call.exec_book hself h).trades
  exact htrades.state (P := AllUnlent contract) (fun hu h => AllUnlent.transfer hu h) hu

theorem simulation :
    Simulation (Step : State contract sha256 defaultTtl N → Label A D N → _ → Prop) TrustFlow.Step
      Related Matches where
  matched := by
    rintro env l env' _ ⟨rfl, hu⟩ hs
    cases hs with
    | @call _ auth c r hself h =>
        have hstep : TrustFlow.Step env (.call auth c r) env' := .call hself h
        refine ⟨_, env', Run.single hstep, ⟨rfl, unlent_of_call hself h hu⟩, fun _ => rfl, ?_⟩
        cases c <;> rfl
    | failed hself h =>
        exact ⟨_, env, Run.single (.failed hself h), ⟨rfl, hu⟩, fun _ => rfl, rfl⟩
    | token hself hopen h =>
        rcases hu.outside (.intro hself hopen h) with ⟨hkept, hu'⟩
        refine ⟨_, _, Run.single (.tokens hkept), ⟨rfl, hu'⟩, fun tok => ?_, rfl⟩
        exact List.sum_singleton
    | @close n hn hm =>
        -- the ledger closes for the contract first, then for the tokens
        have hclose : TrustFlow.Step env (.close n) { env with sequence := n } := .close hn
        have hkept (tok : A) : (Abundance.tokens A N).balance (issues env) tok contract ≤
            (Abundance.tokens A N).balance (fun tok => (issues env tok).closed n) tok contract :=
          le_rfl
        refine ⟨_, _, (Run.single hclose).snoc (.tokens hkept), ⟨rfl, hu.closed n⟩, ?_, rfl⟩
        intro tok
        have hsame : (Abundance.tokens A N).balance (fun tok => (issues env tok).closed n) tok
            contract - env.purse.balance tok contract = 0 := sub_self _
        show _ + (0 + 0) = 0
        rw [add_zero, add_zero]
        exact hsame

end Simulation

/-! ### Runs of the system -/

section Runs

variable [DecidableEq D] {env env₀ : State contract sha256 defaultTtl N}
  {h : History contract sha256 defaultTtl N} {tok : A}

/-- A run of the system that initialises the contract once at most is a deployment
    of the contract with the same gifts. -/
theorem Run.deployment (hfresh : Fresh env₀) (hr : Run Step env₀ h env)
    (honce : h.countP (fun t => t.label.Initialises) ≤ 1) :
    ∃ h', SingleInit env₀ h' env ∧ ∀ tok, donated tok env₀ h' = received tok env₀ h := by
  have hrelated : Related env₀ env₀ := ⟨rfl, hfresh.unlent⟩
  rcases simulation.run hrelated hr with ⟨h', _, hr', ⟨rfl, _⟩, hstands⟩
  have hcount : h'.countP (fun t => t.label.Initialises) =
      h.countP (fun t => t.label.Initialises) :=
    hstands.countP fun t new hM => hM.initialises
  refine ⟨h', ⟨hfresh.fresh, hr', hcount.le.trans honce⟩, fun tok => ?_⟩
  have hgifts := hstands.sum fun t new hM => hM.gifts tok
  rw [donated, received, ← hgifts]

/-- No step of a token takes from the contract. -/
theorem Step.gift_nonneg {env' : State contract sha256 defaultTtl N} {l : Label A D N}
    (hs : Step env l env') (hu : AllUnlent contract (issues env)) :
    0 ≤ gift tok ⟨env, l, env'⟩ := by
  cases hs with
  | call | failed | close => exact le_rfl
  | token hself hopen h =>
      rcases hu.outside (.intro hself hopen h) with ⟨hkept, _⟩
      exact sub_nonneg.mpr (hkept tok)

theorem Run.gift_nonneg (hfresh : Fresh env₀) (hr : Run Step env₀ h env) :
    ∀ t ∈ h, 0 ≤ gift tok t := by
  intro t ht
  rcases hr.split_mem ht with ⟨_, earlier, _, hearlier, hs, _⟩
  have hrelated : Related env₀ env₀ := ⟨rfl, hfresh.unlent⟩
  rcases simulation.run hrelated hearlier with ⟨_, _, _, hend, _⟩
  exact hs.gift_nonneg hend.unlent

/-- On abundance tokens, whatever anybody does with them: the contract holds the
    stakes, what its open escrows still hold, all that was slashed, what it was sent
    and what it paid to itself, and nothing is ever taken from it.  While it is not
    paused, withdrawals of stake, releases and resolutions succeed exactly when
    their own conditions hold. -/
theorem custody_on_abundance (hfresh : Fresh env₀) (hr : Run Step env₀ h env)
    (honce : h.countP (fun t => t.label.Initialises) ≤ 1) (htok : env.inst .token = some tok) :
    env.purse.balance tok contract =
        ∑ᶠ juror, (env.stakeOf juror).val + ∑ᶠ id, env.lockedOf id + env.slashedTotal +
          received tok env₀ h + (env.purse.transfers.map (selfPaid contract tok)).sum ∧
      (∀ t ∈ h, 0 ≤ gift tok t) ∧
      (env.isPaused = false → ∀ auth,
        (∀ juror amount, auth juror = true →
          ((∃ env', (unstake juror amount : Op (Host.abundant contract sha256 defaultTtl N) Unit)
            auth env = .ok ((), env')) ↔
              0 ≤ amount.val ∧ amount.val ≤ (env.stakeOf juror).val)) ∧
        (∀ id i gross caller, auth caller = true →
          ((∃ env', (releaseMilestoneTranche id i gross caller :
            Op (Host.abundant contract sha256 defaultTtl N) Unit) auth env = .ok ((), env')) ↔
              env.Releasable id i gross caller)) ∧
        ∀ id, env.CountsLeft id →
          ((∃ ruling env', (resolveDispute id :
            Op (Host.abundant contract sha256 defaultTtl N) Bool) auth env = .ok (ruling, env')) ↔
              env.Resolvable id)) := by
  rcases Run.deployment hfresh hr honce with ⟨h', hs, hdonated⟩
  have hpays : (Abundance.tokens A N).PaysFrom contract := Abundance.tokens_paysFrom contract
  refine ⟨?_, Run.gift_nonneg hfresh hr, fun hpaused auth => ⟨?_, ?_, ?_⟩⟩
  · have hnet := hs.net_eq fun tok' htok' => Option.some.inj (htok'.symm.trans htok)
    have hlocked : ∑ᶠ id, env.lockedOf id = ∑ᶠ id, (env.book.file id).locked :=
      finsum_congr env.lockedOf_eq
    have hnet' : env.purse.balance tok contract -
        (env.purse.transfers.map (selfPaid contract tok)).sum =
        ∑ᶠ juror, (env.stakeOf juror).val + ∑ᶠ id, (env.book.file id).locked + env.slashedTotal +
          donated tok env₀ h' := hnet
    rw [← hdonated tok]
    omega
  · intro juror amount hauth
    exact hs.unstake_succeeds_iff hpays htok hpaused hauth
  · intro id i gross caller hauth
    exact hs.release_succeeds_iff hpays htok hpaused hauth
  · intro id hcounts
    exact hs.resolve_succeeds_iff hpays htok hpaused hcounts

end Runs

/-! ### A run of the system -/

section Play

variable [DecidableEq D]

/-- The step a call takes, unless the contract is said to have authorised it. -/
def act (env : State contract sha256 defaultTtl N) :
    (A → Bool) × Call A D → Option (Label A D N × State contract sha256 defaultTtl N)
  | (auth, c) =>
      if auth contract then none
      else match (c.exec : Op (Host.abundant contract sha256 defaultTtl N) c.Result) auth env with
        | .ok (r, env') => some (.call auth c r, env')
        | .error fault => some (.failed auth c fault, env)

theorem act_step {env env' : State contract sha256 defaultTtl N} {a : (A → Bool) × Call A D}
    {l : Label A D N} (h : act env a = some (l, env')) : Step env l env' := by
  simp only [act] at h
  split at h
  · cases h
  · next hself =>
    have hself : a.1 contract = false := by simpa using hself
    split at h
    · next r env₁ hc =>
      cases h
      exact .call hself hc
    · next fault hc =>
      cases h
      exact .failed hself hc

end Play

/-- A fresh contract at address 0, with funded tokens everywhere. -/
def deployed : State 0 (id : List UInt8 → List UInt8) 0 Abundance.Host.plain where
  sequence := 1
  instanceStore := .empty
  instanceLiveUntil := 0
  persistent := .empty
  purse := ⟨fun _ => Issue.funded, []⟩
  events := []

theorem deployed_fresh : Fresh deployed where
  instance_empty _ := rfl
  persistent_empty _ := rfl
  no_transfers := rfl
  no_events := rfl
  unlent _ := Issue.funded_unlent 0

/-- On funded tokens address 1 stakes 30 and address 2 locks 60 in an escrow; the 30
    can be taken back. -/
theorem custody_on_abundance_sample :
    ∃ (h : History 0 (id : List UInt8 → List UInt8) 0 Abundance.Host.plain)
      (env : State 0 (id : List UInt8 → List UInt8) 0 Abundance.Host.plain),
      Run Step deployed h env ∧ env.purse.balance 9 0 = 90 ∧
        ∃ env', (unstake 1 (.ofNat 30) :
          Op (Host.abundant 0 (id : List UInt8 → List UInt8) 0 Abundance.Host.plain) Unit)
            (fun a => a == 1) env = .ok ((), env') := by
  have hplays : (play act deployed
      [(fun a => a == 5, .initialise 5 9 DEFAULT_SLASH_BPS),
        (fun a => a == 1, .stake 1 (.ofNat 30)),
        (fun a => a == 2, .createEscrow 2 4 (.ofNat 60))]).any (fun p =>
      decide (p.1.countP (fun t => t.label.Initialises) ≤ 1) &&
        (decide (p.2.inst .token = some 9) && (decide (p.2.isPaused = false) &&
        (decide (p.2.purse.balance 9 0 = 90) && decide ((p.2.stakeOf 1).val = 30))))) = true := by
    decide +kernel
  simp only [Option.any_eq_true, Bool.and_eq_true, decide_eq_true_eq] at hplays
  rcases hplays with ⟨⟨h, env⟩, hplay, hend⟩
  rcases hend with ⟨honce, htok, hpaused, hbalance, hstake⟩
  have hr : Run Step deployed h env := by
    refine Run.of_play (I := fun _ => True) ?_ ?_ trivial hplay
    · exact fun _ _ => trivial
    · exact fun _ ha => act_step ha
  have hexits := (custody_on_abundance deployed_fresh hr honce htok).2.2 hpaused fun a => a == 1
  exact ⟨h, env, hr, hbalance, (hexits.1 1 (.ofNat 30) rfl).mpr ⟨by decide, hstake.ge⟩⟩

end Joint

end TrustFlow
