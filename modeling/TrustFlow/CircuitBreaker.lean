import TrustFlow.Authority
import TrustFlow.Deployment

/-!
# The circuit breaker

Every entrypoint that moves tokens or records starts with `require_not_paused`.
While the flag is up a call either fails, or it is an administrative one, a read
or a renewal of lifetimes, and only an `unpause` takes the flag down: nothing
economic happens before one.
-/

namespace TrustFlow

open Invocation Transition

variable {A D : Type} [DecidableEq A] {H : Host A D}

/-- A successful `unpause`. -/
def Label.Unpauses : Label H → Bool
  | .call _ (.unpause _) _ => true
  | _ => false

/-- A change of the tokens by somebody else. -/
def Label.External : Label H → Bool
  | .tokens _ => true
  | _ => false

/-- No record and no token was touched. -/
structure Env.Frozen (env env' : Env H) : Prop where
  get_eq : ∀ k, env'.get k = env.get k
  purse_eq : env'.purse = env.purse

variable {auth : A → Bool} {env env' : Env H}

theorem Env.Frozen.setPaused (env : Env H) (flag : Bool) (topic : String) (data : EventData A) :
    env.Frozen (env.setPaused flag topic data) := by
  unfold Env.setPaused
  split
  · exact ⟨fun _ => rfl, rfl⟩
  · exact ⟨fun _ => rfl, rfl⟩

/-- Only an `unpause` takes the flag down. -/
theorem Settings.Configures.isPaused {s s' : Settings A} {c : Call A D} {r : c.Result}
    (h : s.Configures auth c s') (hpaused : s.isPaused = true)
    (hl : (Label.call auth c r : Label H).Unpauses = false) : s'.isPaused = true := by
  cases h with
  | setFeeBps | setTreasury | setPauser | revokePauser => exact hpaused
  | pause =>
      rw [Settings.setPaused, if_pos hpaused]
      exact hpaused
  | unpause => cases hl

variable [DecidableEq D]

/-- A call that returns while the contract is paused leaves all records and tokens. -/
theorem Call.frozen {c : Call A D} {r : c.Result} (hpaused : env.isPaused = true)
    (h : c.exec auth env = .ok (r, env')) : env.Frozen env' := by
  have hguard : env.isPaused ≠ false := by
    rw [hpaused]
    exact Bool.noConfusion
  have hbook : env.book.settings.isPaused ≠ false := hguard
  cases c with
  | initialise admin token slashBps =>
      rcases initialise_eq_ok.mp h with ⟨-, -, rfl⟩
      exact ⟨fun _ => rfl, rfl⟩
  | setFeeBps caller n =>
      rcases setFeeBps_eq_ok.mp h with ⟨-, -, -, rfl⟩
      exact ⟨fun _ => rfl, rfl⟩
  | setTreasury caller treasury =>
      rcases setTreasury_eq_ok.mp h with ⟨-, -, rfl⟩
      exact ⟨fun _ => rfl, rfl⟩
  | setPauser caller pauser =>
      rcases setPauser_eq_ok.mp h with ⟨-, -, rfl⟩
      exact ⟨fun _ => rfl, rfl⟩
  | revokePauser caller =>
      rcases revokePauser_eq_ok.mp h with ⟨-, -, rfl⟩
      exact ⟨fun _ => rfl, rfl⟩
  | pause caller =>
      rcases pause_eq_ok.mp h with ⟨-, -, rfl⟩
      exact .setPaused ..
  | unpause caller =>
      rcases unpause_eq_ok.mp h with ⟨-, -, rfl⟩
      exact .setPaused ..
  | stake juror amount => exact absurd (stake_eq_ok.mp h).2.1 hguard
  | unstake juror amount => exact absurd (unstake_eq_ok.mp h).2.1 hguard
  | createEscrow depositor beneficiary amount =>
      exact absurd (createEscrow_eq_ok.mp h).2.1 hguard
  | initEscrow depositor beneficiary milestones =>
      exact absurd (initEscrow_eq_ok.mp h).2.1 hguard
  | releaseMilestoneTranche id i gross caller =>
      rcases releaseMilestoneTranche_eq_ok.mp h with ⟨t, ht, -⟩
      exact absurd ht.notPaused hbook
  | raiseDispute id caller reason => exact absurd (raiseDispute_eq_ok.mp h).2.1 hguard
  | commitVote id juror c => exact absurd (commitVote_eq_ok.mp h).2.1 hguard
  | revealVote id juror vote salt => exact absurd (revealVote_eq_ok.mp h).2.1 hguard
  | resolveDispute id => exact absurd (resolveDispute_eq_ok.mp h).1 hguard
  | bumpJurorStakeTtl juror =>
      have hsame := bumpJurorStakeTtl_book h
      exact ⟨bumpJurorStakeTtl_get h, congrArg Book.purse hsame⟩
  | bumpEscrowTtl id =>
      have hsame := bumpEscrowTtl_book h
      exact ⟨bumpEscrowTtl_get h, congrArg Book.purse hsame⟩
  | getTreasury =>
      have h' : (TrustFlow.getTreasury : Op H A) auth env = .ok (r, env') := h
      simp only [TrustFlow.getTreasury, instanceGet, bind_eq_ok, reads_eq_ok, okOr_eq_ok] at h'
      rcases h' with ⟨_, _, ⟨-, rfl⟩, -, rfl⟩
      exact ⟨fun _ => rfl, rfl⟩
  | getFeeBps | getPauser | isPaused | getStake juror | getSlashCount juror =>
      cases h
      exact ⟨fun _ => rfl, rfl⟩

theorem Step.isPaused {l : Label H} (h : Step env l env') (hpaused : env.isPaused = true)
    (hl : l.Unpauses = false) : env'.isPaused = true := by
  have hsettings : env.book.settings.isPaused = true := hpaused
  show env'.book.settings.isPaused = true
  cases h.book.on_settings with
  | untouched _ hsame => rwa [hsame]
  | configured hconf => exact hconf.isPaused hsettings hl
  | initialised _ _ _ hset =>
      rw [hset]
      exact hsettings

/-- One transition of a paused contract. -/
theorem Step.frozen {l : Label H} (h : Step env l env') (hpaused : env.isPaused = true) :
    (∀ k, env'.get k = env.get k) ∧ env'.purse.transfers = env.purse.transfers ∧
      (l.External = false → env'.purse = env.purse) := by
  cases h with
  | call _ h =>
      have hfrozen := Call.frozen hpaused h
      exact ⟨hfrozen.get_eq, congrArg Purse.transfers hfrozen.purse_eq, fun _ => hfrozen.purse_eq⟩
  | failed | close => exact ⟨fun _ => rfl, rfl, fun _ => rfl⟩
  | tokens => exact ⟨fun _ => rfl, rfl, nofun⟩

/-- Until the next successful `unpause` a paused contract keeps every record and makes
    no transfer, and where nobody else moves tokens all balances stay as well. -/
theorem paused_freezes {h : History H} (hrun : Run Step env h env')
    (hpaused : env.isPaused = true) (hkept : ∀ t ∈ h, t.label.Unpauses = false) :
    env'.isPaused = true ∧ (∀ k, env'.get k = env.get k) ∧
      env'.purse.transfers = env.purse.transfers ∧
      ((∀ t ∈ h, t.label.External = false) →
        ∀ tok holder, env'.purse.balance tok holder = env.purse.balance tok holder) := by
  induction hrun with
  | nil => exact ⟨hpaused, fun _ => rfl, rfl, fun _ _ _ => rfl⟩
  | snoc hr hs ih =>
      rcases ih fun t ht => hkept t (List.mem_cons_of_mem _ ht) with
        ⟨hpaused', hget, htransfers, hbalance⟩
      rcases hs.frozen hpaused' with ⟨hget', htransfers', hpurse'⟩
      have hlast := hkept _ List.mem_cons_self
      refine ⟨hs.isPaused hpaused' hlast, fun k => (hget' k).trans (hget k),
        htransfers'.trans htransfers, fun hown tok holder => ?_⟩
      rw [hpurse' (hown _ List.mem_cons_self)]
      exact hbalance (fun t ht => hown t (List.mem_cons_of_mem _ ht)) tok holder

/-- A second `initialize`, a new fee and a renewal leave the record of a paused escrow,
    and a stake is refused. -/
theorem paused_freezes_sample :
    ∃ (h : History Host.plain) (env env' : Env Host.plain), Run Step env h env' ∧
      env.isPaused = true ∧ h.length = 4 ∧ (env.get (.escrow 1)).isSome = true ∧
      env'.inst .feeBps ≠ env.inst .feeBps ∧ ∀ k, env'.get k = env.get k := by
  rcases Env.exists_of_plays
    [.call (fun a => a == 1) (.initialise 1 9 DEFAULT_SLASH_BPS),
      .call (fun a => a == 2) (.createEscrow 2 4 (.ofNat 100)),
      .call (fun a => a == 1) (.pause 1)]
    (fun _ env => decide (env.isPaused = true ∧ (env.get (.escrow 1)).isSome = true) &&
      (env.play [.call (fun a => a == 5) (.initialise 5 8 DEFAULT_SLASH_BPS),
        .call (fun a => a == 5) (.setFeeBps 5 (.ofNat 70)),
        .call (fun a => a == 3) (.stake 3 (.ofNat 30)),
        .call (fun _ => false) (.bumpEscrowTtl 1)]).any
          fun p : History Host.plain × Env Host.plain => decide (p.1.length = 4 ∧
            p.2.inst .feeBps ≠ env.inst .feeBps ∧ ∀ t ∈ p.1, t.label.Unpauses = false))
    (by decide +kernel) with ⟨_, env, _, hend⟩
  rcases Bool.and_eq_true_iff.mp hend with ⟨hstart, hplay⟩
  rcases of_decide_eq_true hstart with ⟨hpaused, hescrow⟩
  rcases (Option.any_eq_true _ _).mp hplay with ⟨⟨h, env'⟩, hcalls, hp⟩
  rcases of_decide_eq_true hp with ⟨hlength, hfee, hkept⟩
  have hr := Env.play_run hcalls
  exact ⟨h, env, env', hr, hpaused, hlength, hescrow, hfee, (paused_freezes hr hpaused hkept).2.1⟩

end TrustFlow
