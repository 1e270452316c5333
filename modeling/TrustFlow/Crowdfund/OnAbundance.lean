import TrustFlow.Abundance.Tokens
import TrustFlow.Crowdfund.Refunds
import TrustFlow.Lib.Refinement

/-!
# A campaign on the abundance token

The crowdfund contract and the tokens it deals with as one system: the calls of
the contract run the token's own `transfer`, the calls of the tokens are those
of anybody but the contract, and a ledger closes for all of them.  Every step of
this system is matched by steps of the contract alone, so that what holds of the
contract with any tokens holds here, where nothing is assumed of the tokens.
-/

namespace Crowdfund

open Invocation Transition Purse
open Abundance (Issue AllUnlent)

variable {A : Type} [DecidableEq A] {contract : A} {N : Abundance.Host}

/-- The contract at its address, with abundance tokens at all addresses. -/
abbrev Host.abundant (contract : A) (N : Abundance.Host) : Host A :=
  ⟨contract, Abundance.tokens A N⟩

namespace Joint

/-! ### The system -/

/-- A call of the contract, a step of a token, the end of a ledger. -/
inductive Label (A : Type) (N : Abundance.Host) where
  | call (auth : A → Bool) (c : Call A) (result : c.Result)
  | failed (auth : A → Bool) (c : Call A) (fault : Fault)
  | token (tok : A) (l : Abundance.Label A N)
  | close (timestamp : U64) (sequence : U32)

/-- What a call that returned deposits for a user. -/
def Label.deposited (user : A) : Label A N → Int
  | .call _ (.deposit donor amount) _ => if donor = user then amount.val else 0
  | _ => 0

/-- The tokens at their addresses. -/
def issues (env : Env (Host.abundant contract N)) : A → Issue A N := env.purse.state

/-- The contract after something happened to the tokens. -/
def withIssues (env : Env (Host.abundant contract N)) (s : A → Issue A N) :
    Env (Host.abundant contract N) := env.setPurse ⟨s, env.purse.transfers⟩

inductive Step : Env (Host.abundant contract N) → Label A N → Env (Host.abundant contract N) → Prop
  | call {env env' : Env (Host.abundant contract N)} {auth : A → Bool} {c : Call A} {r : c.Result}
      (hself : auth contract = false) (h : c.exec auth env = .ok (r, env')) :
      Step env (.call auth c r) env'
  | failed {env : Env (Host.abundant contract N)} {auth : A → Bool} {c : Call A} {fault : Fault}
      (hself : auth contract = false)
      (h : (c.exec : Op (Host.abundant contract N) c.Result) auth env = .error fault) :
      Step env (.failed auth c fault) env
  | token {env : Env (Host.abundant contract N)} {tok : A} {l : Abundance.Label A N}
      {issue : Issue A N} (hself : ¬ l.Authorises contract) (hopen : ∀ n, l ≠ .close n)
      (h : Abundance.Step (issues env tok).1 l issue.1) :
      Step env (.token tok l) (withIssues env (Function.update (issues env) tok issue))
  | close {env : Env (Host.abundant contract N)} {n : U64} {m : U32}
      (hn : env.timestamp.val ≤ n.val) (hm : ∀ tok, (issues env tok).1.sequence.val ≤ m.val) :
      Step env (.close n m)
        (withIssues { env with timestamp := n } fun tok => (issues env tok).closed m)

/-- The transitions of the system so far, newest first. -/
abbrev History (contract : A) (N : Abundance.Host) :=
  List (Move (Env (Host.abundant contract N)) (Label A N))

/-- What a user deposited in a run. -/
def deposited (user : A) (h : History contract N) : Int :=
  (h.map fun t => t.label.deposited user).sum

/-- A contract that was deployed and not called yet; its address has approved
    nothing at any token. -/
structure Fresh (env : Env (Host.abundant contract N)) : Prop where
  blank : env.Blank
  no_transfers : env.purse.transfers = []
  no_events : env.events = []
  unlent : AllUnlent contract (issues env)

section Answers

variable {env : Env (Host.abundant contract N)}

/-- An abundance token answers whatever is asked of it. -/
theorem answers (tok : A) : env.Answers tok := ⟨(issues env tok).1.balanceOf contract, rfl⟩

theorem Fresh.fresh (h : Fresh env) : env.Fresh where
  blank := h.blank
  no_transfers := h.no_transfers
  no_events := h.no_events
  balance_nonneg tok := (issues env tok).2.solvent contract
  answers := answers

end Answers

/-! ### The calls of the contract -/

section Calls

variable {env env' : Env (Host.abundant contract N)} {p p' : Purse (Abundance.tokens A N)}

theorem unlent_of_moves {tok src dst : A} {amount : I128} (hm : Moves tok src dst amount p p')
    (hu : AllUnlent contract p.state) : AllUnlent contract p'.state := by
  cases hm with
  | intro h => exact AllUnlent.transfer hu h

/-- The contract makes transfers and nothing else at the tokens. -/
theorem unlent_of_call {auth : A → Bool} {c : Call A} {r : c.Result} (hsound : env.Sound)
    (hself : auth contract = false) (h : c.exec auth env = .ok (r, env'))
    (hu : AllUnlent contract (issues env)) : AllUnlent contract (issues env') := by
  have hstep : Crowdfund.Step env (.call auth c r) env' := .call hself h
  rcases hsound.stored with hb | ⟨c, claimed, hc⟩
  · rcases hb.call h with ⟨_, _, _, _, _, rfl⟩
    exact hu
  · rcases hstep.stored hc (answers _) with ⟨claimed', hs, _⟩
    cases hs with
    | read => exact hu
    | deposit _ _ hd =>
        cases hd with
        | intro _ _ _ _ hm =>
          rw [issues, Env.purse_announce]
          exact unlent_of_moves hm hu
    | refund hr =>
        cases hr with
        | intro _ _ hm => exact unlent_of_moves hm hu
    | payout hp =>
        cases hp with
        | intro _ _ _ hm => exact unlent_of_moves hm hu

end Calls

/-! ### The simulation -/

/-- The system and the contract alone are in the same state, and the contract has
    approved nothing. -/
structure Related (env env' : Env (Host.abundant contract N)) : Prop where
  eq : env = env'
  sound : env.Sound
  unlent : AllUnlent contract (issues env)

/-- The steps of the contract alone deposit what the step of the system does. -/
def Deposits (t : Move (Env (Host.abundant contract N)) (Label A N))
    (new : Crowdfund.History (Host.abundant contract N)) : Prop :=
  ∀ user, (new.map fun t => t.label.deposited user).sum = t.label.deposited user

/-- A change of the tokens that takes nothing from the contract is a step of it. -/
theorem tokens_step {env : Env (Host.abundant contract N)} {s : A → Issue A N}
    (h : ∀ tok, (Abundance.tokens A N).balance (issues env) tok contract ≤
      (Abundance.tokens A N).balance s tok contract) :
    Crowdfund.Step env (.tokens s) (withIssues env s) :=
  .tokens h answers

theorem deposited_call {auth : A → Bool} {c : Call A} {r : c.Result} (user : A) :
    (.call auth c r : Crowdfund.Label (Host.abundant contract N)).deposited user =
      (.call auth c r : Label A N).deposited user := by
  cases c <;> rfl

theorem simulation :
    Simulation (Step : Env (Host.abundant contract N) → Label A N → _ → Prop) Crowdfund.Step
      Related Deposits where
  matched := by
    rintro env l env' _ ⟨rfl, hsound, hu⟩ hs
    cases hs with
    | call hself h =>
        have hstep : Crowdfund.Step env (.call _ _ _) env' := .call hself h
        refine ⟨_, env', Run.single hstep, ⟨rfl, hstep.sound hsound, ?_⟩, fun user => ?_⟩
        · exact unlent_of_call hsound hself h hu
        · rw [List.map_singleton, List.sum_singleton, deposited_call]
    | failed hself h =>
        exact ⟨_, env, Run.single (.failed hself h), ⟨rfl, hsound, hu⟩, fun _ => rfl⟩
    | token hself hopen h =>
        rcases hu.outside (.intro hself hopen h) with ⟨hkept, hu'⟩
        have hstep := tokens_step hkept
        exact ⟨_, _, Run.single hstep, ⟨rfl, hstep.sound hsound, hu'⟩, fun _ => rfl⟩
    | @close n m hn hm =>
        -- the ledger closes for the contract first, then for the tokens
        have hclose : Crowdfund.Step env (.close n) { env with timestamp := n } := .close hn
        have hkept (tok : A) : (Abundance.tokens A N).balance (issues env) tok contract ≤
            (Abundance.tokens A N).balance (fun tok => (issues env tok).closed m) tok contract :=
          le_rfl
        have hstep : Crowdfund.Step { env with timestamp := n } _ _ := tokens_step hkept
        have hsound' := hstep.sound (hclose.sound hsound)
        exact ⟨_, _, (Run.single hclose).snoc hstep, ⟨rfl, hsound', hu.closed m⟩, fun _ => rfl⟩

/-! ### Runs of the system -/

section Runs

variable {env env₀ : Env (Host.abundant contract N)} {h : History contract N}

/-- A run of the system is a run of the contract that deposits the same. -/
theorem Run.alone (hfresh : Fresh env₀) (hr : Run Step env₀ h env) :
    ∃ h', Run Crowdfund.Step env₀ h' env ∧
      ∀ user, Crowdfund.deposited user h' = deposited user h := by
  have hrelated : Related env₀ env₀ := ⟨rfl, hfresh.fresh.sound, hfresh.unlent⟩
  rcases simulation.run hrelated hr with ⟨h', _, hr', ⟨rfl, _, _⟩, hstands⟩
  exact ⟨h', hr', fun user => hstands.sum fun t new hM => hM user⟩

/-- On abundance tokens, as long as the recipient has not claimed, the balance covers
    all records and each record is what was deposited and not refunded.  Past the
    deadline either every donor gets its record back or the recipient gets the
    whole balance, whatever anybody did with the tokens. -/
theorem campaign_settles_on_abundance (hfresh : Fresh env₀) (hr : Run Step env₀ h env)
    (hclaimed : env.inst .recipientClaimed = some false) :
    ∃ c : Campaign A, env.Stores c false ∧
      ∑ᶠ user, (env.depositOf user).val ≤ env.balance c.token ∧
      (∀ user, (env.depositOf user).val = deposited user h - env.paid c.token user) ∧
      (env.Shows .expired → ∀ auth dest, dest ≠ c.recipient →
        ∃ env', (withdraw dest : Op (Host.abundant contract N) Unit) auth env = .ok ((), env') ∧
          Repays env c dest env') ∧
      (env.Shows .success → ∀ auth, ∃ env' amount,
        (withdraw c.recipient : Op (Host.abundant contract N) Unit) auth env = .ok ((), env') ∧
          amount.val = env.balance c.token ∧
          Moves c.token contract c.recipient amount env.purse env'.purse ∧
          env'.inst .recipientClaimed = some true) := by
  rcases Run.alone hfresh hr with ⟨h', hr', hdeposited⟩
  have hsound := Run.sound hfresh.fresh hr'
  rcases hsound.exists_stores hclaimed with ⟨c, claimed, hc⟩
  have hfalse : claimed = false := Option.some.inj (hc.claimed.symm.trans hclaimed)
  subst hfalse
  have ha := Run.accounts hfresh.fresh hr' hc
  have hpays : (Abundance.tokens A N).PaysFrom contract := Abundance.tokens_paysFrom contract
  refine ⟨c, hc, ha.covered, fun user => ?_, fun hshows auth dest hdest => ?_,
    fun hshows auth => ?_⟩
  · rw [← hdeposited user]
    exact ha.exact user
  · have hexpired := (hc.shows (answers _)).mp hshows
    exact ha.repays hpays hc (answers _) hexpired hdest
  · have hsuccess := (hc.shows (answers _)).mp hshows
    let amount : I128 := (issues env c.token).1.balanceOf contract
    have hmoves : ∃ p, Moves c.token contract c.recipient amount env.purse p :=
      exists_moves hpays ((issues env c.token).2.solvent contract) le_rfl
    rcases hmoves with ⟨p, hm⟩
    have hpaid : env.PaysOut c false ((env.setPurse p).setInstance .recipientClaimed true) :=
      .intro hsuccess rfl rfl hm
    refine ⟨_, amount, (withdraw_eq_ok hc (answers _)).mpr (.inl ⟨rfl, hpaid⟩), rfl, hm, ?_⟩
    exact Env.inst_setInstance_self ..

end Runs

/-! ### A run of the system -/

/-- The step an action takes, when it can take one; the last ledger of all closes. -/
def act (env : Env (Host.abundant contract N)) :
    Action A → Option (Label A N × Env (Host.abundant contract N))
  | .call auth c =>
      if auth contract then none
      else match (c.exec : Op (Host.abundant contract N) c.Result) auth env with
        | .ok (r, env') => some (.call auth c r, env')
        | .error fault => some (.failed auth c fault, env)
  | .close n =>
      if env.timestamp.val ≤ n.val then
        some (.close n (.ofNat 4294967295), withIssues { env with timestamp := n } fun tok =>
          (issues env tok).closed (.ofNat 4294967295))
      else none
  | .send tok src amount =>
      if src = contract then none
      else match (issues env tok).transfer src contract amount with
        | some issue =>
            some (.token tok (.call (fun a => decide (a = src)) (.transfer src contract amount) ()),
              withIssues env (Function.update (issues env) tok issue))
        | none => none

theorem act_step {env env' : Env (Host.abundant contract N)} {a : Action A} {l : Label A N}
    (h : act env a = some (l, env')) : Step env l env' := by
  cases a with
  | call auth c =>
      simp only [act] at h
      split at h
      · cases h
      · next hself =>
        have hself : auth contract = false := by simpa using hself
        split at h
        · next r env₁ hc =>
          cases h
          exact .call hself hc
        · next fault hc =>
          cases h
          exact .failed hself hc
  | close n =>
      simp only [act] at h
      split at h
      · next hle =>
        cases h
        exact .close hle fun tok => (issues env tok).1.sequence.le_hi
      · cases h
  | send tok src amount =>
      simp only [act] at h
      split at h
      · cases h
      · next hsrc =>
        split at h
        · next issue hissue =>
          cases h
          refine .token (fun hauth => ?_) nofun (.call (Abundance.Issue.transfer_eq_some.mp hissue))
          exact hsrc (of_decide_eq_true hauth).symm
        · cases h

/-- A fresh contract at address 0, with funded tokens everywhere. -/
def deployed : Env (Host.abundant 0 Abundance.Host.plain) where
  timestamp := 1
  instanceStore := .empty
  purse := ⟨fun _ => Issue.funded, []⟩
  events := []

theorem deployed_fresh : Fresh deployed where
  blank _ := rfl
  no_transfers := rfl
  no_events := rfl
  unlent _ := Issue.funded_unlent 0

def plays (script : List (Action Nat))
    (p : History 0 Abundance.Host.plain → Env (Host.abundant 0 Abundance.Host.plain) → Bool) :
    Bool :=
  match play act deployed script with
  | some (h, env) => p h env
  | none => false

/-- On funded tokens address 2 still gets the 4 it deposited in the short campaign,
    after address 1 was refunded and sent 3 of its 6 to the contract again. -/
theorem campaign_settles_on_abundance_sample :
    ∃ (h : History 0 Abundance.Host.plain) (env : Env (Host.abundant 0 Abundance.Host.plain)),
      Run Step deployed h env ∧ env.balance 9 = 7 ∧ env.depositOf 2 = .ofNat 4 ∧
        ∃ env', (withdraw 2 : Op (Host.abundant 0 Abundance.Host.plain) Unit) (fun _ => false)
          env = .ok ((), env') ∧ Repays env .plain 2 env' := by
  have hplays : plays (shortCampaign ++ [.send 9 1 (.ofNat 3)]) (fun _ env =>
      decide (env.Stores .plain false) && (decide (env.stateOf .plain false = .expired) &&
      (decide (env.balance 9 = 7) && decide (env.depositOf 2 = .ofNat 4)))) = true := by
    decide +kernel
  unfold plays at hplays
  split at hplays
  · next h env hplay =>
    simp only [Bool.and_eq_true, decide_eq_true_eq] at hplays
    rcases hplays with ⟨hc, hexpired, hbalance, hrecord⟩
    have hr : Run Step deployed h env := by
      refine Run.of_play (I := fun _ => True) ?_ ?_ trivial hplay
      · exact fun _ _ => trivial
      · exact fun _ ha => act_step ha
    rcases campaign_settles_on_abundance deployed_fresh hr hc.claimed with
      ⟨c, hc', _, _, hrefunds, _⟩
    rcases hc'.unique hc with ⟨rfl, _⟩
    have hshows := (hc.shows (answers _)).mpr hexpired
    exact ⟨h, env, hr, hbalance, hrecord, hrefunds hshows _ 2 (by decide)⟩
  · cases hplays

end Joint

end Crowdfund
