import TrustFlow.Payouts
import TrustFlow.Lib.Trades

/-!
# Why the contract moves tokens

`Call.Justifies` lists the transfers a call can make, with what justifies each of
them: who authorised a transfer into the contract, and which record of the book
names the receiver of a transfer out of it.
-/

namespace TrustFlow

open Invocation Transition Purse

variable {A D : Type} [DecidableEq A] {H : Host A D}

/-! ### What justifies a transfer -/

/-- The transfer is one the call may make on the book `b`. -/
inductive Call.Justifies (b : Book H) (auth : A → Bool) : Call A D → Transfer A → Prop
  | stake {juror token : A} {amount : I128} (hauth : auth juror = true) (hpos : 0 < amount.val) :
      Justifies b auth (.stake juror amount) ⟨token, juror, H.self, amount⟩
  | unstake {juror token : A} {amount : I128} (hauth : auth juror = true)
      (hle : amount.val ≤ (b.stake juror).val) :
      Justifies b auth (.unstake juror amount) ⟨token, H.self, juror, amount⟩
  | create {depositor beneficiary token : A} {amount : I128} (hauth : auth depositor = true)
      (hpos : 0 < amount.val) :
      Justifies b auth (.createEscrow depositor beneficiary amount)
        ⟨token, depositor, H.self, amount⟩
  | init {depositor beneficiary token : A} {milestones : Vec Milestone} {amount : I128}
      (hauth : auth depositor = true) (hpos : 0 < amount.val)
      (hamount : amount.val = milestoneTotal milestones.toList) :
      Justifies b auth (.initEscrow depositor beneficiary milestones)
        ⟨token, depositor, H.self, amount⟩
  | payout {id : U64} {i : U32} {gross amount : I128} {e : EscrowRecord A} {token : A}
      (hescrow : b.escrow id = some e) (hauth : auth e.depositor = true) (hpos : 0 < amount.val) :
      Justifies b auth (.releaseMilestoneTranche id i gross e.depositor)
        ⟨token, H.self, e.beneficiary, amount⟩
  | fee {id : U64} {i : U32} {gross amount : I128} {e : EscrowRecord A} {cfg : EscrowFeeConfig A}
      {token : A} (hescrow : b.escrow id = some e) (hcfg : b.feeConfig id = some cfg)
      (hauth : auth e.depositor = true) (hpos : 0 < amount.val) :
      Justifies b auth (.releaseMilestoneTranche id i gross e.depositor)
        ⟨token, H.self, cfg.treasury, amount⟩
  | ruling {id : U64} {e : EscrowRecord A} {d : DisputeRecord A} {token : A} {amount : I128}
      (hescrow : b.escrow id = some e) (hdispute : b.dispute id = some d)
      (hopen : d.resolved = false)
      (hamount : amount.val = e.amount.val - (b.releasedOf id).val) (hpos : 0 < amount.val) :
      Justifies b auth (.resolveDispute id)
        ⟨token, H.self, if b.ruling id = true then e.depositor else e.beneficiary, amount⟩

section Steps

variable {b b' : Book H} {auth : A → Bool} {c : Call A D} {r : c.Result}

/-- A call makes the transfers it may make, all in the stored token. -/
theorem Book.Step.trades (hs : b.Step (.call auth c r) b') :
    Trades (fun t => b.settings.token = some t.token ∧ c.Justifies b auth t) b.purse b'.purse := by
  cases hs with
  | idle | configure | initialise => exact .nil
  | stake _ h =>
      cases h with
      | intro hauth _ hpos htoken hmove => exact hmove.trades ⟨htoken, .stake hauth hpos⟩
  | unstake h =>
      cases h with
      | intro hauth _ hle htoken hmove => exact hmove.trades ⟨htoken, .unstake hauth hle⟩
  | opens _ hl h =>
      cases h.lock with
      | intro htoken hmove =>
        cases hl with
        | create => exact hmove.trades ⟨htoken, .create h.hauth h.amount_pos⟩
        | init hamount => exact hmove.trades ⟨htoken, .init h.hauth h.amount_pos hamount⟩
  | release h =>
      cases h with
      | intro ht hpayout hfee =>
        have hauth := ht.hauth
        rw [ht.caller_eq] at hauth ⊢
        refine (hpayout.trades fun hpos => ?_).append (hfee.trades fun hpos => ?_)
        · exact ⟨ht.token_eq, .payout ht.escrow_eq hauth hpos⟩
        · exact ⟨ht.token_eq, .fee ht.escrow_eq ht.feeConfig_eq hauth hpos⟩
  | raise h =>
      cases h
      exact .nil
  | commit _ h =>
      cases h
      exact .nil
  | reveal _ h =>
      cases h
      exact .nil
  | resolve h =>
      cases h with
      | intro _ hdispute hopen _ _ _ hescrow htoken hremaining hpay =>
        exact hpay.trades fun hpos => ⟨htoken, .ruling hescrow hdispute hopen hremaining hpos⟩

end Steps

/-- What leaves an address other than the contract's, the address authorised. -/
theorem Call.Justifies.authorised {b : Book H} {auth : A → Bool} {c : Call A D} {tr : Transfer A}
    (h : c.Justifies b auth tr) : tr.src = H.self ∨ auth tr.src = true := by
  cases h with
  | stake hauth | create hauth | init hauth => exact .inr hauth
  | unstake | payout | fee | ruling => exact .inl rfl

/-! ### Runs -/

variable [DecidableEq D]

section Runs

variable {env env' env₀ : Env H} {l : Label H} {h : History H}

/-- The transfers of a transition, newest first. -/
def Env.moved (env env' : Env H) : List (Transfer A) := since env.purse env'.purse

/-- A transfer that the label of a step explains. -/
inductive Explained (env : Env H) : Label H → Transfer A → Prop
  | intro {auth : A → Bool} {c : Call A D} {r : c.Result} {tr : Transfer A}
      (htoken : env.inst .token = some tr.token) (hcall : c.Justifies env.book auth tr) :
      Explained env (.call auth c r) tr

theorem Step.moved (hs : Step env l env') :
    env'.purse.transfers = env.moved env' ++ env.purse.transfers ∧
      ∀ tr ∈ env.moved env', Explained env l tr ∧ 0 ≤ tr.amount.val := by
  have hquiet (hp : env'.purse.transfers = env.purse.transfers) :
      env'.purse.transfers = env.moved env' ++ env.purse.transfers ∧
        ∀ tr ∈ env.moved env', Explained env l tr ∧ 0 ≤ tr.amount.val := by
    have hnone : env.moved env' = [] := since_eq hp
    rw [hnone, hp]
    exact ⟨rfl, fun _ ht => absurd ht List.not_mem_nil⟩
  have hbook := hs.book
  cases hs with
  | call hself hc =>
      rcases hbook.trades.logged with ⟨new, hnew, hall⟩
      have hmoved : env.moved env' = new := since_eq hnew
      rw [hmoved]
      refine ⟨hnew, fun tr ht => ?_⟩
      rcases hall tr ht with ⟨⟨htoken, hjustified⟩, h0⟩
      exact ⟨.intro htoken hjustified, h0⟩
  | failed | close | tokens => exact hquiet rfl

/-- A call takes tokens from the contract and from whoever authorised it alone. -/
theorem Step.unharmed {auth : A → Bool} {c : Call A D} {r : c.Result}
    (hs : Step env (.call auth c r) env') {x : A} (hx : x ≠ H.self) (hauth : auth x = false)
    (tok : A) : env.purse.balance tok x ≤ env'.purse.balance tok x := by
  apply hs.book.trades.balance_le
  rintro tr ⟨_, hjustified⟩ _ rfl
  rcases hjustified.authorised with hself | hsrc
  · exact hx hself
  · cases hauth.symm.trans hsrc

/-- The log of a run is what its calls moved, in their order.  Every transfer is in
    the token stored then and is explained by its call: into the contract by whoever
    authorised it, out of it to the receiver the records name.  Nobody else's balance
    is lowered by a call, in any token. -/
theorem transfers_explained (hfresh : env₀.Fresh) (hr : Run Step env₀ h env) :
    env.purse.transfers = h.flatMap (fun t => t.pre.moved t.post) ∧
      (∀ t ∈ h, ∀ tr ∈ t.pre.moved t.post, Explained t.pre t.label tr ∧ 0 ≤ tr.amount.val) ∧
      ∀ t ∈ h, ∀ auth c r, t.label = .call auth c r → ∀ x, x ≠ H.self → auth x = false →
        ∀ tok, t.pre.purse.balance tok x ≤ t.post.purse.balance tok x := by
  refine ⟨?_, ?_, ?_⟩
  · induction hr with
    | nil => exact hfresh.no_transfers
    | snoc _ hs ih => rw [List.flatMap_cons, ← ih, ← hs.moved.1]
  · intro t ht
    exact (hr.step_of_mem ht).moved.2
  · intro t ht auth c r hl x hx hauth tok
    have hs := hr.step_of_mem ht
    rw [hl] at hs
    exact hs.unharmed hx hauth tok

/-- An escrow of which 25 is released and the rest decided by one juror makes four
    transfers: the deposit, the payout, the stake and what the ruling pays. -/
theorem transfers_explained_sample : ∃ (h : History Host.plain) (env : Env Host.plain),
    Run Step Env.deployed h env ∧ env.purse.transfers.length = 4 ∧
      env.purse.transfers = h.flatMap (fun t => t.pre.moved t.post) := by
  rcases Env.exists_of_plays releaseAndResolve
    (fun _ env => decide (env.purse.transfers.length = 4)) (by decide +kernel) with
    ⟨h, env, hs, hend⟩
  exact ⟨h, env, hs.run, of_decide_eq_true hend, (transfers_explained hs.fresh hs.run).1⟩

end Runs

end TrustFlow
