import TrustFlow.Abundance.Custody
import TrustFlow.Lib.Token

/-!
# The token as other contracts see it

The contracts of this repository move tokens through whatever `Tokens` is.  Here
it is a family of abundance tokens, one at each address: a transfer is the call
of `transfer` that its source authorised.  As long as the supply of each token
fits an `i128`, a transfer of what the source holds always goes through.

`Outside self` is what the tokens can do without `self`: no such step lowers
what `self` holds of any token, as long as `self` has approved nothing.
-/

namespace Abundance

open Invocation Transition

variable {A : Type} {H : Host}

/-! ### Issues -/

/-- No balance is negative and all of them together fit an `i128`. -/
structure Env.Bounded (env : Env A H) : Prop where
  solvent : env.Solvent
  total : env.total ≤ 170141183460469231731687303715884105727

/-- The state of one token with a bounded supply. -/
def Issue (A : Type) (H : Host) := {env : Env A H // env.Bounded}

/-- `owner` has approved nothing that could still be spent. -/
def Env.Unlent (env : Env A H) (owner : A) : Prop :=
  ∀ spender v, env.stored ⟨owner, spender⟩ = some v → v.amount.val ≤ 0

theorem Env.Bounded.congr {env env' : Env A H} (hb : env.Bounded)
    (h : ∀ x, env'.balanceOf x = env.balanceOf x) : env'.Bounded where
  solvent := hb.solvent.congr h
  total := by
    rw [Env.total_congr h]
    exact hb.total

theorem Env.Unlent.congr {env env' : Env A H} {owner : A} (hu : env.Unlent owner)
    (h : env'.temporary = env.temporary) : env'.Unlent owner := by
  intro spender v hv
  rw [Env.stored, h] at hv
  exact hu spender v hv

theorem Env.Unlent.allowance {env : Env A H} {owner : A} (hu : env.Unlent owner) (spender : A) :
    (env.allowanceOf ⟨owner, spender⟩).amount.val ≤ 0 := by
  by_contra hpos
  have hstored := Env.stored_of_allowance (not_le.mp hpos)
  exact hpos (hu spender _ hstored)

/-- `owner` has approved nothing at any token. -/
def AllUnlent (owner : A) (s : A → Issue A H) : Prop := ∀ tok, (s tok).1.Unlent owner

/-- A token when the ledger closes. -/
def Issue.closed (issue : Issue A H) (n : U32) : Issue A H :=
  ⟨{ issue.1 with sequence := n }, issue.2.congr fun _ => rfl⟩

theorem AllUnlent.closed {owner : A} {s : A → Issue A H} (hu : AllUnlent owner s) (n : U32) :
    AllUnlent owner fun tok => (s tok).closed n := fun tok => (hu tok).congr rfl

variable [DecidableEq A]

/-! ### Transfers that go through -/

section Progress

variable {auth : A → Bool} {env env' : Env A H} {a src dest : A} {n : I128}

theorem exists_spendBalance (h0 : 0 ≤ n.val) (hle : n.val ≤ (env.balanceOf a).val) :
    ∃ env', (spendBalance a n : Op A H Unit) auth env = .ok ((), env') := by
  have hmax := (env.balanceOf a).le_hi
  let rest : I128 := ⟨(env.balanceOf a).val - n.val, by omega, by omega⟩
  refine ⟨(env.bumpBalance a).putBalance a rest, ?_⟩
  simp only [spendBalance, bind_eq_ok, readBalance_eq_ok, failIf_eq_ok, okOr_eq_ok,
    BoundedInt.checkedSub_eq_some, writeBalance_eq_ok]
  exact ⟨_, _, ⟨rfl, rfl⟩, (), _, ⟨not_lt.mpr hle, rfl⟩, rest, _, ⟨rfl, rfl⟩, rfl⟩

theorem exists_receiveBalance (h0 : 0 ≤ (env.balanceOf a).val + n.val)
    (hle : (env.balanceOf a).val + n.val ≤ 170141183460469231731687303715884105727) :
    ∃ env', (receiveBalance a n : Op A H Unit) auth env = .ok ((), env') := by
  let sum : I128 := ⟨(env.balanceOf a).val + n.val, by omega, hle⟩
  refine ⟨(env.bumpBalance a).putBalance a sum, ?_⟩
  simp only [receiveBalance, bind_eq_ok, readBalance_eq_ok, okOr_eq_ok,
    BoundedInt.checkedAdd_eq_some, writeBalance_eq_ok]
  exact ⟨_, _, ⟨rfl, rfl⟩, sum, _, ⟨rfl, rfl⟩, rfl⟩

/-- What the source holds is transferred. -/
theorem exists_transfer (hb : env.Bounded) (hauth : auth src = true) (h0 : 0 ≤ n.val)
    (hle : n.val ≤ (env.balanceOf src).val) :
    ∃ env', (transfer src dest n : Op A H Unit) auth env = .ok ((), env') := by
  have hspend : ∃ e, (spendBalance src n : Op A H Unit) auth env.bumpInstance = .ok ((), e) :=
    exists_spendBalance h0 hle
  rcases hspend with ⟨e, hspend⟩
  have hfrom : env.Credits src (-n.val) e := by
    have hcredits := (spendBalance_ok hspend).2
    exact ⟨hcredits.balance, hcredits.temporary, hcredits.sequence⟩
  have hdebited : e.Solvent := hb.solvent.credit hfrom (by omega)
  -- the debit leaves room for the credit
  have htotal : e.total = env.total + -n.val := hfrom.total
  have hdest : (e.balanceOf dest).val ≤ e.total :=
    single_le_finsum dest e.finite_balances hdebited
  have hroom := hb.total
  have hreceive : ∃ e', (receiveBalance dest n : Op A H Unit) auth e = .ok ((), e') :=
    exists_receiveBalance (add_nonneg (hdebited dest) h0) (by omega)
  rcases hreceive with ⟨e', hreceive⟩
  refine ⟨e'.publish (.transfer src dest n), ?_⟩
  simp only [transfer, instanceBump, publish, bind_eq_ok, requireAuth_eq_ok,
    checkNonnegativeAmount_eq_ok, modify_eq_ok]
  exact ⟨(), _, ⟨hauth, rfl⟩, (), _, ⟨h0, rfl⟩, (), _, rfl, (), e, hspend, (), e', hreceive, rfl⟩

end Progress

/-! ### The family of tokens -/

section Family

variable {auth : A → Bool} {env env' : Env A H} {src dest owner x : A} {n : I128} {u : Unit}

theorem transfer_balance (h : transfer src dest n auth env = .ok (u, env')) (x : A) :
    (env'.balanceOf x).val = (env.balanceOf x).val + (if x = dest then n.val else 0) -
      if x = src then n.val else 0 := by
  rcases transfer_ok h with ⟨_, _, _, e, hfrom, hto⟩
  rw [hto.balance, hfrom.balance]
  split
  · split
    · omega
    · omega
  · split
    · omega
    · omega

theorem transfer_bounded (h : transfer src dest n auth env = .ok (u, env')) (hb : env.Bounded) :
    env'.Bounded := by
  have heffect : (Call.transfer src dest n).Effect env env' := Call.effect h
  refine ⟨heffect.solvent hb.solvent, ?_⟩
  have htotal := heffect.total
  have hbefore := hb.total
  simp only [Call.minted, Call.burned] at htotal
  omega

theorem transfer_unlent (h : transfer src dest n auth env = .ok (u, env')) (hu : env.Unlent owner) :
    env'.Unlent owner := by
  rcases transfer_ok h with ⟨_, _, _, e, hfrom, hto⟩
  exact hu.congr (hto.temporary.trans hfrom.temporary)

/-- The call of `transfer` by its source, at a token with a bounded supply. -/
def Issue.transfer (issue : Issue A H) (src dest : A) (n : I128) : Option (Issue A H) :=
  match h : Abundance.transfer src dest n (fun a => decide (a = src)) issue.1 with
  | .ok (_, env') => some ⟨env', transfer_bounded h issue.2⟩
  | .error _ => none

theorem Issue.transfer_eq_some {issue issue' : Issue A H} :
    issue.transfer src dest n = some issue' ↔
      Abundance.transfer src dest n (fun a => decide (a = src)) issue.1 = .ok ((), issue'.1) := by
  unfold Issue.transfer
  split
  · next env' h =>
    constructor
    · intro heq
      cases heq
      exact h
    · intro hok
      cases h.symm.trans hok
      rfl
  · next fault h =>
    constructor
    · nofun
    · intro hok
      cases h.symm.trans hok

/-- The abundance tokens, one at each address.  A query of a balance extends lifetimes
    as well, which no read depends on (`balance_ok`). -/
def tokens (A : Type) [DecidableEq A] (H : Host) : Tokens A where
  State := A → Issue A H
  balance s tok x := ((s tok).1.balanceOf x).val
  transfer s tok src dest n :=
    ((s tok).transfer src dest n).map fun issue => Function.update s tok issue
  transfer_nonneg := by
    intro s s' tok src dest n h
    rcases Option.map_eq_some_iff.mp h with ⟨issue, hissue, _⟩
    exact (transfer_ok (Issue.transfer_eq_some.mp hissue)).2.1
  balance_transfer := by
    intro s s' tok src dest n h t x
    rcases Option.map_eq_some_iff.mp h with ⟨issue, hissue, rfl⟩
    by_cases ht : t = tok
    · subst ht
      rw [Function.update_self, transfer_balance (Issue.transfer_eq_some.mp hissue)]
      simp
    · rw [Function.update_of_ne ht]
      simp [ht]

/-- A source that holds the amount pays it. -/
theorem tokens_paysFrom (src : A) : (tokens A H).PaysFrom src := by
  intro s tok dest n h0 hle
  have hreturns : ∃ env', (Abundance.transfer src dest n : Op A H Unit) (fun a => decide (a = src))
      (s tok).1 = .ok ((), env') :=
    exists_transfer (s tok).2 (decide_eq_true rfl) h0 hle
  rcases hreturns with ⟨env', hok⟩
  have hsome : (s tok).transfer src dest n = some ⟨env', transfer_bounded hok (s tok).2⟩ :=
    Issue.transfer_eq_some.mpr hok
  exact ⟨_, Option.map_eq_some_iff.mpr ⟨_, hsome, rfl⟩⟩

end Family

/-! ### What happens without a holder -/

section Outside

variable {self : A} {env env' : Env A H} {l : Label A H}
  {s s' : A → Issue A H}

/-- A step of a token that `self` did not authorise takes nothing out of its
    balance, and leaves nothing lent. -/
theorem Step.outside (hs : Step env l env') (hl : ¬ l.Authorises self) (hu : env.Unlent self) :
    (env.balanceOf self).val ≤ (env'.balanceOf self).val ∧ env'.Unlent self := by
  constructor
  · by_contra hlt
    rcases hs.debit (not_le.mp hlt) with ⟨n, hdebit, hb⟩
    cases hdebit with
    | own _ hauth => exact hl hauth
    | @lent spender _ _ hle =>
        have hnothing := hu.allowance spender
        omega
  · intro spender v hv
    cases hs.change ⟨self, spender⟩ with
    | kept _ hget => exact hu spender v (hget.symm.trans hv)
    | approved hl' => exact absurd (hs.approval_authorised hl') hl
    | @spent n e hl' h0 hspend ht _ =>
        have hstored : e.stored ⟨self, spender⟩ = some v := by rwa [Env.stored, ← ht]
        have hnothing := hu.allowance spender
        cases hspend with
        | @intro rest hle hrest hwrites =>
          cases hstored.symm.trans hwrites.stored_self
          show rest.val ≤ 0
          omega

/-- What the tokens can do without `self` in one ledger: a step of one of them that
    `self` did not authorise. -/
inductive Outside (self : A) (s : A → Issue A H) : (A → Issue A H) → Prop
  | intro {tok : A} {l : Label A H} {issue : Issue A H} (hl : ¬ l.Authorises self)
      (hopen : ∀ n, l ≠ .close n) (h : Step (s tok).1 l issue.1) :
      Outside self s (Function.update s tok issue)

theorem AllUnlent.update {tok : A} {issue : Issue A H} (hu : AllUnlent self s)
    (h : issue.1.Unlent self) : AllUnlent self (Function.update s tok issue) := by
  intro t
  by_cases ht : t = tok
  · subst ht
    rw [Function.update_self]
    exact h
  · rw [Function.update_of_ne ht]
    exact hu t

theorem AllUnlent.transfer {tok src dest : A} {n : I128} (hu : AllUnlent self s)
    (h : (tokens A H).transfer s tok src dest n = some s') : AllUnlent self s' := by
  rcases Option.map_eq_some_iff.mp h with ⟨issue, hissue, rfl⟩
  exact hu.update (transfer_unlent (Issue.transfer_eq_some.mp hissue) (hu tok))

theorem AllUnlent.outside (hu : AllUnlent self s) (h : Outside self s s') :
    (∀ tok, (tokens A H).balance s tok self ≤ (tokens A H).balance s' tok self) ∧
      AllUnlent self s' := by
  cases h with
  | @intro tok l issue hl _ h =>
    rcases h.outside hl (hu tok) with ⟨hle, hunlent⟩
    refine ⟨fun t => ?_, hu.update hunlent⟩
    show ((s t).1.balanceOf self).val ≤ ((Function.update s tok issue t).1.balanceOf self).val
    by_cases ht : t = tok
    · subst ht
      rw [Function.update_self]
      exact hle
    · rw [Function.update_of_ne ht]

end Outside

/-! ### A funded token -/

/-- A token where the addresses 1 and 2 hold 100 each. -/
def Env.funded : Env Nat Host.plain :=
  (Env.deployed.putBalance 1 (.ofNat 100)).putBalance 2 (.ofNat 100)

theorem Env.funded_bounded : Env.funded.Bounded := by
  have hzero (a : Nat) : (Env.deployed.balanceOf a).val = 0 := by
    rw [Env.deployed_fresh.balanceOf, I128.val_zero]
  have hfirst : Env.deployed.Credits 1 100 (Env.deployed.putBalance 1 (.ofNat 100)) :=
    .of_put (m := .ofNat 100) rfl
  have hsecond : (Env.deployed.putBalance 1 (.ofNat 100)).Credits 2 100 Env.funded :=
    .of_put (m := .ofNat 100) rfl
  have h0 : Env.deployed.total = 0 := by simp [Env.total, hzero]
  have hsolvent : Env.deployed.Solvent := fun a => (hzero a).ge
  constructor
  · exact (hsolvent.credit hfirst (by decide)).credit hsecond (by decide)
  · rw [hsecond.total, hfirst.total, h0]
    decide

def Issue.funded : Issue Nat Host.plain := ⟨Env.funded, Env.funded_bounded⟩

theorem Issue.funded_unlent (owner : Nat) : Issue.funded.1.Unlent owner := by
  intro spender v hv
  cases hv

end Abundance
