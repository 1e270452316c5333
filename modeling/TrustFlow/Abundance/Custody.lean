import TrustFlow.Abundance.Allowances
import TrustFlow.Abundance.Supply

/-!
# Who can take tokens

A balance falls for two reasons only: its owner transfers or burns, or somebody
spends what the owner approved.  The second kind is traced back to an approval
of the owner: `Backed` says of a history that every positive allowance that is
stored is what is left of one.
-/

namespace Abundance

open Transition

variable {A : Type} {H : Host}

/-! ### Authorisations -/

namespace Label

/-- A call that `a` authorised. -/
def Authorises (a : A) : Label A H → Prop
  | .call auth _ _ => auth a = true
  | _ => False

/-- The owner of `n` moves them out of its own balance. -/
inductive Gives : Label A H → A → I128 → Prop
  | transfer {auth : A → Bool} {src dest : A} {n : I128} :
      Gives (.call auth (.transfer src dest n) ()) src n
  | burn {auth : A → Bool} {src : A} {n : I128} : Gives (.call auth (.burn src n) ()) src n

end Label

/-- An approval of `n` under the pair by its owner, up to the ledger `expiration`. -/
structure Approval (h : History A H) (k : AllowanceDataKey A) (n : Int) (expiration : U32) :
    Prop where
  found : ∃ t ∈ h, ∃ v, t.label.Approves k v ∧ t.label.Authorises k.src ∧ n ≤ v.amount.val ∧
    v.expirationLedger = expiration

theorem Approval.later {h : History A H} {k : AllowanceDataKey A} {n m : Int} {expiration : U32}
    {t : Move (Env A H) (Label A H)} (ha : Approval h k n expiration) (hle : m ≤ n) :
    Approval (t :: h) k m expiration := by
  rcases ha.found with ⟨t', ht', v, hl, hauth, hn, hexp⟩
  exact ⟨t', List.mem_cons_of_mem _ ht', v, hl, hauth, hle.trans hn, hexp⟩

/-- A positive allowance is the entry that is stored. -/
theorem Env.stored_of_allowance {env : Env A H} {k : AllowanceDataKey A}
    (h : 0 < (env.allowanceOf k).amount.val) : env.stored k = some (env.allowanceOf k) := by
  cases hv : env.temp (.allowance k) with
  | none => simp [Env.allowanceOf, hv] at h
  | some v =>
      by_cases hexpired : v.expirationLedger.val < env.sequence.val
      · simp [Env.allowanceOf, hv, hexpired] at h
      · simp only [Env.allowanceOf, hv, if_neg hexpired]
        exact Temporary.stored_get_of_get hv

/-- Every positive allowance that is stored is left of an approval. -/
def Backed (h : History A H) (env : Env A H) : Prop :=
  ∀ k v, env.stored k = some v → 0 < v.amount.val → Approval h k v.amount.val v.expirationLedger

/-- A positive allowance that can be spent is left of an approval that has not
    expired. -/
theorem Backed.approval {h : History A H} {env : Env A H} {k : AllowanceDataKey A}
    (hb : Backed h env) (hpos : 0 < (env.allowanceOf k).amount.val) :
    Approval h k (env.allowanceOf k).amount.val (env.allowanceOf k).expirationLedger ∧
      env.sequence.val ≤ (env.allowanceOf k).expirationLedger.val :=
  ⟨hb k _ (Env.stored_of_allowance hpos) hpos, Env.sequence_le_of_allowance hpos⟩

variable [DecidableEq A]

/-- What a call approves under a pair. -/
def Call.approved (k : AllowanceDataKey A) : Call A → Int
  | .approve src spender n _ => if k = ⟨src, spender⟩ then n.val else 0
  | _ => 0

def Label.approved (k : AllowanceDataKey A) : Label A H → Int
  | .call _ c _ => c.approved k
  | _ => 0

/-- What a history approved under a pair, all approvals together. -/
def approved (k : AllowanceDataKey A) (h : History A H) : Int :=
  (h.map fun t => t.label.approved k).sum

/-! ### Allowances come from approvals -/

section Approvals

variable {env env' env₀ : Env A H} {l : Label A H} {h : History A H} {k : AllowanceDataKey A}
  {v : AllowanceValue} {n : I128}

theorem Step.approval_authorised (hs : Step env l env') (hl : l.Approves k v) :
    l.Authorises k.src := by
  cases hl with
  | intro =>
    cases hs with
    | call h => exact (approve_ok h).1

theorem Backed.step (hb : Backed h env) (hs : Step env l env') :
    Backed (⟨env, l, env'⟩ :: h) env' := by
  intro k v hget hpos
  cases hs.change k with
  | kept _ hkept => exact (hb k v (hkept.symm.trans hget) hpos).later le_rfl
  | approved hl _ _ hwrites =>
      cases hget.symm.trans hwrites.stored_self
      exact ⟨_, List.mem_cons_self, v, hl, hs.approval_authorised hl, le_rfl, rfl⟩
  | @spent n e hl h0 hspend ht _ =>
      have hstored : e.stored k = some v := by rwa [Env.stored, ← ht]
      cases hspend with
      | @intro rest hle hrest hwrites =>
        cases hstored.symm.trans hwrites.stored_self
        -- what is left is positive, so what there was is
        have hless : rest.val ≤ (env.allowanceOf k).amount.val := by omega
        have hlarger : 0 < (env.allowanceOf k).amount.val := hpos.trans_le hless
        exact (hb.approval hlarger).1.later hless

theorem Run.backed (hfresh : env₀.Fresh) (hr : Run Step env₀ h env) : Backed h env := by
  refine Run.history_invariant (P := Backed) ?_ (fun _ hb hs => hb.step hs) hr
  intro k v hget
  cases hget.symm.trans (hfresh.no_temporary _)

end Approvals

/-! ### Why a balance falls -/

section Debits

variable {env env' env₀ e : Env A H} {l : Label A H} {h : History A H} {a src dest : A} {n : I128}

/-- Only the source of a debit that is credited to another address loses. -/
theorem Env.Credits.lost (hfrom : env.Credits src (-n.val) e) (hto : e.Credits dest n.val env')
    (h0 : 0 ≤ n.val) (hlt : (env'.balanceOf a).val < (env.balanceOf a).val) :
    a = src ∧ (env'.balanceOf a).val = (env.balanceOf a).val - n.val := by
  have hb : (env'.balanceOf a).val = (env.balanceOf a).val + (if a = src then -n.val else 0) +
      if a = dest then n.val else 0 := by
    rw [hto.balance, hfrom.balance]
  split at hb
  · next hsrc =>
    refine ⟨hsrc, ?_⟩
    split at hb
    · omega
    · omega
  · split at hb
    · omega
    · omega

theorem Env.Credits.lost_one (hfrom : env.Credits src (-n.val) env')
    (hlt : (env'.balanceOf a).val < (env.balanceOf a).val) :
    a = src ∧ (env'.balanceOf a).val = (env.balanceOf a).val - n.val := by
  have hb := hfrom.balance a
  split at hb
  · next hsrc =>
    refine ⟨hsrc, ?_⟩
    omega
  · omega

/-- What a step that lowers a balance is. -/
inductive Debit (env : Env A H) (l : Label A H) (a : A) (n : I128) : Prop
  | own (hl : l.Gives a n) (hauth : l.Authorises a) : Debit env l a n
  | lent {spender : A} (hl : l.Spends ⟨a, spender⟩ n) (hauth : l.Authorises spender)
      (hle : n.val ≤ (env.allowanceOf ⟨a, spender⟩).amount.val) : Debit env l a n

theorem Step.debit (hs : Step env l env')
    (hlt : (env'.balanceOf a).val < (env.balanceOf a).val) :
    ∃ n, Debit env l a n ∧ (env'.balanceOf a).val = (env.balanceOf a).val - n.val := by
  cases hs with
  | @call _ auth c r h =>
      cases c with
      | transfer src dest n =>
          rcases transfer_ok h with ⟨hauth, h0, _, e, hfrom, hto⟩
          rcases hfrom.lost hto h0 hlt with ⟨rfl, hb⟩
          exact ⟨n, .own .transfer hauth, hb⟩
      | transferFrom spender src dest n =>
          rcases transferFrom_ok h with ⟨hauth, h0, e₁, hspend, _, e₂, hfrom, hto⟩
          have hsame : e₁.balanceOf a = env.balanceOf a := hspend.balance a
          rw [← hsame] at hlt ⊢
          rcases hfrom.lost hto h0 hlt with ⟨rfl, hb⟩
          exact ⟨n, .lent .transferFrom hauth hspend.le, hb⟩
      | burn src n =>
          rcases burn_ok h with ⟨hauth, _, _, hfrom⟩
          rcases hfrom.lost_one hlt with ⟨rfl, hb⟩
          exact ⟨n, .own .burn hauth, hb⟩
      | burnFrom spender src n =>
          rcases burnFrom_ok h with ⟨hauth, _, e, hspend, _, hfrom⟩
          have hsame : e.balanceOf a = env.balanceOf a := hspend.balance a
          rw [← hsame] at hlt ⊢
          rcases hfrom.lost_one hlt with ⟨rfl, hb⟩
          exact ⟨n, .lent .burnFrom hauth hspend.le, hb⟩
      | mint dest n =>
          rcases mint_ok h with ⟨_, h0, hto⟩
          rw [hto.balance] at hlt
          split at hlt
          · omega
          · omega
      | approve =>
          rcases approve_ok h with ⟨_, _, _, hwrites⟩
          rw [hwrites.balance] at hlt
          omega
      | _ =>
          rw [(Call.effect h).frame List.not_mem_nil] at hlt
          omega
  | failed | close | prolong => exact absurd hlt (lt_irrefl _)

end Debits

/-! ### Runs -/

section Runs

variable {env env' env₀ : Env A H} {l : Label A H} {h : History A H} {k : AllowanceDataKey A}

theorem Step.approved_nonneg (hs : Step env l env') : 0 ≤ l.approved k := by
  cases hs with
  | @call _ _ c _ h =>
      cases c with
      | approve =>
          have h0 := (approve_ok h).2.1
          simp only [Label.approved, Call.approved]
          split
          · exact h0
          · exact le_rfl
      | _ => exact le_rfl
  | failed | close | prolong => exact le_rfl

theorem Label.Approves.amounts {v : AllowanceValue} (hl : l.Approves k v) :
    l.approved k = v.amount.val ∧ l.spent k = 0 := by
  cases hl with
  | intro => exact ⟨if_pos rfl, rfl⟩

theorem Label.Spends.not_approved {n : I128} (hl : l.Spends k n) : l.approved k = 0 := by
  cases hl with
  | transferFrom | burnFrom => rfl

/-- What is spent and what is still stored was approved. -/
structure Within (k : AllowanceDataKey A) (h : History A H) (env : Env A H) : Prop where
  spent : spent k h ≤ approved k h
  stored : ∀ v, env.stored k = some v →
    0 ≤ v.amount.val ∧ Abundance.spent k h + v.amount.val ≤ approved k h

/-- An allowance reads as no more than what is still stored. -/
theorem Within.allowance (hw : Within k h env) :
    Abundance.spent k h + (env.allowanceOf k).amount.val ≤ approved k h := by
  by_cases hpos : 0 < (env.allowanceOf k).amount.val
  · exact (hw.stored _ (Env.stored_of_allowance hpos)).2
  · have hspent := hw.spent
    omega

theorem Within.step (hw : Within k h env) (hs : Step env l env') :
    Within k (⟨env, l, env'⟩ :: h) env' := by
  have hspent : Abundance.spent k (⟨env, l, env'⟩ :: h) = l.spent k + Abundance.spent k h :=
    spent_cons _ _ _
  have happroved : approved k (⟨env, l, env'⟩ :: h) = l.approved k + approved k h := List.sum_cons
  have hbefore := hw.spent
  cases hs.change k with
  | kept hnone hget =>
      have h0 : 0 ≤ l.approved k := hs.approved_nonneg
      refine ⟨by omega, fun v hv => ?_⟩
      rcases hw.stored v (hget.symm.trans hv) with ⟨hv0, hle⟩
      exact ⟨hv0, by omega⟩
  | approved hl h0 _ hwrites =>
      rcases hl.amounts with ⟨hamount, hnone⟩
      refine ⟨by omega, fun v hv => ?_⟩
      cases hv.symm.trans hwrites.stored_self
      exact ⟨h0, by omega⟩
  | @spent n e hl h0 hspend ht _ =>
      have hall := hw.allowance
      have hn := hl.spent
      have hnone := hl.not_approved
      have hle := hspend.le
      refine ⟨by omega, fun v hv => ?_⟩
      have hstored : e.stored k = some v := by rwa [Env.stored, ← ht]
      cases hspend with
      | @intro rest _ hrest hwrites =>
        cases hstored.symm.trans hwrites.stored_self
        show 0 ≤ rest.val ∧ _ + rest.val ≤ _
        exact ⟨by omega, by omega⟩

theorem Run.within (hfresh : env₀.Fresh) (hr : Run Step env₀ h env) : Within k h env := by
  refine Run.history_invariant (P := Within k) ⟨le_rfl, fun v hv => ?_⟩
    (fun _ hw hs => hw.step hs) hr
  cases hv.symm.trans (hfresh.no_temporary _)

/-- A balance falls in a step for one of two reasons: the owner authorised a transfer
    or a burn of exactly that amount, or a spender took it out of an allowance that
    the owner approved before and that has not expired.  All that is ever spent of a
    pair was approved, and who authorises nothing never loses anything. -/
theorem tokens_safe (hfresh : env₀.Fresh) (hr : Run Step env₀ h env) :
    (∀ later t earlier, h = later ++ t :: earlier → ∀ a,
      (t.post.balanceOf a).val < (t.pre.balanceOf a).val →
      ∃ n : I128, (t.post.balanceOf a).val = (t.pre.balanceOf a).val - n.val ∧
        ((t.label.Gives a n ∧ t.label.Authorises a) ∨
          ∃ spender expiration, t.label.Spends ⟨a, spender⟩ n ∧ t.label.Authorises spender ∧
            Approval earlier ⟨a, spender⟩ n.val expiration ∧
            t.pre.sequence.val ≤ expiration.val)) ∧
      (∀ k, spent k h ≤ approved k h) ∧
      ∀ a, (∀ t ∈ h, ¬ t.label.Authorises a) → ∀ t ∈ h,
        (t.pre.balanceOf a).val ≤ (t.post.balanceOf a).val := by
  have hreason {later t earlier} (hsplit : h = later ++ t :: earlier) (a : A)
      (hlt : (t.post.balanceOf a).val < (t.pre.balanceOf a).val) :
      ∃ n : I128, (t.post.balanceOf a).val = (t.pre.balanceOf a).val - n.val ∧
        ((t.label.Gives a n ∧ t.label.Authorises a) ∨
          ∃ spender expiration, t.label.Spends ⟨a, spender⟩ n ∧ t.label.Authorises spender ∧
            Approval earlier ⟨a, spender⟩ n.val expiration ∧
            t.pre.sequence.val ≤ expiration.val) := by
    rw [hsplit] at hr
    rcases hr.split with ⟨_, hfirst, _⟩
    rcases hfirst.last with ⟨hearlier, hs, _⟩
    rcases hs.debit hlt with ⟨n, hdebit, hb⟩
    refine ⟨n, hb, ?_⟩
    cases hdebit with
    | own hl hauth => exact .inl ⟨hl, hauth⟩
    | @lent spender hl hauth hle =>
        have hpos : 0 < (t.pre.allowanceOf ⟨a, spender⟩).amount.val := by omega
        rcases (Run.backed hfresh hearlier).approval hpos with ⟨happroval, hnow⟩
        rcases happroval.found with ⟨t', ht', v, hl', hauth', hn, hexp⟩
        exact .inr ⟨spender, _, hl, hauth, ⟨t', ht', v, hl', hauth', hle.trans hn, hexp⟩, hnow⟩
  refine ⟨fun later t earlier hsplit => hreason hsplit, fun k => (Run.within hfresh hr).spent, ?_⟩
  intro a hnever t ht
  by_contra hlt
  rcases List.append_of_mem ht with ⟨later, earlier, hsplit⟩
  rcases hreason hsplit a (not_le.mp hlt) with ⟨n, _, ⟨_, hauth⟩ | ⟨spender, _, _, _, happroval, _⟩⟩
  · exact hnever t ht hauth
  · rcases happroval.found with ⟨t', ht', _, _, hauth, _⟩
    refine hnever t' ?_ hauth
    rw [hsplit]
    exact List.mem_append_right _ (List.mem_cons_of_mem _ ht')

/-- In the script address 3 takes 20 and then 5 of the 30 that address 1 lets it spend. -/
theorem tokens_safe_sample : ∃ (h : History Nat Host.plain) (env : Env Nat Host.plain),
    Run Step Env.deployed h env ∧ spent ⟨1, 3⟩ h = 25 ∧ approved ⟨1, 3⟩ h = 30 ∧
      spent ⟨1, 3⟩ h ≤ approved ⟨1, 3⟩ h := by
  rcases Env.exists_of_plays spendingScript
    (fun h _ => decide (spent ⟨1, 3⟩ h = 25) && decide (approved ⟨1, 3⟩ h = 30))
    (by decide +kernel) with ⟨h, env, hr, hend⟩
  simp only [Bool.and_eq_true, decide_eq_true_eq] at hend
  rcases hend with ⟨hspent, happroved⟩
  exact ⟨h, env, hr, hspent, happroved, (tokens_safe Env.deployed_fresh hr).2.1 ⟨1, 3⟩⟩

end Runs

end Abundance
