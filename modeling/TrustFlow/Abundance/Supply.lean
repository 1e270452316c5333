import TrustFlow.Abundance.Calls
import TrustFlow.Lib.Sums

/-!
# The supply of the token

Debit and credit are separate writes, so a call that has both goes through a
state in between.  `Env.Credits.total` follows the sum of all balances through
one such write; what a whole call does to it is `Call.Effect.total`.
-/

namespace Abundance

open Transition

variable {A : Type} {H : Host}

/-! ### Totals -/

/-- The sum of all balances. -/
noncomputable def Env.total (env : Env A H) : Int := ∑ᶠ a, (env.balanceOf a).val

/-- No balance is negative. -/
def Env.Solvent (env : Env A H) : Prop := ∀ a, 0 ≤ (env.balanceOf a).val

section Totals

variable {env env' env₀ : Env A H} {a : A} {n : Int}

theorem Env.finite_balances (env : Env A H) :
    (Function.support fun a => (env.balanceOf a).val).Finite := by
  apply env.persistent.finite_support DataKey.balance fun _ _ h => DataKey.balance.inj h
  intro a ha
  simp [balanceOf, get, ha]

theorem Env.total_congr (h : ∀ x, env'.balanceOf x = env.balanceOf x) : env'.total = env.total := by
  simp only [total, h]

theorem Env.Solvent.congr (hs : env.Solvent) (h : ∀ x, env'.balanceOf x = env.balanceOf x) :
    env'.Solvent := by
  intro x
  rw [h]
  exact hs x

theorem Env.Fresh.balanceOf (hfresh : env₀.Fresh) (a : A) : env₀.balanceOf a = 0 := by
  rw [Env.balanceOf, hfresh.no_persistent]
  rfl

variable [DecidableEq A]

theorem Env.Credits.total (h : env.Credits a n env') : env'.total = env.total + n := by
  have hother : ∀ x, x ≠ a → (env'.balanceOf x).val = (env.balanceOf x).val := by
    intro x hx
    rw [h.balance, if_neg hx, add_zero]
  have hsum := finsum_change env.finite_balances hother
  have ha := h.balance a
  rw [if_pos rfl] at ha
  rw [Env.total, hsum, ha, Env.total]
  ring

theorem Env.SpendsAllowance.balance {k : AllowanceDataKey A} {m : I128}
    (h : env.SpendsAllowance k m env') (x : A) : env'.balanceOf x = env.balanceOf x := by
  obtain ⟨v, hwrites⟩ := h.writes
  exact hwrites.balance x

end Totals

variable [DecidableEq A]

/-! ### What a call does to the balances -/

namespace Call

def minted : Call A → Int
  | .mint _ n => n.val
  | _ => 0

def burned : Call A → Int
  | .burn _ n => n.val
  | .burnFrom _ _ n => n.val
  | _ => 0

/-- The addresses whose balances a call names. -/
def parties : Call A → List A
  | .mint dest _ => [dest]
  | .transfer src dest _ => [src, dest]
  | .transferFrom _ src dest _ => [src, dest]
  | .burn src _ => [src]
  | .burnFrom _ src _ => [src]
  | _ => []

/-- A transfer of an address to itself. -/
inductive SelfTransfer : Call A → Prop
  | transfer {a : A} {n : I128} : SelfTransfer (.transfer a a n)
  | transferFrom {spender a : A} {n : I128} : SelfTransfer (.transferFrom spender a a n)

variable {c : Call A} {env env' : Env A H}

theorem Effect.total (h : c.Effect env env') : env'.total = env.total + c.minted - c.burned := by
  cases h with
  | idle hidle h =>
      rw [Env.total_congr h.balance]
      cases hidle <;> simp [minted, burned]
  | mint _ hto => simp [minted, burned, hto.total]
  | approve _ _ h => simp [minted, burned, Env.total_congr h.balance]
  | transfer _ _ hfrom hto => simp [minted, burned, hto.total, hfrom.total]
  | transferFrom _ hspend _ hfrom hto =>
      simp [minted, burned, hto.total, hfrom.total, Env.total_congr hspend.balance]
  | burn _ _ hfrom =>
      rw [hfrom.total]
      simp [minted, burned, Int.sub_eq_add_neg]
  | burnFrom _ hspend _ hfrom =>
      rw [hfrom.total, Env.total_congr hspend.balance]
      simp [minted, burned, Int.sub_eq_add_neg]

/-- Balances no party of the call holds stay what they are. -/
theorem Effect.frame (h : c.Effect env env') {a : A} (ha : a ∉ c.parties) :
    env'.balanceOf a = env.balanceOf a := by
  apply BoundedInt.ext
  cases h with
  | idle _ h => rw [h.balance]
  | mint _ hto =>
      have hne : a ≠ _ := List.ne_of_not_mem_cons ha
      rw [hto.balance, if_neg hne, add_zero]
  | approve _ _ h => rw [h.balance]
  | transfer _ _ hfrom hto =>
      have hsrc : a ≠ _ := List.ne_of_not_mem_cons ha
      have hdest : a ≠ _ := List.ne_of_not_mem_cons (List.not_mem_of_not_mem_cons ha)
      rw [hto.balance, if_neg hdest, hfrom.balance, if_neg hsrc, add_zero, add_zero]
  | transferFrom _ hspend _ hfrom hto =>
      have hsrc : a ≠ _ := List.ne_of_not_mem_cons ha
      have hdest : a ≠ _ := List.ne_of_not_mem_cons (List.not_mem_of_not_mem_cons ha)
      rw [hto.balance, if_neg hdest, hfrom.balance, if_neg hsrc, hspend.balance, add_zero, add_zero]
  | burn _ _ hfrom =>
      have hne : a ≠ _ := List.ne_of_not_mem_cons ha
      rw [hfrom.balance, if_neg hne, add_zero]
  | burnFrom _ hspend _ hfrom =>
      have hne : a ≠ _ := List.ne_of_not_mem_cons ha
      rw [hfrom.balance, if_neg hne, hspend.balance, add_zero]

/-- The debit and the credit of one address cancel. -/
theorem Effect.selfTransfer (h : c.Effect env env') (hc : c.SelfTransfer) (x : A) :
    env'.balanceOf x = env.balanceOf x := by
  apply BoundedInt.ext
  cases hc with
  | transfer =>
      cases h with
      | idle hidle => cases hidle
      | transfer _ _ hfrom hto =>
        rw [hto.balance, hfrom.balance]
        split <;> omega
  | transferFrom =>
      cases h with
      | idle hidle => cases hidle
      | transferFrom _ hspend _ hfrom hto =>
        rw [hto.balance, hfrom.balance, hspend.balance]
        split <;> omega

end Call

/-! ### Balances are never negative -/

section Nonneg

variable {env env' : Env A H} {a : A} {n : Int}

theorem Env.Solvent.credit (hs : env.Solvent) (h : env.Credits a n env')
    (h0 : 0 ≤ (env.balanceOf a).val + n) : env'.Solvent := by
  intro x
  rw [h.balance]
  by_cases hx : x = a
  · subst hx
    rwa [if_pos rfl]
  · rw [if_neg hx, add_zero]
    exact hs x

theorem Call.Effect.solvent {c : Call A} (h : c.Effect env env') (hs : env.Solvent) :
    env'.Solvent := by
  have hin {e e' : Env A H} {x : A} {m : I128} (he : e.Solvent) (h0 : 0 ≤ m.val)
      (hto : e.Credits x m.val e') : e'.Solvent :=
    he.credit hto (add_nonneg (he x) h0)
  have hout {e e' : Env A H} {x : A} {m : I128} (he : e.Solvent)
      (hle : m.val ≤ (e.balanceOf x).val) (hfrom : e.Credits x (-m.val) e') : e'.Solvent :=
    he.credit hfrom (by omega)
  cases h with
  | idle _ h => exact hs.congr h.balance
  | mint h0 hto => exact hin hs h0 hto
  | approve _ _ h => exact hs.congr h.balance
  | transfer h0 hle hfrom hto => exact hin (hout hs hle hfrom) h0 hto
  | transferFrom h0 hspend hle hfrom hto =>
      exact hin (hout (hs.congr hspend.balance) hle hfrom) h0 hto
  | burn _ hle hfrom => exact hout hs hle hfrom
  | burnFrom _ hspend hle hfrom => exact hout (hs.congr hspend.balance) hle hfrom

end Nonneg

/-! ### Runs -/

namespace Label

def minted : Label A H → Int
  | .call _ c _ => c.minted
  | _ => 0

def burned : Label A H → Int
  | .call _ c _ => c.burned
  | _ => 0

end Label

def minted (h : History A H) : Int := (h.map fun t => t.label.minted).sum
def burned (h : History A H) : Int := (h.map fun t => t.label.burned).sum

section Runs

variable {env env' env₀ : Env A H} {l : Label A H} {h : History A H}

theorem Step.total (hs : Step env l env') : env'.total = env.total + l.minted - l.burned := by
  cases hs with
  | call h => exact (Call.effect h).total
  | failed => simp [Label.minted, Label.burned]
  | close =>
      show env.total = _
      simp [Label.minted, Label.burned]
  | prolong =>
      show env.total = _
      simp [Label.minted, Label.burned]

theorem Step.solvent (hs : Step env l env') (h : env.Solvent) : env'.Solvent := by
  cases hs with
  | call hc => exact (Call.effect hc).solvent h
  | failed | close | prolong => exact h

theorem Step.selfTransfer {auth : A → Bool} {c : Call A} {r : c.Result}
    (hs : Step env (.call auth c r) env') (hc : c.SelfTransfer) (a : A) :
    env'.balanceOf a = env.balanceOf a := by
  cases hs with
  | call h => exact (Call.effect h).selfTransfer hc a

theorem Step.frame (hs : Step env l env') {a : A}
    (ha : ∀ auth c r, l = .call auth c r → a ∉ c.parties) :
    env'.balanceOf a = env.balanceOf a := by
  cases hs with
  | call h => exact (Call.effect h).frame (ha _ _ _ rfl)
  | failed | close | prolong => rfl

theorem Run.total (h0 : env₀.total = 0) (hr : Run Step env₀ h env) :
    env.total = minted h - burned h := by
  refine Run.history_invariant (P := fun h env => env.total = minted h - burned h) ?_ ?_ hr
  · simp [h0, minted, burned]
  · intro h env l env' _ ih hs
    rw [hs.total, ih]
    simp [minted, burned]
    ring

/-- In every run of the token the balances add up to what was minted less what was
    burned, each of them is a non-negative `i128`, a transfer to oneself changes
    none, and no step changes a balance its call does not name. -/
theorem supply_conserved (hfresh : env₀.Fresh) (hr : Run Step env₀ h env) :
    ∑ᶠ a, (env.balanceOf a).val = minted h - burned h ∧
      (∀ a, 0 ≤ (env.balanceOf a).val ∧
        (env.balanceOf a).val ≤ 170141183460469231731687303715884105727) ∧
      (∀ t ∈ h, ∀ auth c r, t.label = .call auth c r → c.SelfTransfer →
        ∀ a, t.post.balanceOf a = t.pre.balanceOf a) ∧
      (∀ t ∈ h, ∀ a, (∀ auth c r, t.label = .call auth c r → a ∉ c.parties) →
        t.post.balanceOf a = t.pre.balanceOf a) := by
  have h0 : env₀.total = 0 := by simp [Env.total, hfresh.balanceOf]
  have hsolvent : env₀.Solvent := by
    intro a
    rw [hfresh.balanceOf, I128.val_zero]
  refine ⟨Run.total h0 hr, fun a => ⟨?_, (env.balanceOf a).le_hi⟩, ?_, ?_⟩
  · exact Run.invariant hsolvent (fun hP hs => hs.solvent hP) hr a
  · intro t ht auth c r hl hself a
    have hs := hr.step_of_mem ht
    rw [hl] at hs
    exact hs.selfTransfer hself a
  · intro t ht a hparties
    exact (hr.step_of_mem ht).frame hparties

/-- After the script the balances add up to 65 of the 100 minted. -/
theorem supply_conserved_sample : ∃ (h : History Nat Host.plain) (env : Env Nat Host.plain),
    Run Step Env.deployed h env ∧ minted h = 100 ∧ burned h = 35 ∧
      ∑ᶠ a, (env.balanceOf a).val = 65 := by
  rcases Env.exists_of_plays spendingScript
    (fun h _ => decide (minted h = 100) && decide (burned h = 35)) (by decide +kernel) with
    ⟨h, env, hr, hend⟩
  simp only [Bool.and_eq_true, decide_eq_true_eq] at hend
  rcases hend with ⟨hminted, hburned⟩
  have hsum := (supply_conserved Env.deployed_fresh hr).1
  rw [hminted, hburned] at hsum
  exact ⟨h, env, hr, hminted, hburned, hsum⟩

end Runs

end Abundance
