import TrustFlow.MockToken.Contract
import TrustFlow.Lib.Sums

/-!
# The books of the mock token

Every balance is what the history credited to its holder less what it debited,
and only the one administrator a run appoints creates tokens.
-/

namespace MockToken

open Invocation Transition

variable {A : Type}

/-! ### What the calls are about -/

def Call.minted : Call A → Int
  | .mint _ n => n.val
  | _ => 0

def Call.initialises : Call A → Bool
  | .initialise .. => true
  | _ => false

def Label.minted : Label A → Int
  | .call _ c _ => c.minted
  | _ => 0

def Label.initialises : Label A → Bool
  | .call _ c _ => c.initialises
  | _ => false

/-- What the state bears out of a call that returned: the administrator behind a
    mint, the owner behind a transfer, the metadata behind an answer. -/
inductive Vouched (env : Env A) : Label A → Prop
  | initialise {auth : A → Bool} {admin : A} {decimal : U32} {name symbol : String}
      (hadmin : env.inst .admin = some admin)
      (hmeta : env.inst .metadata = some ⟨decimal, name, symbol⟩) :
      Vouched env (.call auth (.initialise admin decimal name symbol) .done)
  | mint {auth : A → Bool} {admin dest : A} {n : I128} (hadmin : env.inst .admin = some admin)
      (hauth : auth admin = true) : Vouched env (.call auth (.mint dest n) .done)
  | transfer {auth : A → Bool} {src dest : A} {n : I128} (hauth : auth src = true) :
      Vouched env (.call auth (.transfer src dest n) .done)
  | balance {auth : A → Bool} {addr : A} {n : I128} :
      Vouched env (.call auth (.balance addr) (.amount n))
  | decimals {auth : A → Bool} {m : TokenMetadata} (hmeta : env.inst .metadata = some m) :
      Vouched env (.call auth .decimals (.number m.decimal))
  | name {auth : A → Bool} {m : TokenMetadata} (hmeta : env.inst .metadata = some m) :
      Vouched env (.call auth .name (.text m.name))
  | symbol {auth : A → Bool} {m : TokenMetadata} (hmeta : env.inst .metadata = some m) :
      Vouched env (.call auth .symbol (.text m.symbol))
  | failed {auth : A → Bool} {c : Call A} {fault : Fault} : Vouched env (.failed auth c fault)

theorem Vouched.later {env env' : Env A} {l : Label A} (hl : Vouched env l)
    (h : ∀ k v, env.inst k = some v → env'.inst k = some v) : Vouched env' l := by
  cases hl with
  | initialise hadmin hmeta => exact .initialise (h _ _ hadmin) (h _ _ hmeta)
  | mint hadmin hauth => exact .mint (h _ _ hadmin) hauth
  | transfer hauth => exact .transfer hauth
  | balance => exact .balance
  | decimals hmeta => exact .decimals (h _ _ hmeta)
  | name hmeta => exact .name (h _ _ hmeta)
  | symbol hmeta => exact .symbol (h _ _ hmeta)
  | failed => exact .failed

/-- A token without an administrator has nothing in its instance. -/
def Env.Bare (env : Env A) : Prop := env.inst .admin = none → ∀ k, env.inst k = none

theorem Env.finite_balances (env : Env A) :
    (Function.support fun a => (env.balanceOf a).val).Finite := by
  apply env.persistent.finite_support DataKey.balance fun _ _ h => DataKey.balance.inj h
  intro a ha
  simp [balanceOf, get, ha]

variable [DecidableEq A]

def Call.credited (a : A) : Call A → Int
  | .mint dest n => if a = dest then n.val else 0
  | .transfer _ dest n => if a = dest then n.val else 0
  | _ => 0

def Call.debited (a : A) : Call A → Int
  | .transfer src _ n => if a = src then n.val else 0
  | _ => 0

def Label.credited (a : A) : Label A → Int
  | .call _ c _ => c.credited a
  | _ => 0

def Label.debited (a : A) : Label A → Int
  | .call _ c _ => c.debited a
  | _ => 0

/-- What a history credited to `a`. -/
def credited (a : A) (h : History A) : Int := (h.map fun t => t.label.credited a).sum
def debited (a : A) (h : History A) : Int := (h.map fun t => t.label.debited a).sum
def minted (h : History A) : Int := (h.map fun t => t.label.minted).sum

/-! ### What a call does -/

/-- What a call that returned has done. -/
inductive Call.Effect (auth : A → Bool) (env : Env A) : Call A → Reply → Env A → Prop
  | initialise {admin : A} {decimal : U32} {name symbol : String}
      (hnone : env.inst .admin = none) :
      Effect auth env (.initialise admin decimal name symbol) .done
        ((env.setInstance .admin admin).setInstance .metadata ⟨decimal, name, symbol⟩)
  | mint {admin dest : A} {n : I128} {env' : Env A} (hadmin : env.inst .admin = some admin)
      (hauth : auth admin = true) (h0 : 0 ≤ n.val) (hto : env.Credits dest n.val env') :
      Effect auth env (.mint dest n) .done env'
  | transfer {src dest : A} {n : I128} {e env' : Env A} (hauth : auth src = true)
      (h0 : 0 ≤ n.val) (hle : n.val ≤ (env.balanceOf src).val)
      (hfrom : env.Credits src (-n.val) e) (hto : e.Credits dest n.val env') :
      Effect auth env (.transfer src dest n) .done env'
  | balance {addr : A} : Effect auth env (.balance addr) (.amount (env.balanceOf addr)) env
  | decimals {m : TokenMetadata} (hmeta : env.inst .metadata = some m) :
      Effect auth env .decimals (.number m.decimal) env
  | name {m : TokenMetadata} (hmeta : env.inst .metadata = some m) :
      Effect auth env .name (.text m.name) env
  | symbol {m : TokenMetadata} (hmeta : env.inst .metadata = some m) :
      Effect auth env .symbol (.text m.symbol) env

section Effects

variable {auth : A → Bool} {env env' : Env A} {c : Call A} {r : Reply}

theorem Call.effect (h : c.exec auth env = .ok (r, env')) : c.Effect auth env r env' := by
  cases c with
  | initialise =>
      simp only [exec, bind_eq_ok, initialise_eq_ok, pure_eq_ok] at h
      rcases h with ⟨_, _, ⟨hnone, rfl⟩, rfl, rfl⟩
      exact .initialise hnone
  | mint =>
      simp only [exec, bind_eq_ok, pure_eq_ok] at h
      rcases h with ⟨_, _, hmint, rfl, rfl⟩
      obtain ⟨⟨admin, hadmin, hauth⟩, h0, hto⟩ := mint_ok hmint
      exact .mint hadmin hauth h0 hto
  | transfer =>
      simp only [exec, bind_eq_ok, pure_eq_ok] at h
      rcases h with ⟨_, _, htransfer, rfl, rfl⟩
      obtain ⟨hauth, h0, hle, e, hfrom, hto⟩ := transfer_ok htransfer
      exact .transfer hauth h0 hle hfrom hto
  | balance =>
      simp only [exec, bind_eq_ok, balance_eq_ok, pure_eq_ok] at h
      rcases h with ⟨_, _, ⟨rfl, rfl⟩, rfl, rfl⟩
      exact .balance
  | decimals =>
      simp only [exec, MockToken.decimals, instanceGet, bind_eq_ok, reads_eq_ok, okOr_eq_ok,
        pure_eq_ok] at h
      rcases h with ⟨_, _, ⟨_, _, ⟨rfl, rfl⟩, m, _, ⟨hmeta, rfl⟩, rfl, rfl⟩, rfl, rfl⟩
      exact .decimals hmeta
  | name =>
      simp only [exec, MockToken.name, instanceGet, bind_eq_ok, reads_eq_ok, okOr_eq_ok,
        pure_eq_ok] at h
      rcases h with ⟨_, _, ⟨_, _, ⟨rfl, rfl⟩, m, _, ⟨hmeta, rfl⟩, rfl, rfl⟩, rfl, rfl⟩
      exact .name hmeta
  | symbol =>
      simp only [exec, MockToken.symbol, instanceGet, bind_eq_ok, reads_eq_ok, okOr_eq_ok,
        pure_eq_ok] at h
      rcases h with ⟨_, _, ⟨_, _, ⟨rfl, rfl⟩, m, _, ⟨hmeta, rfl⟩, rfl, rfl⟩, rfl, rfl⟩
      exact .symbol hmeta

namespace Call.Effect

theorem balance_eq (h : c.Effect auth env r env') (a : A) :
    (env'.balanceOf a).val = (env.balanceOf a).val + c.credited a - c.debited a := by
  cases h with
  | mint _ _ _ hto =>
      rw [hto.balance]
      simp [credited, debited]
  | transfer _ _ _ hfrom hto =>
      rw [hto.balance, hfrom.balance]
      simp only [credited, debited]
      split <;> split <;> omega
  | initialise | balance | decimals | name | symbol => simp [credited, debited]

theorem solvent (h : c.Effect auth env r env') (hs : ∀ a, 0 ≤ (env.balanceOf a).val) (a : A) :
    0 ≤ (env'.balanceOf a).val := by
  have ha := hs a
  cases h with
  | mint _ _ h0 hto =>
      rw [hto.balance]
      split <;> omega
  | @transfer src _ _ _ _ _ h0 hle hfrom hto =>
      rw [hto.balance, hfrom.balance]
      by_cases hsrc : a = src
      · subst hsrc
        rw [if_pos rfl]
        split <;> omega
      · rw [if_neg hsrc]
        split <;> omega
  | initialise | balance | decimals | name | symbol => exact ha

theorem total (h : c.Effect auth env r env') :
    ∑ᶠ a, (env'.balanceOf a).val = ∑ᶠ a, (env.balanceOf a).val + c.minted := by
  have hsilent (hminted : c.minted = 0) (hb : ∀ a, env'.balanceOf a = env.balanceOf a) :
      ∑ᶠ a, (env'.balanceOf a).val = ∑ᶠ a, (env.balanceOf a).val + c.minted := by
    simp only [hb, hminted, add_zero]
  cases h with
  | mint _ _ _ hto => exact finsum_credit env.finite_balances hto.balance
  | @transfer _ _ _ e _ _ _ _ hfrom hto =>
      rw [finsum_credit e.finite_balances hto.balance,
        finsum_credit env.finite_balances hfrom.balance]
      simp [minted]
  | initialise | balance | decimals | name | symbol => exact hsilent rfl fun _ => rfl

/-- What was written when the token was initialised is not written again. -/
theorem inst_kept (h : c.Effect auth env r env') (hbare : env.Bare) {k : DataKey A}
    {v : DataKey.Val A k} (hv : env.inst k = some v) : env'.inst k = some v := by
  cases h with
  | initialise hnone =>
      rw [hbare hnone] at hv
      cases hv
  | mint _ _ _ hto => rw [hto.inst, hv]
  | transfer _ _ _ hfrom hto => rw [hto.inst, hfrom.inst, hv]
  | balance | decimals | name | symbol => exact hv

theorem bare (h : c.Effect auth env r env') (hbare : env.Bare) : env'.Bare := by
  intro hnone k
  cases h with
  | initialise => simp at hnone
  | mint _ _ _ hto =>
      rw [hto.inst] at hnone ⊢
      exact hbare hnone k
  | transfer _ _ _ hfrom hto =>
      rw [hto.inst, hfrom.inst] at hnone ⊢
      exact hbare hnone k
  | balance | decimals | name | symbol => exact hbare hnone k

theorem vouched (h : c.Effect auth env r env') : Vouched env' (.call auth c r) := by
  cases h with
  | initialise => exact .initialise (by simp) (by simp)
  | mint hadmin hauth _ hto => exact .mint ((hto.inst _).trans hadmin) hauth
  | transfer hauth => exact .transfer hauth
  | balance => exact .balance
  | decimals hmeta => exact .decimals hmeta
  | name hmeta => exact .name hmeta
  | symbol hmeta => exact .symbol hmeta

end Call.Effect

end Effects

/-! ### Runs -/

section Runs

variable {env env' env₀ : Env A} {l : Label A} {h : History A}

theorem Step.balance_eq (hs : Step env l env') (a : A) :
    (env'.balanceOf a).val = (env.balanceOf a).val + l.credited a - l.debited a := by
  cases hs with
  | call hc => exact (Call.effect hc).balance_eq a
  | failed => simp [Label.credited, Label.debited]

theorem Step.solvent (hs : Step env l env') (h : ∀ a, 0 ≤ (env.balanceOf a).val) :
    ∀ a, 0 ≤ (env'.balanceOf a).val := by
  cases hs with
  | call hc => exact (Call.effect hc).solvent h
  | failed => exact h

theorem Step.total (hs : Step env l env') :
    ∑ᶠ a, (env'.balanceOf a).val = ∑ᶠ a, (env.balanceOf a).val + l.minted := by
  cases hs with
  | call hc => exact (Call.effect hc).total
  | failed => simp [Label.minted]

theorem Step.bare (hs : Step env l env') (hbare : env.Bare) : env'.Bare := by
  cases hs with
  | call hc => exact (Call.effect hc).bare hbare
  | failed => exact hbare

theorem Step.inst_kept (hs : Step env l env') (hbare : env.Bare) (k : DataKey A)
    (v : DataKey.Val A k) (hv : env.inst k = some v) : env'.inst k = some v := by
  cases hs with
  | call hc => exact (Call.effect hc).inst_kept hbare hv
  | failed => exact hv

theorem Step.vouched (hs : Step env l env') : Vouched env' l := by
  cases hs with
  | call hc => exact (Call.effect hc).vouched
  | failed => exact .failed

/-- Only a token without an administrator is initialised. -/
theorem Step.initialises (hs : Step env l env') (hl : l.initialises = true) :
    env.inst .admin = none ∧ (env'.inst .admin).isSome = true := by
  cases hs with
  | @call _ _ c _ hc =>
      have heffect := Call.effect hc
      cases heffect with
      | initialise hnone => exact ⟨hnone, by simp⟩
      | _ => cases hl
  | failed => cases hl

theorem Run.balance_eq (h0 : ∀ a, env₀.balanceOf a = 0) (hr : Run Step env₀ h env) (a : A) :
    (env.balanceOf a).val = credited a h - debited a h := by
  refine Run.history_invariant
    (P := fun h env => (env.balanceOf a).val = credited a h - debited a h) ?_ ?_ hr
  · simp [h0, credited, debited]
  · intro h env l env' _ ih hs
    rw [hs.balance_eq, ih]
    simp only [credited, debited, List.map_cons, List.sum_cons]
    omega

theorem Run.total (h0 : ∀ a, env₀.balanceOf a = 0) (hr : Run Step env₀ h env) :
    ∑ᶠ a, (env.balanceOf a).val = minted h := by
  refine Run.history_invariant (P := fun h env => ∑ᶠ a, (env.balanceOf a).val = minted h) ?_ ?_ hr
  · simp [h0, minted]
  · intro h env l env' _ ih hs
    rw [hs.total, ih]
    simp only [minted, List.map_cons, List.sum_cons]
    omega

/-- What a transition vouches for holds at the end, and there is one appointment at most. -/
theorem Run.vouched (hbare : env₀.Bare) (hr : Run Step env₀ h env) :
    env.Bare ∧ (∀ t ∈ h, Vouched env t.label) ∧
      h.countP (fun t => t.label.initialises) ≤ if (env.inst .admin).isSome then 1 else 0 := by
  induction hr with
  | nil => exact ⟨hbare, fun _ ht => absurd ht List.not_mem_nil, Nat.zero_le _⟩
  | @snoc h env l env' _ hs ih =>
      obtain ⟨hbare, hall, hcount⟩ := ih
      refine ⟨hs.bare hbare, fun t ht => ?_, ?_⟩
      · rcases List.mem_cons.mp ht with rfl | ht
        · exact hs.vouched
        · exact (hall t ht).later (hs.inst_kept hbare)
      · rw [List.countP_cons]
        by_cases hl : l.initialises = true
        · obtain ⟨hnone, hsome⟩ := hs.initialises hl
          rw [hnone] at hcount
          rw [if_pos hsome, if_pos hl]
          exact Nat.add_le_add_right hcount 1
        · rw [if_neg hl, Nat.add_zero]
          refine hcount.trans ?_
          cases hadmin : env.inst .admin with
          | none => exact Nat.zero_le _
          | some admin => rw [hs.inst_kept hbare _ _ hadmin]

/-- In every run of the mock token each balance is what its holder was credited
    less what it was debited, none is negative, and together they are what was
    minted.  One administrator is appointed at most; every mint is authorised by it,
    every transfer by its source, and every answer tells the metadata that was
    written with the appointment. -/
theorem ledger_kept (hfresh : env₀.Fresh) (hr : Run Step env₀ h env) :
    (∀ a, (env.balanceOf a).val = credited a h - debited a h ∧ 0 ≤ (env.balanceOf a).val) ∧
      ∑ᶠ a, (env.balanceOf a).val = minted h ∧
      h.countP (fun t => t.label.initialises) ≤ 1 ∧ ∀ t ∈ h, Vouched env t.label := by
  have h0 (a : A) : env₀.balanceOf a = 0 := by
    rw [Env.balanceOf, hfresh.no_persistent]
    rfl
  have hbare : env₀.Bare := fun _ => hfresh.no_instance
  have hsolvent : ∀ a, 0 ≤ (env₀.balanceOf a).val := by
    intro a
    rw [h0, I128.val_zero]
  obtain ⟨-, hall, hcount⟩ := Run.vouched hbare hr
  refine ⟨fun a => ⟨Run.balance_eq h0 hr a, ?_⟩, Run.total h0 hr, ?_, hall⟩
  · exact Run.invariant hsolvent (fun hP hs => hs.solvent hP) hr a
  · apply hcount.trans
    split <;> omega

/-- Address 9 administers the token; 2 cannot mint, and 1 cannot send 200. -/
def mintingScript : List ((Nat → Bool) × Call Nat) :=
  [(fun x => x == 1, .initialise 9 (.ofNat 6) "Mock USDC" "MUSDC"),
    (fun x => x == 9, .mint 1 (.ofNat 100)),
    (fun x => x == 2, .mint 2 (.ofNat 50)),
    (fun x => x == 1, .transfer 1 2 (.ofNat 40)),
    (fun x => x == 2, .transfer 2 2 (.ofNat 40)),
    (fun x => x == 1, .transfer 1 2 (.ofNat 200)),
    (fun x => x == 1, .initialise 1 (.ofNat 7) "Other" "OTH"),
    (fun _ => false, .decimals)]

theorem ledger_kept_sample : ∃ (h : History Nat) (env : Env Nat),
    Run Step Env.deployed h env ∧ minted h = 100 ∧ credited 2 h = 80 ∧ debited 2 h = 40 ∧
      (env.balanceOf 2).val = credited 2 h - debited 2 h := by
  have hplay : (play Env.act Env.deployed mintingScript).any (fun p =>
      decide (minted p.1 = 100) && decide (credited 2 p.1 = 80) && decide (debited 2 p.1 = 40)) =
      true := by
    decide +kernel
  simp only [Option.any_eq_true, Bool.and_eq_true, decide_eq_true_eq] at hplay
  rcases hplay with ⟨⟨h, env⟩, hplay, ⟨hminted, hcredited⟩, hdebited⟩
  have hr : Run Step Env.deployed h env := by
    apply Run.of_play (I := fun _ => True) ?_ ?_ trivial hplay
    · exact fun _ _ => trivial
    · exact fun _ ha => Env.act_step ha
  exact ⟨h, env, hr, hminted, hcredited, hdebited, ((ledger_kept Env.deployed_fresh hr).1 2).1⟩

end Runs

end MockToken
