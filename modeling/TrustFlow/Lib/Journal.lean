import TrustFlow.Lib.Run
import Mathlib.Algebra.BigOperators.Group.List.Basic

/-!
# Journals

A system keeps a log of events, newest first.  Somebody who sees the log alone
can follow a view of the state when every step logs what changed in the view:
`Journal.Accounts` is that for one step, and `Journal.replay` says that the view
is then the log applied to the view of the start.
-/

namespace Transition

/-- A log, a view of the state, and what an event means to the view. -/
structure Journal (σ ε ν : Type*) where
  log : σ → List ε
  view : σ → ν
  apply : ε → ν → ν

namespace Journal

variable {σ ε ν ℓ : Type*} {J : Journal σ ε ν} {s s' s'' : σ} {step : σ → ℓ → σ → Prop}

/-- What was logged in between accounts for the change of the view. -/
def Accounts (J : Journal σ ε ν) (s s' : σ) : Prop :=
  ∃ new, J.log s' = new ++ J.log s ∧ J.view s' = new.foldr J.apply (J.view s)

theorem Accounts.silent (hlog : J.log s' = J.log s) (hview : J.view s' = J.view s) :
    J.Accounts s s' := ⟨[], hlog, hview⟩

theorem Accounts.single {e : ε} (hlog : J.log s' = e :: J.log s)
    (hview : J.view s' = J.apply e (J.view s)) : J.Accounts s s' := ⟨[e], hlog, hview⟩

theorem Accounts.trans (h : J.Accounts s s') (h' : J.Accounts s' s'') : J.Accounts s s'' := by
  rcases h with ⟨old, hlog, hview⟩
  rcases h' with ⟨new, hlog', hview'⟩
  refine ⟨new ++ old, ?_, ?_⟩
  · rw [hlog', hlog, List.append_assoc]
  · rw [hview', hview, List.foldr_append]

/-- Steps that keep an invariant and log what they change keep the log true. -/
theorem replay_of {I : σ → Prop} {s₀ : σ} (h0 : I s₀) (hlog : J.log s₀ = [])
    (hinv : ∀ {s l s'}, I s → step s l s' → I s')
    (hstep : ∀ {s l s'}, I s → step s l s' → J.Accounts s s') {h : List (Move σ ℓ)}
    (hr : Run step s₀ h s) : J.view s = (J.log s).foldr J.apply (J.view s₀) := by
  have hI : ∀ {h s}, Run step s₀ h s → I s := fun hr => Run.invariant h0 hinv hr
  have hall : J.Accounts s₀ s := by
    induction hr with
    | nil => exact .silent rfl rfl
    | snoc hr hs ih => exact ih.trans (hstep (hI hr) hs)
  rcases hall with ⟨new, hnew, hview⟩
  rw [hlog, List.append_nil] at hnew
  rw [hview, hnew]

theorem replay {s₀ : σ} (hlog : J.log s₀ = []) (hstep : ∀ {s l s'}, step s l s' → J.Accounts s s')
    {h : List (Move σ ℓ)} (hr : Run step s₀ h s) :
    J.view s = (J.log s).foldr J.apply (J.view s₀) :=
  replay_of (I := fun _ => True) trivial hlog (fun _ _ => trivial) (fun _ hs => hstep hs) hr

/-! ### Registers -/

variable {α : Type*} [AddCommMonoid α] {log : σ → List ε} {reg : σ → α} {delta : ε → α}

theorem foldr_add (delta : ε → α) (es : List ε) (v : α) :
    es.foldr (fun e v => v + delta e) v = v + (es.map delta).sum := by
  induction es with
  | nil => simp
  | cons e es ih => rw [List.foldr_cons, ih, List.map_cons, List.sum_cons, add_assoc,
      add_comm (es.map delta).sum]

/-- The journal of a register that events add to. -/
def register (log : σ → List ε) (reg : σ → α) (delta : ε → α) : Journal σ ε α where
  log := log
  view := reg
  apply e v := v + delta e

theorem register_accounts {new : List ε} (hlog : log s' = new ++ log s)
    (hreg : reg s' = reg s + (new.map delta).sum) :
    (register log reg delta).Accounts s s' := by
  refine ⟨new, hlog, ?_⟩
  rw [← foldr_add delta new (reg s)] at hreg
  exact hreg

/-- A register holds what it started with and what the log added to it. -/
theorem register_replay {s₀ : σ} (hlog : log s₀ = [])
    (hstep : ∀ {s l s'}, step s l s' → (register log reg delta).Accounts s s')
    {h : List (Move σ ℓ)} (hr : Run step s₀ h s) :
    reg s = reg s₀ + ((log s).map delta).sum := by
  have hreplay := replay (J := register log reg delta) hlog hstep hr
  rw [← foldr_add delta (log s) (reg s₀)]
  exact hreplay

end Journal

/-- A log that every step from an invariant extends by what it emits is what the
    history emitted. -/
theorem Run.log_eq_filterMap_of {σ ε ℓ : Type*} {step : σ → ℓ → σ → Prop} {log : σ → List ε}
    {emit : σ → ℓ → Option ε} {I : σ → Prop} {s₀ s : σ} {h : List (Move σ ℓ)} (hI : I s₀)
    (h0 : log s₀ = []) (hinv : ∀ {s l s'}, I s → step s l s' → I s')
    (hstep : ∀ {s l s'}, I s → step s l s' → log s' = (emit s l).toList ++ log s)
    (hr : Run step s₀ h s) : log s = h.filterMap fun t => emit t.pre t.label := by
  induction hr with
  | nil => exact h0
  | @snoc h s l s' hr hs ih =>
      rw [hstep (Run.invariant hI hinv hr) hs, ih, List.filterMap_cons]
      cases emit s l with
      | none => rfl
      | some e => rfl

theorem Run.log_eq_filterMap {σ ε ℓ : Type*} {step : σ → ℓ → σ → Prop} {log : σ → List ε}
    {emit : σ → ℓ → Option ε} {s₀ s : σ} {h : List (Move σ ℓ)} (h0 : log s₀ = [])
    (hstep : ∀ {s l s'}, step s l s' → log s' = (emit s l).toList ++ log s)
    (hr : Run step s₀ h s) : log s = h.filterMap fun t => emit t.pre t.label :=
  Run.log_eq_filterMap_of (I := fun _ => True) trivial h0 (fun _ _ => trivial)
    (fun _ hs => hstep hs) hr

/-- A cell that every step overwrites by what it emits holds what was emitted last. -/
theorem Run.latest_or {σ ε ℓ : Type*} {step : σ → ℓ → σ → Prop} {c : σ → Option ε}
    {emit : ℓ → Option ε} {s₀ s : σ} {h : List (Move σ ℓ)}
    (hstep : ∀ {s l s'}, step s l s' → c s' = (emit l).or (c s)) (hr : Run step s₀ h s) :
    c s = (h.filterMap fun t => emit t.label).head?.or (c s₀) := by
  induction hr with
  | nil => rfl
  | @snoc h s l s' _ hs ih =>
      rw [hstep hs, ih, List.filterMap_cons]
      cases emit l with
      | none => rfl
      | some e => rfl

theorem Run.latest {σ ε ℓ : Type*} {step : σ → ℓ → σ → Prop} {c : σ → Option ε}
    {emit : ℓ → Option ε} {s₀ s : σ} {h : List (Move σ ℓ)} (h0 : c s₀ = none)
    (hstep : ∀ {s l s'}, step s l s' → c s' = (emit l).or (c s)) (hr : Run step s₀ h s) :
    c s = (h.filterMap fun t => emit t.label).head? := by
  rw [Run.latest_or (fun hs => hstep hs) hr, h0, Option.or_none]

end Transition
