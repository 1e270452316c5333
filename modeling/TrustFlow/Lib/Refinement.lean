import TrustFlow.Lib.Run
import Mathlib.Algebra.BigOperators.Group.List.Basic

/-!
# Refinement of labelled runs

A step of one system may be several steps of another one, or none.  `Simulation`
is the usual forward simulation between the two, with a relation `M` that says
which stretch of the second history a transition of the first stands for.
`Simulation.run` lifts it to runs, and the lemmas about `Stands` carry counts,
totals and pairings from one history to the other.
-/

namespace Transition

variable {σ ℓ σ' ℓ' : Type*} {M : Move σ ℓ → List (Move σ' ℓ') → Prop}

/-- The second history is a stretch for each transition of the first, in order. -/
inductive Stands (M : Move σ ℓ → List (Move σ' ℓ') → Prop) :
    List (Move σ ℓ) → List (Move σ' ℓ') → Prop
  | nil : Stands M [] []
  | cons {t : Move σ ℓ} {h : List (Move σ ℓ)} {new old : List (Move σ' ℓ')} (hnew : M t new)
      (hold : Stands M h old) : Stands M (t :: h) (new ++ old)

namespace Stands

variable {h : List (Move σ ℓ)} {h' : List (Move σ' ℓ')}

theorem sum {α : Type*} [AddMonoid α] {f : Move σ ℓ → α} {g : Move σ' ℓ' → α}
    (hM : ∀ t new, M t new → (new.map g).sum = f t) (hs : Stands M h h') :
    (h'.map g).sum = (h.map f).sum := by
  induction hs with
  | nil => rfl
  | cons hnew _ ih => rw [List.map_append, List.sum_append, hM _ _ hnew, ih, List.map_cons,
      List.sum_cons]

theorem countP {p : Move σ ℓ → Bool} {q : Move σ' ℓ' → Bool}
    (hM : ∀ t new, M t new → new.countP q = if p t = true then 1 else 0) (hs : Stands M h h') :
    h'.countP q = h.countP p := by
  induction hs with
  | nil => rfl
  | cons hnew _ ih => rw [List.countP_append, hM _ _ hnew, ih, List.countP_cons, Nat.add_comm]

/-- A stretch of one transition each makes the histories alike. -/
theorem forall₂ {P : Move σ ℓ → Move σ' ℓ' → Prop}
    (hM : ∀ t new, M t new → ∃ u, new = [u] ∧ P t u) (hs : Stands M h h') :
    List.Forall₂ P h h' := by
  induction hs with
  | nil => exact .nil
  | cons hnew _ ih =>
      rcases hM _ _ hnew with ⟨u, rfl, hP⟩
      exact .cons hP ih

end Stands

/-- Every step from a related state is matched by a run that ends in a related one. -/
structure Simulation (step : σ → ℓ → σ → Prop) (step' : σ' → ℓ' → σ' → Prop) (R : σ → σ' → Prop)
    (M : Move σ ℓ → List (Move σ' ℓ') → Prop) : Prop where
  matched : ∀ {s l t s'}, R s s' → step s l t →
    ∃ new t', Run step' s' new t' ∧ R t t' ∧ M ⟨s, l, t⟩ new

namespace Simulation

variable {step : σ → ℓ → σ → Prop} {step' : σ' → ℓ' → σ' → Prop} {R : σ → σ' → Prop} {s₀ s : σ}
  {s₀' : σ'} {h : List (Move σ ℓ)}

theorem run (hsim : Simulation step step' R M) (hR : R s₀ s₀') (hr : Run step s₀ h s) :
    ∃ h' s', Run step' s₀' h' s' ∧ R s s' ∧ Stands M h h' := by
  induction hr with
  | nil => exact ⟨[], s₀', .nil, hR, .nil⟩
  | snoc _ hs ih =>
      rcases ih with ⟨old, s', hold, hs', hstands⟩
      rcases hsim.matched hs' hs with ⟨new, t', hnew, ht', hM⟩
      exact ⟨new ++ old, t', hold.append hnew, ht', hstands.cons hM⟩

end Simulation

end Transition
