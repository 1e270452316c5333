import TrustFlow.Lib.Invocation

/-!
# Frame rules for invocations

`Acts f g x` says that a computation that returns has done to the view `f` of
the state what `g` does; with `g = id` it has left the view alone (`Keeps`).
One lemma per combinator lets a call be read part by part, without executing
the parts that do not touch the view.
-/

namespace Invocation

universe u v w x y
variable {ρ : Type u} {σ : Type v} {ε : Type w} {α β : Type x} {τ : Type y}

/-- A computation that returns has changed `f` of the state as `g` says. -/
def Acts (f : σ → τ) (g : τ → τ) (x : Invocation ρ σ ε α) : Prop :=
  ∀ r s a s', x r s = .ok (a, s') → f s' = g (f s)

/-- A computation that returns has left `f` of the state as it was. -/
abbrev Keeps (f : σ → τ) (x : Invocation ρ σ ε α) : Prop := Acts f id x

variable {f : σ → τ} {g g' : τ → τ} {x : Invocation ρ σ ε α} {k : α → Invocation ρ σ ε β}

theorem Acts.eq {r : ρ} {s s' : σ} {a : α} (hx : Acts f g x) (h : x r s = .ok (a, s')) :
    f s' = g (f s) := hx r s a s' h

theorem Acts.bind (hx : Acts f g x) (hk : ∀ a, Acts f g' (k a)) : Acts f (g' ∘ g) (x >>= k) := by
  intro r s b s' h
  rw [bind_eq_ok] at h
  rcases h with ⟨a, s₁, hfirst, hrest⟩
  rw [(hk a).eq hrest, hx.eq hfirst, Function.comp_apply]

theorem Acts.modify {m : σ → σ} (h : ∀ s, f (m s) = g (f s)) :
    Acts f g (Invocation.modify m : Invocation ρ σ ε Unit) := by
  intro r s a s' hm
  rw [modify_eq_ok] at hm
  subst hm
  exact h s

namespace Keeps

theorem pure {a : α} : Keeps f (Pure.pure a : Invocation ρ σ ε α) := by
  intro r s a' s' h
  rw [pure_eq_ok] at h
  rw [h.2, id]

/-- What comes after a part that keeps the view is what happens to it. -/
theorem bind (hx : Keeps f x) (hk : ∀ a, Acts f g (k a)) : Acts f g (x >>= k) :=
  Acts.bind hx hk

theorem failIf {c : Prop} [Decidable c] {e : ε} :
    Keeps f (Invocation.failIf c e : Invocation ρ σ ε Unit) := by
  intro r s u s' h
  rw [failIf_eq_ok] at h
  rw [h.2, id]

theorem okOr {o : Option α} {e : ε} : Keeps f (Invocation.okOr o e : Invocation ρ σ ε α) := by
  intro r s a s' h
  rw [okOr_eq_ok] at h
  rw [h.2, id]

theorem reads {m : σ → α} : Keeps f (Invocation.reads m : Invocation ρ σ ε α) := by
  intro r s a s' h
  rw [reads_eq_ok] at h
  rw [h.2, id]

end Keeps

end Invocation
