import TrustFlow.Lib.Invocation

/-!
# Two implementations in lockstep

`Agree R x y` compares the outcomes of two invocations: both failed, or both
returned the same value and left states that `R` relates.  Faults are not
compared, a failed invocation having no effect.  There is one rule for each
combinator; a part that only one side has is executed away with `bind_of_ok`.

`serve` answers a list of requests one after another, and `Agree.serve` is the
induction over it.
-/

namespace Invocation

universe u v w x y z
variable {ρ : Type u} {σ : Type v} {σ' : Type w} {ε ε' : Type x} {α β : Type y}

theorem bind_of_error {x : Invocation ρ σ ε α} {f : α → Invocation ρ σ ε β} {r : ρ} {s : σ} {e : ε}
    (h : x r s = .error e) : (x >>= f) r s = .error e :=
  bind_eq_error.mpr (.inl h)

theorem bind_assoc {γ : Type y} {x : Invocation ρ σ ε α} {f : α → Invocation ρ σ ε β}
    {g : β → Invocation ρ σ ε γ} : (x >>= f) >>= g = x >>= fun a => f a >>= g := by
  funext r s
  cases h : x r s with
  | error e => rw [bind_of_error h, bind_of_error (bind_of_error h)]
  | ok p =>
      rw [bind_of_ok h]
      cases hf : f p.1 r p.2 with
      | error e => rw [bind_of_error hf, bind_of_error ((bind_of_ok h).trans hf)]
      | ok q => rw [bind_of_ok hf, bind_of_ok ((bind_of_ok h).trans hf)]

/-- Both failed, or both returned the same value in related states. -/
inductive Agree (R : σ → σ' → Prop) : Except ε (α × σ) → Except ε' (α × σ') → Prop
  | returned {a : α} {s : σ} {s' : σ'} (h : R s s') : Agree R (.ok (a, s)) (.ok (a, s'))
  | failed {e : ε} {e' : ε'} : Agree R (.error e) (.error e')

namespace Agree

variable {R : σ → σ' → Prop} {r : ρ} {s : σ} {s' : σ'} {e : ε} {e' : ε'}

theorem bind {x : Invocation ρ σ ε α} {x' : Invocation ρ σ' ε' α} {f : α → Invocation ρ σ ε β}
    {f' : α → Invocation ρ σ' ε' β} (hx : Agree R (x r s) (x' r s'))
    (hf : ∀ a t t', R t t' → Agree R (f a r t) (f' a r t')) :
    Agree R ((x >>= f) r s) ((x' >>= f') r s') := by
  generalize hl : x r s = o at hx
  generalize hr : x' r s' = o' at hx
  cases hx with
  | returned h =>
      rw [bind_of_ok hl, bind_of_ok hr]
      exact hf _ _ _ h
  | failed =>
      rw [bind_of_error hl, bind_of_error hr]
      exact .failed

theorem of_never {o : Except ε (α × σ)} {o' : Except ε' (α × σ')} (h : ∀ a t, o ≠ .ok (a, t))
    (h' : ∀ a t, o' ≠ .ok (a, t)) : Agree R o o' := by
  cases o with
  | ok p => exact absurd rfl (h p.1 p.2)
  | error e =>
      cases o' with
      | ok p => exact absurd rfl (h' p.1 p.2)
      | error e' => exact .failed

theorem failIf {c c' : Prop} [Decidable c] [Decidable c'] (hR : R s s') (hc : c ↔ c') :
    Agree R ((failIf c e : Invocation ρ σ ε Unit) r s)
      ((Invocation.failIf c' e' : Invocation ρ σ' ε' Unit) r s') := by
  unfold Invocation.failIf
  by_cases h : c
  · rw [if_pos h, if_pos (hc.mp h)]
    exact .failed
  · rw [if_neg h, if_neg fun h' => h (hc.mpr h')]
    exact .returned hR

theorem okOr {o : Option α} (hR : R s s') :
    Agree R ((okOr o e : Invocation ρ σ ε α) r s)
      ((Invocation.okOr o e' : Invocation ρ σ' ε' α) r s') := by
  cases o with
  | none => exact .failed
  | some a => exact .returned hR

end Agree

/-! ### Requests one after another -/

variable {C : Type z}

/-- The answers to a list of requests, none for one that failed, and the state
    after the last. -/
def serve (exec : C → Invocation ρ σ ε α) : List (ρ × C) → σ → List (Option α) × σ
  | [], s => ([], s)
  | (r, c) :: rest, s =>
      match exec c r s with
      | .ok (a, t) => (some a :: (serve exec rest t).1, (serve exec rest t).2)
      | .error _ => (none :: (serve exec rest s).1, (serve exec rest s).2)

/-- Implementations that agree on every request agree on every list of them. -/
theorem Agree.serve {R : σ → σ' → Prop} {exec : C → Invocation ρ σ ε α}
    {exec' : C → Invocation ρ σ' ε' α} {P : ρ → C → Prop}
    (h : ∀ r c s s', P r c → R s s' → Agree R (exec c r s) (exec' c r s'))
    {script : List (ρ × C)} (hP : ∀ q ∈ script, P q.1 q.2) {s : σ} {s' : σ'} (hR : R s s') :
    (serve exec script s).1 = (serve exec' script s').1 ∧
      R (serve exec script s).2 (serve exec' script s').2 := by
  induction script generalizing s s' with
  | nil => exact ⟨rfl, hR⟩
  | cons q rest ih =>
      have hrest : ∀ q ∈ rest, P q.1 q.2 := fun q hq => hP q (List.mem_cons_of_mem _ hq)
      have hfirst := h q.1 q.2 s s' (hP q List.mem_cons_self) hR
      generalize hl : exec q.2 q.1 s = o at hfirst
      generalize hr : exec' q.2 q.1 s' = o' at hfirst
      cases hfirst with
      | returned ht =>
          obtain ⟨hsame, hlast⟩ := ih hrest ht
          simp only [Invocation.serve, hl, hr]
          exact ⟨congrArg (some _ :: ·) hsame, hlast⟩
      | failed =>
          obtain ⟨hsame, hlast⟩ := ih hrest hR
          simp only [Invocation.serve, hl, hr]
          exact ⟨congrArg (none :: ·) hsame, hlast⟩

end Invocation
