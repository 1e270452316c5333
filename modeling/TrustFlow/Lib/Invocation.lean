import Mathlib.Logic.Basic

/-!
# Invocations with rollback

`Invocation ρ σ ε α` is a computation that reads a context `ρ`, transforms a
state `σ` and either returns a value of `α` with the new state or fails with a
fault of `ε`.  A failed invocation returns no state: whatever it wrote before
failing is gone, which is how a contract host rolls a call back.

Each combinator has one lemma for success (`*_eq_ok`) and one for failure
(`*_eq_error`); rewriting with the first kind executes a computation
symbolically and leaves its guards and its final state.
-/

/-- A computation over a state that is rolled back on failure. -/
def Invocation (ρ σ ε α : Type*) := ρ → σ → Except ε (α × σ)

namespace Invocation

universe u v w x
variable {ρ : Type u} {σ : Type v} {ε : Type w} {α β : Type x}

instance : Monad (Invocation ρ σ ε) where
  pure a := fun _ s => .ok (a, s)
  bind x f := fun r s =>
    match x r s with
    | .ok (a, s') => f a r s'
    | .error e => .error e

/-- Fail and roll back. -/
def fail (e : ε) : Invocation ρ σ ε α := fun _ _ => .error e

/-- Fail when the condition holds. -/
def failIf (c : Prop) [Decidable c] (e : ε) : Invocation ρ σ ε Unit :=
  fun _ s => if c then .error e else .ok ((), s)

/-- The value of an option, or a fault when there is none. -/
def okOr (o : Option α) (e : ε) : Invocation ρ σ ε α := fun _ s =>
  match o with
  | some a => .ok (a, s)
  | none => .error e

/-- Read off the state. -/
def reads (f : σ → α) : Invocation ρ σ ε α := fun _ s => .ok (f s, s)

/-- Transform the state. -/
def modify (f : σ → σ) : Invocation ρ σ ε Unit := fun _ s => .ok ((), f s)

variable {r : ρ} {s s' : σ} {e e' : ε} {a : α} {b : β}

theorem bind_of_ok {x : Invocation ρ σ ε α} {f : α → Invocation ρ σ ε β}
    (h : x r s = .ok (a, s')) : (x >>= f) r s = f a r s' := by
  simp only [Bind.bind, h]

/-! ### Success -/

@[simp] theorem pure_eq_ok {a' : α} :
    (pure a : Invocation ρ σ ε α) r s = .ok (a', s') ↔ a' = a ∧ s' = s := by
  constructor
  · intro h
    cases h
    exact ⟨rfl, rfl⟩
  · rintro ⟨rfl, rfl⟩
    rfl

@[simp] theorem bind_eq_ok {x : Invocation ρ σ ε α} {f : α → Invocation ρ σ ε β} :
    (x >>= f) r s = .ok (b, s') ↔ ∃ a s₁, x r s = .ok (a, s₁) ∧ f a r s₁ = .ok (b, s') := by
  show (match x r s with
    | .ok (a, s₁) => f a r s₁
    | .error e => .error e) = _ ↔ _
  cases x r s with
  | error e => simp
  | ok p =>
      constructor
      · intro h
        exact ⟨p.1, p.2, rfl, h⟩
      · rintro ⟨a, s₁, h₁, h₂⟩
        cases h₁
        exact h₂

@[simp] theorem fail_eq_ok : ¬ (fail e : Invocation ρ σ ε α) r s = .ok (a, s') := nofun

@[simp] theorem failIf_eq_ok {c : Prop} [Decidable c] {u : Unit} :
    (failIf c e : Invocation ρ σ ε Unit) r s = .ok (u, s') ↔ ¬ c ∧ s' = s := by
  unfold failIf
  split
  · next h => simp [h]
  · next h => simp [h, eq_comm]

@[simp] theorem okOr_eq_ok {o : Option α} :
    (okOr o e : Invocation ρ σ ε α) r s = .ok (a, s') ↔ o = some a ∧ s' = s := by
  cases o with
  | none => simp [okOr]
  | some a' => simp [okOr, eq_comm]

@[simp] theorem reads_eq_ok {f : σ → α} :
    (reads f : Invocation ρ σ ε α) r s = .ok (a, s') ↔ a = f s ∧ s' = s := by
  simp [reads, eq_comm]

@[simp] theorem modify_eq_ok {f : σ → σ} {u : Unit} :
    (modify f : Invocation ρ σ ε Unit) r s = .ok (u, s') ↔ s' = f s := by
  simp [modify, eq_comm]

theorem ite_eq_ok {c : Prop} [Decidable c] {x y : Invocation ρ σ ε α} :
    (if c then x else y) r s = .ok (a, s') ↔
      (c ∧ x r s = .ok (a, s')) ∨ (¬ c ∧ y r s = .ok (a, s')) := by
  split
  · next h => simp [h]
  · next h => simp [h]

/-! ### Failure -/

@[simp] theorem pure_eq_error : ¬ (pure a : Invocation ρ σ ε α) r s = .error e := nofun

@[simp] theorem bind_eq_error {x : Invocation ρ σ ε α} {f : α → Invocation ρ σ ε β} :
    (x >>= f) r s = .error e ↔
      x r s = .error e ∨ ∃ a s₁, x r s = .ok (a, s₁) ∧ f a r s₁ = .error e := by
  show (match x r s with
    | .ok (a, s₁) => f a r s₁
    | .error e => .error e) = _ ↔ _
  cases x r s with
  | error e => simp
  | ok p =>
      constructor
      · intro h
        exact Or.inr ⟨p.1, p.2, rfl, h⟩
      · rintro (h | ⟨a, s₁, h₁, h₂⟩)
        · cases h
        · cases h₁
          exact h₂

@[simp] theorem fail_eq_error :
    (fail e' : Invocation ρ σ ε α) r s = .error e ↔ e = e' := by
  simp [fail, eq_comm]

@[simp] theorem failIf_eq_error {c : Prop} [Decidable c] :
    (failIf c e' : Invocation ρ σ ε Unit) r s = .error e ↔ c ∧ e = e' := by
  unfold failIf
  split
  · next h => simp [h, eq_comm]
  · next h => simp [h]

@[simp] theorem okOr_eq_error {o : Option α} :
    (okOr o e' : Invocation ρ σ ε α) r s = .error e ↔ o = none ∧ e = e' := by
  cases o with
  | none => simp [okOr, eq_comm]
  | some a' => simp [okOr]

@[simp] theorem reads_eq_error {f : σ → α} :
    ¬ (reads f : Invocation ρ σ ε α) r s = .error e := nofun

@[simp] theorem modify_eq_error {f : σ → σ} :
    ¬ (modify f : Invocation ρ σ ε Unit) r s = .error e := nofun

/-- The outcome of a call that returned. -/
theorem toOption_eq_some {x : Except ε α} {a : α} : x.toOption = some a ↔ x = .ok a := by
  cases x <;> simp [Except.toOption]

end Invocation
