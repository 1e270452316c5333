import Mathlib.Data.List.Basic
import Mathlib.Data.Nat.Basic
import Mathlib.Order.Basic

/-!
# Labelled runs and their histories

A transition system is a relation `step : σ → ℓ → σ → Prop`.  A run from `s₀`
carries its history, the list of the transitions taken with the newest first,
each with the state before, the label and the state after.  Properties of a
whole run (a sum of payments, the order of two kinds of calls) are functions
or predicates of the history; properties of a state follow from the invariant
rules.
-/

namespace Transition

/-- One transition of a history. -/
structure Move (σ ℓ : Type*) where
  pre : σ
  label : ℓ
  post : σ

variable {σ ℓ : Type*} {step : σ → ℓ → σ → Prop}

/-- `Run step s₀ h s`: the transitions `h`, newest first, lead from `s₀` to `s`. -/
inductive Run (step : σ → ℓ → σ → Prop) (s₀ : σ) : List (Move σ ℓ) → σ → Prop
  | nil : Run step s₀ [] s₀
  | snoc {h s l s'} : Run step s₀ h s → step s l s' → Run step s₀ (⟨s, l, s'⟩ :: h) s'

namespace Run

variable {s₀ s s' : σ} {h h' : List (Move σ ℓ)}

theorem append (hr : Run step s₀ h s) (hr' : Run step s h' s') : Run step s₀ (h' ++ h) s' := by
  induction hr' with
  | nil => exact hr
  | snoc _ hs ih => exact ih.snoc hs

theorem single {l : ℓ} (hs : step s l s') : Run step s [⟨s, l, s'⟩] s' := nil.snoc hs

/-- The step a nonempty history starts from its tail with. -/
theorem last {t : Move σ ℓ} (hr : Run step s₀ (t :: h) s) :
    Run step s₀ h t.pre ∧ step t.pre t.label t.post ∧ t.post = s := by
  cases hr with
  | snoc hr hs => exact ⟨hr, hs, rfl⟩

/-- A run splits at any point of its history. -/
theorem split (hr : Run step s₀ (h' ++ h) s) : ∃ m, Run step s₀ h m ∧ Run step m h' s := by
  induction h' generalizing s with
  | nil => exact ⟨s, hr, nil⟩
  | cons t h' ih =>
      obtain ⟨hr₁, hs, rfl⟩ := hr.last
      obtain ⟨m, hm, hm'⟩ := ih hr₁
      exact ⟨m, hm, hm'.snoc hs⟩

/-- A transition of the history, with the run before it and the run after it. -/
theorem split_mem {t : Move σ ℓ} (hr : Run step s₀ h s) (ht : t ∈ h) :
    ∃ later earlier, h = later ++ t :: earlier ∧ Run step s₀ earlier t.pre ∧
      step t.pre t.label t.post ∧ Run step t.post later s := by
  obtain ⟨later, earlier, rfl⟩ := List.append_of_mem ht
  obtain ⟨m, hm, hm'⟩ := hr.split
  obtain ⟨he, hs, rfl⟩ := hm.last
  exact ⟨later, earlier, rfl, he, hs, hm'⟩

/-- Every transition of a history is a step. -/
theorem step_of_mem {t : Move σ ℓ} (hr : Run step s₀ h s) (ht : t ∈ h) :
    step t.pre t.label t.post := by
  obtain ⟨_, _, _, _, hs, _⟩ := hr.split_mem ht
  exact hs

/-- What no step lowers orders the transitions of a history. -/
theorem pairwise_le {α : Type*} [Preorder α] {f : σ → α}
    (hmono : ∀ {s l s'}, step s l s' → f s ≤ f s') (hr : Run step s₀ h s) :
    h.Pairwise (fun t t' => f t'.pre ≤ f t.pre) ∧ ∀ t ∈ h, f t.pre ≤ f s := by
  induction hr with
  | nil => exact ⟨.nil, nofun⟩
  | snoc _ hs ih =>
      refine ⟨List.pairwise_cons.mpr ⟨ih.2, ih.1⟩, fun t ht => ?_⟩
      rcases List.mem_cons.mp ht with rfl | ht
      · exact hmono hs
      · exact (ih.2 t ht).trans (hmono hs)

/-- A run starts from one of its states. -/
theorem start_mem (hr : Run step s₀ h s) : s₀ ∈ s :: h.map Move.pre := by
  induction hr with
  | nil => exact List.mem_cons_self
  | snoc _ _ ih => exact List.mem_cons_of_mem _ ih

/-- The state after a transition is one of the run's. -/
theorem post_mem {t : Move σ ℓ} (hr : Run step s₀ h s) (ht : t ∈ h) :
    t.post ∈ s :: h.map Move.pre := by
  obtain ⟨later, earlier, rfl, -, -, hl⟩ := hr.split_mem ht
  rw [List.map_append, ← List.cons_append]
  exact List.mem_append_left _ hl.start_mem

/-- A state of a run is reached by transitions of its history. -/
theorem of_mem {x : σ} (hr : Run step s₀ h s) (hx : x ∈ s :: h.map Move.pre) :
    ∃ earlier, Run step s₀ earlier x ∧ ∀ t ∈ earlier, t ∈ h := by
  rcases List.mem_cons.mp hx with rfl | hx
  · exact ⟨h, hr, fun _ ht => ht⟩
  · obtain ⟨t, ht, rfl⟩ := List.mem_map.mp hx
    obtain ⟨later, earlier, rfl, he, -, -⟩ := hr.split_mem ht
    exact ⟨earlier, he, fun t' ht' => List.mem_append_right _ (List.mem_cons_of_mem _ ht')⟩

/-- What is pairwise true of the states of a run is true across each of its steps. -/
theorem pairwise_step {R : σ → σ → Prop} {t : Move σ ℓ} (hr : Run step s₀ h s) (ht : t ∈ h)
    (hp : (s :: h.map Move.pre).Pairwise R) : R t.post t.pre := by
  obtain ⟨later, earlier, rfl, -, -, hl⟩ := hr.split_mem ht
  rw [List.map_append, List.map_cons, ← List.cons_append] at hp
  exact (List.pairwise_append.mp hp).2.2 t.post hl.start_mem t.pre List.mem_cons_self

/-! ### Invariant rules -/

/-- An invariant of histories and states: it holds of the empty history and a
    step extends it. -/
theorem history_invariant {P : List (Move σ ℓ) → σ → Prop} (h0 : P [] s₀)
    (hstep : ∀ {h s l s'}, Run step s₀ h s → P h s → step s l s' → P (⟨s, l, s'⟩ :: h) s') :
    ∀ {h s}, Run step s₀ h s → P h s := by
  intro h s hr
  induction hr with
  | nil => exact h0
  | snoc hr hs ih => exact hstep hr ih hs

/-- A state invariant that every step meeting the guard `G` preserves holds at
    the end of every run whose transitions all meet `G`. -/
theorem invariant_of_guard {G : Move σ ℓ → Prop} {P : σ → Prop} (h0 : P s₀)
    (hstep : ∀ {s l s'}, P s → step s l s' → G ⟨s, l, s'⟩ → P s') :
    ∀ {h s}, Run step s₀ h s → (∀ t ∈ h, G t) → P s := by
  intro h s hr
  induction hr with
  | nil => exact fun _ => h0
  | snoc hr hs ih =>
      intro hG
      exact hstep (ih fun t ht => hG t (List.mem_cons_of_mem _ ht)) hs (hG _ List.mem_cons_self)

/-- Such an invariant holds after every transition of the run. -/
theorem post_of_guard {G : Move σ ℓ → Prop} {P : σ → Prop} (h0 : P s₀)
    (hstep : ∀ {s l s'}, P s → step s l s' → G ⟨s, l, s'⟩ → P s') (hr : Run step s₀ h s)
    (hG : ∀ t ∈ h, G t) : ∀ t ∈ h, P t.post := by
  intro t ht
  obtain ⟨later, earlier, rfl, he, hs, -⟩ := hr.split_mem ht
  exact invariant_of_guard h0 hstep (he.snoc hs) fun t' ht' => hG t' (List.mem_append_right _ ht')

/-- A state invariant every step preserves holds at the end of every run. -/
theorem invariant {P : σ → Prop} (h0 : P s₀)
    (hstep : ∀ {s l s'}, P s → step s l s' → P s') (hr : Run step s₀ h s) : P s :=
  invariant_of_guard (G := fun _ => True) h0 (fun hP hs _ => hstep hP hs) hr fun _ _ => trivial

/-- What steps meeting `G` keep in the states of an invariant `I` holds, along a
    run of such steps, from its first state on. -/
theorem pairwise_of_guard {G : Move σ ℓ → Prop} {I P : σ → Prop} (h0 : I s₀)
    (hinv : ∀ {s l s'}, I s → step s l s' → I s')
    (hstep : ∀ {s l s'}, I s → P s → step s l s' → G ⟨s, l, s'⟩ → P s') (hr : Run step s₀ h s)
    (hG : ∀ t ∈ h, G t) :
    (s :: h.map Move.pre).Pairwise fun later earlier => P earlier → P later := by
  induction hr with
  | nil => exact List.pairwise_singleton _ _
  | @snoc h s l s' hr hs ih =>
      have ih := ih fun t ht => hG t (List.mem_cons_of_mem _ ht)
      have hlast (hP : P s) : P s' := hstep (invariant h0 hinv hr) hP hs (hG _ List.mem_cons_self)
      refine List.pairwise_cons.mpr ⟨fun x hx hP => hlast ?_, ih⟩
      rcases List.mem_cons.mp hx with rfl | hx
      · exact hP
      · exact (List.pairwise_cons.mp ih).1 x hx hP

/-- What the transitions of `T i` establish and every step that meets `G i` keeps holds
    from each of them on, if the transitions after it meet `G i`. -/
theorem pairwise_since {ι : Type*} {T G : ι → Move σ ℓ → Prop} {I : ι → σ → Prop}
    (hstart : ∀ {i s l s'}, step s l s' → T i ⟨s, l, s'⟩ → I i s')
    (hstep : ∀ {i s l s'}, I i s → step s l s' → G i ⟨s, l, s'⟩ → I i s') (hr : Run step s₀ h s)
    (hG : h.Pairwise fun later earlier => ∀ i, T i earlier → G i later) :
    h.Pairwise (fun later earlier => ∀ i, T i earlier → I i later.pre) ∧
      ∀ t ∈ h, ∀ i, T i t → I i s := by
  induction hr with
  | nil => exact ⟨.nil, by simp⟩
  | snoc _ hs ih =>
      rcases List.pairwise_cons.mp hG with ⟨hlast, hG⟩
      rcases ih hG with ⟨hearlier, hnow⟩
      refine ⟨List.pairwise_cons.mpr ⟨hnow, hearlier⟩, fun t ht i hT => ?_⟩
      rcases List.mem_cons.mp ht with rfl | ht
      · exact hstart hs hT
      · exact hstep (hnow t ht i hT) hs (hlast t ht i hT)

/-- A deadline `c` that marked steps leave more than `m` ahead of the time `f`, and set as
    `R` says if they change it, and other steps leave alone. -/
theorem outlived {f : σ → Nat} {c : σ → Option Nat} {mark : ℓ → Prop} {m : Nat}
    {R : Nat → Nat → Prop} (hmono : ∀ {s l s'}, step s l s' → f s ≤ f s')
    (hmark : ∀ {s l s'}, step s l s' → mark l → ∀ n, c s' = some n →
      f s + m < n ∧ (R (f s) n ∨ c s = some n))
    (hidle : ∀ {s l s'}, step s l s' → ¬ mark l → c s' = c s) (hr : Run step s₀ h s) :
    ∀ n, c s = some n → (∀ t ∈ h, mark t.label → f t.pre + m < n) ∧
      (c s₀ = some n ∨ ∃ t ∈ h, mark t.label ∧ R (f t.pre) n) := by
  induction hr with
  | nil => exact fun n hn => ⟨by simp, .inl hn⟩
  | @snoc h s l s' hr hs ih =>
      intro n hn
      have hsooner : ∀ t ∈ h, f t.pre ≤ f s := (pairwise_le (f := f) hmono hr).2
      have hset (hold : c s = some n) : c s₀ = some n ∨
          ∃ t ∈ ⟨s, l, s'⟩ :: h, mark t.label ∧ R (f t.pre) n := by
        refine (ih n hold).2.imp_right fun ⟨t, ht, hR⟩ => ?_
        exact ⟨t, List.mem_cons_of_mem _ ht, hR⟩
      by_cases hl : mark l
      · rcases hmark hs hl n hn with ⟨hlt, hR⟩
        refine ⟨fun t ht _ => ?_, ?_⟩
        · rcases List.mem_cons.mp ht with rfl | ht
          · exact hlt
          · exact (Nat.add_le_add_right (hsooner t ht) m).trans_lt hlt
        · rcases hR with hR | hold
          · exact .inr ⟨_, List.mem_cons_self, hl, hR⟩
          · exact hset hold
      · have hold := (hidle hs hl).symm.trans hn
        refine ⟨fun t ht htl => ?_, hset hold⟩
        rcases List.mem_cons.mp ht with rfl | ht
        · exact absurd htl hl
        · exact (ih n hold).1 t ht htl

end Run

/-! ### Runs of a script

A concrete run is computed from a script of actions, each of which says which
step it takes, if it can take one. -/

section Play

variable {α : Type*} {act : σ → α → Option (ℓ × σ)}

/-- The history of a script and the state it ends in. -/
def play (act : σ → α → Option (ℓ × σ)) (s : σ) : List α → Option (List (Move σ ℓ) × σ)
  | [] => some ([], s)
  | a :: script =>
      match act s a with
      | some (l, s₁) =>
          match play act s₁ script with
          | some (h, s') => some (h ++ [⟨s, l, s₁⟩], s')
          | none => none
      | none => none

theorem Run.of_play {I : σ → Prop} (hinv : ∀ {s l s'}, I s → step s l s' → I s')
    (hact : ∀ {s a l s'}, I s → act s a = some (l, s') → step s l s') {script : List α} {s s' : σ}
    {h : List (Move σ ℓ)} (hs : I s) (hp : play act s script = some (h, s')) : Run step s h s' := by
  induction script generalizing s h with
  | nil =>
      cases hp
      exact .nil
  | cons a script ih =>
      simp only [play] at hp
      split at hp
      · next l s₁ ha =>
        split at hp
        · next h₁ s₂ hrest =>
          cases hp
          have hstep := hact hs ha
          exact (Run.single hstep).append (ih (hinv hs hstep) hrest)
        · cases hp
      · cases hp

end Play

/-! ### What a run can reach -/

/-- Steps whose labels meet `G` can lead to a state of `P`. -/
inductive Possibly (step : σ → ℓ → σ → Prop) (G : ℓ → Prop) (P : σ → Prop) : σ → Prop
  | now {s} (h : P s) : Possibly step G P s
  | step {s l s'} (hs : step s l s') (hl : G l) (h : Possibly step G P s') : Possibly step G P s

namespace Possibly

variable {G : ℓ → Prop} {P : σ → Prop} {s : σ}

theorem of_run {h : List (Move σ ℓ)} {s' : σ} (hr : Run step s h s') (hG : ∀ t ∈ h, G t.label)
    (hp : Possibly step G P s') : Possibly step G P s := by
  induction hr with
  | nil => exact hp
  | snoc _ hs ih =>
      have hlast := hG _ List.mem_cons_self
      exact ih (fun t ht => hG t (List.mem_cons_of_mem _ ht)) (.step hs hlast hp)

/-- Possibility as the existence of a run. -/
theorem iff_run : Possibly step G P s ↔
    ∃ h s', Run step s h s' ∧ (∀ t ∈ h, G t.label) ∧ P s' := by
  constructor
  · intro hp
    induction hp with
    | now h => exact ⟨[], _, .nil, nofun, h⟩
    | @step s l s' hs hl _ ih =>
        rcases ih with ⟨h, s'', hrun, hG, hP⟩
        refine ⟨h ++ [⟨s, l, s'⟩], s'', (Run.single hs).append hrun, ?_, hP⟩
        intro t ht
        rcases List.mem_append.mp ht with ht | ht
        · exact hG t ht
        · rw [List.mem_singleton] at ht
          subst ht
          exact hl
  · rintro ⟨h, s', hrun, hG, hP⟩
    exact of_run hrun hG (.now hP)

/-- What an invariant excludes is not possible. -/
theorem not_of_invariant {I : σ → Prop}
    (hstep : ∀ {s l s'}, I s → step s l s' → G l → I s') (hnot : ∀ {s}, I s → ¬ P s)
    (hs : I s) : ¬ Possibly step G P s := by
  intro hp
  induction hp with
  | now h => exact hnot hs h
  | step h hl _ ih => exact ih (hstep hs h hl)

end Possibly

end Transition
