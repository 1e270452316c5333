import TrustFlow.Lib.Run
import Mathlib.Data.List.Basic
import Mathlib.Logic.Function.Basic

/-!
# Calls that keep to their owner's part

The parts of a state are indexed by owners, and a call reads and writes the part
of its own owner only.  Whatever the other owners do in between, the part of an
owner is the fold of its own calls, and so are the answers they got.  Two runs
in which every owner makes the same calls in the same order therefore agree on
every part and on every answer (`Local.agree`), however the calls of different
owners are interleaved.
-/

namespace Transition

/-- A reading of a transition system as owners calling on their parts.  `call?` is
    the call a label makes with the answer it got, `accepts` the answer a part gives
    to a call and `write` what an accepted call leaves of it. -/
structure Local (σ ℓ ι κ V : Type*) where
  call? : ℓ → Option (κ × Bool)
  owner : κ → ι
  part : σ → ι → V
  accepts : κ → V → Bool
  write : κ → V → V

namespace Local

variable {σ ℓ ι κ V : Type*} (L : Local σ ℓ ι κ V)

/-- What a call leaves of the part of its owner. -/
def after (q : κ) (v : V) : V := if L.accepts q v = true then L.write q v else v

/-- The calls of a history with their answers, newest first. -/
def answers (h : List (Move σ ℓ)) : List (κ × Bool) := h.filterMap fun t => L.call? t.label

/-- The answers the calls get one after the other from the part `v`, newest first. -/
def replay (v : V) : List κ → List (κ × Bool)
  | [] => []
  | q :: qs => (q, L.accepts q (qs.foldr L.after v)) :: replay v qs

variable [DecidableEq ι]

def answersOf (i : ι) (h : List (Move σ ℓ)) : List (κ × Bool) :=
  (L.answers h).filter fun p => L.owner p.1 = i

def callsOf (i : ι) (h : List (Move σ ℓ)) : List κ := (L.answersOf i h).map Prod.fst

/-- The transition makes no call and touches no part, or it makes one, answered from
    the part of its owner, and touches no other. -/
inductive Keeps (t : Move σ ℓ) : Prop
  | silent (h : L.call? t.label = none) (hpart : L.part t.post = L.part t.pre) : Keeps t
  | answers {q : κ} {answer : Bool} (h : L.call? t.label = some (q, answer))
      (hanswer : answer = L.accepts q (L.part t.pre (L.owner q)))
      (hpart : L.part t.post = Function.update (L.part t.pre) (L.owner q)
        (L.after q (L.part t.pre (L.owner q)))) : Keeps t

variable {L} {step : σ → ℓ → σ → Prop} {s₀ s s₀' s' : σ} {h h' : List (Move σ ℓ)}

theorem answersOf_cons (t : Move σ ℓ) (i : ι) : L.answersOf i (t :: h) =
    ((L.call? t.label).toList.filter fun p => L.owner p.1 = i) ++ L.answersOf i h := by
  cases hcall : L.call? t.label with
  | none => simp [answersOf, answers, hcall]
  | some p => by_cases hp : L.owner p.1 = i <;> simp [answersOf, answers, hcall, hp]

/-- An owner's part and its answers are those of its own calls. -/
theorem part_eq (hr : Run step s₀ h s) (hk : ∀ t ∈ h, L.Keeps t) (i : ι) :
    L.part s i = (L.callsOf i h).foldr L.after (L.part s₀ i) ∧
      L.answersOf i h = L.replay (L.part s₀ i) (L.callsOf i h) := by
  induction hr with
  | nil => exact ⟨rfl, rfl⟩
  | @snoc h s l s' _ _ ih =>
      rcases ih fun t ht => hk t (List.mem_cons_of_mem _ ht) with ⟨hpart, hanswers⟩
      cases hk _ List.mem_cons_self with
      | silent hcall hsame =>
          have hnone : L.answersOf i (⟨s, l, s'⟩ :: h) = L.answersOf i h := by
            rw [answersOf_cons, hcall]
            rfl
          rw [callsOf, hnone, hsame]
          exact ⟨hpart, hanswers⟩
      | @answers q answer hcall hanswer hupdate =>
          by_cases hi : L.owner q = i
          · subst hi
            have hcons : L.answersOf (L.owner q) (⟨s, l, s'⟩ :: h) =
                (q, answer) :: L.answersOf (L.owner q) h := by
              simp [answersOf_cons, hcall]
            rw [callsOf, hcons, hupdate, Function.update_self, hpart, hanswer, hpart]
            exact ⟨rfl, congrArg _ hanswers⟩
          · have hskip : L.answersOf i (⟨s, l, s'⟩ :: h) = L.answersOf i h := by
              simp [answersOf_cons, hcall, hi]
            rw [callsOf, hskip, hupdate, Function.update_of_ne fun heq => hi heq.symm]
            exact ⟨hpart, hanswers⟩

open Classical in
/-- Lists with the same elements of each owner, in the same order, are permutations
    of each other. -/
theorem perm_of_answersOf (hsame : ∀ i, L.answersOf i h = L.answersOf i h') :
    (L.answers h).Perm (L.answers h') := by
  apply List.perm_iff_count.mpr
  intro p
  have hcount (g : List (Move σ ℓ)) :
      (L.answers g).count p = (L.answersOf (L.owner p.1) g).count p := by
    rw [answersOf, List.count_filter (by simp)]
  rw [hcount, hcount, hsame]

/-- The interleaving of the owners does not matter. -/
theorem agree (hr : Run step s₀ h s) (hk : ∀ t ∈ h, L.Keeps t) (hr' : Run step s₀' h' s')
    (hk' : ∀ t ∈ h', L.Keeps t) (hparts : L.part s₀ = L.part s₀')
    (hcalls : ∀ i, L.callsOf i h = L.callsOf i h') :
    L.part s = L.part s' ∧ (L.answers h).Perm (L.answers h') := by
  constructor
  · funext i
    rw [(part_eq hr hk i).1, (part_eq hr' hk' i).1, hparts, hcalls]
  · apply perm_of_answersOf
    intro i
    rw [(part_eq hr hk i).2, (part_eq hr' hk' i).2, hparts, hcalls]

end Local

end Transition
