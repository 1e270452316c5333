import TrustFlow.Lib.Machine
import Mathlib.Algebra.BigOperators.Finprod
import Mathlib.Algebra.BigOperators.Fin
import Mathlib.Data.Fintype.Basic
import Mathlib.Order.Interval.Finset.Basic
import Mathlib.Data.Int.Interval
import Mathlib.Data.Set.Card

/-!
# Sums over registers

A contract keeps balances and counters in registers indexed by addresses, ids
or positions, and its totals are sums over all of them.  `finsum_change` is how
such a total follows the change of one register; `Vec.finsum_get` turns a sum
over the positions of a vector into the sum of its list, and `countP_eq_ncard` a
count over a list into the size of a set.
-/

/-- The integers of a range are finitely many. -/
instance {lo hi : Int} : Finite (BoundedInt lo hi) :=
  Finite.of_injective (fun b : BoundedInt lo hi => (⟨b.val, b.lo_le, b.le_hi⟩ : Set.Icc lo hi))
    fun _ _ h => BoundedInt.ext (congrArg Subtype.val h)

section Registers

variable {ι : Type*} {f g : ι → Int} {a : ι}

/-- Two families that differ in one register have the same support up to it. -/
theorem finite_support_change (hf : (Function.support f).Finite) (h : ∀ i, i ≠ a → g i = f i) :
    (Function.support g).Finite := by
  apply (hf.insert a).subset
  intro i hi
  by_cases hia : i = a
  · exact Or.inl hia
  · apply Or.inr
    rw [Function.mem_support, ← h i hia]
    exact hi

/-- A total follows the change of one register. -/
theorem finsum_change (hf : (Function.support f).Finite) (h : ∀ i, i ≠ a → g i = f i) :
    ∑ᶠ i, g i = ∑ᶠ i, f i - f a + g a := by
  have hrest : ∑ᶠ (i) (_ : i ≠ a), g i = ∑ᶠ (i) (_ : i ≠ a), f i :=
    finsum_mem_congr rfl h
  rw [← add_finsum_cond_ne a hf, ← add_finsum_cond_ne a (finite_support_change hf h), hrest]
  ring

/-- What is added to one register is added to the total. -/
theorem finsum_credit [DecidableEq ι] {n : Int} (hf : (Function.support f).Finite)
    (h : ∀ i, g i = f i + if i = a then n else 0) : ∑ᶠ i, g i = ∑ᶠ i, f i + n := by
  have hother : ∀ i, i ≠ a → g i = f i := by
    intro i hi
    rw [h, if_neg hi, add_zero]
  have ha := h a
  rw [if_pos rfl] at ha
  rw [finsum_change hf hother, ha]
  ring

end Registers

/-- The sum over the positions of a vector is the sum of its list. -/
theorem Vec.finsum_get {α : Type*} (v : Vec α) (g : α → Int) :
    ∑ᶠ i : U32, ((v.get i).map g).getD 0 = (v.toList.map g).sum := by
  classical
  have hinj : Function.Injective fun n : Fin v.toList.length => v.index n n.isLt := by
    intro n m h
    have hval : (n : Int) = m := congrArg BoundedInt.val h
    exact Fin.ext (by exact_mod_cast hval)
  have hsupport : (Function.support fun i : U32 => ((v.get i).map g).getD 0) ⊆
      (Finset.univ.image fun n : Fin v.toList.length => v.index n n.isLt) := by
    intro i hi
    cases hget : v.get i with
    | none =>
        rw [Function.mem_support, hget] at hi
        exact absurd rfl hi
    | some a =>
        obtain ⟨hlt, -⟩ := Vec.get_eq_some.mp hget
        refine Finset.mem_coe.mpr (Finset.mem_image.mpr ⟨⟨_, hlt⟩, Finset.mem_univ _, ?_⟩)
        apply BoundedInt.ext
        have := i.lo_le
        show (i.val.toNat : Int) = i.val
        omega
  rw [finsum_eq_sum_of_support_subset _ hsupport, Finset.sum_image hinj.injOn]
  have hval (n : Fin v.toList.length) :
      ((v.get (v.index n n.isLt)).map g).getD 0 = g v.toList[n] := by
    have hget : v.get (v.index n n.isLt) = some v.toList[n] := by
      simp [Vec.get]
    rw [hget]
    rfl
  simp only [hval]
  rw [← List.sum_ofFn]
  congr 1
  exact List.ofFn_getElem_eq_map v.toList g

/-- A list without repetitions has as many elements of a kind as there are. -/
theorem countP_eq_ncard {α : Type*} {l : List α} {p : α → Bool} {s : Set α} (hl : l.Nodup)
    (hs : ∀ a, a ∈ s ↔ a ∈ l ∧ p a = true) : l.countP p = s.ncard := by
  classical
  have hset : s = ↑(l.filter p).toFinset := by
    ext a
    rw [hs, List.coe_toFinset]
    exact List.mem_filter.symm
  rw [hset, Set.ncard_coe_finset, List.toFinset_card_of_nodup (hl.filter p),
    List.countP_eq_length_filter]
