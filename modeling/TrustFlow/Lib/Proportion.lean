import Mathlib.Tactic.Ring
import Mathlib.Tactic.Linarith
import Mathlib.Algebra.Order.Ring.Int

/-!
# Floors of proportional shares

`share p q a` is the share `p / q` of an amount `a`, rounded down.  A fee that
is charged as the difference of two shares telescopes, so what matters of a
share is that it starts at zero, never decreases and never grows faster than
the amount.
-/

/-- The floor of `a * p / q`. -/
def share (p q a : Int) : Int := a * p / q

variable {p q a b : Int}

@[simp] theorem share_zero (p q : Int) : share p q 0 = 0 := by simp [share]

theorem share_mono (hp : 0 ≤ p) (hq : 0 < q) (h : a ≤ b) : share p q a ≤ share p q b :=
  Int.ediv_le_ediv hq (Int.mul_le_mul_of_nonneg_right h hp)

theorem share_nonneg (hp : 0 ≤ p) (hq : 0 < q) (ha : 0 ≤ a) : 0 ≤ share p q a := by
  have h := share_mono hp hq ha
  rwa [share_zero] at h

/-- A share of at most the whole grows no faster than the amount. -/
theorem share_sub_le (hpq : p ≤ q) (hq : 0 < q) (h : a ≤ b) :
    share p q b - share p q a ≤ b - a := by
  have hgap : b * p ≤ a * p + (b - a) * q := by
    have := mul_le_mul_of_nonneg_left hpq (sub_nonneg.mpr h)
    linarith [sub_mul b a p]
  have hdiv := Int.ediv_le_ediv hq hgap
  rw [Int.add_mul_ediv_right _ _ hq.ne'] at hdiv
  unfold share
  omega

theorem share_le (hpq : p ≤ q) (hq : 0 < q) (ha : 0 ≤ a) : share p q a ≤ a := by
  have h := share_sub_le hpq hq ha
  rw [share_zero] at h
  omega

/-- The share computed from quotient and remainder, without the product. -/
theorem share_eq_quot_add_rem (p a : Int) (hq : 0 < q) :
    share p q a = a / q * p + a % q * p / q := by
  have h : a * p = a % q * p + a / q * p * q := by
    nth_rewrite 1 [← Int.mul_ediv_add_emod a q]
    ring
  rw [share, h, Int.add_mul_ediv_right _ _ hq.ne']
  ring

/-- A share of less than the whole of a positive amount is less than the amount. -/
theorem share_lt (hp : 0 ≤ p) (hpq : p < q) (ha : 0 < a) : share p q a < a := by
  apply Int.ediv_lt_of_lt_mul (by omega)
  exact mul_lt_mul_of_pos_left hpq ha
