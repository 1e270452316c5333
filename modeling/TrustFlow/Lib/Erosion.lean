import Mathlib.Tactic.Ring
import Mathlib.Tactic.Linarith
import Mathlib.Algebra.Order.Ring.Int

/-!
# Erosion of an amount

An amount is cut again and again, each time by a share of what is left, rounded
down in some way.  It decays no faster than the share says, stays positive unless
the share is the whole, and stops decaying when the share of what is left is less
than one.
-/

/-- The cut `s` of `b` is at most the share `p / q`, and not nothing unless that is
    less than one. -/
structure Cut (p q b s : Int) : Prop where
  nonneg : 0 ≤ s
  le : s ≤ b
  mul_le : s * q ≤ b * p
  pos : q ≤ b * p → 1 ≤ s

/-- What `n` cuts of the share `p / q` leave of `a`. -/
structure Eroded (p q : Int) (n : Nat) (a b : Int) : Prop where
  nonneg : 0 ≤ b
  le : b ≤ a
  ge : a * (q - p) ^ n ≤ b * q ^ n
  dust : a * p < q → b = a
  spent : b + n ≤ a ∨ b * p < q

namespace Eroded

variable {p q a b s : Int} {n : Nat}

theorem refl (ha : 0 ≤ a) : Eroded p q 0 a a where
  nonneg := ha
  le := le_rfl
  ge := by simp
  dust _ := rfl
  spent := .inl (by simp)

theorem cut (hpq : p ≤ q) (hq : 0 < q) (h : Eroded p q n a b) (hs : Cut p q b s) :
    Eroded p q (n + 1) a (b - s) := by
  have hle := hs.le
  have h0 := hs.nonneg
  have hnothing (hdust : b * p < q) : s = 0 := by
    have hlt : s * q < 1 * q := by
      have hmul := hs.mul_le
      omega
    have := Int.lt_of_mul_lt_mul_right hlt hq.le
    omega
  constructor
  · omega
  · have hba := h.le
    omega
  · have hpow : 0 ≤ q ^ n := pow_nonneg hq.le n
    have hshare : b * (q - p) ≤ (b - s) * q := by
      have hmul := hs.mul_le
      linarith [mul_sub b q p, sub_mul b s q]
    calc a * (q - p) ^ (n + 1) = a * (q - p) ^ n * (q - p) := by ring
      _ ≤ b * q ^ n * (q - p) := Int.mul_le_mul_of_nonneg_right h.ge (by omega)
      _ = b * (q - p) * q ^ n := by ring
      _ ≤ (b - s) * q * q ^ n := Int.mul_le_mul_of_nonneg_right hshare hpow
      _ = (b - s) * q ^ (n + 1) := by ring
  · intro hdust
    have hba := h.dust hdust
    have hs0 := hnothing (hba ▸ hdust)
    omega
  · rcases lt_or_ge (b * p) q with hdust | hshare
    · have hs0 := hnothing hdust
      rw [hs0, sub_zero]
      exact .inr hdust
    · have h1 := hs.pos hshare
      rcases h.spent with hspent | hdust
      · apply Or.inl
        push_cast
        omega
      · omega

/-- Cuts of less than the whole leave something. -/
theorem pos (hpq : p < q) (hq : 0 < q) (h : Eroded p q n a b) (ha : 0 < a) : 0 < b := by
  have hpow : 0 < q ^ n := pow_pos hq n
  have hleft : 0 < a * (q - p) ^ n := mul_pos ha (pow_pos (by omega) n)
  exact pos_of_mul_pos_left (hleft.trans_le h.ge) hpow.le

end Eroded
