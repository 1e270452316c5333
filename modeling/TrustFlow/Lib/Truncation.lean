import TrustFlow.Lib.Machine
import TrustFlow.Lib.Proportion

/-!
# Shares of either sign

Machine division truncates, so a share of a negative amount is rounded towards
zero.  `Within x z` says that `x` lies between zero and `z`; quotients,
remainders and shares of an amount lie so, and what lies so fits wherever `z`
does.
-/

/-- `x` lies between zero and `z`. -/
def Within (x z : Int) : Prop := (0 ≤ x ∧ x ≤ z) ∨ (z ≤ x ∧ x ≤ 0)

namespace Within

variable {x z a d p : Int}

theorem mul_nonneg (h : Within x z) (hp : 0 ≤ p) : Within (x * p) (z * p) := by
  rcases h with ⟨h0, hle⟩ | ⟨hle, h0⟩
  · exact .inl ⟨Int.mul_nonneg h0 hp, Int.mul_le_mul_of_nonneg_right hle hp⟩
  · exact .inr ⟨Int.mul_le_mul_of_nonneg_right hle hp, Int.mul_nonpos_of_nonpos_of_nonneg h0 hp⟩

theorem neg (h : Within x z) : Within (-x) (-z) := by
  unfold Within at *
  omega

theorem tdiv (a : Int) (hd : 0 < d) : Within (a.tdiv d) a := by
  have hpos {b : Int} (hb : 0 ≤ b) : Within (b.tdiv d) b := by
    rw [Int.tdiv_eq_ediv_of_nonneg hb]
    exact .inl ⟨Int.ediv_nonneg hb hd.le, Int.ediv_le_self d hb⟩
  rcases Int.le_total 0 a with ha | ha
  · exact hpos ha
  · have h := (hpos (Int.neg_nonneg_of_nonpos ha)).neg
    rwa [Int.neg_tdiv, Int.neg_neg, Int.neg_neg] at h

theorem tmod (a : Int) (hd : 0 < d) : Within (a.tmod d) a := by
  have hpos {b : Int} (hb : 0 ≤ b) : Within (b.tmod d) b := by
    rw [Int.tmod_eq_emod_of_nonneg hb]
    have hquot := Int.mul_nonneg hd.le (Int.ediv_nonneg hb hd.le)
    have hsplit := Int.emod_add_mul_ediv b d
    exact .inl ⟨Int.emod_nonneg b hd.ne', by omega⟩
  rcases Int.le_total 0 a with ha | ha
  · exact hpos ha
  · have h := (hpos (Int.neg_nonneg_of_nonpos ha)).neg
    rwa [Int.neg_tmod, Int.neg_neg, Int.neg_neg] at h

/-- A share of at most one `k`th, taken `k` times. -/
theorem mul_share {k : Int} (a : Int) (hk : 0 ≤ k) (hp : 0 ≤ p) (hd : 0 < d) (hkp : k * p ≤ d) :
    Within (k * (a * p).tdiv d) a := by
  have hpos {b : Int} (hb : 0 ≤ b) : Within (k * (b * p).tdiv d) b := by
    have hprod := Int.mul_nonneg hb hp
    rw [Int.tdiv_eq_ediv_of_nonneg hprod]
    refine .inl ⟨Int.mul_nonneg hk (Int.ediv_nonneg hprod hd.le), ?_⟩
    apply Int.le_of_mul_le_mul_right _ hd
    calc k * (b * p / d) * d = k * (b * p / d * d) := Int.mul_assoc ..
      _ ≤ k * (b * p) := Int.mul_le_mul_of_nonneg_left (Int.ediv_mul_le _ hd.ne') hk
      _ = b * (k * p) := by ring
      _ ≤ b * d := Int.mul_le_mul_of_nonneg_left hkp hb
  rcases Int.le_total 0 a with ha | ha
  · exact hpos ha
  · have h := (hpos (Int.neg_nonneg_of_nonpos ha)).neg
    simpa only [Int.neg_mul, Int.neg_tdiv, Int.mul_neg, Int.neg_neg] using h

/-- What lies between zero and a machine integer is one. -/
theorem exists_val {lo hi : Int} (hlo : lo ≤ 0) (hhi : 0 ≤ hi) {b : BoundedInt lo hi}
    (h : Within x b.val) : ∃ r : BoundedInt lo hi, r.val = x := by
  have h₁ := b.lo_le
  have h₂ := b.le_hi
  rcases h with ⟨h0, hle⟩ | ⟨hle, h0⟩
  · exact ⟨⟨x, by omega, by omega⟩, rfl⟩
  · exact ⟨⟨x, by omega, by omega⟩, rfl⟩

end Within

/-- The truncated share computed from quotient and remainder, without the product. -/
theorem tdiv_share (a : Int) {p d : Int} (hp : 0 ≤ p) (hd : 0 < d) :
    (a * p).tdiv d = a.tdiv d * p + (a.tmod d * p).tdiv d := by
  have hpos {b : Int} (hb : 0 ≤ b) :
      (b * p).tdiv d = b.tdiv d * p + (b.tmod d * p).tdiv d := by
    have hrest := Int.emod_nonneg b hd.ne'
    rw [Int.tdiv_eq_ediv_of_nonneg hb, Int.tmod_eq_emod_of_nonneg hb,
      Int.tdiv_eq_ediv_of_nonneg (Int.mul_nonneg hb hp),
      Int.tdiv_eq_ediv_of_nonneg (Int.mul_nonneg hrest hp)]
    exact share_eq_quot_add_rem p b hd
  rcases Int.le_total 0 a with ha | ha
  · exact hpos ha
  · have h := hpos (Int.neg_nonneg_of_nonpos ha)
    simp only [Int.neg_mul, Int.neg_tdiv, Int.neg_tmod] at h
    omega

/-- Machine division by a positive divisor. -/
theorem I128.quot_trunc {a d : I128} (hd : 0 < d.val) : (a.quot d).val = a.val.tdiv d.val := by
  have h₁ := a.lo_le
  have h₂ := a.le_hi
  apply BoundedInt.wrap_val_of_mem
  · rcases Within.tdiv a.val hd with h | h <;> omega
  · rcases Within.tdiv a.val hd with h | h <;> omega

theorem I128.rem_trunc {a d : I128} (hd : 0 < d.val) : (a.rem d).val = a.val.tmod d.val := by
  have h₁ := a.lo_le
  have h₂ := a.le_hi
  apply BoundedInt.wrap_val_of_mem
  · rcases Within.tmod a.val hd with h | h <;> omega
  · rcases Within.tmod a.val hd with h | h <;> omega
