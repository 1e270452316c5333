import TrustFlow.Types
import TrustFlow.Lib.Proportion

/-!
# Fee and slash arithmetic

The two numerical kernels of the contract: `cumulative_fee`, which splits the
product of amount and rate to avoid an overflow, and the three-tier computation
of a slash inside `resolve_dispute`.  Both compute a share of a non-negative
amount; the lemmas say which.
-/

namespace TrustFlow

/-- `option.ok_or(error)` -/
def orError {α : Type} (o : Option α) (e : TrustFlowError) : Except TrustFlowError α :=
  match o with
  | some a => .ok a
  | none => .error e

@[simp] theorem orError_eq_ok {α : Type} {o : Option α} {e : TrustFlowError} {a : α} :
    orError o e = .ok a ↔ o = some a := by
  cases o <;> simp [orError]

@[simp] theorem orError_eq_error {α : Type} {o : Option α} {e e' : TrustFlowError} :
    orError o e = .error e' ↔ o = none ∧ e = e' := by
  cases o <;> simp [orError]

/-! ### The fee -/

/-- `cumulative_fee`: `floor(amount * fee_bps / 10_000)` by quotient and remainder. -/
def cumulativeFee (amount : I128) (feeBps : U32) : Except TrustFlowError I128 :=
  if amount.val = 0 then .ok 0
  else do
    let feeBps := U32.toI128 feeBps
    let quotient := I128.quot amount BPS_DENOMINATOR
    let remainder := I128.rem amount BPS_DENOMINATOR
    let quotientFee ← orError (quotient.checkedMul feeBps) .invalidAmount
    let remainderProduct ← orError (remainder.checkedMul feeBps) .invalidAmount
    let remainderFee := I128.quot remainderProduct BPS_DENOMINATOR
    orError (quotientFee.checkedAdd remainderFee) .invalidAmount

/-- For a non-negative amount the fee is the exact share, and it is an error
    only when that share is no `i128`. -/
theorem cumulativeFee_eq_ok {a r : I128} {f : U32} (h : 0 ≤ a.val) :
    cumulativeFee a f = .ok r ↔ r.val = share f.val 10000 a.val := by
  have hf := f.lo_le
  have hf' := f.le_hi
  have hq : 0 ≤ a.val / 10000 * f.val := mul_nonneg (by omega) hf
  have hm := Int.emod_nonneg a.val (show (10000 : Int) ≠ 0 by decide)
  have hm' := Int.emod_lt_of_pos a.val (show (0 : Int) < 10000 by decide)
  have hr : 0 ≤ a.val % 10000 * f.val := mul_nonneg hm hf
  have hr' : a.val % 10000 * f.val ≤ 10000 * 4294967295 := by
    exact mul_le_mul hm'.le hf' hf (by decide)
  rw [share_eq_quot_add_rem f.val a.val (by decide)]
  by_cases h0 : a.val = 0
  · rw [cumulativeFee, if_pos h0, h0]
    have hz : (0 : Int) / 10000 * f.val + 0 % 10000 * f.val / 10000 = 0 := by simp
    rw [hz, Except.ok.injEq, ← BoundedInt.val_inj, I128.val_zero]
    exact eq_comm
  · -- the remainder's product always fits, so only the quotient's can fail
    obtain ⟨m, hmv⟩ : ∃ m : I128, m.val = a.val % 10000 * f.val :=
      ⟨⟨_, by omega, by omega⟩, rfl⟩
    have hprod : (I128.rem a BPS_DENOMINATOR).checkedMul (U32.toI128 f) = some m := by
      rw [BoundedInt.checkedMul_eq_some, hmv, I128.rem_val h (by decide)]
      rfl
    have hquot : (I128.quot m BPS_DENOMINATOR).val = a.val % 10000 * f.val / 10000 := by
      rw [I128.quot_val (by omega) (by decide), hmv]
      rfl
    rw [cumulativeFee, if_neg h0]
    dsimp only
    rw [hprod]
    cases hc : (I128.quot a BPS_DENOMINATOR).checkedMul (U32.toI128 f) with
    | none =>
        rw [BoundedInt.checkedMul_eq_none, I128.quot_val h (by decide)] at hc
        have hhi := r.le_hi
        have hd : (0 : Int) ≤ a.val % 10000 * f.val / 10000 := Int.ediv_nonneg hr (by decide)
        simp only [U32.toI128_val, BPS_DENOMINATOR_val] at hc
        constructor
        · intro he
          cases he
        · intro he
          omega
    | some q =>
        rw [BoundedInt.checkedMul_eq_some, I128.quot_val h (by decide)] at hc
        show orError (q.checkedAdd (I128.quot m BPS_DENOMINATOR)) _ = _ ↔ _
        rw [orError_eq_ok, BoundedInt.checkedAdd_eq_some, hc, hquot]
        rfl

/-- A non-negative amount has a fee exactly when its share is an `i128`. -/
theorem exists_cumulativeFee_iff {a : I128} {f : U32} (h : 0 ≤ a.val) :
    (∃ r, cumulativeFee a f = .ok r) ↔ share f.val 10000 a.val ≤ 2 ^ 127 - 1 := by
  constructor
  · rintro ⟨r, hr⟩
    rw [← (cumulativeFee_eq_ok h).mp hr]
    exact r.le_hi
  · intro hle
    have h0 := share_nonneg f.lo_le (show (0 : Int) < 10000 by decide) h
    exact ⟨⟨share f.val 10000 a.val, by omega, by omega⟩, (cumulativeFee_eq_ok h).mpr rfl⟩

/-- A rate of at most the whole always yields a fee. -/
theorem exists_cumulativeFee {a : I128} {f : U32} (h : 0 ≤ a.val) (hf : f.val ≤ 10000) :
    ∃ r, cumulativeFee a f = .ok r := by
  have hle := share_le hf (by decide) h
  exact (exists_cumulativeFee_iff h).mpr (hle.trans a.le_hi)

theorem cumulativeFee_error {a : I128} {f : U32} {e : TrustFlowError}
    (he : cumulativeFee a f = .error e) : e = .invalidAmount := by
  unfold cumulativeFee at he
  split at he
  · cases he
  · dsimp only at he
    cases hq : (I128.quot a BPS_DENOMINATOR).checkedMul (U32.toI128 f) with
    | none =>
        rw [hq] at he
        cases he
        rfl
    | some q =>
        cases hm : (I128.rem a BPS_DENOMINATOR).checkedMul (U32.toI128 f) with
        | none =>
            rw [hq, hm] at he
            cases he
            rfl
        | some m =>
            rw [hq, hm] at he
            exact (orError_eq_error.mp he).2.symm

/-- The fee of a non-negative amount at any rate: the exact floor when that is an
    `i128`, and `InvalidAmount` when it is not.  At a rate of at most the whole it
    never fails, is at most the amount, and grows with the amount but no faster. -/
theorem cumulative_fee_exact {a : I128} {f : U32} (h : 0 ≤ a.val) :
    (∀ r, cumulativeFee a f = .ok r ↔ r.val = a.val * f.val / 10000) ∧
      ((∃ r, cumulativeFee a f = .ok r) ↔ a.val * f.val / 10000 ≤ 2 ^ 127 - 1) ∧
      (cumulativeFee a f = .error .invalidAmount ↔ 2 ^ 127 - 1 < a.val * f.val / 10000) ∧
      (f.val ≤ 10000 → ∃ r, cumulativeFee a f = .ok r ∧ 0 ≤ r.val ∧ r.val ≤ a.val ∧
        ∀ b : I128, a.val ≤ b.val → ∃ r', cumulativeFee b f = .ok r' ∧
          0 ≤ r'.val - r.val ∧ r'.val - r.val ≤ b.val - a.val) := by
  have hfits : (∃ r, cumulativeFee a f = .ok r) ↔ a.val * f.val / 10000 ≤ 2 ^ 127 - 1 :=
    exists_cumulativeFee_iff h
  refine ⟨fun r => cumulativeFee_eq_ok h, hfits, ?_, fun hf => ?_⟩
  · rw [← not_le, ← hfits]
    constructor
    · rintro he ⟨r, hr⟩
      cases he.symm.trans hr
    · intro hnone
      cases hfee : cumulativeFee a f with
      | ok r => exact absurd ⟨r, hfee⟩ hnone
      | error e => rw [cumulativeFee_error hfee]
  · have hden : (0 : Int) < 10000 := by decide
    rcases exists_cumulativeFee h hf with ⟨r, hr⟩
    have hval := (cumulativeFee_eq_ok h).mp hr
    refine ⟨r, hr, ?_, ?_, fun b hab => ?_⟩
    · rw [hval]
      exact share_nonneg f.lo_le hden h
    · rw [hval]
      exact share_le hf hden h
    · rcases exists_cumulativeFee (h.trans hab) hf with ⟨r', hr'⟩
      have hval' := (cumulativeFee_eq_ok (h.trans hab)).mp hr'
      have hmono := share_mono f.lo_le hden hab
      have hlipschitz := share_sub_le hf hden hab
      exact ⟨r', hr', by omega, by omega⟩

/-- The largest amount is its own fee at the full rate, and has none just above it. -/
theorem cumulative_fee_exact_max :
    cumulativeFee ⟨2 ^ 127 - 1, by decide, by decide⟩ (.ofNat 10000) =
        .ok ⟨2 ^ 127 - 1, by decide, by decide⟩ ∧
      cumulativeFee ⟨2 ^ 127 - 1, by decide, by decide⟩ (.ofNat 10001) =
        .error .invalidAmount := by
  have hmax : 0 ≤ (⟨2 ^ 127 - 1, by decide, by decide⟩ : I128).val := by decide
  constructor
  · exact ((cumulative_fee_exact hmax).1 _).mpr (by decide)
  · exact (cumulative_fee_exact hmax).2.2.1.mpr (by decide)

/-! ### The slash -/

/-- The three-tier slash of `resolve_dispute`: `i128` product, `u128` product,
    division before multiplication; capped at the stake. -/
def slashAmount (stake : I128) (slashBps : U32) : I128 :=
  let stakeU128 := I128.toU128 stake
  let bpsU128 := U32.toU128 slashBps
  let slashU128 :=
    ((((stake.checkedMul (U32.toI128 slashBps)).bind fun v =>
        v.checkedDiv TEN_THOUSAND_I128).map I128.toU128).or
      (((stakeU128.checkedMul bpsU128).bind fun v => v.checkedDiv TEN_THOUSAND_U128).or
        ((stakeU128.checkedDiv TEN_THOUSAND_U128).map fun q => q.saturatingMul bpsU128)))
  U128.toI128 ((slashU128.getD stakeU128).minimum stakeU128)

/-- The cap: whatever the tiers compute, a slash is between zero and the stake. -/
theorem slashAmount_bounds {stake : I128} (bps : U32) (h : 0 ≤ stake.val) :
    0 ≤ (slashAmount stake bps).val ∧ (slashAmount stake bps).val ≤ stake.val := by
  have hs := I128.toU128_val h
  have hhi := stake.le_hi
  unfold slashAmount
  dsimp only
  generalize Option.getD _ (I128.toU128 stake) = s
  have hmin := BoundedInt.minimum_val s (I128.toU128 stake)
  have hlo := s.lo_le
  rw [U128.toI128_val (by omega), hmin]
  omega

/-- What the tiers compute: the exact share while the product is a `u128`, and the
    divided stake times the rate beyond. -/
theorem slashAmount_val {stake : I128} {bps : U32} (h : 0 ≤ stake.val) (hbps : bps.val ≤ 10000) :
    (slashAmount stake bps).val =
      if stake.val * bps.val < 2 ^ 128 then share bps.val 10000 stake.val
      else stake.val / 10000 * bps.val := by
  have hs := I128.toU128_val h
  have hhi := stake.le_hi
  have hprod : 0 ≤ stake.val * bps.val := mul_nonneg h bps.lo_le
  have hle : share bps.val 10000 stake.val ≤ stake.val := share_le hbps (by decide) h
  -- the last tier leaves out the share of the remainder
  have hsplit := share_eq_quot_add_rem bps.val stake.val (show (0 : Int) < 10000 by decide)
  have hrem : 0 ≤ stake.val % 10000 * bps.val / 10000 :=
    Int.ediv_nonneg (mul_nonneg (Int.emod_nonneg _ (by decide)) bps.lo_le) (by decide)
  have hquot : 0 ≤ stake.val / 10000 * bps.val :=
    mul_nonneg (Int.ediv_nonneg h (by decide)) bps.lo_le
  have htier : ∃ s : U128, s.val ≤ stake.val ∧
      s.val = (if stake.val * bps.val < 2 ^ 128 then share bps.val 10000 stake.val
        else stake.val / 10000 * bps.val) ∧
      slashAmount stake bps = U128.toI128 (s.minimum (I128.toU128 stake)) := by
    unfold slashAmount
    dsimp only
    cases h₁ : stake.checkedMul (U32.toI128 bps) with
    | some v =>
        rw [BoundedInt.checkedMul_eq_some, U32.toI128_val] at h₁
        have hv := v.le_hi
        rcases BoundedInt.exists_checkedDiv (b := TEN_THOUSAND_I128) (by decide)
          (h₁ ▸ hprod) (by decide) with ⟨r, hr, hval⟩
        have hr0 : 0 ≤ r.val := hval ▸ Int.ediv_nonneg (h₁ ▸ hprod) (by decide)
        have hshare : (I128.toU128 r).val = share bps.val 10000 stake.val := by
          rw [I128.toU128_val hr0, hval, h₁]
          rfl
        refine ⟨I128.toU128 r, by omega, ?_, by simp [hr]⟩
        rw [if_pos (by omega)]
        exact hshare
    | none =>
        cases h₂ : (I128.toU128 stake).checkedMul (U32.toU128 bps) with
        | some v =>
            rw [BoundedInt.checkedMul_eq_some, U32.toU128_val, hs] at h₂
            have hv := v.le_hi
            rcases BoundedInt.exists_checkedDiv (b := TEN_THOUSAND_U128) (by decide)
              v.lo_le (by decide) with ⟨r, hr, hval⟩
            have hshare : r.val = share bps.val 10000 stake.val := by
              rw [hval, h₂]
              rfl
            refine ⟨r, by omega, ?_, by simp [hr]⟩
            rw [if_pos (by omega)]
            exact hshare
        | none =>
            rw [BoundedInt.checkedMul_eq_none, U32.toU128_val, hs] at h₂
            rcases BoundedInt.exists_checkedDiv (a := I128.toU128 stake) (b := TEN_THOUSAND_U128)
              (by decide) (I128.toU128 stake).lo_le (by decide) with ⟨q, hq, hval⟩
            have hq' : q.val = stake.val / 10000 := by
              rw [hval, hs]
              rfl
            have hsat : (q.saturatingMul (U32.toU128 bps)).val = stake.val / 10000 * bps.val := by
              rw [BoundedInt.saturatingMul_val, U32.toU128_val, hq']
              omega
            refine ⟨q.saturatingMul (U32.toU128 bps), by omega, ?_, by simp [hq]⟩
            rw [if_neg (by omega)]
            exact hsat
  rcases htier with ⟨s, hle, hval, heq⟩
  have hmin := BoundedInt.minimum_val s (I128.toU128 stake)
  rw [heq, U128.toI128_val (by omega), hmin, ← hval]
  omega

/-- The last tier is below the exact share by less than the rate. -/
theorem share_sub_quot_le {bps a : Int} (h0 : 0 ≤ bps) (hbps : bps ≤ 10000) :
    0 ≤ share bps 10000 a - a / 10000 * bps ∧
      share bps 10000 a - a / 10000 * bps ≤ max (bps - 1) 0 := by
  have hsplit := share_eq_quot_add_rem bps a (show (0 : Int) < 10000 by decide)
  have hm := Int.emod_nonneg a (show (10000 : Int) ≠ 0 by decide)
  have hm' := Int.emod_lt_of_pos a (show (0 : Int) < 10000 by decide)
  have hrem : 0 ≤ a % 10000 * bps / 10000 := Int.ediv_nonneg (mul_nonneg hm h0) (by decide)
  have hle : a % 10000 * bps ≤ 9999 * bps := mul_le_mul_of_nonneg_right (by omega) h0
  omega

/-- Below the full rate a slash of a positive stake leaves something of it. -/
theorem slashAmount_lt {stake : I128} {bps : U32} (h : 0 < stake.val) (hbps : bps.val < 10000) :
    (slashAmount stake bps).val < stake.val := by
  have hlt : share bps.val 10000 stake.val < stake.val := share_lt bps.lo_le hbps h
  have hgap := (share_sub_quot_le (a := stake.val) bps.lo_le hbps.le).1
  rw [slashAmount_val h.le hbps.le]
  split <;> omega

/-- The slash of a stake at a rate of at most the whole: between zero and the stake,
    so that the rest is one too; the exact share while the product is a `u128`; and
    beyond it the divided stake times the rate, which is short of the exact share by
    less than the rate. -/
theorem slash_arithmetic {stake : I128} {bps : U32} (h : 0 ≤ stake.val) (hbps : bps.val ≤ 10000) :
    0 ≤ (slashAmount stake bps).val ∧ (slashAmount stake bps).val ≤ stake.val ∧
      (∃ remaining, stake.checkedSub (slashAmount stake bps) = some remaining ∧
        0 ≤ remaining.val ∧ remaining.val ≤ stake.val) ∧
      (stake.val * bps.val < 2 ^ 128 →
        (slashAmount stake bps).val = stake.val * bps.val / 10000) ∧
      (2 ^ 128 ≤ stake.val * bps.val →
        (slashAmount stake bps).val = stake.val / 10000 * bps.val ∧
        0 ≤ stake.val * bps.val / 10000 - (slashAmount stake bps).val ∧
        stake.val * bps.val / 10000 - (slashAmount stake bps).val ≤ max (bps.val - 1) 0) := by
  rcases slashAmount_bounds bps h with ⟨h0, hle⟩
  have hval := slashAmount_val h hbps
  have hhi := stake.le_hi
  refine ⟨h0, hle, ?_, fun hfits => ?_, fun hover => ?_⟩
  · refine ⟨⟨stake.val - (slashAmount stake bps).val, by omega, by omega⟩, ?_, ?_, ?_⟩
    · exact BoundedInt.checkedSub_eq_some.mpr rfl
    · show 0 ≤ stake.val - (slashAmount stake bps).val
      omega
    · show stake.val - (slashAmount stake bps).val ≤ stake.val
      omega
  · rw [hval, if_pos hfits]
    rfl
  · rw [if_neg (not_lt.mpr hover)] at hval
    rw [hval]
    exact ⟨rfl, share_sub_quot_le bps.lo_le hbps⟩

/-- The largest stake at the full rate falls in the last tier: its slash leaves 5727. -/
theorem slash_arithmetic_max :
    (slashAmount ⟨2 ^ 127 - 1, by decide, by decide⟩ (.ofNat 10000)).val = 2 ^ 127 - 1 - 5727 := by
  have hstake : 0 ≤ (⟨2 ^ 127 - 1, by decide, by decide⟩ : I128).val := by decide
  have hbps : (U32.ofNat 10000).val ≤ 10000 := by decide
  have htier := (slash_arithmetic hstake hbps).2.2.2.2 (by decide)
  exact htier.1.trans (by decide)

end TrustFlow
