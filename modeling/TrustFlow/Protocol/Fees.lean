import TrustFlow.Arithmetic
import TrustFlow.Lib.Truncation
import TrustFlow.Protocol.Halting

/-!
# The fee of an escrow

The protocol computes a fee in three places: `compute_fee` of the fee module,
the release of the settlement module, and `cumulative_fee` of the escrow
contract, which avoids the product of amount and rate.  They agree wherever that
product fits, on amounts of either sign.
-/

namespace Protocol

open Invocation Transition

def MAX_FEE_BPS : U32 := .ofNat 1000
def BASIS_POINTS : I128 := .ofNat 10000

/-- `option.ok_or(error)` -/
def orError {α : Type} (o : Option α) (e : TrustFlowError) : Except TrustFlowError α :=
  match o with
  | some a => .ok a
  | none => .error e

def validateFeeBps (feeBps : U32) : Except TrustFlowError Unit :=
  if feeBps.val > MAX_FEE_BPS.val then .error .invalidAmount else .ok ()

def computeFee (amount : I128) (feeBps : U32) : Except TrustFlowError (I128 × I128) := do
  let product := amount.checkedMul feeBps.toI128
  let fee ← orError (product.bind fun v => v.checkedDiv BASIS_POINTS) .arithmeticOverflow
  let payout ← orError (amount.checkedSub fee) .arithmeticOverflow
  return (fee, payout)

/-! ### What the three compute -/

section Fees

variable {amount fee payout : I128} {feeBps : U32}

theorem validateFeeBps_eq_ok {u : Unit} :
    validateFeeBps feeBps = .ok u ↔ feeBps.val ≤ 1000 := by
  unfold validateFeeBps
  have hmax : MAX_FEE_BPS.val = 1000 := rfl
  rw [hmax]
  split
  · next h => simpa using h
  · next h => simpa using not_lt.mp h

/-- Where the product fits, so do the fee and what is left. -/
theorem exists_split {product : I128} (hproduct : product.val = amount.val * feeBps.val) :
    ∃ fee payout : I128, fee.val = product.val.tdiv 10000 ∧ payout.val = amount.val - fee.val := by
  have hfee := Within.tdiv product.val (show (0 : Int) < 10000 by decide)
  obtain ⟨fee, hval⟩ := hfee.exists_val (by decide) (by decide)
  have h₁ := product.lo_le
  have h₂ := product.le_hi
  have h₃ := amount.lo_le
  have h₄ := amount.le_hi
  have hrate := feeBps.lo_le
  rcases Int.le_total 0 amount.val with h0 | h0
  · have hpos : 0 ≤ product.val := hproduct ▸ Int.mul_nonneg h0 hrate
    have htrunc := Int.tdiv_eq_ediv_of_nonneg (b := 10000) hpos
    exact ⟨fee, ⟨amount.val - fee.val, by omega, by omega⟩, hval, rfl⟩
  · have hneg : product.val ≤ 0 := hproduct ▸ Int.mul_nonpos_of_nonpos_of_nonneg h0 hrate
    have htrunc := Int.tdiv_eq_ediv_of_nonneg (b := 10000) (Int.neg_nonneg_of_nonpos hneg)
    rw [Int.neg_tdiv] at htrunc
    exact ⟨fee, ⟨amount.val - fee.val, by omega, by omega⟩, hval, rfl⟩

theorem computeFee_of_product {product : I128} (hproduct : product.val = amount.val * feeBps.val) :
    ∃ fee payout, computeFee amount feeBps = .ok (fee, payout) ∧
      fee.val = (amount.val * feeBps.val).tdiv 10000 ∧ payout.val = amount.val - fee.val := by
  obtain ⟨fee, payout, hfee, hpayout⟩ := exists_split hproduct
  have hbase : BASIS_POINTS.val ≠ 0 := by decide
  have hmul : amount.checkedMul feeBps.toI128 = some product :=
    BoundedInt.checkedMul_eq_some.mpr hproduct
  have hdiv : product.checkedDiv BASIS_POINTS = some fee :=
    (BoundedInt.checkedDiv_eq_some hbase).mpr hfee
  have hsub : amount.checkedSub fee = some payout := BoundedInt.checkedSub_eq_some.mpr hpayout
  refine ⟨fee, payout, ?_, hproduct ▸ hfee, hpayout⟩
  rw [computeFee, hmul, Option.bind_some, hdiv]
  show (orError (amount.checkedSub fee) .arithmeticOverflow >>= fun payout =>
    pure (fee, payout)) = _
  rw [hsub]
  rfl

theorem computeFee_of_overflow (h : amount.checkedMul feeBps.toI128 = none) :
    computeFee amount feeBps = .error .arithmeticOverflow := by
  rw [computeFee, h]
  rfl

/-- The fee is the truncated share, and it is computed exactly when the product fits. -/
theorem computeFee_eq_ok : computeFee amount feeBps = .ok (fee, payout) ↔
    (∃ product : I128, product.val = amount.val * feeBps.val) ∧
      fee.val = (amount.val * feeBps.val).tdiv 10000 ∧ payout.val = amount.val - fee.val := by
  constructor
  · intro h
    cases hmul : amount.checkedMul feeBps.toI128 with
    | none =>
        rw [computeFee_of_overflow hmul] at h
        cases h
    | some product =>
        have hproduct := BoundedInt.checkedMul_eq_some.mp hmul
        obtain ⟨fee', payout', hok, hfee, hpayout⟩ := computeFee_of_product hproduct
        cases hok.symm.trans h
        exact ⟨⟨product, hproduct⟩, hfee, hpayout⟩
  · rintro ⟨⟨product, hproduct⟩, hfee, hpayout⟩
    obtain ⟨fee', payout', hok, hfee', hpayout'⟩ := computeFee_of_product hproduct
    have hsame : fee' = fee := BoundedInt.ext (hfee'.trans hfee.symm)
    subst hsame
    have hrest : payout' = payout := BoundedInt.ext (hpayout'.trans hpayout.symm)
    rw [hok, hrest]

/-- Where the product fits, the split into quotient and remainder computes the same. -/
theorem cumulativeFee_of_computeFee (h : computeFee amount feeBps = .ok (fee, payout)) :
    TrustFlow.cumulativeFee amount feeBps = .ok fee := by
  obtain ⟨⟨product, hproduct⟩, hfee, -⟩ := computeFee_eq_ok.mp h
  have hrate := feeBps.lo_le
  have hden : (0 : Int) < TrustFlow.BPS_DENOMINATOR.val := by decide
  have hsplit := tdiv_share amount.val hrate hden
  by_cases h0 : amount.val = 0
  · have hzero : fee = 0 := by
      apply BoundedInt.ext
      rw [hfee, h0, Int.zero_mul, Int.zero_tdiv, I128.val_zero]
    rw [TrustFlow.cumulativeFee, if_pos h0, hzero]
  · -- both partial products lie between zero and the whole one
    have hquot : Within (amount.val.tdiv TrustFlow.BPS_DENOMINATOR.val * feeBps.val) product.val :=
      hproduct ▸ (Within.tdiv amount.val hden).mul_nonneg hrate
    have hrem : Within (amount.val.tmod TrustFlow.BPS_DENOMINATOR.val * feeBps.val) product.val :=
      hproduct ▸ (Within.tmod amount.val hden).mul_nonneg hrate
    obtain ⟨quotientFee, hquotientFee⟩ := hquot.exists_val (by decide) (by decide)
    obtain ⟨remainderProduct, hremainderProduct⟩ := hrem.exists_val (by decide) (by decide)
    have hmul : (I128.quot amount TrustFlow.BPS_DENOMINATOR).checkedMul (U32.toI128 feeBps) =
        some quotientFee := by
      rw [BoundedInt.checkedMul_eq_some, hquotientFee, I128.quot_trunc hden, U32.toI128_val]
    have hmul' : (I128.rem amount TrustFlow.BPS_DENOMINATOR).checkedMul (U32.toI128 feeBps) =
        some remainderProduct := by
      rw [BoundedInt.checkedMul_eq_some, hremainderProduct, I128.rem_trunc hden, U32.toI128_val]
    have hadd : quotientFee.checkedAdd (I128.quot remainderProduct TrustFlow.BPS_DENOMINATOR) =
        some fee := by
      rw [BoundedInt.checkedAdd_eq_some, I128.quot_trunc hden, hremainderProduct, hquotientFee,
        ← hsplit]
      exact hfee
    rw [TrustFlow.cumulativeFee, if_neg h0]
    dsimp only
    rw [hmul, hmul']
    show TrustFlow.orError (quotientFee.checkedAdd _) _ = _
    rw [hadd]
    rfl

end Fees

/-! ### The release -/

section Release

variable {A : Type} [DecidableEq A] {H : Host A} {auth : A → Bool} {env env' : Env H} {id : U64}
  {e : EscrowRecord A} {payout : I128}

/-- The rate a release charges. -/
def Env.feeRate (env : Env H) : U32 := (env.get .feeBps).getD (.ofNat 50)

theorem Env.payout_iff :
    env.Payout e payout ↔ ∃ fee, computeFee e.amount env.feeRate = .ok (fee, payout) := by
  have hbase : (0 : Int) < (I128.ofNat 10000).val := by decide
  constructor
  · rintro ⟨product, hmul, hsub⟩
    refine ⟨I128.quot product (.ofNat 10000), computeFee_eq_ok.mpr ?_⟩
    have hproduct := BoundedInt.checkedMul_eq_some.mp hmul
    refine ⟨⟨product, hproduct⟩, ?_, BoundedInt.checkedSub_eq_some.mp hsub⟩
    rw [I128.quot_trunc hbase, hproduct]
    rfl
  · rintro ⟨fee, hfee⟩
    obtain ⟨⟨product, hproduct⟩, hfee, hpayout⟩ := computeFee_eq_ok.mp hfee
    refine ⟨product, BoundedInt.checkedMul_eq_some.mpr hproduct, ?_⟩
    rw [BoundedInt.checkedSub_eq_some, I128.quot_trunc hbase, hproduct, hpayout, hfee]
    rfl

theorem release_overflow {err : TrustFlowError} (he : env.get (.escrow id) = some e)
    (hopen : ¬ (e.status = .released ∨ e.status = .cancelled))
    (h : computeFee e.amount env.feeRate = .error err) :
    releaseToBeneficiary id auth env = .error .overflow := by
  have hmul : e.amount.checkedMul env.feeRate.toI128 = none := by
    cases hmul : e.amount.checkedMul env.feeRate.toI128 with
    | none => rfl
    | some product =>
        obtain ⟨_, _, hok, _, _⟩ :=
          computeFee_of_product (BoundedInt.checkedMul_eq_some.mp hmul)
        cases hok.symm.trans h
  simp only [releaseToBeneficiary, persistentGet, bind_eq_error, reads_eq_ok, okOr_eq_ok,
    failIf_eq_ok, okOr_eq_error]
  refine .inr ⟨_, _, ⟨rfl, rfl⟩, .inr ⟨e, _, ⟨he, rfl⟩, .inr ⟨(), _, ⟨hopen, rfl⟩,
    .inr ⟨_, _, ⟨rfl, rfl⟩, .inl ⟨hmul, trivial⟩⟩⟩⟩⟩

/-- On every amount and rate `compute_fee` overflows exactly when the product is no
    `i128`, and the release of an open escrow of that amount then traps.  Otherwise
    the fee is the truncated share, fee and payout add up to the amount,
    `cumulative_fee` computes the same fee, and the release pays that payout exactly
    when the token makes the transfer; a rate that `validate_fee_bps` accepts takes no
    more than a tenth. -/
theorem fee_formulas_agree (amount : I128) (feeBps : U32) :
    (∀ err, computeFee amount feeBps = .error err ↔
      err = .arithmeticOverflow ∧ ¬ ∃ product : I128, product.val = amount.val * feeBps.val) ∧
    (∀ fee payout, computeFee amount feeBps = .ok (fee, payout) →
      fee.val = (amount.val * feeBps.val).tdiv 10000 ∧ fee.val + payout.val = amount.val ∧
        TrustFlow.cumulativeFee amount feeBps = .ok fee ∧
        (validateFeeBps feeBps = .ok () → Within (10 * fee.val) amount.val)) ∧
    ∀ (auth : A → Bool) (env : Env H) id e, env.get (.escrow id) = some e → e.amount = amount →
      env.feeRate = feeBps → ¬ (e.status = .released ∨ e.status = .cancelled) →
      (∀ err, computeFee amount feeBps = .error err →
        releaseToBeneficiary id auth env = .error .overflow) ∧
      ∀ fee payout, computeFee amount feeBps = .ok (fee, payout) →
        ∀ n, (∃ env', releaseToBeneficiary id auth env = .ok (n, env')) ↔
          n = payout ∧ ∃ p, Purse.Moves e.token H.contract e.beneficiary payout env.purse p := by
  refine ⟨fun err => ⟨fun h => ?_, ?_⟩, fun fee payout h => ?_, ?_⟩
  · cases hmul : amount.checkedMul feeBps.toI128 with
    | none =>
        cases (computeFee_of_overflow hmul).symm.trans h
        refine ⟨rfl, ?_⟩
        rintro ⟨product, hproduct⟩
        cases hmul.symm.trans (BoundedInt.checkedMul_eq_some.mpr hproduct)
    | some product =>
        obtain ⟨_, _, hok, _, _⟩ :=
          computeFee_of_product (BoundedInt.checkedMul_eq_some.mp hmul)
        cases hok.symm.trans h
  · rintro ⟨rfl, hnone⟩
    apply computeFee_of_overflow
    rw [Option.eq_none_iff_forall_ne_some]
    intro product hproduct
    exact hnone ⟨product, BoundedInt.checkedMul_eq_some.mp hproduct⟩
  · obtain ⟨-, hfee, hpayout⟩ := computeFee_eq_ok.mp h
    refine ⟨hfee, by omega, cumulativeFee_of_computeFee h, fun hvalid => ?_⟩
    have hrate := validateFeeBps_eq_ok.mp hvalid
    rw [hfee]
    exact Within.mul_share _ (by decide) feeBps.lo_le (by decide) (by omega)
  · rintro auth env id e he rfl rfl hopen
    refine ⟨fun err herr => release_overflow he hopen herr, fun fee payout hfee n => ?_⟩
    have hpays : env.Payout e payout := Env.payout_iff.mpr ⟨fee, hfee⟩
    constructor
    · rintro ⟨env', hn⟩
      rcases releaseToBeneficiary_eq_ok.mp hn with ⟨e', p, he', -, hpayout, hm, -⟩
      cases he.symm.trans he'
      cases hpayout.unique hpays
      exact ⟨rfl, p, hm⟩
    · rintro ⟨rfl, p, hm⟩
      exact ⟨_, releaseToBeneficiary_eq_ok.mpr ⟨e, p, he, hopen, hpays, hm, rfl⟩⟩

end Release

/-- Of an escrow of 1000 the release pays 995. -/
theorem fee_formulas_agree_sample : ∃ env' : Env Host.plain,
    releaseToBeneficiary 1 (fun _ => false) (Env.seeded 1000) = .ok (.ofNat 995, env') := by
  have hfee : computeFee (.ofNat 1000) (.ofNat 50) = .ok (.ofNat 5, .ofNat 995) := by decide
  have hopen := (fee_formulas_agree (.ofNat 1000) (.ofNat 50)).2.2 (fun _ => false)
    (Env.seeded 1000) 1 .plain (Persistent.get_set_self ..) rfl rfl (by decide)
  have hmoves : ∃ p, Purse.Moves 9 0 3 (.ofNat 995) (Env.seeded 1000).purse p :=
    Purse.exists_moves (Tokens.balances_paysFrom 0) (by decide) (by decide)
  exact (hopen.2 _ _ hfee _).mpr ⟨rfl, hmoves⟩

end Protocol
