import TrustFlow.Protocol.Settlement

/-!
# Coverage

The contract owes the amounts of its open escrows.  As long as it holds what it
owes in every token, which disputes, releases and governance keep so, nothing but
an overflow of the fee keeps an open escrow from being released.
-/

namespace Protocol.Governance

open Invocation Transition Purse

/-! ### What is owed -/

/-- What a record promises in `tok`. -/
def owes {A : Type} [DecidableEq A] (tok : A) (e : EscrowRecord A) : Int :=
  if ¬ (e.status = .released ∨ e.status = .cancelled) ∧ e.token = tok then e.amount.val else 0

variable {A : Type} [DecidableEq A] {H : Host A}

def owesAt (env : Env H) (tok : A) (id : U64) : Int :=
  ((env.get (.escrow id)).map (owes tok)).getD 0

/-- What the open escrows promise in `tok`, together. -/
noncomputable def owed (env : Env H) (tok : A) : Int := ∑ᶠ id, owesAt env tok id

/-- The contract holds what it owes, and no record is of a negative amount. -/
structure Covered (env : Env H) : Prop where
  holds : ∀ tok, owed env tok ≤ env.purse.balance tok H.contract
  amounts : ∀ id e, env.get (.escrow id) = some e → 0 ≤ e.amount.val

/-- A change of the tokens that is not this contract's. -/
def Label.outside : Label H → Bool
  | .tokens _ => true
  | _ => false

/-- What happens to the tokens outside takes nothing from the contract. -/
def Undisturbed (t : Move (State H) (Label H)) : Prop :=
  t.label.outside = true → ∀ tok,
    t.pre.env.purse.balance tok H.contract ≤ t.post.env.purse.balance tok H.contract

section Owed

variable {env env' : Env H} {tok : A} {id : U64} {e : EscrowRecord A} {p : Purse H.tokens}

theorem owesAt_of_get (he : env.get (.escrow id) = some e) : owesAt env tok id = owes tok e := by
  rw [owesAt, he, Option.map_some, Option.getD_some]

theorem owesAt_disputed {caller : A} {reason : String} (hactive : e.status = .active)
    (he : env.get (.escrow id) = some e) (id' : U64) :
    owesAt (env.disputed e id caller reason) tok id' = owesAt env tok id' := by
  by_cases hid : id' = id
  · subst hid
    rw [owesAt_of_get he]
    simp [owesAt, Env.disputed, owes, hactive]
  · simp [owesAt, Env.disputed, hid]

theorem finite_owesAt (env : Env H) (tok : A) : (Function.support (owesAt env tok)).Finite := by
  apply env.persistent.finite_support DataKey.escrow fun _ _ h => DataKey.escrow.inj h
  intro id hnone
  rw [owesAt, Env.get, hnone]
  rfl

/-- A release strikes its escrow off what is owed. -/
theorem owed_released (he : env.get (.escrow id) = some e) :
    owed ((env.setPurse p).setPersistent (.escrow id) { e with status := .released }) tok =
      owed env tok - owes tok e := by
  have hother : ∀ i, i ≠ id →
      owesAt ((env.setPurse p).setPersistent (.escrow id) { e with status := .released }) tok i =
        owesAt env tok i := by
    intro i hi
    simp [owesAt, hi]
  have hthis :
      owesAt ((env.setPurse p).setPersistent (.escrow id) { e with status := .released }) tok id =
        0 := by
    simp [owesAt, owes]
  rw [owed, finsum_change (finite_owesAt env tok) hother, hthis, owesAt_of_get he, owed, add_zero]

/-- One escrow is owed no more than all of them. -/
theorem owes_le_owed (hcovered : Covered env) (he : env.get (.escrow id) = some e) :
    owes tok e ≤ owed env tok := by
  have hnonneg : ∀ i, 0 ≤ owesAt env tok i := by
    intro i
    cases hget : env.get (.escrow i) with
    | none =>
        rw [owesAt, hget]
        exact le_rfl
    | some e' =>
        rw [owesAt_of_get hget, owes]
        split
        · exact hcovered.amounts i e' hget
        · exact le_rfl
  rw [← owesAt_of_get he]
  exact single_le_finsum id (finite_owesAt env tok) hnonneg

end Owed

/-! ### Steps -/

section Steps

variable {auth : A → Bool} {s s' : State H} {l : Label H} {env : Env H} {id : U64} {n : I128}

/-- Records stay of non-negative amounts. -/
theorem Covered.amounts_step (hcovered : Covered s.env) (hs : Step s l s') (id : U64)
    (e : EscrowRecord A) (he : s'.env.get (.escrow id) = some e) : 0 ≤ e.amount.val := by
  have hterms := hs.terms_kept id
  rw [he, Option.map_some] at hterms
  obtain ⟨e', he', hsame⟩ := Option.map_eq_some_iff.mp hterms.symm
  rw [← (of_terms hsame).1]
  exact hcovered.amounts id e' he'

theorem Covered.release (hcovered : Covered env) {env' : Env H}
    (h : Protocol.releaseToBeneficiary id auth env = .ok (n, env')) (tok : A) :
    owed env' tok ≤ env'.purse.balance tok H.contract := by
  rcases releaseToBeneficiary_eq_ok.mp h with ⟨e, p, he, hopen, hpayout, hm, rfl⟩
  rw [owed_released he]
  show _ ≤ p.balance tok H.contract
  have hholds := hcovered.holds tok
  by_cases htok : e.token = tok
  · subst htok
    -- the fee of a non-negative amount is not negative, so the payout is not more
    obtain ⟨fee, hfee⟩ := Env.payout_iff.mp hpayout
    obtain ⟨-, hshare, hrest⟩ := computeFee_eq_ok.mp hfee
    have h0 := hcovered.amounts id e he
    have hprod := Int.mul_nonneg h0 env.feeRate.lo_le
    have hpos : 0 ≤ fee.val := by
      rw [hshare]
      exact Int.tdiv_nonneg hprod (by decide)
    have hpaid := hm.balance_src_ge
    rw [owes, if_pos ⟨hopen, rfl⟩]
    omega
  · have hother : p.balance tok H.contract = env.purse.balance tok H.contract := by
      have htok' : ¬ tok = e.token := fun h => htok h.symm
      rw [hm.balance_eq]
      simp [htok']
    rw [hother, owes, if_neg fun h => htok h.2, sub_zero]
    exact hholds

theorem Covered.step (hcovered : Covered s.env) (hs : Step s l s')
    (hquiet : Undisturbed ⟨s, l, s'⟩) : Covered s'.env := by
  refine ⟨fun tok => ?_, hcovered.amounts_step hs⟩
  have hholds := hcovered.holds tok
  cases hs with
  | call hc =>
      cases Request.effect hc with
      | @raised id caller reason env hraise =>
          rcases raiseDispute_eq_ok.mp hraise with ⟨_, e, he, _, hactive, rfl⟩
          have howed : owed (s.env.disputed e id caller reason) tok = owed s.env tok :=
            finsum_congr (owesAt_disputed hactive he)
          show owed (s.env.disputed e id caller reason) tok ≤ _
          rw [howed]
          exact hholds
      | released hrelease => exact hcovered.release hrelease tok
      | @feeSet admin feeBps =>
          have howed : owed (s.env.setPersistent .feeBps feeBps) tok = owed s.env tok := by
            apply finsum_congr
            intro id
            simp [owesAt]
          show owed (s.env.setPersistent .feeBps feeBps) tok ≤ _
          rw [howed]
          exact hholds
      | paused | priced | fresh => exact hholds
  | failed | close => exact hholds
  | tokens => exact hholds.trans (hquiet rfl tok)

/-- An open escrow that is covered is released unless the product of its fee
    overflows. -/
theorem Covered.releasable (hT : H.tokens.PaysFrom H.contract) (hcovered : Covered env)
    (hrate : env.feeRate.val ≤ 1000) {e : EscrowRecord A} (he : env.get (.escrow id) = some e)
    (hopen : ¬ (e.status = .released ∨ e.status = .cancelled)) {product : I128}
    (hproduct : product.val = e.amount.val * env.feeRate.val) :
    ∃ n env', Protocol.releaseToBeneficiary id auth env = .ok (n, env') := by
  obtain ⟨fee, payout, hfee, hshare, hrest⟩ := computeFee_of_product hproduct
  have h0 := hcovered.amounts id e he
  have hwithin : Within (10 * fee.val) e.amount.val := by
    rw [hshare]
    exact Within.mul_share _ (by decide) env.feeRate.lo_le (by decide) (by omega)
  have hpayout : 0 ≤ payout.val ∧ payout.val ≤ e.amount.val := by
    rcases hwithin with hwithin | hwithin
    · omega
    · omega
  have howed : e.amount.val ≤ owed env e.token := by
    have hone : owes e.token e ≤ owed env e.token := owes_le_owed hcovered he
    rwa [owes, if_pos ⟨hopen, rfl⟩] at hone
  have hle : payout.val ≤ env.purse.balance e.token H.contract :=
    hpayout.2.trans (howed.trans (hcovered.holds e.token))
  obtain ⟨p, hm⟩ : ∃ p, Moves e.token H.contract e.beneficiary payout env.purse p :=
    exists_moves hT hpayout.1 hle
  exact ⟨payout, _, releaseToBeneficiary_eq_ok.mpr
    ⟨e, p, he, hopen, Env.payout_iff.mpr ⟨fee, hfee⟩, hm, rfl⟩⟩

end Steps

/-! ### Runs -/

section Runs

variable {s s₀ : State H} {h : History H}

/-- A contract that starts with what its open escrows are worth, and from which nobody
    else takes tokens, keeps holding what it owes; and if the token makes the transfers
    it covers, at any time of any run any caller can release any open escrow, disputed
    or not, unless the product of amount and fee is no `i128`. -/
theorem always_releasable (hcovered : Covered s₀.env) (hfee : s₀.env.feeRate.val ≤ 1000)
    (hr : Run Step s₀ h s) (hquiet : ∀ t ∈ h, Undisturbed t) :
    (∀ tok, owed s.env tok ≤ s.env.purse.balance tok H.contract) ∧
      (H.tokens.PaysFrom H.contract → ∀ id e, s.env.get (.escrow id) = some e →
        ¬ (e.status = .released ∨ e.status = .cancelled) → ∀ auth,
          (∃ n s', Request.exec (.releaseToBeneficiary id) auth s = .ok (.amount n, s')) ↔
            ∃ product : I128, product.val = e.amount.val * s.env.feeRate.val) := by
  have hcovered' : Covered s.env :=
    Run.invariant_of_guard (G := Undisturbed) (P := fun s => Covered s.env) hcovered
      (fun hP hs hquiet => hP.step hs hquiet) hr hquiet
  have hrate : s.env.feeRate.val ≤ 1000 :=
    Run.invariant (P := fun s => s.env.feeRate.val ≤ 1000) hfee (fun hP hs => hs.feeRate_le hP) hr
  refine ⟨hcovered'.holds, fun hT id e he hopen auth => ⟨?_, ?_⟩⟩
  · rintro ⟨n, s', hok⟩
    cases Request.effect hok with
    | released hrelease =>
        rcases releaseToBeneficiary_eq_ok.mp hrelease with ⟨e', p, he', _, hpayout, _, _⟩
        cases he.symm.trans he'
        rcases hpayout with ⟨product, hproduct, _⟩
        exact ⟨product, BoundedInt.checkedMul_eq_some.mp hproduct⟩
  · rintro ⟨product, hproduct⟩
    obtain ⟨n, env', hrelease⟩ :
        ∃ n env', Protocol.releaseToBeneficiary id auth s.env = .ok (n, env') :=
      hcovered'.releasable hT hrate he hopen hproduct
    refine ⟨n, s.setEnv env', ?_⟩
    simp only [Request.exec, bind_eq_ok, onEnv_eq_ok, pure_eq_ok]
    exact ⟨n, _, ⟨env', hrelease, rfl⟩, rfl, rfl⟩

/-- The contract starts with the 1000 of its only escrow. -/
theorem State.seeded_covered : Covered State.seeded.env := by
  have hget (id : U64) :
      State.seeded.env.get (.escrow id) = if id = 1 then some .plain else none := by
    by_cases hid : id = 1
    · subst hid
      rfl
    · rw [if_neg hid]
      exact Persistent.get_set_of_ne _ _ _ fun h => hid (DataKey.escrow.inj h)
  constructor
  · intro tok
    have hrest : ∀ id, id ≠ 1 → owesAt State.seeded.env tok id = 0 := by
      intro id hid
      rw [owesAt, hget, if_neg hid]
      rfl
    show owed State.seeded.env tok ≤ 1000
    rw [owed, finsum_eq_single _ 1 hrest, owesAt_of_get (hget 1)]
    unfold owes
    split
    · decide
    · decide
  · intro id e he
    rw [hget] at he
    split at he
    · cases he
      decide
    · cases he

/-- The escrow of 1000 is disputed and the fee is 1%; whoever asks, it is released. -/
theorem always_releasable_sample : ∃ (h : History Host.plain) (s : State Host.plain),
    Run Step State.seeded h s ∧ s.env.status 1 = some .disputed ∧
      ∀ auth, ∃ n s', Request.exec (.releaseToBeneficiary 1) auth s = .ok (.amount n, s') := by
  rcases State.exists_of_plays (State.script.take 5)
    (fun h s => h.all (fun t => !t.label.outside) && decide (s.env.feeRate = .ofNat 100) &&
      decide (s.env.get (.escrow 1) = some { EscrowRecord.plain with status := .disputed }))
    (by decide +kernel) with ⟨h, s, hr, hend⟩
  simp only [Bool.and_eq_true, decide_eq_true_eq, List.all_eq_true, Bool.not_eq_true'] at hend
  obtain ⟨⟨hinside, hfee⟩, he⟩ := hend
  have hquiet : ∀ t ∈ h, Undisturbed t := by
    intro t ht hout
    rw [hinside t ht] at hout
    cases hout
  refine ⟨h, s, hr, Env.status_of_get he, fun auth => ?_⟩
  have hend := (always_releasable State.seeded_covered (by decide +kernel) hr hquiet).2
    (Tokens.balances_paysFrom 0) 1 _ he (by decide) auth
  apply hend.mpr
  rw [hfee]
  exact ⟨.ofNat 100000, by decide⟩

end Runs

end Protocol.Governance
