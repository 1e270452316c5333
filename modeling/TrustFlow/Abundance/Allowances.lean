import TrustFlow.Abundance.Calls

/-!
# Allowances

An allowance is written by `approve` and, with its old expiration, by every
spend, through the same function.  `Env.Remains` is what is left of an approval:
a live entry of the rest up to its expiration, and nothing that reads as
positive once the rest is zero or the expiration has passed.
-/

namespace Abundance

open Invocation Transition

variable {A : Type} {H : Host}

/-! ### Entries -/

section Entries

variable {env env' : Env A H} {k : AllowanceDataKey A} {v : AllowanceValue}

/-- What temporary storage holds of an allowance, whether it is live or not. -/
def Env.stored (env : Env A H) (k : AllowanceDataKey A) : Option AllowanceValue :=
  env.temporary.stored.get (.allowance k)

/-- The last ledger the entry of an allowance is kept for. -/
def Env.liveUntil (env : Env A H) (k : AllowanceDataKey A) : Option Nat :=
  env.temporary.stored.liveUntil (.allowance k)

/-- A read depends on the entry of its own pair. -/
theorem Env.allowanceOf_of_entry (hget : env'.stored k = env.stored k)
    (hlive : env'.liveUntil k = env.liveUntil k) (hs : env'.sequence = env.sequence) :
    env'.allowanceOf k = env.allowanceOf k := by
  have htemp : env'.temp (.allowance k) = env.temp (.allowance k) := by
    rw [Env.temp, Env.now, hs]
    exact Temporary.get_congr hget hlive
  rw [Env.allowanceOf, htemp, hs, Env.allowanceOf]

/-- A live entry is what the contract reads. -/
theorem Env.allowanceOf_live {m : Nat} (hget : env.stored k = some v)
    (hlive : env.liveUntil k = some m) (hm : env.sequence.val ≤ m)
    (hexp : env.sequence.val ≤ v.expirationLedger.val) : env.allowanceOf k = v := by
  have hle : env.now ≤ m := by
    unfold now
    omega
  have htemp : env.temp (.allowance k) = some v := Temporary.get_of_le hget hlive hle
  rw [Env.allowanceOf, htemp]
  exact if_neg (not_lt.mpr hexp)

/-- A dead entry reads as zero. -/
theorem Env.allowanceOf_dead (hdead : ∀ v, env.stored k = some v →
    v.amount.val = 0 ∨ v.expirationLedger.val < env.sequence.val) :
    (env.allowanceOf k).amount.val = 0 := by
  cases htemp : env.temp (.allowance k) with
  | none => simp [Env.allowanceOf, htemp]
  | some v =>
      have hget : env.stored k = some v := Temporary.stored_get_of_get htemp
      by_cases hexpired : v.expirationLedger.val < env.sequence.val
      · simp [Env.allowanceOf, htemp, hexpired]
      · simp only [Env.allowanceOf, htemp, if_neg hexpired]
        exact (hdead v hget).resolve_right hexpired

end Entries

/-! ### What is left of an approval -/

section Remains

variable {env env' : Env A H} {k : AllowanceDataKey A} {expiration : U32} {rest : Int}

/-- `rest` is left of an approval that expires at `expiration`: the entry is there
    and kept until then, or reads as zero from now on. -/
inductive Env.Remains (env : Env A H) (k : AllowanceDataKey A) (expiration : U32) (rest : Int) :
    Prop
  | live {v : AllowanceValue} {m : Nat} (hpos : 0 < rest) (hget : env.stored k = some v)
      (hamount : v.amount.val = rest) (hexp : v.expirationLedger = expiration)
      (hlive : env.liveUntil k = some m) (hm : expiration.val ≤ m)
      (hnow : env.sequence.val ≤ expiration.val) : Remains env k expiration rest
  | gone (h0 : 0 ≤ rest) (hover : rest = 0 ∨ expiration.val < env.sequence.val)
      (hdead : ∀ v, env.stored k = some v →
        v.amount.val = 0 ∨ v.expirationLedger.val < env.sequence.val) :
      Remains env k expiration rest

theorem Env.Remains.nonneg (h : env.Remains k expiration rest) : 0 ≤ rest := by
  cases h with
  | live hpos => exact hpos.le
  | gone h0 => exact h0

/-- Up to its expiration an approval reads as what is left of it. -/
theorem Env.Remains.amount (h : env.Remains k expiration rest) :
    (env.allowanceOf k).amount.val =
      if env.sequence.val ≤ expiration.val then rest else 0 := by
  cases h with
  | live _ hget hamount hexp hlive hm hnow =>
      subst hexp
      rw [if_pos hnow, Env.allowanceOf_live hget hlive (hnow.trans hm) hnow, hamount]
  | gone _ hover hdead =>
      rw [Env.allowanceOf_dead hdead]
      split
      · rcases hover with rfl | hover
        · rfl
        · omega
      · rfl

/-- Keeping the entry while time passes keeps what is left. -/
theorem Env.Remains.kept (h : env.Remains k expiration rest) (hget : env'.stored k = env.stored k)
    (hlive : ∀ m, env.liveUntil k = some m → ∃ m', env'.liveUntil k = some m' ∧ m ≤ m')
    (hseq : env.sequence.val ≤ env'.sequence.val) : env'.Remains k expiration rest := by
  cases h with
  | @live v m hpos hstored hamount hexp hkept hm hnow =>
      by_cases hnow' : env'.sequence.val ≤ expiration.val
      · rcases hlive m hkept with ⟨m', hkept', hle⟩
        exact .live hpos (hget.trans hstored) hamount hexp hkept' (by omega) hnow'
      · have hpassed : expiration.val < env'.sequence.val := not_le.mp hnow'
        refine .gone hpos.le (.inr hpassed) fun v' hv' => .inr ?_
        cases hv'.symm.trans (hget.trans hstored)
        rw [hexp]
        exact hpassed
  | gone h0 hover hdead =>
      refine .gone h0 (hover.imp_right fun h => h.trans_le hseq) fun v hv => ?_
      exact (hdead v (hget.symm.trans hv)).imp_right fun h => h.trans_le hseq

end Remains

/-! ### Labels -/

/-- An approval of the pair that returned. -/
inductive Label.Approves : Label A H → AllowanceDataKey A → AllowanceValue → Prop
  | intro {auth : A → Bool} {src spender : A} {n : I128} {expiration : U32} :
      Approves (.call auth (.approve src spender n expiration) ()) ⟨src, spender⟩ ⟨n, expiration⟩

/-- The approval a label is, with its pair and its value. -/
def Label.approval? : Label A H → Option (AllowanceDataKey A × AllowanceValue)
  | .call _ (.approve src spender n expiration) _ => some (⟨src, spender⟩, ⟨n, expiration⟩)
  | _ => none

theorem Label.approves_iff {l : Label A H} {k : AllowanceDataKey A} {v : AllowanceValue} :
    l.Approves k v ↔ l.approval? = some (k, v) := by
  constructor
  · rintro ⟨⟩
    rfl
  · intro h
    unfold approval? at h
    split at h
    · cases h
      exact .intro
    · cases h

/-- A spend of the pair that returned. -/
inductive Label.Spends : Label A H → AllowanceDataKey A → I128 → Prop
  | transferFrom {auth : A → Bool} {spender src dest : A} {n : I128} :
      Spends (.call auth (.transferFrom spender src dest n) ()) ⟨src, spender⟩ n
  | burnFrom {auth : A → Bool} {spender src : A} {n : I128} :
      Spends (.call auth (.burnFrom spender src n) ()) ⟨src, spender⟩ n

variable [DecidableEq A]

/-! ### Writes -/

section Writes

variable {env env' : Env A H} {k k' : AllowanceDataKey A} {v : AllowanceValue} {expiration : U32}
  {rest : Int}

theorem Env.Writes.stored_self (h : env.Writes k v env') : env'.stored k = some v := by
  rw [Env.stored, h.temporary, putAllowance]
  split
  · simp [bumpTemporary, setTemporary]
  · simp [setTemporary]

theorem Env.Writes.stored_of_ne (h : env.Writes k v env') (hne : k' ≠ k) :
    env'.stored k' = env.stored k' := by
  have hkey : DataKey.allowance k' ≠ .allowance k := fun hk => hne (DataKey.allowance.inj hk)
  rw [Env.stored, h.temporary, putAllowance]
  split
  · simp [bumpTemporary, setTemporary, Env.stored, hkey]
  · simp [setTemporary, Env.stored, hkey]

theorem Env.Writes.liveUntil_of_ne (h : env.Writes k v env') (hne : k' ≠ k) :
    env'.liveUntil k' = env.liveUntil k' := by
  have hkey : DataKey.allowance k' ≠ .allowance k := fun hk => hne (DataKey.allowance.inj hk)
  rw [Env.liveUntil, h.temporary, putAllowance]
  split
  · simp [bumpTemporary, setTemporary, Env.liveUntil, hkey]
  · simp [setTemporary, Env.liveUntil, hkey]

/-- A positive allowance is kept until its expiration. -/
theorem Env.Writes.liveUntil_self (h : env.Writes k v env') (hpos : 0 < v.amount.val)
    (hexp : env.sequence.val ≤ v.expirationLedger.val) :
    ∃ m : Nat, env'.liveUntil k = some m ∧ v.expirationLedger.val ≤ m := by
  have hput : env'.temporary = (env.temporary.set env.now (env.now + H.temporaryTtl)
      (.allowance k) v).bump env.now (v.expirationLedger.val - env.sequence.val).toNat
      (v.expirationLedger.val - env.sequence.val).toNat (.allowance k) := by
    rw [h.temporary, putAllowance, if_pos hpos]
    rfl
  have hkept : ∃ m, env'.liveUntil k = some m ∧
      env.now + (v.expirationLedger.val - env.sequence.val).toNat ≤ m := by
    rw [Env.liveUntil, hput]
    exact Temporary.stored_liveUntil_bump_set (Nat.le_add_right _ _)
  rcases hkept with ⟨m, hm, hle⟩
  have hnow : (env.now : Int) = env.sequence.val := Int.toNat_of_nonneg env.sequence.lo_le
  exact ⟨m, hm, by omega⟩

theorem Env.Remains.of_approved (h0 : 0 ≤ v.amount.val)
    (hexp : 0 < v.amount.val → env.sequence.val ≤ v.expirationLedger.val)
    (h : env.Writes k v env') : env'.Remains k v.expirationLedger v.amount.val := by
  rcases h0.lt_or_eq with hpos | hzero
  · rcases h.liveUntil_self hpos (hexp hpos) with ⟨m, hlive, hm⟩
    have hnow : env'.sequence.val ≤ v.expirationLedger.val := by
      rw [h.sequence]
      exact hexp hpos
    exact .live hpos h.stored_self rfl rfl hlive hm hnow
  · refine .gone h0 (.inl hzero.symm) fun v' hv' => .inl ?_
    cases hv'.symm.trans h.stored_self
    exact hzero.symm

/-- A spend takes its amount from what is left. -/
theorem Env.Remains.spent (h : env.Remains k expiration rest) {n : I128} (h0 : 0 ≤ n.val)
    (hs : env.SpendsAllowance k n env') : env'.Remains k expiration (rest - n.val) := by
  have hamount := h.amount
  cases hs with
  | @intro left hle hleft hwrites =>
    cases h with
    | live hpos hget hrest hexp hlive hm hnow =>
        have hread := Env.allowanceOf_live hget hlive (hnow.trans hm) (hexp ▸ hnow)
        rw [hread] at hle hleft
        rw [hread, hexp] at hwrites
        have h0 : 0 ≤ left.val := by omega
        have hleft : left.val = rest - n.val := by rw [hleft, hrest]
        rw [← hleft]
        exact .of_approved h0 (fun _ => hnow) hwrites
    | gone hrest hover hdead =>
        -- nothing reads as positive, so the spend was of nothing
        rw [Env.allowanceOf_dead hdead] at hle hleft
        have hn : n.val = 0 := by omega
        rw [hn, sub_zero]
        refine .gone hrest ?_ fun v hv => .inl ?_
        · rw [hwrites.sequence]
          exact hover
        · cases hv.symm.trans hwrites.stored_self
          show left.val = 0
          omega

end Writes

/-! ### What is spent -/

/-- What a call moves out of an address through its allowance to a spender. -/
def Call.spent (k : AllowanceDataKey A) : Call A → Int
  | .transferFrom spender src _ n => if k = ⟨src, spender⟩ then n.val else 0
  | .burnFrom spender src n => if k = ⟨src, spender⟩ then n.val else 0
  | _ => 0

def Label.spent (k : AllowanceDataKey A) : Label A H → Int
  | .call _ c _ => c.spent k
  | _ => 0

def spent (k : AllowanceDataKey A) (h : History A H) : Int := (h.map fun t => t.label.spent k).sum

theorem spent_cons (k : AllowanceDataKey A) (t : Move (Env A H) (Label A H)) (h : History A H) :
    spent k (t :: h) = t.label.spent k + spent k h := List.sum_cons

/-! ### What a step does to one allowance -/

section Steps

variable {env env' : Env A H} {l : Label A H} {k k' : AllowanceDataKey A}

/-- What a step can do to the allowance of a pair. -/
inductive Change (env : Env A H) (l : Label A H) (k : AllowanceDataKey A) (env' : Env A H) : Prop
  | kept (hspent : l.spent k = 0) (hget : env'.stored k = env.stored k)
      (hlive : ∀ m, env.liveUntil k = some m → ∃ m', env'.liveUntil k = some m' ∧ m ≤ m')
      (hseq : env.sequence.val ≤ env'.sequence.val) : Change env l k env'
  | approved {v : AllowanceValue} (hl : l.Approves k v) (h0 : 0 ≤ v.amount.val)
      (hexp : 0 < v.amount.val → env.sequence.val ≤ v.expirationLedger.val)
      (h : env.Writes k v env') : Change env l k env'
  | spent {n : I128} {e : Env A H} (hl : l.Spends k n) (h0 : 0 ≤ n.val)
      (h : env.SpendsAllowance k n e) (ht : env'.temporary = e.temporary)
      (hs : env'.sequence = e.sequence) : Change env l k env'

/-- A call that leaves temporary storage alone. -/
theorem Change.of_temporary (hspent : l.spent k = 0) (ht : env'.temporary = env.temporary)
    (hs : env'.sequence = env.sequence) : Change env l k env' := by
  have hget : env'.stored k = env.stored k := by rw [Env.stored, ht, Env.stored]
  have hlive : env'.liveUntil k = env.liveUntil k := by rw [Env.liveUntil, ht, Env.liveUntil]
  refine .kept hspent hget (fun m hm => ⟨m, hlive.trans hm, le_rfl⟩) ?_
  rw [hs]

/-- A write under another pair. -/
theorem Change.of_writes {v : AllowanceValue} {e : Env A H} (hspent : l.spent k = 0)
    (h : env.Writes k' v e) (hne : k ≠ k') (ht : env'.temporary = e.temporary)
    (hs : env'.sequence = e.sequence) : Change env l k env' := by
  have hget : env'.stored k = env.stored k := by
    rw [Env.stored, ht]
    exact h.stored_of_ne hne
  have hlive : env'.liveUntil k = env.liveUntil k := by
    rw [Env.liveUntil, ht]
    exact h.liveUntil_of_ne hne
  refine .kept hspent hget (fun m hm => ⟨m, hlive.trans hm, le_rfl⟩) ?_
  rw [hs, h.sequence]

theorem Step.change (hs : Step env l env') (k : AllowanceDataKey A) : Change env l k env' := by
  cases hs with
  | @call _ auth c r h =>
      cases Call.effect h with
      | idle hidle h =>
          refine .of_temporary ?_ h.temporary h.sequence
          cases hidle <;> rfl
      | mint _ hto => exact .of_temporary rfl hto.temporary hto.sequence
      | @approve src spender n expiration _ h0 hexp h =>
          by_cases hk : k = ⟨src, spender⟩
          · subst hk
            exact .approved .intro h0 hexp h
          · exact .of_writes rfl h hk rfl rfl
      | transfer _ _ hfrom hto =>
          exact .of_temporary rfl (hto.temporary.trans hfrom.temporary)
            (hto.sequence.trans hfrom.sequence)
      | @transferFrom spender src dest n e₁ _ _ h0 hspend _ hfrom hto =>
          have ht := hto.temporary.trans hfrom.temporary
          have hs := hto.sequence.trans hfrom.sequence
          by_cases hk : k = ⟨src, spender⟩
          · subst hk
            exact .spent .transferFrom h0 hspend ht hs
          · obtain ⟨v, hwrites⟩ := hspend.writes
            exact .of_writes (if_neg hk) hwrites hk ht hs
      | burn _ _ hfrom => exact .of_temporary rfl hfrom.temporary hfrom.sequence
      | @burnFrom spender src n e₁ _ h0 hspend _ hfrom =>
          by_cases hk : k = ⟨src, spender⟩
          · subst hk
            exact .spent .burnFrom h0 hspend hfrom.temporary hfrom.sequence
          · obtain ⟨v, hwrites⟩ := hspend.writes
            exact .of_writes (if_neg hk) hwrites hk hfrom.temporary hfrom.sequence
  | failed => exact .of_temporary rfl rfl rfl
  | close h => exact .kept rfl rfl (fun m hm => ⟨m, hm, le_rfl⟩) h
  | prolong =>
      refine .kept rfl Temporary.stored_get_bump (fun m hm => ?_) le_rfl
      exact Temporary.stored_liveUntil_bump_le le_rfl hm

end Steps

/-! ### Between two approvals -/

section Runs

variable {env env' env₀ : Env A H} {l : Label A H} {h : History A H} {k k' : AllowanceDataKey A}
  {v : AllowanceValue} {n : I128} {expiration : U32} {rest : Int}

theorem Label.Spends.spent (hl : l.Spends k n) : l.spent k = n.val := by
  cases hl with
  | transferFrom => exact if_pos rfl
  | burnFrom => exact if_pos rfl

/-- An approval leaves its amount. -/
theorem Step.approves (hs : Step env l env') (hl : l.Approves k v) :
    env'.Remains k v.expirationLedger v.amount.val := by
  cases hl with
  | intro =>
    cases hs with
    | call h =>
      obtain ⟨_, h0, hexp, hwrites⟩ := approve_ok h
      exact .of_approved h0 hexp hwrites

/-- Every other step leaves what it does not spend. -/
theorem Env.Remains.step (hr : env.Remains k expiration rest) (hs : Step env l env')
    (hno : ∀ v, ¬ l.Approves k v) : env'.Remains k expiration (rest - l.spent k) := by
  cases hs.change k with
  | kept hspent hget hlive hseq =>
      rw [hspent, sub_zero]
      exact hr.kept hget hlive hseq
  | approved hl => exact absurd hl (hno _)
  | @spent n e hl h0 hspend ht hseq =>
      rw [hl.spent]
      have hget : env'.stored k = e.stored k := by rw [Env.stored, ht, Env.stored]
      have hlive : env'.liveUntil k = e.liveUntil k := by rw [Env.liveUntil, ht, Env.liveUntil]
      have hle : e.sequence.val ≤ env'.sequence.val := by rw [hseq]
      exact (hr.spent h0 hspend).kept hget (fun m hm => ⟨m, hlive.trans hm, le_rfl⟩) hle

theorem Run.remains (h0 : env₀.Remains k expiration rest) (hr : Run Step env₀ h env)
    (hno : ∀ t ∈ h, ∀ v, ¬ t.label.Approves k v) :
    env.Remains k expiration (rest - Abundance.spent k h) := by
  refine Run.history_invariant (P := fun h env => (∀ t ∈ h, ∀ v, ¬ t.label.Approves k v) →
    env.Remains k expiration (rest - Abundance.spent k h)) ?_ ?_ hr hno
  · intro _
    simpa [Abundance.spent] using h0
  · intro h env l env' _ ih hs hno
    have hstep := (ih fun t ht => hno t (List.mem_cons_of_mem _ ht)).step hs
      (hno _ List.mem_cons_self)
    rwa [spent_cons, add_comm, ← sub_sub]

/-- A positive spend is covered by what is left, so it comes before the expiration. -/
theorem Env.Remains.le_expiration (hr : env.Remains k expiration rest) (hs : Step env l env')
    (hpos : 0 < l.spent k) (hno : ∀ v, ¬ l.Approves k v) :
    env.sequence.val ≤ expiration.val := by
  cases hs.change k with
  | kept hspent => omega
  | approved hl => exact absurd hl (hno _)
  | spent hl _ hspend =>
      rw [hl.spent] at hpos
      have hle := hspend.le
      have hamount := hr.amount
      by_contra hpassed
      rw [if_neg hpassed] at hamount
      omega

/-- The one way a spend of nothing negative can fail. -/
theorem spendAllowance_fault {auth : A → Bool} {src spender : A} {fault : Fault} (h0 : 0 ≤ n.val)
    (hf : (spendAllowance src spender n : Op A H Unit) auth env = .error fault) :
    fault = .panicked "insufficient allowance" := by
  by_cases hle : n.val ≤ (env.allowanceOf ⟨src, spender⟩).amount.val
  · rcases exists_spendAllowance h0 hle with ⟨env', hok⟩
    cases hok.symm.trans hf
  · have herror : (spendAllowance src spender n : Op A H Unit) auth env =
        .error (.panicked "insufficient allowance") := by
      simp only [spendAllowance, bind_eq_error, readAllowance_eq_ok, failIf_eq_error]
      exact .inr ⟨_, _, ⟨rfl, rfl⟩, .inl ⟨not_le.mp hle, trivial⟩⟩
    cases hf.symm.trans herror
    rfl

/-- Whatever else a spend does, it does after the allowance was written. -/
theorem Step.spends (hs : Step env l env') (hl : l.Spends k n) :
    ∃ e, env.SpendsAllowance k n e ∧ env'.temporary = e.temporary ∧
      env'.sequence = e.sequence := by
  cases hl with
  | transferFrom =>
      cases hs with
      | call h =>
        obtain ⟨_, _, e, hspend, _, _, hfrom, hto⟩ := transferFrom_ok h
        exact ⟨e, hspend, hto.temporary.trans hfrom.temporary, hto.sequence.trans hfrom.sequence⟩
  | burnFrom =>
      cases hs with
      | call h =>
        obtain ⟨_, _, e, hspend, _, hfrom⟩ := burnFrom_ok h
        exact ⟨e, hspend, hfrom.temporary, hfrom.sequence⟩

/-- A spend leaves the allowances of the other pairs alone. -/
theorem Step.spends_frame (hs : Step env l env') (hl : l.Spends k n) (hne : k' ≠ k) :
    env'.allowanceOf k' = env.allowanceOf k' := by
  obtain ⟨e, hspend, ht, hseq⟩ := hs.spends hl
  obtain ⟨v, hwrites⟩ := hspend.writes
  rw [Env.allowanceOf_congr ht hseq]
  exact Env.allowanceOf_of_entry (hwrites.stored_of_ne hne) (hwrites.liveUntil_of_ne hne)
    hwrites.sequence

/-- From an approval of a pair to its next one the spends of the pair total at most
    the approved amount and none of a positive amount comes after the expiration;
    up to the expiration exactly what is left can be spent; and no spend changes
    the allowance of another pair. -/
theorem allowance_exact {later earlier : History A H} {t : Move (Env A H) (Label A H)}
    (hr : Run Step env₀ (later ++ t :: earlier) env) (ht : t.label.Approves k v)
    (hno : ∀ t' ∈ later, ∀ v', ¬ t'.label.Approves k v') :
    spent k later ≤ v.amount.val ∧
      (∀ t' ∈ later, 0 < t'.label.spent k → t'.pre.sequence.val ≤ v.expirationLedger.val) ∧
      (env.sequence.val ≤ v.expirationLedger.val → ∀ auth (a : I128), 0 ≤ a.val →
        ((∃ env', (spendAllowance k.src k.spender a : Op A H Unit) auth env = .ok ((), env')) ↔
          a.val ≤ v.amount.val - spent k later)) ∧
      (∀ auth (a : I128) fault, 0 ≤ a.val →
        (spendAllowance k.src k.spender a : Op A H Unit) auth env = .error fault →
        fault = .panicked "insufficient allowance") ∧
      (∀ t' ∈ later ++ t :: earlier, ∀ k₁ n, t'.label.Spends k₁ n → ∀ k₂, k₂ ≠ k₁ →
        t'.post.allowanceOf k₂ = t'.pre.allowanceOf k₂) := by
  rcases hr.split with ⟨m, hm, hlater⟩
  rcases hm.last with ⟨_, hstep, rfl⟩
  have happroved := hstep.approves ht
  have hleft := Run.remains happroved hlater hno
  refine ⟨sub_nonneg.mp hleft.nonneg, ?_, ?_, fun auth a fault => spendAllowance_fault, ?_⟩
  · intro t' ht' hpos
    rcases hlater.split_mem ht' with ⟨after, before, rfl, hbefore, hs, _⟩
    have hbetween := Run.remains happroved hbefore fun t₁ ht₁ =>
      hno t₁ (List.mem_append_right _ (List.mem_cons_of_mem _ ht₁))
    exact hbetween.le_expiration hs hpos (hno t' ht')
  · intro hnow auth a h0
    have hamount := hleft.amount
    rw [if_pos hnow] at hamount
    rw [← hamount]
    constructor
    · rintro ⟨env', hok⟩
      exact (spendAllowance_ok hok).le
    · exact exists_spendAllowance h0
  · intro t' ht' k₁ n hl k₂ hne
    exact (hr.step_of_mem ht').spends_frame hl hne

/-- Five ledgers after the approval of the script 25 of the 30 are spent: 5 can be
    spent there, 6 cannot. -/
theorem allowance_exact_sample : ∃ (h : History Nat Host.plain) (env : Env Nat Host.plain),
    Run Step Env.deployed h env ∧ env.sequence.val = 5 ∧
      (∃ env', (spendAllowance 1 3 (.ofNat 5) : Op Nat Host.plain Unit) (fun _ => false) env =
        .ok ((), env')) ∧
      ¬ ∃ env', (spendAllowance 1 3 (.ofNat 6) : Op Nat Host.plain Unit) (fun _ => false) env =
        .ok ((), env') := by
  let k : AllowanceDataKey Nat := ⟨1, 3⟩
  let v : AllowanceValue := ⟨.ofNat 30, .ofNat 9⟩
  rcases Env.exists_of_plays spendingScript
    (fun h env => (h.drop 8).head?.any (fun t => t.label.approval? == some (k, v)) &&
      ((h.take 8).all (fun t => t.label.approval?.isNone) &&
      (decide (spent k (h.take 8) = 25) && decide (env.sequence.val = 5))))
    (by decide +kernel) with ⟨h, env, hr, hend⟩
  simp only [Bool.and_eq_true, Option.any_eq_true, List.all_eq_true, decide_eq_true_eq,
    beq_iff_eq, Option.isNone_iff_eq_none] at hend
  rcases hend with ⟨⟨t, hhead, happroval⟩, hno, hspent, hseq⟩
  have ht : t.label.Approves k v := Label.approves_iff.mpr happroval
  have hsplit : h.take 8 ++ t :: (h.drop 8).tail = h := by
    rw [List.cons_head?_tail hhead, List.take_append_drop]
  have hno : ∀ t' ∈ h.take 8, ∀ v', ¬ t'.label.Approves k v' := by
    intro t' ht' v' hl
    cases (hno t' ht').symm.trans (Label.approves_iff.mp hl)
  have hnow : env.sequence.val ≤ v.expirationLedger.val := by
    rw [hseq]
    decide
  have hexact := (allowance_exact (hsplit.symm ▸ hr) ht hno).2.2.1 hnow (fun _ => false)
  refine ⟨h, env, hr, hseq, (hexact (.ofNat 5) (by decide)).mpr ?_, fun hok => ?_⟩
  · rw [hspent]
    decide
  · have hle := (hexact (.ofNat 6) (by decide)).mp hok
    rw [hspent] at hle
    exact absurd hle (by decide)

end Runs

end Abundance
