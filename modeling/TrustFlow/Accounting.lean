import TrustFlow.Files
import TrustFlow.Lib.Sums

/-!
# The accounts of an escrow

`File.Accounts` is the invariant between an escrow record, its two kinds of
release counters, its fee snapshot and the fees charged.  The record enters it
through its depositor, amount, status and the terms of its milestones only: a
release flags a milestone as approved, which the accounts do not see.

The last section is the arithmetic of one release: with the accounts in order
every check behind the milestone's own is redundant.
-/

namespace TrustFlow

variable {A D : Type}

/-! ### Terms -/

/-- What a milestone is agreed to be: all of it but the approval. -/
structure Terms where
  label : String
  amount : I128
  releaseTime : U32
deriving DecidableEq

def Milestone.terms (m : Milestone) : Terms := ⟨m.label, m.amount, m.releaseTime⟩

namespace EscrowRecord

variable (e : EscrowRecord A)

def terms : List Terms := e.milestones.toList.map Milestone.terms

def term? (i : U32) : Option Terms := e.terms[i.val.toNat]?

theorem term?_eq (i : U32) : e.term? i = (e.milestones.get i).map Milestone.terms := by
  simp [term?, terms, Vec.get]

theorem terms_total : (e.terms.map fun m => m.amount.val).sum =
    milestoneTotal e.milestones.toList := by
  simp [terms, milestoneTotal, Function.comp_def, Milestone.terms]

end EscrowRecord

/-- A release approves a milestone and keeps all terms. -/
theorem Tranche.terms_escrowAfter {t : Tranche A} {i : U32}
    (h : t.escrow.milestones.get i = some t.milestone) :
    (t.escrowAfter i).terms = t.escrow.terms := by
  obtain ⟨hlt, hget⟩ := Vec.get_eq_some.mp h
  have hlt' : i.val.toNat < (t.escrow.milestones.toList.map Milestone.terms).length := by
    simpa using hlt
  have hterms : ({ t.milestone with approved := true } : Milestone).terms =
      (t.escrow.milestones.toList.map Milestone.terms)[i.val.toNat] := by
    rw [List.getElem_map, hget]
    rfl
  simp only [EscrowRecord.terms, escrowAfter, Vec.toList_set, List.map_set]
  rw [hterms, List.set_getElem_self]

/-! ### The invariant -/

namespace File

structure Accounts (own : A) (now : U32) (f : File A D) (e : EscrowRecord A) : Prop where
  depositor_ne : e.depositor ≠ own
  amount_pos : 0 < e.amount.val
  milestones_pos : ∀ m ∈ e.terms, 0 < m.amount.val
  total : e.terms ≠ [] → e.amount.val = (e.terms.map fun m => m.amount.val).sum
  released_eq : f.releasedOf.val = ∑ᶠ i, (f.milestoneReleasedOf i).val
  counter_nonneg : ∀ i, 0 ≤ (f.milestoneReleasedOf i).val
  counter_none : ∀ i, e.term? i = none → f.milestoneReleased i = none
  counter_le : ∀ i m, e.term? i = some m → (f.milestoneReleasedOf i).val ≤ m.amount.val
  unlocked : ∀ i m, e.term? i = some m → (f.milestoneReleasedOf i).val ≠ 0 →
    m.releaseTime.val ≤ now.val
  open_lt : e.status ≠ .settled → f.releasedOf.val < e.amount.val
  settled_eq : e.status = .settled → f.dispute = none → f.releasedOf.val = e.amount.val
  feeConfig : ∃ c, f.feeConfig = some c ∧ c.feeBps.val ≤ 1000 ∧
    f.fees = share c.feeBps.val 10000 f.releasedOf.val

namespace Accounts

variable {own : A} {now now' : U32} {f : File A D} {e : EscrowRecord A}

theorem released_nonneg (h : f.Accounts own now e) : 0 ≤ f.releasedOf.val := by
  rw [h.released_eq]
  exact finsum_nonneg h.counter_nonneg

/-- Time passes without harm. -/
theorem mono (h : f.Accounts own now e) (hnow : now.val ≤ now'.val) :
    f.Accounts own now' e :=
  { h with unlocked := fun i m hm hne => (h.unlocked i m hm hne).trans hnow }

/-- With the accounts in order, what a milestone still covers the escrow covers. -/
theorem released_add_le (h : f.Accounts own now e) {i : U32} {gross : I128} {m : Terms}
    (hm : e.term? i = some m) (hle : (f.milestoneReleasedOf i).val + gross.val ≤ m.amount.val) :
    f.releasedOf.val + gross.val ≤ e.amount.val := by
  -- counters with the release booked, and the amounts they stay below
  let counter := Function.update (fun j => (f.milestoneReleasedOf j).val) i
    ((f.milestoneReleasedOf i).val + gross.val)
  let bound := fun j => ((e.milestones.get j).map fun m => m.amount.val).getD 0
  have hcounter : ∑ᶠ j, counter j = f.releasedOf.val + gross.val := by
    have hsum := finsum_change (g := counter) (a := i)
      (Set.toFinite (Function.support fun j => (f.milestoneReleasedOf j).val))
      (fun j hj => Function.update_of_ne hj _ _)
    have hi : counter i = (f.milestoneReleasedOf i).val + gross.val := Function.update_self ..
    have htotal := h.released_eq
    omega
  have hbound : ∑ᶠ j, bound j = e.amount.val := by
    have hne : e.terms ≠ [] := by
      intro hnil
      rw [EscrowRecord.term?, hnil] at hm
      cases hm
    rw [Vec.finsum_get, h.total hne, e.terms_total]
    rfl
  have hle' (j : U32) : counter j ≤ bound j := by
    by_cases hj : j = i
    · subst hj
      have hget := e.term?_eq j
      rw [hm] at hget
      obtain ⟨m', hm', rfl⟩ := Option.map_eq_some_iff.mp hget.symm
      simpa [counter, bound, hm', Milestone.terms] using hle
    · have hc : counter j = (f.milestoneReleasedOf j).val := Function.update_of_ne hj _ _
      rw [hc]
      cases hget : e.milestones.get j with
      | none =>
          have hnone := h.counter_none j (by rw [e.term?_eq, hget]; rfl)
          simp [bound, hget, File.milestoneReleasedOf, hnone]
      | some m' =>
          have hle := h.counter_le j m'.terms (by rw [e.term?_eq, hget]; rfl)
          simpa [bound, hget, Milestone.terms] using hle
  rw [← hcounter, ← hbound]
  exact finsum_le_finsum' (Set.toFinite _) (Set.toFinite _) hle'

/-- As long as the escrow is open some milestone is not paid out. -/
theorem exists_unpaid (h : f.Accounts own now e) (hne : e.terms ≠ [])
    (hopen : e.status ≠ .settled) :
    ∃ i m, e.milestones.get i = some m ∧ (f.milestoneReleasedOf i).val < m.amount.val := by
  by_contra hnone
  let bound := fun j => ((e.milestones.get j).map fun m => m.amount.val).getD 0
  have hbound : ∑ᶠ j, bound j = e.amount.val := by
    rw [Vec.finsum_get, h.total hne, e.terms_total]
    rfl
  have hle (j : U32) : bound j ≤ (f.milestoneReleasedOf j).val := by
    cases hget : e.milestones.get j with
    | none =>
        simp only [bound, hget, Option.map_none, Option.getD_none]
        exact h.counter_nonneg j
    | some m =>
        simp only [bound, hget, Option.map_some, Option.getD_some]
        exact not_lt.mp fun hlt => hnone ⟨j, m, hget, hlt⟩
  have hsum := finsum_le_finsum' (Set.toFinite _) (Set.toFinite _) hle
  have hlt := h.open_lt hopen
  rw [hbound, ← h.released_eq] at hsum
  omega

/-! ### The writing transitions keep the accounts -/

/-- A new escrow under an unused id. -/
theorem opened {c : EscrowFeeConfig A} (hempty : f = File.empty) (hdepositor : e.depositor ≠ own)
    (hamount : 0 < e.amount.val) (hpos : ∀ m ∈ e.milestones.toList, 0 < m.amount.val)
    (htotal : e.milestones.toList ≠ [] → e.amount.val = milestoneTotal e.milestones.toList)
    (hactive : e.status = .active) (hfee : c.feeBps.val ≤ 1000) :
    (f.opened e c).Accounts own now e where
  depositor_ne := hdepositor
  amount_pos := hamount
  milestones_pos := by
    intro m hm
    obtain ⟨m', hm', rfl⟩ := List.mem_map.mp hm
    exact hpos m' hm'
  total := by
    intro hne
    rw [e.terms_total]
    exact htotal fun hnil => hne (by rw [EscrowRecord.terms, hnil]; rfl)
  released_eq := by
    subst hempty
    have hzero : ∑ᶠ _ : U32, (0 : Int) = 0 := finsum_zero
    exact hzero.symm
  counter_nonneg _ := by
    subst hempty
    exact le_rfl
  counter_none _ _ := by
    subst hempty
    rfl
  counter_le i m hm := by
    subst hempty
    have hmem : m ∈ e.terms := List.mem_of_getElem? hm
    obtain ⟨m', hm', rfl⟩ := List.mem_map.mp hmem
    exact (hpos m' hm').le
  unlocked _ _ _ hne := by
    subst hempty
    exact absurd rfl hne
  open_lt _ := by
    subst hempty
    exact hamount
  settled_eq hs := by
    rw [hactive] at hs
    cases hs
  feeConfig := by
    subst hempty
    refine ⟨c, rfl, hfee, ?_⟩
    exact (share_zero _ _).symm

/-- A dispute is raised while something is left to release. -/
theorem raised {d : DisputeRecord A} (h : f.Accounts own now e) (hactive : e.status = .active) :
    (f.raised e d).Accounts own now { e with status := .disputed } :=
  { h with
    open_lt := fun _ => h.open_lt (hactive.trans_ne EscrowStatus.active_ne_settled)
    settled_eq := nofun }

theorem committed {juror : A} {c : D} [DecidableEq A] (h : f.Accounts own now e) :
    (f.committed juror c).Accounts own now e := { h with }

theorem revealed {juror : A} {vote : Bool} {voters : Vec A} [DecidableEq A]
    (h : f.Accounts own now e) : (f.revealed juror vote voters).Accounts own now e := { h with }

theorem resolved {d : DisputeRecord A} {ruling : Bool} (h : f.Accounts own now e) :
    (f.resolved e d ruling).Accounts own now { e with status := .settled } :=
  { h with
    open_lt := fun hs => absurd rfl hs
    settled_eq := nofun }

end Accounts

end File

/-! ### A release -/

section Release

variable [DecidableEq A] {H : Host A D} {b : Book H} {id : U64} {i : U32} {gross : I128}
  {caller : A} {auth : A → Bool} {t : Tranche A}

namespace Tranche.Admissible

theorem term?_eq (ht : t.Admissible b i auth id gross caller) :
    t.escrow.term? i = some t.milestone.terms := by
  rw [EscrowRecord.term?_eq, ht.milestone_eq]
  rfl

/-- The two fees of a release are shares of the total released before and after. -/
theorem fee_shares (ht : t.Admissible b i auth id gross caller)
    (h : (b.file id).Accounts H.self b.sequence t.escrow) :
    t.feeBefore.val = share t.feeConfig.feeBps.val 10000 (b.releasedOf id).val ∧
      t.feeAfter.val = share t.feeConfig.feeBps.val 10000 t.releasedAfter.val := by
  have h0 : 0 ≤ (b.releasedOf id).val := h.released_nonneg
  have hgross := ht.gross_pos
  have hafter := ht.releasedAfter_eq
  exact ⟨(cumulativeFee_eq_ok h0).mp ht.feeBefore_eq,
    (cumulativeFee_eq_ok (by omega)).mp ht.feeAfter_eq⟩

theorem feeBps_le (ht : t.Admissible b i auth id gross caller)
    (h : (b.file id).Accounts H.self b.sequence t.escrow) : t.feeConfig.feeBps.val ≤ 1000 := by
  obtain ⟨c, hc, hle, -⟩ := h.feeConfig
  have heq : t.feeConfig = c := Option.some.inj (ht.feeConfig_eq.symm.trans hc)
  rwa [heq]

/-- The fee of a release is between zero and what is released. -/
theorem fee_bounds (ht : t.Admissible b i auth id gross caller)
    (h : (b.file id).Accounts H.self b.sequence t.escrow) :
    0 ≤ t.fee.val ∧ t.fee.val ≤ gross.val := by
  obtain ⟨hbefore, hafter⟩ := ht.fee_shares h
  have hfee := ht.fee_eq
  have hgross := ht.gross_pos
  have hle : (b.releasedOf id).val ≤ t.releasedAfter.val := by
    have := ht.releasedAfter_eq
    omega
  have hmono := share_mono t.feeConfig.feeBps.lo_le (show (0 : Int) < 10000 by decide) hle
  have hsub := share_sub_le ((ht.feeBps_le h).trans (show (1000 : Int) ≤ 10000 by decide))
    (show (0 : Int) < 10000 by decide) hle
  have hreleased := ht.releasedAfter_eq
  omega

end Tranche.Admissible

/-- With the accounts in order a release that fits its milestone has all its
    values: no addition overflows, the escrow covers it, and the fee is defined
    and between zero and what is released. -/
theorem File.Accounts.exists_admissible {e : EscrowRecord A} {m : Milestone} {tok : A}
    (ha : (b.file id).Accounts H.self b.sequence e) (hauth : auth e.depositor = true)
    (hpaused : b.settings.isPaused = false) (htok : b.settings.token = some tok)
    (he : b.escrow id = some e) (hactive : e.status = .active)
    (hm : e.milestones.get i = some m) (htime : m.releaseTime.val ≤ b.sequence.val)
    (hpos : 0 < gross.val)
    (hle : (b.milestoneReleasedOf id i).val + gross.val ≤ m.amount.val) :
    ∃ t : Tranche A, t.Admissible b i auth id gross e.depositor ∧ t.escrow = e := by
  have hterm : e.term? i = some m.terms := by
    rw [e.term?_eq, hm]
    rfl
  have hfits : (b.releasedOf id).val + gross.val ≤ e.amount.val := ha.released_add_le hterm hle
  have hm0 : 0 ≤ (b.milestoneReleasedOf id i).val := ha.counter_nonneg i
  have hr0 : 0 ≤ (b.releasedOf id).val := ha.released_nonneg
  have hmhi := m.amount.le_hi
  have hehi := e.amount.le_hi
  obtain ⟨mAfter, hmAfter⟩ : ∃ n : I128, n.val = (b.milestoneReleasedOf id i).val + gross.val :=
    ⟨⟨_, by omega, by omega⟩, rfl⟩
  obtain ⟨rAfter, hrAfter⟩ : ∃ n : I128, n.val = (b.releasedOf id).val + gross.val :=
    ⟨⟨_, by omega, by omega⟩, rfl⟩
  rcases ha.feeConfig with ⟨c, hc, hbps, -⟩
  have hbps' : c.feeBps.val ≤ 10000 := by omega
  have hrAfter0 : 0 ≤ rAfter.val := by omega
  rcases exists_cumulativeFee hr0 hbps' with ⟨fBefore, hfBefore⟩
  rcases exists_cumulativeFee hrAfter0 hbps' with ⟨fAfter, hfAfter⟩
  -- the fee is a difference of shares, so it is between zero and the gross amount
  have hshare := (cumulativeFee_eq_ok hr0).mp hfBefore
  have hshare' := (cumulativeFee_eq_ok hrAfter0).mp hfAfter
  have hgrow : (b.releasedOf id).val ≤ rAfter.val := by omega
  have hmono := share_mono c.feeBps.lo_le (show (0 : Int) < 10000 by decide) hgrow
  have hslow := share_sub_le hbps' (show (0 : Int) < 10000 by decide) hgrow
  have hghi := gross.le_hi
  obtain ⟨fee, hfee⟩ : ∃ n : I128, n.val = fAfter.val - fBefore.val :=
    ⟨⟨_, by omega, by omega⟩, rfl⟩
  obtain ⟨payout, hpayout⟩ : ∃ n : I128, n.val = gross.val - fee.val :=
    ⟨⟨_, by omega, by omega⟩, rfl⟩
  have hmle : mAfter.val ≤ m.amount.val := by omega
  have hrle : rAfter.val ≤ e.amount.val := by omega
  exact ⟨⟨e, m, mAfter, rAfter, c, fBefore, fAfter, fee, payout, tok⟩,
    ⟨hauth, hpaused, hpos, he, rfl, hactive, hm, htime, hmAfter, hmle, hrAfter, hrle, hc,
      hfBefore, hfAfter, hfee, hpayout, htok⟩, rfl⟩

/-- A release keeps the accounts. -/
theorem File.Accounts.tranche (h : (b.file id).Accounts H.self b.sequence t.escrow)
    (ht : t.Admissible b i auth id gross caller) :
    ((b.file id).tranche t i).Accounts H.self b.sequence (t.escrowAfter i) := by
  have hterms := Tranche.terms_escrowAfter ht.milestone_eq
  have hterm? (j : U32) : (t.escrowAfter i).term? j = t.escrow.term? j := by
    rw [EscrowRecord.term?, hterms]
    rfl
  have hgross := ht.gross_pos
  have hself : ((b.file id).tranche t i).milestoneReleasedOf i = t.milestoneAfter := by
    simp [File.tranche, File.milestoneReleasedOf]
  have hother (j : U32) (hj : j ≠ i) :
      ((b.file id).tranche t i).milestoneReleasedOf j = (b.file id).milestoneReleasedOf j := by
    simp [File.tranche, File.milestoneReleasedOf, hj]
  have hafter : t.milestoneAfter.val = ((b.file id).milestoneReleasedOf i).val + gross.val :=
    ht.milestoneAfter_eq
  have hreleased : t.releasedAfter.val = (b.file id).releasedOf.val + gross.val :=
    ht.releasedAfter_eq
  obtain ⟨c, hc, hle, hfees⟩ := h.feeConfig
  have hcfg : t.feeConfig = c := Option.some.inj (ht.feeConfig_eq.symm.trans hc)
  refine ⟨h.depositor_ne, h.amount_pos, ?_, ?_, ?_, ?_, ?_, ?_, ?_, ?_, ?_, c, hc, hle, ?_⟩
  · rw [hterms]
    exact h.milestones_pos
  · rw [hterms]
    exact h.total
  · -- the counter of milestone `i` and the total grow by the same amount
    have hsum := finsum_change (g := fun j => (((b.file id).tranche t i).milestoneReleasedOf j).val)
      (Set.toFinite (Function.support fun j => ((b.file id).milestoneReleasedOf j).val))
      (fun j hj => by rw [hother j hj]) (a := i)
    have htotal := h.released_eq
    show t.releasedAfter.val = _
    rw [hsum, hself]
    omega
  · intro j
    by_cases hj : j = i
    · subst hj
      have := h.counter_nonneg j
      rw [hself]
      omega
    · rw [hother j hj]
      exact h.counter_nonneg j
  · intro j hnone
    rw [hterm?] at hnone
    have hj : j ≠ i := by
      rintro rfl
      rw [ht.term?_eq] at hnone
      cases hnone
    simpa [File.tranche, hj] using h.counter_none j hnone
  · intro j m hm
    rw [hterm?] at hm
    by_cases hj : j = i
    · subst hj
      rw [ht.term?_eq] at hm
      cases hm
      rw [hself]
      exact ht.milestone_le
    · rw [hother j hj]
      exact h.counter_le j m hm
  · intro j m hm hne
    rw [hterm?] at hm
    by_cases hj : j = i
    · subst hj
      rw [ht.term?_eq] at hm
      cases hm
      exact ht.unlocked
    · rw [hother j hj] at hne
      exact h.unlocked j m hm hne
  · intro hs
    have hne : t.releasedAfter ≠ t.escrow.amount := by
      intro heq
      exact hs (if_pos heq)
    have hle := ht.released_le
    show t.releasedAfter.val < t.escrow.amount.val
    exact lt_of_le_of_ne hle fun heq => hne (BoundedInt.ext heq)
  · intro hs _
    show t.releasedAfter.val = t.escrow.amount.val
    by_contra hne
    have hstatus : (t.escrowAfter i).status = t.escrow.status :=
      if_neg fun heq => hne (congrArg BoundedInt.val heq)
    rw [hstatus, ht.active] at hs
    cases hs
  · show t.fee.val + (b.file id).fees = share c.feeBps.val 10000 t.releasedAfter.val
    obtain ⟨hfb, hfa⟩ := ht.fee_shares h
    rw [hcfg] at hfb hfa
    have hfee := ht.fee_eq
    have hold : (b.file id).fees = t.feeBefore.val := hfees.trans hfb.symm
    omega

end Release

end TrustFlow
