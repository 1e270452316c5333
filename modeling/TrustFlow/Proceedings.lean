import TrustFlow.Files
import Mathlib.Data.List.Nodup

/-!
# The proceedings of a dispute

`File.Proceedings` is the invariant between the status of an escrow, its
dispute record and the votes.  A dispute exists exactly from the moment the
escrow left `Active` by it; the voters are the jurors with a revealed vote, each
once; and while commitments may still come in nobody has revealed.
-/

namespace TrustFlow

variable {A D : Type}

namespace File

structure Proceedings (now : U32) (f : File A D) (e : EscrowRecord A) : Prop where
  active : e.status = .active → f.dispute = none
  disputed : e.status = .disputed → ∃ d, f.dispute = some d ∧ d.resolved = false
  status_eq : ∀ d, f.dispute = some d →
    e.status = if d.resolved = true then .settled else .disputed
  quiet : f.dispute = none →
    f.voters = none ∧ (∀ juror, f.commit juror = none) ∧ ∀ juror, f.vote juror = none
  voters_nodup : f.votersOf.Nodup
  mem_voters : ∀ juror, juror ∈ f.votersOf ↔ f.vote juror ≠ none
  commit_unrevealed : ∀ juror, f.commit juror ≠ none → f.vote juror = none
  vote_after : ∀ d juror, f.dispute = some d → f.vote juror ≠ none →
    d.commitDeadline.val ≤ now.val

namespace Proceedings

variable {now now' : U32} {f : File A D} {e : EscrowRecord A} {d : DisputeRecord A} {juror : A}

theorem mono (h : f.Proceedings now e) (hnow : now.val ≤ now'.val) : f.Proceedings now' e :=
  { h with vote_after := fun d juror hd hv => (h.vote_after d juror hd hv).trans hnow }

/-- An unresolved dispute is the dispute of a disputed escrow. -/
theorem status_of_unresolved (h : f.Proceedings now e) (hd : f.dispute = some d)
    (hopen : d.resolved = false) : e.status = .disputed := by
  rw [h.status_eq d hd, hopen]
  rfl

theorem opened {c : EscrowFeeConfig A} (hempty : f = File.empty) (hactive : e.status = .active) :
    (f.opened e c).Proceedings now e := by
  subst hempty
  refine ⟨fun _ => rfl, ?_, nofun, ?_, List.nodup_nil, ?_, ?_, nofun⟩
  · intro hs
    rw [hactive] at hs
    cases hs
  · exact fun _ => ⟨rfl, fun _ => rfl, fun _ => rfl⟩
  · intro juror
    exact ⟨nofun, fun hv => absurd rfl hv⟩
  · exact fun _ _ => rfl

/-- A release changes the status of an escrow without a dispute. -/
theorem tranche {t : Tranche A} {i : U32} (h : f.Proceedings now t.escrow)
    (hactive : t.escrow.status = .active) :
    (f.tranche t i).Proceedings now (t.escrowAfter i) := by
  have hnone : f.dispute = none := h.active hactive
  refine { h with active := fun _ => hnone, disputed := ?_, status_eq := ?_ }
  · intro hs
    by_cases heq : t.releasedAfter = t.escrow.amount
    · have hsettled : (t.escrowAfter i).status = .settled := if_pos heq
      rw [hsettled] at hs
      cases hs
    · have hsame : (t.escrowAfter i).status = t.escrow.status := if_neg heq
      rw [hsame, hactive] at hs
      cases hs
  · intro d hd
    cases hnone.symm.trans hd

theorem raised (h : f.Proceedings now e) (hactive : e.status = .active)
    (hopen : d.resolved = false) :
    (f.raised e d).Proceedings now { e with status := .disputed } := by
  obtain ⟨-, -, hvote⟩ := h.quiet (h.active hactive)
  refine { h with active := nofun, disputed := fun _ => ⟨d, rfl, hopen⟩, status_eq := ?_,
                  quiet := nofun, vote_after := ?_ }
  · intro d' hd'
    cases hd'
    show EscrowStatus.disputed = _
    rw [hopen]
    rfl
  · exact fun d' juror _ hv => absurd (hvote juror) hv

theorem resolved {ruling : Bool} (h : f.Proceedings now e) (hd : f.dispute = some d) :
    (f.resolved e d ruling).Proceedings now { e with status := .settled } := by
  refine { h with active := nofun, disputed := nofun, status_eq := ?_, quiet := nofun,
                  vote_after := ?_ }
  · intro d' hd'
    cases hd'
    rfl
  · intro d' juror hd' hv
    cases hd'
    exact h.vote_after d juror hd hv

variable [DecidableEq A]

theorem committed {c : D} (h : f.Proceedings now e) (hd : f.dispute = some d)
    (hwindow : now.val < d.commitDeadline.val) :
    (f.committed juror c).Proceedings now e := by
  refine { h with quiet := ?_, commit_unrevealed := ?_ }
  · intro hnone
    cases hd.symm.trans hnone
  · intro juror' hc
    by_cases hj : juror' = juror
    · -- a revealed vote would mean the commit window had closed
      by_contra hv
      have := h.vote_after d juror' hd hv
      omega
    · exact h.commit_unrevealed juror' (by simpa [File.committed, hj] using hc)

theorem revealed {vote : Bool} {voters : Vec A} (h : f.Proceedings now e)
    (hd : f.dispute = some d) (hfrom : d.commitDeadline.val ≤ now.val)
    (hfresh : f.vote juror = none) (hvoters : voters.toList = f.votersOf ++ [juror]) :
    (f.revealed juror vote voters).Proceedings now e := by
  have hlist : (f.revealed juror vote voters).votersOf = f.votersOf ++ [juror] := hvoters
  have hnew : juror ∉ f.votersOf := by
    rw [h.mem_voters]
    exact fun hv => hv hfresh
  refine { h with quiet := ?_, voters_nodup := ?_, mem_voters := ?_, commit_unrevealed := ?_,
                  vote_after := ?_ }
  · intro hnone
    cases hd.symm.trans hnone
  · rw [hlist]
    exact List.Nodup.append h.voters_nodup (List.nodup_singleton juror) (by simpa using hnew)
  · intro juror'
    rw [hlist, List.mem_append, List.mem_singleton, h.mem_voters]
    by_cases hj : juror' = juror
    · simp [File.revealed, hj]
    · simp [File.revealed, hj]
  · intro juror' hc
    by_cases hj : juror' = juror
    · simp [File.revealed, hj] at hc
    · have hv := h.commit_unrevealed juror' (by simpa [File.revealed, hj] using hc)
      simpa [File.revealed, hj] using hv
  · intro d' juror' hd' _
    cases hd.symm.trans hd'
    exact hfrom

end Proceedings

end File

end TrustFlow
