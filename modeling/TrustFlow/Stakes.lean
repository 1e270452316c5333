import TrustFlow.Files
import TrustFlow.Lib.Sums

/-!
# The stakes

Stakes change by `stake`, by `unstake` and by the slashes of a resolution;
`Step.on_stakes` says so.  The lemmas on `Slashes` follow the loop over the
minority: what it does to one juror, to the sum of all stakes, and when it goes
through.
-/

namespace TrustFlow

variable {A D : Type} [DecidableEq A] {H : Host A D}

namespace Book

/-- What one step can do to the stakes. -/
inductive OnStakes (b : Book H) : Label H → Book H → Prop
  | untouched {l : Label H} {b' : Book H} (hstake : b'.stake = b.stake)
      (hcount : b'.slashCount = b.slashCount) (hslashed : b'.slashed = b.slashed) :
      OnStakes b l b'
  | staked {auth : A → Bool} {juror : A} {amount total : I128} {b' : Book H}
      (hself : auth H.self = false) (hauth : auth juror = true) (hpos : 0 < amount.val)
      (htotal : total.val = (b.stake juror).val + amount.val)
      (hstake : b'.stake = Function.update b.stake juror total)
      (hcount : b'.slashCount = b.slashCount) (hslashed : b'.slashed = b.slashed) :
      OnStakes b (.call auth (.stake juror amount) ()) b'
  | unstaked {auth : A → Bool} {juror : A} {amount total : I128} {b' : Book H}
      (hauth : auth juror = true) (hle : amount.val ≤ (b.stake juror).val)
      (htotal : total.val = (b.stake juror).val - amount.val)
      (hstake : b'.stake = Function.update b.stake juror total)
      (hcount : b'.slashCount = b.slashCount) (hslashed : b'.slashed = b.slashed) :
      OnStakes b (.call auth (.unstake juror amount) ()) b'
  | slashed {auth : A → Bool} {id : U64} {ruling : Bool} {b₁ b' : Book H}
      (h : b.Slashes (b.settings.slashBps.getD DEFAULT_SLASH_BPS) (b.minority id) b₁)
      (hstake : b'.stake = b₁.stake) (hcount : b'.slashCount = b₁.slashCount)
      (hslashed : b'.slashed = b₁.slashed) :
      OnStakes b (.call auth (.resolveDispute id) ruling) b'

theorem Step.on_stakes {b b' : Book H} {l : Label H} (h : b.Step l b') : b.OnStakes l b' := by
  cases h with
  | idle => exact .untouched rfl rfl rfl
  | configure => exact .untouched rfl rfl rfl
  | initialise => exact .untouched rfl rfl rfl
  | close => exact .untouched rfl rfl rfl
  | tokens => exact .untouched rfl rfl rfl
  | stake hself h =>
      cases h with
      | intro hauth _ hpos _ _ htotal => exact .staked hself hauth hpos htotal rfl rfl rfl
  | unstake h =>
      cases h with
      | intro hauth _ hle _ _ htotal => exact .unstaked hauth hle htotal rfl rfl rfl
  | opens _ _ h =>
      cases h.lock
      exact .untouched rfl rfl rfl
  | release h => cases h; exact .untouched rfl rfl rfl
  | raise h => cases h; exact .untouched rfl rfl rfl
  | commit _ h => cases h; exact .untouched rfl rfl rfl
  | reveal _ h => cases h; exact .untouched rfl rfl rfl
  | resolve h =>
      cases h with
      | intro _ _ _ _ _ hslashes => exact .slashed hslashes rfl rfl rfl

/-! ### The slashing loop -/

namespace Slashes

variable {b b' : Book H} {bps : U32} {jurors : List A} {juror : A}

/-- One slash leaves no stake negative. -/
theorem update_nonneg {remaining : I128} (h0 : ∀ juror, 0 ≤ (b.stake juror).val)
    (hremaining : remaining.val = (b.stake juror).val - (slashAmount (b.stake juror) bps).val)
    (j : A) : 0 ≤ (Function.update b.stake juror remaining j).val := by
  by_cases hj : j = juror
  · have hbounds := slashAmount_bounds bps (h0 juror)
    subst hj
    rw [Function.update_self]
    omega
  · rw [Function.update_of_ne hj]
    exact h0 j

theorem stake_nonneg (h : b.Slashes bps jurors b') (h0 : ∀ juror, 0 ≤ (b.stake juror).val)
    (juror : A) : 0 ≤ (b'.stake juror).val := by
  induction h with
  | nil => exact h0 juror
  | cons hremaining _ _ ih => exact ih (update_nonneg h0 hremaining)

/-- What was slashed only grows. -/
theorem slashed_le (h : b.Slashes bps jurors b') (h0 : ∀ juror, 0 ≤ (b.stake juror).val) :
    b.slashed ≤ b'.slashed := by
  induction h with
  | nil => exact le_rfl
  | @cons b b' voter _ _ _ hremaining _ _ ih =>
      have hbounds := slashAmount_bounds bps (h0 voter)
      have hrest := ih (update_nonneg h0 hremaining)
      dsimp only at hrest
      omega

/-- Only the slashed lose stake. -/
theorem of_not_mem (h : b.Slashes bps jurors b') (hj : juror ∉ jurors) :
    b'.stake juror = b.stake juror ∧ b'.slashCount juror = b.slashCount juror := by
  induction h with
  | nil => exact ⟨rfl, rfl⟩
  | @cons b b' voter jurors remaining count _ _ _ ih =>
      rw [List.mem_cons, not_or] at hj
      obtain ⟨hne, hrest⟩ := hj
      obtain ⟨hstake, hcount⟩ := ih hrest
      refine ⟨hstake.trans ?_, hcount.trans ?_⟩
      · exact Function.update_of_ne hne _ _
      · exact Function.update_of_ne hne _ _

/-- Each of the slashed, named once, loses the slash of its own stake. -/
theorem of_mem (h : b.Slashes bps jurors b') (hnodup : jurors.Nodup) (hj : juror ∈ jurors) :
    (b'.stake juror).val = (b.stake juror).val - (slashAmount (b.stake juror) bps).val ∧
      (b'.slashCount juror).val = (b.slashCount juror).val + 1 := by
  induction h with
  | nil => cases hj
  | @cons b b' voter jurors remaining count hremaining hcount hrest ih =>
      obtain ⟨hnew, hnodup⟩ := List.nodup_cons.mp hnodup
      by_cases heq : juror = voter
      · subst heq
        obtain ⟨hs, hc⟩ := hrest.of_not_mem hnew
        rw [hs, hc]
        simp only [Function.update_self]
        exact ⟨hremaining, hcount⟩
      · have hmem : juror ∈ jurors := (List.mem_cons.mp hj).resolve_left heq
        have hboth := ih hnodup hmem
        simp only [Function.update_of_ne heq] at hboth
        exact hboth

/-- What a juror is left with depends on what it had and on being named, not on the
    order of the loop. -/
theorem congr {c c' : Book H} {others : List A} (h : b.Slashes bps jurors b')
    (h' : c.Slashes bps others c') (hnodup : jurors.Nodup) (hnodup' : others.Nodup)
    (hmem : juror ∈ jurors ↔ juror ∈ others) (hstake : b.stake juror = c.stake juror)
    (hcount : b.slashCount juror = c.slashCount juror) :
    b'.stake juror = c'.stake juror ∧ b'.slashCount juror = c'.slashCount juror := by
  by_cases hj : juror ∈ jurors
  · rcases h.of_mem hnodup hj with ⟨hs, hc⟩
    rcases h'.of_mem hnodup' (hmem.mp hj) with ⟨hs', hc'⟩
    rw [← hstake] at hs'
    rw [← hcount] at hc'
    exact ⟨BoundedInt.val_inj.mp (hs.trans hs'.symm), BoundedInt.val_inj.mp (hc.trans hc'.symm)⟩
  · rcases h.of_not_mem hj with ⟨hs, hc⟩
    rcases h'.of_not_mem fun hj' => hj (hmem.mpr hj') with ⟨hs', hc'⟩
    rw [hs, hs', hc, hc']
    exact ⟨hstake, hcount⟩

/-- What the stakes lose is what was slashed. -/
theorem total (h : b.Slashes bps jurors b')
    (hfin : (Function.support fun j => (b.stake j).val).Finite) :
    ∑ᶠ j, (b'.stake j).val + b'.slashed = ∑ᶠ j, (b.stake j).val + b.slashed := by
  induction h with
  | nil => rfl
  | @cons b b' voter jurors remaining count hremaining _ _ ih =>
      let stake := Function.update b.stake voter remaining
      have hother (j : A) (hj : j ≠ voter) : (stake j).val = (b.stake j).val :=
        congrArg BoundedInt.val (Function.update_of_ne hj _ _)
      have hvoter : (stake voter).val = remaining.val :=
        congrArg BoundedInt.val (Function.update_self ..)
      have hsum := finsum_change (g := fun j => (stake j).val) hfin hother
      have hrest := ih (finite_support_change hfin hother)
      have hrest' : ∑ᶠ j, (b'.stake j).val + b'.slashed =
          ∑ᶠ j, (stake j).val + ((slashAmount (b.stake voter) bps).val + b.slashed) := hrest
      omega

/-- The loop goes through when no count of the slashed is exhausted. -/
theorem exists_of_counts (bps : U32) (b : Book H) (h0 : ∀ juror, 0 ≤ (b.stake juror).val)
    (hnodup : jurors.Nodup) (hcount : ∀ juror ∈ jurors, (b.slashCount juror).val < 4294967295) :
    ∃ b', b.Slashes bps jurors b' := by
  induction jurors generalizing b with
  | nil => exact ⟨b, .nil⟩
  | cons voter jurors ih =>
      obtain ⟨hnew, hnodup⟩ := List.nodup_cons.mp hnodup
      have hbounds := slashAmount_bounds bps (h0 voter)
      have hlo := (b.stake voter).lo_le
      have hhi := (b.stake voter).le_hi
      obtain ⟨remaining, hremaining⟩ : ∃ r : I128,
          r.val = (b.stake voter).val - (slashAmount (b.stake voter) bps).val :=
        ⟨⟨_, by omega, by omega⟩, rfl⟩
      have hc := hcount voter List.mem_cons_self
      have hc0 := (b.slashCount voter).lo_le
      obtain ⟨count, hcountval⟩ : ∃ n : U32, n.val = (b.slashCount voter).val + 1 :=
        ⟨⟨_, by omega, by omega⟩, rfl⟩
      obtain ⟨b', hb'⟩ := ih { b with
          stake := Function.update b.stake voter remaining
          slashCount := Function.update b.slashCount voter count
          slashed := (slashAmount (b.stake voter) bps).val + b.slashed }
          (update_nonneg h0 hremaining) hnodup (fun j hj => by
        have hne : j ≠ voter := fun heq => hnew (heq ▸ hj)
        show (Function.update b.slashCount voter count j).val < 4294967295
        rw [Function.update_of_ne hne]
        exact hcount j (List.mem_cons_of_mem _ hj))
      exact ⟨b', .cons hremaining hcountval hb'⟩

end Slashes

/-- No step takes a stake below zero. -/
theorem Step.stake_nonneg {b b' : Book H} {l : Label H} (h : b.Step l b')
    (h0 : ∀ juror, 0 ≤ (b.stake juror).val) (juror : A) : 0 ≤ (b'.stake juror).val := by
  have hupdate {j : A} {total : I128} (htotal : 0 ≤ total.val)
      (hstake : b'.stake = Function.update b.stake j total) : 0 ≤ (b'.stake juror).val := by
    rw [hstake]
    by_cases hj : juror = j
    · subst hj
      rwa [Function.update_self]
    · rw [Function.update_of_ne hj]
      exact h0 juror
  cases h.on_stakes with
  | untouched hsame =>
      rw [hsame]
      exact h0 juror
  | @staked _ j _ _ _ _ _ hpos htotal hstake =>
      have := h0 j
      exact hupdate (by omega) hstake
  | unstaked _ hle htotal hstake => exact hupdate (by omega) hstake
  | slashed hslashes hstake =>
      rw [hstake]
      exact hslashes.stake_nonneg h0 juror

end Book

end TrustFlow
