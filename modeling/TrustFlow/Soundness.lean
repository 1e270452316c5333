import TrustFlow.Accounting
import TrustFlow.Proceedings
import TrustFlow.Freshness
import TrustFlow.Authority
import TrustFlow.Stakes

/-!
# The invariant of a deployment

`Book.Sound` puts the file invariants together with what holds of the settings
and the stakes.  It is an invariant of every deployment that is initialised
once (`SingleInit.sound`).
-/

namespace TrustFlow

open Transition

variable {A D : Type}

/-- An id is either unused or the id of an escrow in order. -/
structure File.Sound (own : A) (now : U32) (f : File A D) : Prop where
  empty : f.escrow = none → f = File.empty
  accounts : ∀ e, f.escrow = some e → f.Accounts own now e
  proceedings : ∀ e, f.escrow = some e → f.Proceedings now e

namespace File.Sound

variable {own : A} {now now' : U32} {f : File A D} {e : EscrowRecord A}

theorem of_empty (h : f = File.empty) : f.Sound own now := by
  subst h
  refine ⟨fun _ => rfl, ?_, ?_⟩
  · intro e he
    cases he
  · intro e he
    cases he

theorem of_some (h : f.escrow = some e) (ha : f.Accounts own now e) (hp : f.Proceedings now e) :
    f.Sound own now := by
  refine ⟨?_, ?_, ?_⟩
  · intro hnone
    cases h.symm.trans hnone
  · intro e' he'
    cases h.symm.trans he'
    exact ha
  · intro e' he'
    cases h.symm.trans he'
    exact hp

theorem mono (h : f.Sound own now) (hnow : now.val ≤ now'.val) : f.Sound own now' where
  empty := h.empty
  accounts e he := (h.accounts e he).mono hnow
  proceedings e he := (h.proceedings e he).mono hnow

/-- There is no dispute without an escrow. -/
theorem escrow_of_dispute {d : DisputeRecord A} (h : f.Sound own now) (hd : f.dispute = some d) :
    ∃ e, f.escrow = some e := by
  cases he : f.escrow with
  | some e => exact ⟨e, rfl⟩
  | none =>
      rw [h.empty he] at hd
      cases hd

/-- The voters are the jurors with a vote, once each, and none of them has a
    commitment left. -/
theorem register (h : f.Sound own now) : f.votersOf.Nodup ∧
    (∀ juror, juror ∈ f.votersOf ↔ f.vote juror ≠ none) ∧
    ∀ juror, f.commit juror ≠ none → f.vote juror = none := by
  cases he : f.escrow with
  | some e =>
      have hp := h.proceedings e he
      exact ⟨hp.voters_nodup, hp.mem_voters, hp.commit_unrevealed⟩
  | none =>
      rw [h.empty he]
      exact ⟨List.nodup_nil, fun _ => ⟨nofun, fun hv => absurd rfl hv⟩, fun _ _ => rfl⟩

end File.Sound

variable [DecidableEq A] {H : Host A D}

namespace Book

variable {b b' : Book H} {l : Label H} {id : U64}

theorem Step.sequence_le (h : b.Step l b') : b.sequence.val ≤ b'.sequence.val := by
  cases h with
  | idle => exact le_rfl
  | configure => exact le_rfl
  | initialise => exact le_rfl
  | close h => exact h
  | tokens => exact le_rfl
  | stake _ h => cases h; exact le_rfl
  | unstake h => cases h; exact le_rfl
  | opens _ _ h =>
      cases h.lock
      exact le_rfl
  | release h => cases h; exact le_rfl
  | raise h => cases h; exact le_rfl
  | commit _ h => cases h; exact le_rfl
  | reveal _ h => cases h; exact le_rfl
  | resolve h =>
      cases h with
      | intro _ _ _ _ _ hslashes =>
        exact (congrArg (fun b : Book H => b.sequence.val) hslashes.frame).ge

/-- What holds of every book of a deployment. -/
structure Sound (b : Book H) : Prop where
  unusedAbove : b.UnusedAbove
  file : ∀ id, (b.file id).Sound H.self b.sequence
  stake_nonneg : ∀ juror, 0 ≤ (b.stake juror).val
  feeBps_le : (b.settings.feeBps.getD DEFAULT_FEE_BPS).val ≤ 1000
  admin_ne : b.settings.admin ≠ some H.self
  token_isSome : b.settings.token.isSome = b.settings.admin.isSome
  escrow_token : ∀ id e, b.escrow id = some e → b.settings.token.isSome = true

theorem Blank.sound (hb : b.Blank) : b.Sound where
  unusedAbove := hb.unusedAbove
  file id := .of_empty (hb.file id)
  stake_nonneg juror := by
    rw [hb.stake]
    exact le_rfl
  feeBps_le := by
    rw [hb.settings]
    show (50 : Int) ≤ 1000
    decide
  admin_ne := by
    rw [hb.settings]
    exact nofun
  token_isSome := by
    rw [hb.settings]
  escrow_token id e he := by
    have hnone : b.escrow id = none := congrArg File.escrow (hb.file id)
    cases hnone.symm.trans he

namespace Sound

theorem accounts (hb : b.Sound) {e : EscrowRecord A} (he : b.escrow id = some e) :
    (b.file id).Accounts H.self b.sequence e := (hb.file id).accounts e he

theorem proceedings (hb : b.Sound) {e : EscrowRecord A} (he : b.escrow id = some e) :
    (b.file id).Proceedings b.sequence e := (hb.file id).proceedings e he

/-- A step keeps every file in order. -/
theorem file_step (hb : b.Sound) (h : b.Step l b') (id : U64) :
    (b'.file id).Sound H.self b'.sequence := by
  refine File.Sound.mono ?_ h.sequence_le
  have hfile := hb.file id
  cases h.on_file id with
  | untouched _ hsame =>
      rw [hsame]
      exact hfile
  | @opened _ auth depositor _ _ _ _ _ hself _ hopen _ hnew =>
      have hempty := hb.unusedAbove.opens hopen
      have hdepositor : depositor ≠ H.self := by
        rintro rfl
        exact absurd hopen.hauth (by simp [hself])
      rw [hnew]
      exact .of_some rfl
        (.opened hempty hdepositor hopen.amount_pos hopen.milestones_pos hopen.total rfl
          hb.feeBps_le)
        (.opened hempty rfl)
  | released ht _ _ hnew =>
      rw [hnew]
      exact .of_some rfl ((hfile.accounts _ ht.escrow_eq).tranche ht)
        ((hfile.proceedings _ ht.escrow_eq).tranche ht.active)
  | raised _ he hactive hnew =>
      rw [hnew]
      exact .of_some rfl ((hfile.accounts _ he).raised hactive)
        ((hfile.proceedings _ he).raised hactive rfl)
  | committed _ _ _ hd _ hwindow _ hnew =>
      obtain ⟨e, he⟩ := hfile.escrow_of_dispute hd
      rw [hnew]
      exact .of_some he (hfile.accounts _ he).committed
        ((hfile.proceedings _ he).committed hd hwindow)
  | revealed _ _ hd _ hfrom _ hfresh _ hvoters hnew =>
      obtain ⟨e, he⟩ := hfile.escrow_of_dispute hd
      rw [hnew]
      exact .of_some he (hfile.accounts _ he).revealed
        ((hfile.proceedings _ he).revealed hd hfrom hfresh hvoters)
  | resolved _ hd _ _ _ he hnew =>
      rw [hnew]
      exact .of_some rfl (hfile.accounts _ he).resolved ((hfile.proceedings _ he).resolved hd)

/-- The settings stay in order; a step never takes the token away. -/
theorem settings_step (hb : b.Sound) (h : b.Step l b') :
    (b'.settings.feeBps.getD DEFAULT_FEE_BPS).val ≤ 1000 ∧
      b'.settings.admin ≠ some H.self ∧
      b'.settings.token.isSome = b'.settings.admin.isSome ∧
      (b.settings.token.isSome = true → b'.settings.token.isSome = true) := by
  cases h.on_settings with
  | untouched _ hsame =>
      rw [hsame]
      exact ⟨hb.feeBps_le, hb.admin_ne, hb.token_isSome, id⟩
  | configured hconf =>
      obtain ⟨hadmin, htoken, -⟩ := hconf.frame
      rw [hadmin, htoken]
      exact ⟨hconf.feeBps_le hb.feeBps_le, hb.admin_ne, hb.token_isSome, id⟩
  | @initialised auth admin _ _ _ hself hauth _ hset =>
      rw [hset]
      refine ⟨show (50 : Int) ≤ 1000 by decide, ?_, rfl, fun _ => rfl⟩
      rintro ⟨⟩
      exact absurd hauth (by simp [hself])

theorem step (hb : b.Sound) (h : b.Safe l b') : b'.Sound := by
  obtain ⟨hfee, hadmin, htoken, hkeep⟩ := hb.settings_step h.step
  have hcounter (hl : l.Initialises = true) : b.counter.val = 0 := by
    rw [Book.counter, (h.blank hl).escrowCounter]
    rfl
  refine ⟨hb.unusedAbove.step h.step hcounter, hb.file_step h.step,
    h.step.stake_nonneg hb.stake_nonneg, hfee, hadmin, htoken, ?_⟩
  intro id e he
  -- an escrow is there already, or is opened with the stored token
  cases h.step.on_file id with
  | untouched _ hsame =>
      have hold : b.escrow id = some e := (congrArg File.escrow hsame).symm.trans he
      exact hkeep (hb.escrow_token id e hold)
  | opened _ _ hopen =>
      cases hopen.lock with
      | intro htok => exact hkeep (by rw [htok]; rfl)
  | released ht => exact hkeep (hb.escrow_token id _ ht.escrow_eq)
  | raised _ hold => exact hkeep (hb.escrow_token id _ hold)
  | committed _ _ _ hd =>
      obtain ⟨e', he'⟩ := (hb.file id).escrow_of_dispute hd
      exact hkeep (hb.escrow_token id e' he')
  | revealed _ _ hd =>
      obtain ⟨e', he'⟩ := (hb.file id).escrow_of_dispute hd
      exact hkeep (hb.escrow_token id e' he')
  | resolved _ _ _ _ _ hold => exact hkeep (hb.escrow_token id _ hold)

/-- Nobody is slashed twice in one resolution. -/
theorem minority_nodup (hb : b.Sound) (id : U64) : (b.minority id).Nodup := by
  apply List.Nodup.filter
  exact (hb.file id).register.1

end Sound

end Book

/-- The book of a deployment is sound at every point of its run. -/
theorem SingleInit.sound [DecidableEq D] {env₀ env : Env H} {h : History H}
    (hs : SingleInit env₀ h env) : env.book.Sound :=
  hs.invariant (fun _ hb => hb.sound) fun hb hstep => hb.step hstep

end TrustFlow
