import TrustFlow.Soundness

/-!
# The stake of a juror

A juror's stake is what the juror put in, less what it took out, less the slashes
of the resolutions its vote lost; its slash count is the number of those.  The
minority a resolution slashes is exactly the jurors whose revealed vote is not
the ruling (`Sound.mem_minority`), so each transition changes the stake of a
juror by what its label says and the pre-state determines.
-/

namespace TrustFlow

open Transition

variable {A D : Type} [DecidableEq A] {H : Host A D}

/-! ### One transition -/

namespace Label

/-- What a successful `stake` of `juror` puts in. -/
def stakedBy (juror : A) : Label H → Int
  | .call _ (.stake juror' amount) _ => if juror' = juror then amount.val else 0
  | _ => 0

/-- What a successful `unstake` of `juror` takes out. -/
def unstakedBy (juror : A) : Label H → Int
  | .call _ (.unstake juror' amount) _ => if juror' = juror then amount.val else 0
  | _ => 0

/-- The escrow and the ruling of a successful `resolve_dispute`. -/
def ruled? : Label H → Option (U64 × Bool)
  | .call _ (.resolveDispute id) ruling => some (id, ruling)
  | _ => none

/-- The successful calls that move stakes. -/
def Stakes : Label H → Bool
  | .call _ (.stake ..) _ | .call _ (.unstake ..) _ | .call _ (.resolveDispute _) _ => true
  | _ => false

theorem of_not_stakes {l : Label H} (h : l.Stakes = false) (juror : A) :
    l.stakedBy juror = 0 ∧ l.unstakedBy juror = 0 ∧ l.ruled? = none := by
  cases l with
  | call auth c r => cases c <;> first | cases h; done | exact ⟨rfl, rfl, rfl⟩
  | failed | close | tokens => exact ⟨rfl, rfl, rfl⟩

end Label

/-- A transition resolves a dispute against the vote `juror` revealed on it. -/
def Loses (juror : A) (t : Move (Env H) (Label H)) : Bool :=
  t.label.ruled?.any fun r => decide (t.pre.get (.jurorVote ⟨r.1, juror⟩) = some !r.2)

/-- What `juror` loses to the slash of such a transition. -/
def slashOf (juror : A) (t : Move (Env H) (Label H)) : Int :=
  if Loses juror t = true then (slashAmount (t.pre.stakeOf juror) t.pre.slashBps).val else 0

namespace Book

variable {b b' : Book H} {l : Label H} {id : U64} {juror : A}

/-- The minority are the jurors whose revealed vote is not the ruling. -/
theorem Sound.mem_minority (hb : b.Sound) :
    juror ∈ b.minority id ↔ b.vote id juror = some !b.ruling id := by
  have hvoter : juror ∈ b.votersOf id ↔ b.vote id juror ≠ none :=
    (hb.file id).register.2.1 juror
  rw [minority, List.mem_filter, hvoter, voteOf]
  cases b.vote id juror with
  | none => simp
  | some vote => cases vote <;> cases b.ruling id <;> simp

end Book

/-- How a transition changes the stake and the slash count of `juror`. -/
structure Ledgered (juror : A) (t : Move (Env H) (Label H)) : Prop where
  stake : (t.post.stakeOf juror).val = (t.pre.stakeOf juror).val + t.label.stakedBy juror -
    t.label.unstakedBy juror - slashOf juror t
  count : (t.post.slashCountOf juror).val =
    (t.pre.slashCountOf juror).val + (if Loses juror t = true then 1 else 0)

namespace Ledgered

variable {env env' : Env H} {l : Label H} {juror : A}

/-- A label that resolves nothing changes a stake by what it pays in or out. -/
theorem of_not_ruled (hruled : l.ruled? = none)
    (hcount : env'.book.slashCount = env.book.slashCount)
    (hstake : (env'.book.stake juror).val =
      (env.book.stake juror).val + (l.stakedBy juror - l.unstakedBy juror)) :
    Ledgered juror ⟨env, l, env'⟩ := by
  have hloses : Loses juror ⟨env, l, env'⟩ = false := by
    rw [Loses, hruled]
    rfl
  constructor
  · show (env'.book.stake juror).val = (env.book.stake juror).val + l.stakedBy juror -
      l.unstakedBy juror - slashOf juror ⟨env, l, env'⟩
    rw [hstake, slashOf, hloses]
    simp only [Bool.false_eq_true, if_false]
    omega
  · show (env'.book.slashCount juror).val = (env.book.slashCount juror).val + _
    rw [hcount, hloses]
    simp

/-- A label that has nothing to do with stakes. -/
theorem of_not_stakes (hl : l.Stakes = false) (hstake : env'.book.stake = env.book.stake)
    (hcount : env'.book.slashCount = env.book.slashCount) : Ledgered juror ⟨env, l, env'⟩ := by
  rcases Label.of_not_stakes hl juror with ⟨hstaked, hunstaked, hruled⟩
  apply of_not_ruled hruled hcount
  rw [hstake, hstaked, hunstaked]
  omega

/-- A payment into or out of the stake of one juror. -/
theorem of_update {juror' : A} {total : I128} {delta : Int} (hruled : l.ruled? = none)
    (hdelta : l.stakedBy juror - l.unstakedBy juror = if juror' = juror then delta else 0)
    (htotal : total.val = (env.book.stake juror').val + delta)
    (hstake : env'.book.stake = Function.update env.book.stake juror' total)
    (hcount : env'.book.slashCount = env.book.slashCount) : Ledgered juror ⟨env, l, env'⟩ := by
  apply of_not_ruled hruled hcount
  rw [hstake, hdelta]
  by_cases hj : juror' = juror
  · subst hj
    rw [if_pos rfl, Function.update_self]
    exact htotal
  · rw [if_neg hj, Function.update_of_ne (Ne.symm hj), add_zero]

/-- A resolution slashes those whose vote it went against. -/
theorem of_slashes {auth : A → Bool} {id : U64} {ruling : Bool} {b₁ : Book H}
    (hb : env.book.Sound) (hruling : ruling = env.book.ruling id)
    (h : env.book.Slashes env.slashBps (env.book.minority id) b₁)
    (hstake : env'.book.stake = b₁.stake) (hcount : env'.book.slashCount = b₁.slashCount) :
    Ledgered juror ⟨env, .call auth (.resolveDispute id) ruling, env'⟩ := by
  have hloses : Loses juror ⟨env, .call auth (.resolveDispute id) ruling, env'⟩ =
      decide (juror ∈ env.book.minority id) := by
    rw [hruling]
    exact decide_eq_decide.mpr hb.mem_minority.symm
  refine ⟨?_, ?_⟩
  · show (env'.book.stake juror).val = (env.book.stake juror).val + 0 - 0 -
      slashOf juror ⟨env, .call auth (.resolveDispute id) ruling, env'⟩
    rw [hstake, slashOf, hloses]
    by_cases hj : juror ∈ env.book.minority id
    · have hslash := (h.of_mem (hb.minority_nodup id) hj).1
      rw [if_pos (decide_eq_true hj), hslash, add_zero, sub_zero]
      rfl
    · have hsame := (h.of_not_mem hj).1
      rw [hsame]
      simp [hj]
  · show (env'.book.slashCount juror).val = (env.book.slashCount juror).val + _
    rw [hcount, hloses]
    by_cases hj : juror ∈ env.book.minority id
    · rw [(h.of_mem (hb.minority_nodup id) hj).2, if_pos (decide_eq_true hj)]
    · rw [(h.of_not_mem hj).2]
      simp [hj]

end Ledgered

/-- Every transition of a sound book is in the ledger. -/
theorem Book.Step.ledgered {env env' : Env H} {l : Label H} (h : env.book.Step l env'.book)
    (hb : env.book.Sound) (juror : A) : Ledgered juror ⟨env, l, env'⟩ := by
  have hother (hl : l.Stakes = false) : Ledgered juror ⟨env, l, env'⟩ := by
    cases h.on_stakes with
    | untouched hstake hcount => exact .of_not_stakes hl hstake hcount
    | staked | unstaked | slashed => cases hl
  cases l with
  | failed | close | tokens => exact hother rfl
  | call auth c r =>
      generalize hpost : env'.book = b' at h
      cases c with
      | stake juror' amount =>
          cases h with
          | idle hl => cases hl
          | configure hconf => cases hconf
          | opens _ hl => cases hl
          | stake _ h =>
              cases h with
              | @intro token p total hauth hpaused hpos htoken hmove htotal =>
                refine .of_update rfl ?_ htotal (by rw [hpost]) (by rw [hpost])
                exact sub_zero _
      | unstake juror' amount =>
          cases h with
          | idle hl => cases hl
          | configure hconf => cases hconf
          | opens _ hl => cases hl
          | unstake h =>
              cases h with
              | @intro token p total hauth hpaused hle htoken hmove htotal =>
                refine .of_update rfl ?_ (htotal.trans (sub_eq_add_neg _ _)) (by rw [hpost])
                  (by rw [hpost])
                show 0 - (if juror' = juror then amount.val else 0) = _
                split <;> simp
      | resolveDispute id =>
          cases h with
          | idle hl => cases hl
          | configure hconf => cases hconf
          | opens _ hl => cases hl
          | resolve h =>
              cases h with
              | intro _ _ _ _ _ hslashes =>
                exact .of_slashes hb rfl hslashes (by rw [hpost]) (by rw [hpost])
      | _ => exact hother rfl

/-- A stake is lowered by an `unstake` of its juror or by a lost vote only. -/
theorem Book.Step.stake_lowered {env env' : Env H} {l : Label H} (h : env.book.Step l env'.book)
    (hb : env.book.Sound) {juror : A}
    (hlt : (env'.book.stake juror).val < (env.book.stake juror).val) :
    (∃ auth amount, l = .call auth (.unstake juror amount) () ∧ auth juror = true) ∨
      Loses juror ⟨env, l, env'⟩ = true := by
  have hledger := h.ledgered hb juror
  cases h.on_stakes with
  | untouched hstake =>
      rw [hstake] at hlt
      omega
  | @staked _ juror' _ _ _ _ _ hpos htotal hstake =>
      rw [hstake] at hlt
      by_cases hj : juror = juror'
      · subst hj
        rw [Function.update_self] at hlt
        omega
      · rw [Function.update_of_ne hj] at hlt
        omega
  | @unstaked _ juror' _ _ _ hauth _ htotal hstake =>
      by_cases hj : juror = juror'
      · subst hj
        exact Or.inl ⟨_, _, rfl, hauth⟩
      · rw [hstake, Function.update_of_ne hj] at hlt
        omega
  | slashed =>
      apply Or.inr
      by_contra hkept
      have hstake : (env'.book.stake juror).val = (env.book.stake juror).val + 0 - 0 -
          slashOf juror ⟨env, .call _ (.resolveDispute _) _, env'⟩ := hledger.stake
      rw [slashOf, if_neg hkept] at hstake
      omega

/-! ### Over a history -/

variable [DecidableEq D] {env₀ env : Env H} {h : History H}

/-- The stake and the slash count of `juror` after the history `h`. -/
structure StakeLedger (juror : A) (h : History H) (env : Env H) : Prop where
  stake_eq : (env.stakeOf juror).val = (h.map fun t => t.label.stakedBy juror).sum -
    (h.map fun t => t.label.unstakedBy juror).sum - (h.map fun t => slashOf juror t).sum
  stake_nonneg : 0 ≤ (env.stakeOf juror).val
  stake_le : (env.stakeOf juror).val ≤ 170141183460469231731687303715884105727
  count_eq : (env.slashCountOf juror).val = h.countP fun t => Loses juror t
  lowered : ∀ t ∈ h, (t.post.stakeOf juror).val < (t.pre.stakeOf juror).val →
    (∃ auth amount, t.label = .call auth (.unstake juror amount) () ∧ auth juror = true) ∨
      Loses juror t = true

namespace SingleInit

theorem stake_eq (hs : SingleInit env₀ h env) (juror : A) :
    (env.stakeOf juror).val = (h.map fun t => t.label.stakedBy juror).sum -
      (h.map fun t => t.label.unstakedBy juror).sum - (h.map fun t => slashOf juror t).sum := by
  refine history_invariant (P := fun h b => (b.stake juror).val =
    (h.map fun t => t.label.stakedBy juror).sum - (h.map fun t => t.label.unstakedBy juror).sum -
      (h.map fun t => slashOf juror t).sum) ?_ ?_ hs
  · intro hb
    rw [hb.stake]
    rfl
  · intro h env l env' hs hP hstep
    have hledger := (hstep.step.ledgered hs.sound juror).stake
    have hpre : (env.stakeOf juror).val = _ := hP
    simp only [List.map_cons, List.sum_cons]
    show (env'.stakeOf juror).val = _
    rw [hledger, hpre]
    ring

theorem slashCount_eq (hs : SingleInit env₀ h env) (juror : A) :
    (env.slashCountOf juror).val = h.countP fun t => Loses juror t := by
  refine history_invariant (P := fun h b => (b.slashCount juror).val =
    h.countP fun t => Loses juror t) ?_ ?_ hs
  · intro hb
    rw [hb.slashCount]
    rfl
  · intro h env l env' hs hP hstep
    have hledger := (hstep.step.ledgered hs.sound juror).count
    have hpre : (env.slashCountOf juror).val = _ := hP
    show (env'.slashCountOf juror).val = _
    rw [hledger, hpre, List.countP_cons]
    split <;> simp

end SingleInit

theorem stake_ledger (hs : SingleInit env₀ h env) (juror : A) : StakeLedger juror h env := by
  refine ⟨hs.stake_eq juror, hs.sound.stake_nonneg juror, (env.stakeOf juror).le_hi,
    hs.slashCount_eq juror, ?_⟩
  intro t ht hlt
  rcases hs.split_mem ht with ⟨_, _, _, hpre, hsafe, _⟩
  exact hsafe.step.stake_lowered hpre.sound hlt

/-- Of two jurors with 30 staked the one who votes for the beneficiary of a
    disputed escrow is slashed, as the tie goes to the depositor. -/
def tiedVote : List (Action Nat (List UInt8)) :=
  [.call (fun a => a == 1) (.initialise 1 9 DEFAULT_SLASH_BPS),
    .call (fun a => a == 2) (.createEscrow 2 4 (.ofNat 100)),
    .call (fun a => a == 3) (.stake 3 (.ofNat 30)),
    .call (fun a => a == 5) (.stake 5 (.ofNat 30)),
    .call (fun a => a == 4) (.raiseDispute 1 4 "late"),
    .call (fun a => a == 3) (.commitVote 1 3 (0 :: List.replicate 32 7)),
    .call (fun a => a == 5) (.commitVote 1 5 (1 :: List.replicate 32 8)),
    .close (.ofNat 17281),
    .call (fun a => a == 3) (.revealVote 1 3 false (Vector.replicate 32 7)),
    .call (fun a => a == 5) (.revealVote 1 5 true (Vector.replicate 32 8)),
    .close (.ofNat 34561),
    .call (fun _ => false) (.resolveDispute 1),
    .call (fun a => a == 3) (.unstake 3 (.ofNat 20))]

theorem stake_ledger_sample :
    ∃ (h : History Host.plain) (env : Env Host.plain), SingleInit Env.deployed h env ∧
      StakeLedger 3 h env ∧ (env.stakeOf 3).val = 7 ∧ (env.slashCountOf 3).val = 1 := by
  rcases Env.exists_of_plays tiedVote
    (fun _ env => decide ((env.stakeOf 3).val = 7 ∧ (env.slashCountOf 3).val = 1))
    (by decide +kernel) with ⟨h, env, hs, hend⟩
  exact ⟨h, env, hs, stake_ledger hs 3, of_decide_eq_true hend⟩

end TrustFlow
