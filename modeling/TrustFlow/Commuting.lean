import TrustFlow.Exits

/-!
# Resolutions commute

Two disputes may share jurors, and a resolution slashes the stake a juror has
left.  The order does not matter: the votes of a dispute do not depend on the
stakes, the slash of a juror depends on its own stake only, and both orders
apply it as often.
-/

namespace TrustFlow

open Transition Invocation Purse

variable {A D : Type} [DecidableEq A] {H : Host A D}

/-! ### What a resolution reads and leaves -/

namespace Book

variable {b b' c : Book H} {id id' : U64} {ruling : Bool} {juror : A}

theorem ruling_congr (h : b'.file id = b.file id) : b'.ruling id = b.ruling id := by
  have hvoters : b'.voters id = b.voters id := congrArg File.voters h
  have hvote : b'.vote id = b.vote id := congrArg File.vote h
  apply decide_eq_decide.mpr
  simp only [forDepositor, forBeneficiary, votersOf, voteOf, hvoters, hvote]

theorem minority_congr (h : b'.file id = b.file id) : b'.minority id = b.minority id := by
  have hvoters : b'.voters id = b.voters id := congrArg File.voters h
  have hvote : b'.vote id = b.vote id := congrArg File.vote h
  simp only [minority, ruling_congr h, votersOf, voteOf, hvoters, hvote]

/-- What the settlement of the escrow `id` adds to a balance. -/
def settlement (b : Book H) (id : U64) (tok x : A) : Int :=
  match b.escrow id, b.settings.token with
  | some e, some t =>
      (if tok = t ∧ x = (if b.ruling id = true then e.depositor else e.beneficiary) then
        e.amount.val - (b.releasedOf id).val else 0) -
      if tok = t ∧ x = H.self then e.amount.val - (b.releasedOf id).val else 0
  | _, _ => 0

theorem settlement_congr (h : b'.file id = b.file id) (hsettings : b'.settings = b.settings) :
    b'.settlement id = b.settlement id := by
  have hescrow : b'.escrow id = b.escrow id := congrArg File.escrow h
  have hreleased : b'.released id = b.released id := congrArg File.released h
  funext tok x
  simp only [settlement, hescrow, hsettings, ruling_congr h, releasedOf, hreleased]

namespace Resolve

theorem ruling_eq (h : b.Resolve id ruling b') : ruling = b.ruling id := by
  cases h
  rfl

theorem started (h : b.Resolve id ruling b') :
    b.settings.isPaused = false ∧ ∃ tok, b.settings.token = some tok := by
  cases h with
  | intro hpaused _ _ _ _ _ _ htoken => exact ⟨hpaused, _, htoken⟩

theorem slashes (h : b.Resolve id ruling b') :
    ∃ b₁, b.Slashes (b.settings.slashBps.getD DEFAULT_SLASH_BPS) (b.minority id) b₁ ∧
      b'.stake = b₁.stake ∧ b'.slashCount = b₁.slashCount := by
  cases h with
  | intro _ _ _ _ _ hslashes => exact ⟨_, hslashes, rfl, rfl⟩

theorem settings (h : b.Resolve id ruling b') : b'.settings = b.settings := by
  cases h with
  | intro _ _ _ _ _ hslashes => exact hslashes.settings

theorem sequence (h : b.Resolve id ruling b') : b'.sequence = b.sequence := by
  cases h with
  | intro _ _ _ _ _ hslashes =>
    show _ = _
    rw [hslashes.frame]

theorem escrow_eq (h : b.Resolve id ruling b') :
    b'.escrow id = (b.escrow id).map fun e => { e with status := .settled } := by
  cases h with
  | intro _ _ _ _ _ _ hescrow => simp [hescrow]

theorem dispute_eq (h : b.Resolve id ruling b') :
    b'.dispute id = (b.dispute id).map fun d =>
      { d with resolved := true, rulingForDepositor := ruling } := by
  cases h with
  | intro _ hdispute => simp [hdispute]

theorem balance_eq (h : b.Resolve id ruling b') (hb : b.Sound) (tok x : A) :
    b'.purse.balance tok x = b.purse.balance tok x + b.settlement id tok x := by
  cases h with
  | intro _ hdispute hopen _ _ _ hescrow htoken hrest hpay =>
    have hstatus := (hb.proceedings hescrow).status_of_unresolved hdispute hopen
    have hunsettled := hstatus.trans_ne EscrowStatus.disputed_ne_settled
    have hlt : (b.releasedOf id).val < _ := (hb.accounts hescrow).open_lt hunsettled
    have hpays := hpay.pays (by omega)
    have hbalance := hpays.balance_eq tok x
    rw [hrest] at hbalance
    simp only [Book.settlement, hescrow, htoken]
    omega

variable {id₁ id₂ : U64} {r₁ r₂ r₁' r₂' : Bool} {m m' : Book H}

/-- A resolution leaves every other dispute as it was. -/
theorem others (h : b.Resolve id ruling b') (hne : id' ≠ id) :
    b'.ruling id' = b.ruling id' ∧ b'.minority id' = b.minority id' ∧
      b'.settlement id' = b.settlement id' := by
  have hfile := h.file_ne hne
  exact ⟨ruling_congr hfile, minority_congr hfile, settlement_congr hfile h.settings⟩

/-- A juror in both minorities is slashed twice in either order, one in a single
    minority once. -/
theorem comm_slashes (h₁ : b.Resolve id₁ r₁ m) (h₂ : m.Resolve id₂ r₂ b')
    (h₂' : b.Resolve id₂ r₂' m') (h₁' : m'.Resolve id₁ r₁' c) (hb : b.Sound) (hne : id₁ ≠ id₂)
    (juror : A) : b'.stake juror = c.stake juror ∧ b'.slashCount juror = c.slashCount juror := by
  rcases h₁.slashes with ⟨s₁, hs₁, hstake₁, hcount₁⟩
  rcases h₂.slashes with ⟨s₂, hs₂, hstake₂, hcount₂⟩
  rcases h₂'.slashes with ⟨s₂', hs₂', hstake₂', hcount₂'⟩
  rcases h₁'.slashes with ⟨s₁', hs₁', hstake₁', hcount₁'⟩
  rw [h₁.settings, (h₁.others hne.symm).2.1] at hs₂
  rw [h₂'.settings, (h₂'.others hne).2.1] at hs₁'
  have hnodup₁ := hb.minority_nodup id₁
  have hnodup₂ := hb.minority_nodup id₂
  rw [hstake₂, hcount₂, hstake₁', hcount₁']
  by_cases hj₁ : juror ∈ b.minority id₁
  · by_cases hj₂ : juror ∈ b.minority id₂
    · rcases hs₁.congr hs₂' hnodup₁ hnodup₂ (iff_of_true hj₁ hj₂) rfl rfl with ⟨hstake, hcount⟩
      apply hs₂.congr hs₁' hnodup₂ hnodup₁ (iff_of_true hj₂ hj₁)
      · rw [hstake₁, hstake₂', hstake]
      · rw [hcount₁, hcount₂', hcount]
    · rcases hs₂.of_not_mem hj₂ with ⟨hstake, hcount⟩
      rcases hs₂'.of_not_mem hj₂ with ⟨hstake', hcount'⟩
      rw [hstake, hcount, hstake₁, hcount₁]
      apply hs₁.congr hs₁' hnodup₁ hnodup₁ Iff.rfl
      · rw [hstake₂', hstake']
      · rw [hcount₂', hcount']
  · rcases hs₁.of_not_mem hj₁ with ⟨hstake, hcount⟩
    rcases hs₁'.of_not_mem hj₁ with ⟨hstake', hcount'⟩
    rw [hstake', hcount', hstake₂', hcount₂']
    apply hs₂.congr hs₂' hnodup₂ hnodup₂ Iff.rfl
    · rw [hstake₁, hstake]
    · rw [hcount₁, hcount]

/-- A resolution counts one slash more for each juror of its minority. -/
theorem slashCount_eq (h : b.Resolve id ruling b') (hb : b.Sound) (juror : A) :
    (b'.slashCount juror).val =
      (b.slashCount juror).val + if juror ∈ b.minority id then 1 else 0 := by
  rcases h.slashes with ⟨s, hs, -, hcount⟩
  rw [hcount]
  by_cases hj : juror ∈ b.minority id
  · rw [if_pos hj, (hs.of_mem (hb.minority_nodup id) hj).2]
  · rw [if_neg hj, (hs.of_not_mem hj).2, add_zero]

theorem comm_escrow (h₁ : b.Resolve id₁ r₁ m) (h₂ : m.Resolve id₂ r₂ b')
    (h₂' : b.Resolve id₂ r₂ m') (h₁' : m'.Resolve id₁ r₁ c) (hne : id₁ ≠ id₂) (id : U64) :
    b'.escrow id = c.escrow id ∧ b'.dispute id = c.dispute id := by
  have hescrow {x y : Book H} (h : x.file id = y.file id) : x.escrow id = y.escrow id :=
    congrArg File.escrow h
  have hdispute {x y : Book H} (h : x.file id = y.file id) : x.dispute id = y.dispute id :=
    congrArg File.dispute h
  by_cases hid₁ : id = id₁
  · subst hid₁
    rw [hescrow (h₂.file_ne hne), hdispute (h₂.file_ne hne), h₁.escrow_eq, h₁.dispute_eq,
      h₁'.escrow_eq, h₁'.dispute_eq, hescrow (h₂'.file_ne hne), hdispute (h₂'.file_ne hne)]
    exact ⟨rfl, rfl⟩
  · have hfile₁ := h₁.file_ne hid₁
    have hfile₁' := h₁'.file_ne hid₁
    by_cases hid₂ : id = id₂
    · subst hid₂
      rw [hescrow hfile₁', hdispute hfile₁', h₂.escrow_eq, h₂.dispute_eq, h₂'.escrow_eq,
        h₂'.dispute_eq, hescrow hfile₁, hdispute hfile₁]
      exact ⟨rfl, rfl⟩
    · have hfile : b'.file id = c.file id :=
        ((h₂.file_ne hid₂).trans hfile₁).trans (hfile₁'.trans (h₂'.file_ne hid₂)).symm
      exact ⟨hescrow hfile, hdispute hfile⟩

end Resolve

end Book

/-! ### Both orders -/

/-- The two states hold the same stakes, slash counts, escrow and dispute records and
    token balances. -/
structure Env.Agrees (env env' : Env H) : Prop where
  stake : ∀ juror, env.stakeOf juror = env'.stakeOf juror
  slashCount : ∀ juror, env.slashCountOf juror = env'.slashCountOf juror
  escrow : ∀ id, env.get (.escrow id) = env'.get (.escrow id)
  dispute : ∀ id, env.get (.dispute id) = env'.get (.dispute id)
  balance : ∀ tok x, env.purse.balance tok x = env'.purse.balance tok x

variable {env₀ env env₁ env₂ : Env H} {h : History H} {id id₁ id₂ : U64}
  {auth auth₁ auth₂ : A → Bool} {ruling ruling₁ ruling₂ : Bool}

theorem Book.Resolve.resolvable {b : Book H} (h : env.book.Resolve id ruling b) :
    env.Resolvable id := by
  cases h with
  | intro _ hdispute hopen hdeadline hvoters => exact ⟨_, hdispute, hopen, hdeadline, hvoters⟩

/-- A state with the same file and the same ledger allows the same resolution. -/
theorem Env.Resolvable.congr (h : env₁.Resolvable id) (hfile : env₁.book.file id = env.book.file id)
    (hnow : env₁.sequence = env.sequence) : env.Resolvable id := by
  rcases h with ⟨d, hd, hopen, hdeadline, hvoters⟩
  have hdispute : env₁.get (.dispute id) = env.get (.dispute id) := congrArg File.dispute hfile
  have hreveals : env₁.votersOf id = env.votersOf id :=
    congrArg (·.voters.getD Vec.empty) hfile
  rw [hdispute] at hd
  rw [hreveals] at hvoters
  rw [hnow] at hdeadline
  exact ⟨d, hd, hopen, hdeadline, hvoters⟩

variable [DecidableEq D]

theorem Step.resolve (h : Step env (.call auth (.resolveDispute id) ruling) env₁) :
    auth H.self = false ∧ env.book.Resolve id ruling env₁.book := by
  rcases h with ⟨hself, h⟩
  exact ⟨hself, resolveDispute_book.mp ⟨_, h, rfl⟩⟩

/-- The second resolution goes through in place of the first. -/
theorem SingleInit.resolves_earlier (hs : SingleInit env₀ h env)
    (hpays : H.tokens.PaysFrom H.self) (hne : id₁ ≠ id₂)
    (h₁ : Step env (.call auth₁ (.resolveDispute id₁) ruling₁) env₁)
    (h₂ : Step env₁ (.call auth₂ (.resolveDispute id₂) ruling₂) env₂) :
    ∃ env₁', Step env (.call auth₂ (.resolveDispute id₂) ruling₂) env₁' := by
  rcases h₁.resolve with ⟨-, hres₁⟩
  rcases h₂.resolve with ⟨hself, hres₂⟩
  have hs₁ := hs.snoc h₁ rfl
  rcases hres₁.started with ⟨hpaused, tok, htok⟩
  have hcounts : env.CountsLeft id₂ := by
    intro juror hj
    have hcount₁ := hres₁.slashCount_eq hs.sound juror
    have hcount₂ := hres₂.slashCount_eq hs₁.sound juror
    rw [(hres₁.others hne.symm).2.1, if_pos hj] at hcount₂
    have hmax := (env₂.book.slashCount juror).le_hi
    have hcount : env.slashCountOf juror = env.book.slashCount juror := rfl
    rw [hcount]
    split at hcount₁ <;> omega
  have hresolvable : env.Resolvable id₂ :=
    hres₂.resolvable.congr (hres₁.file_ne hne.symm) hres₁.sequence
  rcases hs.resolve_succeeds auth₂ hpays htok hpaused hcounts hresolvable with ⟨r, env₁', hok⟩
  have hres := resolveDispute_book.mp ⟨_, hok, rfl⟩
  have hruling : r = ruling₂ := by
    rw [hres.ruling_eq, hres₂.ruling_eq, (hres₁.others hne.symm).1]
  subst hruling
  exact ⟨env₁', .call hself hok⟩

/-- And the first one after it. -/
theorem SingleInit.resolves_later {env₁' : Env H} (hs : SingleInit env₀ h env)
    (hpays : H.tokens.PaysFrom H.self) (hne : id₁ ≠ id₂)
    (h₁ : Step env (.call auth₁ (.resolveDispute id₁) ruling₁) env₁)
    (h₂ : Step env₁ (.call auth₂ (.resolveDispute id₂) ruling₂) env₂)
    (h₂' : Step env (.call auth₂ (.resolveDispute id₂) ruling₂) env₁') :
    ∃ env₂', Step env₁' (.call auth₁ (.resolveDispute id₁) ruling₁) env₂' := by
  rcases h₁.resolve with ⟨hself, hres₁⟩
  rcases h₂.resolve with ⟨-, hres₂⟩
  rcases h₂'.resolve with ⟨-, hres₂'⟩
  have hs₁ := hs.snoc h₁ rfl
  have hs₁' := hs.snoc h₂' rfl
  have hstarted := hres₁.started
  rw [← hres₂'.settings] at hstarted
  rcases hstarted with ⟨hpaused, tok, htok⟩
  have hcounts : env₁'.CountsLeft id₁ := by
    intro juror hj
    rw [(hres₂'.others hne).2.1] at hj
    have hcount₁ := hres₁.slashCount_eq hs.sound juror
    have hcount₂ := hres₂.slashCount_eq hs₁.sound juror
    have hcount₂' := hres₂'.slashCount_eq hs.sound juror
    rw [if_pos hj] at hcount₁
    rw [(hres₁.others hne.symm).2.1] at hcount₂
    have hmax := (env₂.book.slashCount juror).le_hi
    have hcount : env₁'.slashCountOf juror = env₁'.book.slashCount juror := rfl
    rw [hcount]
    omega
  have hresolvable : env₁'.Resolvable id₁ :=
    hres₁.resolvable.congr (hres₂'.file_ne hne).symm hres₂'.sequence.symm
  rcases hs₁'.resolve_succeeds auth₁ hpays htok hpaused hcounts hresolvable with ⟨r, env₂', hok⟩
  have hres := resolveDispute_book.mp ⟨_, hok, rfl⟩
  have hruling : r = ruling₁ := by
    rw [hres.ruling_eq, hres₁.ruling_eq, (hres₂'.others hne).1]
  subst hruling
  exact ⟨env₂', .call hself hok⟩

/-- Two resolutions go through in either order, with the same rulings and the same end. -/
theorem resolutions_commute (hs : SingleInit env₀ h env) (hpays : H.tokens.PaysFrom H.self)
    (hne : id₁ ≠ id₂) (h₁ : Step env (.call auth₁ (.resolveDispute id₁) ruling₁) env₁)
    (h₂ : Step env₁ (.call auth₂ (.resolveDispute id₂) ruling₂) env₂) :
    ∃ env₁' env₂', Step env (.call auth₂ (.resolveDispute id₂) ruling₂) env₁' ∧
      Step env₁' (.call auth₁ (.resolveDispute id₁) ruling₁) env₂' ∧ env₂.Agrees env₂' := by
  rcases hs.resolves_earlier hpays hne h₁ h₂ with ⟨env₁', h₂'⟩
  rcases hs.resolves_later hpays hne h₁ h₂ h₂' with ⟨env₂', h₁'⟩
  refine ⟨env₁', env₂', h₂', h₁', ?_⟩
  have hres₁ := h₁.resolve.2
  have hres₂ := h₂.resolve.2
  have hres₂' := h₂'.resolve.2
  have hres₁' := h₁'.resolve.2
  have hslashes := hres₁.comm_slashes hres₂ hres₂' hres₁' hs.sound hne
  have hrecords := hres₁.comm_escrow hres₂ hres₂' hres₁' hne
  refine ⟨fun j => (hslashes j).1, fun j => (hslashes j).2, fun id => (hrecords id).1,
    fun id => (hrecords id).2, fun tok x => ?_⟩
  have hbalance₁ := hres₁.balance_eq hs.sound tok x
  have hbalance₂ := hres₂.balance_eq (hs.snoc h₁ rfl).sound tok x
  have hbalance₂' := hres₂'.balance_eq hs.sound tok x
  have hbalance₁' := hres₁'.balance_eq (hs.snoc h₂' rfl).sound tok x
  rw [(hres₁.others hne.symm).2.2] at hbalance₂
  rw [(hres₂'.others hne).2.2] at hbalance₁'
  show env₂.book.purse.balance tok x = env₂'.book.purse.balance tok x
  omega

/-- Two disputed escrows with the jurors 3 and 5, of whom 3 is outvoted in both. -/
def sharedJurors : List (Action Nat (List UInt8)) :=
  [.call (fun a => a == 1) (.initialise 1 9 DEFAULT_SLASH_BPS),
    .call (fun a => a == 2) (.createEscrow 2 4 (.ofNat 100)),
    .call (fun a => a == 4) (.createEscrow 4 2 (.ofNat 50)),
    .call (fun a => a == 3) (.stake 3 (.ofNat 30)),
    .call (fun a => a == 5) (.stake 5 (.ofNat 30)),
    .call (fun a => a == 4) (.raiseDispute 1 4 "late"),
    .call (fun a => a == 4) (.raiseDispute (.ofNat 2) 4 "late"),
    .call (fun a => a == 3) (.commitVote 1 3 (0 :: List.replicate 32 7)),
    .call (fun a => a == 3) (.commitVote (.ofNat 2) 3 (0 :: List.replicate 32 7)),
    .call (fun a => a == 5) (.commitVote 1 5 (1 :: List.replicate 32 8)),
    .call (fun a => a == 5) (.commitVote (.ofNat 2) 5 (1 :: List.replicate 32 8)),
    .close (.ofNat 17281),
    .call (fun a => a == 3) (.revealVote 1 3 false (Vector.replicate 32 7)),
    .call (fun a => a == 3) (.revealVote (.ofNat 2) 3 false (Vector.replicate 32 7)),
    .call (fun a => a == 5) (.revealVote 1 5 true (Vector.replicate 32 8)),
    .call (fun a => a == 5) (.revealVote (.ofNat 2) 5 true (Vector.replicate 32 8)),
    .close (.ofNat 34561)]

/-- Resolved in the other order too, the stake of the juror falls from 30 to 25. -/
theorem resolutions_commute_sample :
    ∃ (h : History Host.plain) (env env₁ env₂ : Env Host.plain),
      SingleInit Env.deployed h env ∧ (env.stakeOf 3).val = 30 ∧
      Step env (.call (fun _ => false) (.resolveDispute (.ofNat 2)) true) env₁ ∧
      Step env₁ (.call (fun _ => false) (.resolveDispute 1) true) env₂ ∧
      (env₂.stakeOf 3).val = 25 := by
  rcases Env.exists_of_plays sharedJurors
    (fun _ env => decide ((env.stakeOf 3).val = 30) &&
      ((resolveDispute 1 : Op Host.plain Bool) (fun _ => false) env).toOption.any
        fun p : Bool × Env Host.plain => p.1 &&
      ((resolveDispute (.ofNat 2) : Op Host.plain Bool) (fun _ => false) p.2).toOption.any
        fun q : Bool × Env Host.plain => q.1 && decide ((q.2.stakeOf 3).val = 25))
    (by decide +kernel) with ⟨h, env, hs, hend⟩
  simp only [Bool.and_eq_true, Option.any_eq_true, decide_eq_true_eq] at hend
  rcases hend with ⟨hbefore, ⟨r₁, env₁⟩, h₁, rfl, ⟨r₂, env₂⟩, h₂, rfl, hafter⟩
  rcases resolutions_commute hs (Tokens.balances_paysFrom 0) (by decide)
    (.call rfl (toOption_eq_some.mp h₁)) (.call rfl (toOption_eq_some.mp h₂)) with
    ⟨env₁', env₂', h₂', h₁', hagrees⟩
  exact ⟨h, env, env₁', env₂', hs, hbefore, h₂', h₁', hagrees.stake 3 ▸ hafter⟩

end TrustFlow
