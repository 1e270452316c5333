import TrustFlow.Files

/-!
# Deployments

A deployment starts from a fresh contract.  The contract refuses no second
`initialize`, so what the later modules prove of a deployment is proved of one
in which it succeeded once: then the only `initialize` acts on a blank book,
one in which nothing has been stored yet (`SingleInit.blank`).  This gives the
two invariant rules the later modules use, one for states and one for histories.

The last section plays a script of calls against an environment, which turns
concrete runs into computations.
-/

namespace TrustFlow

open Transition Purse

variable {A D : Type} [DecidableEq A] {H : Host A D}

/-- Nothing was stored or paid yet. -/
structure Book.Blank (b : Book H) : Prop where
  settings : b.settings = ⟨none, none, none, none, none, none, none⟩
  escrowCounter : b.escrowCounter = none
  file : ∀ id, b.file id = File.empty
  stake : ∀ juror, b.stake juror = 0
  slashCount : ∀ juror, b.slashCount juror = 0
  transfers : b.purse.transfers = []
  slashed : b.slashed = 0
  balance_nonneg : ∀ tok, 0 ≤ b.purse.balance tok H.self

theorem Env.Fresh.blank [DecidableEq D] {env : Env H} (h : env.Fresh) : env.book.Blank where
  settings := by simp [Env.book, Env.settings, h.instance_empty]
  escrowCounter := h.instance_empty _
  file id := by simp [Env.book, Book.file, File.empty, h.persistent_empty, h.no_events]
  stake juror := by simp [Env.book, Env.stakeOf, h.persistent_empty]
  slashCount juror := by simp [Env.book, Env.slashCountOf, h.persistent_empty]
  transfers := h.no_transfers
  slashed := by simp [Env.book, h.no_events]
  balance_nonneg := h.balance_nonneg

/-- A step of a deployment that is initialised once. -/
structure Book.Safe (b : Book H) (l : Label H) (b' : Book H) : Prop where
  step : b.Step l b'
  blank : l.Initialises = true → b.Blank

/-- Before it is initialised the contract stores nothing: every call that would
    reads a setting or a record it does not find. -/
theorem Book.Blank.step {b b' : Book H} {l : Label H} (hb : b.Blank) (h : b.Step l b')
    (hl : l.Initialises = false) : b'.Blank := by
  have hadmin : b.settings.admin = none := by rw [hb.settings]
  have htoken : b.settings.token = none := by rw [hb.settings]
  have hescrow (id : U64) : b.escrow id = none := congrArg File.escrow (hb.file id)
  have hdispute (id : U64) : b.dispute id = none := congrArg File.dispute (hb.file id)
  cases h with
  | idle => exact hb
  | configure h =>
      cases h with
      | setFeeBps _ h => cases hadmin.symm.trans h
      | setTreasury _ h => cases hadmin.symm.trans h
      | setPauser _ h => cases hadmin.symm.trans h
      | revokePauser _ h => cases hadmin.symm.trans h
      | pause _ h => cases hadmin.symm.trans h
      | unpause _ h => cases hadmin.symm.trans h
  | initialise => cases hl
  | close => exact { hb with }
  | tokens h => exact { hb with balance_nonneg := fun tok => (hb.balance_nonneg tok).trans (h tok) }
  | stake _ h =>
      cases h with
      | intro _ _ _ h => cases htoken.symm.trans h
  | unstake h =>
      cases h with
      | intro _ _ _ h => cases htoken.symm.trans h
  | opens _ _ h =>
      cases h.lock with
      | intro h' => cases htoken.symm.trans h'
  | release h =>
      cases h with
      | intro ht => cases (hescrow _).symm.trans ht.escrow_eq
  | raise h =>
      cases h with
      | intro _ _ h => cases (hescrow _).symm.trans h
  | commit _ h =>
      cases h with
      | intro _ _ _ h => cases (hdispute _).symm.trans h
  | reveal _ h =>
      cases h with
      | intro _ _ h => cases (hdispute _).symm.trans h
  | resolve h =>
      cases h with
      | intro _ h => cases (hdispute _).symm.trans h

variable [DecidableEq D]

namespace SingleInit

variable {env₀ env : Env H} {h later earlier : History H}

/-- As long as `initialize` has not succeeded the book is blank. -/
theorem blank_of_count (hfresh : env₀.Fresh) (hrun : Run Step env₀ h env)
    (h0 : h.countP (fun t => t.label.Initialises) = 0) : env.book.Blank := by
  induction hrun with
  | nil => exact hfresh.blank
  | @snoc h s l s' hrun hs ih =>
      rw [List.countP_cons] at h0
      have hl : l.Initialises = false := by
        by_contra hne
        simp [hne] at h0
      exact (ih (by omega)).step hs.book hl

/-- A deployment goes on with any step but an `initialize`. -/
theorem snoc {l : Label H} {env' : Env H} (hs : SingleInit env₀ h env) (hstep : Step env l env')
    (hl : l.Initialises = false) : SingleInit env₀ (⟨env, l, env'⟩ :: h) env' where
  fresh := hs.fresh
  run := hs.run.snoc hstep
  once := by
    have h1 := hs.once
    rw [List.countP_cons, if_neg (by simp [hl])]
    exact h1

/-- A deployment goes on with steps that do not initialise it again. -/
theorem extend {env' : Env H} (hs : SingleInit env₀ h env) (hr : Run Step env later env')
    (hinit : ∀ t ∈ later, t.label.Initialises = false) : SingleInit env₀ (later ++ h) env' := by
  induction hr with
  | nil => exact hs
  | snoc hr hstep ih =>
      have hrest := ih fun t ht => hinit t (List.mem_cons_of_mem _ ht)
      exact hrest.snoc hstep (hinit _ List.mem_cons_self)

/-- The tail of the history of a deployment is one. -/
theorem tail {t : Move (Env H) (Label H)} (hs : SingleInit env₀ (t :: h) env) :
    SingleInit env₀ h t.pre where
  fresh := hs.fresh
  run := hs.run.last.1
  once := by
    have h1 := hs.once
    rw [List.countP_cons] at h1
    omega

/-- Every step of a deployment is a safe step of its book. -/
theorem safe {t : Move (Env H) (Label H)} (hs : SingleInit env₀ (t :: h) env) :
    t.pre.book.Safe t.label t.post.book where
  step := hs.run.last.2.1.book
  blank hl := by
    have h1 := hs.once
    rw [List.countP_cons, if_pos hl] at h1
    exact blank_of_count hs.fresh hs.run.last.1 (by omega)

/-- An invariant of histories and books of a deployment. -/
theorem history_invariant {P : History H → Book H → Prop}
    (h0 : env₀.book.Blank → P [] env₀.book)
    (hstep : ∀ {h env l env'}, SingleInit env₀ h env → P h env.book →
      env.book.Safe l env'.book → P (⟨env, l, env'⟩ :: h) env'.book) :
    ∀ {h env}, SingleInit env₀ h env → P h env.book := by
  intro h
  induction h with
  | nil =>
      intro env hs
      cases hs.run
      exact h0 hs.fresh.blank
  | cons t h ih =>
      intro env hs
      have hpost : t.post = env := hs.run.last.2.2
      subst hpost
      exact hstep hs.tail (ih hs.tail) hs.safe

/-- A state invariant of a deployment: it holds of blank books and safe steps
    preserve it. -/
theorem invariant {P : Book H → Prop} (h0 : ∀ b, b.Blank → P b)
    (hstep : ∀ {b l b'}, P b → b.Safe l b' → P b') (hs : SingleInit env₀ h env) : P env.book :=
  history_invariant (P := fun _ b => P b) (h0 _) (fun _ hP hs => hstep hP hs) hs

/-- A deployment up to a point of its history. -/
theorem of_append (hs : SingleInit env₀ (later ++ earlier) env) :
    ∃ m, SingleInit env₀ earlier m ∧ Run Step m later env := by
  obtain ⟨m, hm, hm'⟩ := hs.run.split
  refine ⟨m, ⟨hs.fresh, hm, ?_⟩, hm'⟩
  have h1 := hs.once
  rw [List.countP_append] at h1
  omega

/-- A transition of the history, with the deployment before it. -/
theorem split_mem {t : Move (Env H) (Label H)} (hs : SingleInit env₀ h env) (ht : t ∈ h) :
    ∃ later earlier, h = later ++ t :: earlier ∧ SingleInit env₀ earlier t.pre ∧
      t.pre.book.Safe t.label t.post.book ∧ Run Step t.post later env := by
  obtain ⟨later, earlier, rfl⟩ := List.append_of_mem ht
  obtain ⟨m, hm, hm'⟩ := hs.of_append
  have hpost : t.post = m := hm.run.last.2.2
  exact ⟨later, earlier, rfl, hm.tail, hm.safe, hpost ▸ hm'⟩

end SingleInit

/-! ### Playing a script -/

inductive Action (A D : Type) where
  | call (auth : A → Bool) (c : Call A D)
  | close (sequence : U32)

namespace Env

/-- The step an action takes, when it can take one. -/
def act (env : Env H) : Action A D → Option (Label H × Env H)
  | .call auth c =>
      if auth H.self then none
      else match (c.exec : Op H c.Result) auth env with
        | .ok (r, env') => some (.call auth c r, env')
        | .error fault => some (.failed auth c fault, env)
  | .close n =>
      if env.sequence.val ≤ n.val then some (.close n, { env with sequence := n }) else none

/-- The run of a script, with its history. -/
def play (env : Env H) : List (Action A D) → Option (History H × Env H)
  | [] => some ([], env)
  | a :: script =>
      match env.act a with
      | some (l, env₁) =>
          match env₁.play script with
          | some (h, env') => some (h ++ [⟨env, l, env₁⟩], env')
          | none => none
      | none => none

theorem act_step {env env' : Env H} {a : Action A D} {l : Label H}
    (h : env.act a = some (l, env')) : Step env l env' := by
  cases a with
  | call auth c =>
      simp only [act] at h
      split at h
      · cases h
      · next hself =>
        have hself : auth H.self = false := by simpa using hself
        split at h
        · next r env₁ hc =>
          cases h
          exact .call hself hc
        · next fault hc =>
          cases h
          exact .failed hself hc
  | close n =>
      simp only [act] at h
      split at h
      · next hle =>
        cases h
        exact .close hle
      · cases h

theorem play_run {script : List (Action A D)} {env env' : Env H} {h : History H}
    (hp : env.play script = some (h, env')) : Run Step env h env' := by
  induction script generalizing env h with
  | nil =>
      cases hp
      exact .nil
  | cons a script ih =>
      simp only [play] at hp
      split at hp
      · next l env₁ ha =>
        split at hp
        · next h₁ env₂ hrest =>
          cases hp
          exact (Run.single (act_step ha)).append (ih hrest)
        · cases hp
      · cases hp

end Env

/-- The plainest host over addresses `Nat`: balances in a table, no compression,
    the contract at address 0. -/
def Host.plain : Host Nat (List UInt8) where
  self := 0
  tokens := Tokens.balances Nat
  sha256 := id
  defaultTtl := 0

/-- A fresh contract at ledger 1 on the plain host, where the addresses 1 to 5
    hold 1000 of every token. -/
def Env.deployed : Env Host.plain where
  sequence := 1
  instanceStore := .empty
  instanceLiveUntil := 0
  persistent := .empty
  purse := ⟨fun _ x => if 1 ≤ x ∧ x ≤ 5 then 1000 else 0, []⟩
  events := []

theorem Env.deployed_fresh : Env.deployed.Fresh where
  instance_empty _ := rfl
  persistent_empty _ := rfl
  no_transfers := rfl
  no_events := rfl
  balance_nonneg _ := le_rfl

/-- The script runs on the fresh contract, initialises it once at most, and ends
    as `p` says. -/
def Env.plays (script : List (Action Nat (List UInt8)))
    (p : History Host.plain → Env Host.plain → Bool) : Bool :=
  match Env.deployed.play script with
  | some (h, env) => decide (h.countP (fun t => t.label.Initialises) ≤ 1) && p h env
  | none => false

/-- Such a run is a deployment. -/
theorem Env.exists_of_plays (script : List (Action Nat (List UInt8)))
    (p : History Host.plain → Env Host.plain → Bool) (hp : Env.plays script p = true) :
    ∃ h env, SingleInit Env.deployed h env ∧ p h env = true := by
  unfold plays at hp
  split at hp
  · next h env hplay =>
    rcases Bool.and_eq_true_iff.mp hp with ⟨honce, hend⟩
    exact ⟨h, env, ⟨Env.deployed_fresh, Env.play_run hplay, of_decide_eq_true honce⟩, hend⟩
  · cases hp

end TrustFlow
