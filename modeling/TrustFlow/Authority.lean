import TrustFlow.Deployment

/-!
# Administrative authority

Which steps change the settings, and who authorises them.  `Step.on_settings`
sorts the steps of the book by what they do to the settings: nothing, an
administrative call, or `initialize`.  The administrative calls are the
admin's, except that a pauser may pause.  `initialize` is anybody's: it asks
for the authorisation of the admin it installs, not of the one it replaces.
-/

namespace TrustFlow

open Transition

variable {A D : Type}

namespace Settings

variable {s s' : Settings A} {auth : A → Bool} {c : Call A D}

theorem setPaused_eq (s : Settings A) (flag : Bool) :
    s.setPaused flag = { s with paused := (s.setPaused flag).paused } := by
  unfold setPaused
  split <;> rfl

theorem setPaused_isPaused (s : Settings A) (flag : Bool) : (s.setPaused flag).isPaused = flag := by
  unfold setPaused
  split
  · next h => exact h
  · rfl

/-- An administrative call is authorised by the admin or does no more than pause. -/
theorem Configures.by_admin_or_pauses (h : s.Configures auth c s') :
    (∃ admin, s.admin = some admin ∧ auth admin = true) ∨ s' = s.setPaused true := by
  cases h with
  | setFeeBps hauth hadmin => exact Or.inl ⟨_, hadmin, hauth⟩
  | setTreasury hauth hadmin => exact Or.inl ⟨_, hadmin, hauth⟩
  | setPauser hauth hadmin => exact Or.inl ⟨_, hadmin, hauth⟩
  | revokePauser hauth hadmin => exact Or.inl ⟨_, hadmin, hauth⟩
  | pause => exact Or.inr rfl
  | unpause hauth hadmin => exact Or.inl ⟨_, hadmin, hauth⟩

/-- Administrative calls leave the admin, the token and the slash rate alone. -/
theorem Configures.frame (h : s.Configures auth c s') :
    s'.admin = s.admin ∧ s'.token = s.token ∧ s'.slashBps = s.slashBps := by
  cases h with
  | setFeeBps | setTreasury | setPauser | revokePauser => exact ⟨rfl, rfl, rfl⟩
  | pause =>
      rw [s.setPaused_eq true]
      exact ⟨rfl, rfl, rfl⟩
  | unpause =>
      rw [s.setPaused_eq false]
      exact ⟨rfl, rfl, rfl⟩

/-- The fee rate stays within its maximum. -/
theorem Configures.feeBps_le (h : s.Configures auth c s')
    (h0 : (s.feeBps.getD DEFAULT_FEE_BPS).val ≤ 1000) :
    (s'.feeBps.getD DEFAULT_FEE_BPS).val ≤ 1000 := by
  cases h with
  | setFeeBps _ _ hle => exact hle
  | setTreasury | setPauser | revokePauser => exact h0
  | pause =>
      rw [s.setPaused_eq true]
      exact h0
  | unpause =>
      rw [s.setPaused_eq false]
      exact h0

end Settings

variable [DecidableEq A] {H : Host A D}

theorem Settings.Configures.initialises {s s' : Settings A} {auth : A → Bool} {c : Call A D}
    (h : s.Configures auth c s') (r : c.Result) :
    (Label.call auth c r : Label H).Initialises = false := by
  cases h <;> rfl

/-- What one step can do to the settings and the counter. -/
inductive Book.OnSettings (b : Book H) : Label H → Book H → Prop
  | untouched {l : Label H} {b' : Book H} (hl : l.Initialises = false)
      (h : b'.settings = b.settings) (hcounter : b.counter.val ≤ b'.counter.val) :
      OnSettings b l b'
  | configured {auth : A → Bool} {c : Call A D} {r : c.Result} {b' : Book H}
      (h : b.settings.Configures auth c b'.settings) (hcounter : b'.counter = b.counter) :
      OnSettings b (.call auth c r) b'
  | initialised {auth : A → Bool} {admin token : A} {slashBps : U32} {b' : Book H}
      (hself : auth H.self = false) (hauth : auth admin = true)
      (hbps : slashBps.val ≤ 10000)
      (h : b'.settings = b.settings.initialised admin token slashBps) (hcounter : b'.counter = 0) :
      OnSettings b (.call auth (.initialise admin token slashBps) ()) b'

theorem Book.Step.on_settings {b b' : Book H} {l : Label H} (h : b.Step l b') :
    b.OnSettings l b' := by
  cases h with
  | idle h =>
      refine .untouched ?_ rfl le_rfl
      cases l with
      | call auth c r => cases c <;> first | rfl | cases h
      | failed => rfl
      | close => rfl
      | tokens => rfl
  | configure h => exact .configured h rfl
  | initialise hself hauth hbps => exact .initialised hself hauth hbps rfl rfl
  | close => exact .untouched rfl rfl le_rfl
  | tokens => exact .untouched rfl rfl le_rfl
  | stake _ h => cases h; exact .untouched rfl rfl le_rfl
  | unstake h => cases h; exact .untouched rfl rfl le_rfl
  | @opens _ _ _ _ _ _ id _ _ hl h =>
      have hinit : l.Initialises = false := by cases hl <;> rfl
      cases h.lock with
      | intro _ _ hid =>
        refine .untouched hinit rfl ?_
        show _ ≤ id.val
        omega
  | release h => cases h; exact .untouched rfl rfl le_rfl
  | raise h => cases h; exact .untouched rfl rfl le_rfl
  | commit _ h => cases h; exact .untouched rfl rfl le_rfl
  | reveal _ h => cases h; exact .untouched rfl rfl le_rfl
  | resolve h =>
      cases h with
      | intro _ _ _ _ _ hslashes =>
        have hc := congrArg Book.escrowCounter hslashes.frame
        exact .untouched rfl hslashes.settings
          (congrArg (fun c : Option U64 => (c.getD 0).val) hc).ge

/-- Only `initialize` sets the token. -/
theorem Book.Step.token_eq {b b' : Book H} {l : Label H} (h : b.Step l b')
    (hinit : l.Initialises = false) : b'.settings.token = b.settings.token := by
  cases h.on_settings with
  | untouched _ hsame => rw [hsame]
  | configured hconf => exact hconf.frame.2.1
  | initialised => cases hinit

variable [DecidableEq D]

/-- A change only the admin should be able to make. -/
def AdminChange (t : Move (Env H) (Label H)) : Prop :=
  t.post.inst .admin ≠ t.pre.inst .admin ∨ t.post.inst .token ≠ t.pre.inst .token ∨
    t.post.inst .slashBps ≠ t.pre.inst .slashBps ∨ t.post.inst .feeBps ≠ t.pre.inst .feeBps ∨
    t.post.inst .treasury ≠ t.pre.inst .treasury ∨ t.post.inst .pauser ≠ t.pre.inst .pauser ∨
    t.post.escrowCounter.val < t.pre.escrowCounter.val ∨
    (t.pre.isPaused = true ∧ t.post.isPaused = false)

/-- A call authorised by the address stored as `Admin` before it. -/
def ByAdmin (t : Move (Env H) (Label H)) : Prop :=
  ∃ auth c r admin, t.label = .call auth c r ∧ t.pre.inst .admin = some admin ∧ auth admin = true

variable {env env' env₀ : Env H} {l : Label H} {h : History H}

/-- Once an admin is stored there always is one. -/
theorem Step.admin_isSome (h : Step env l env') (hadmin : (env.inst .admin).isSome = true) :
    (env'.inst .admin).isSome = true := by
  cases h.book.on_settings with
  | untouched _ hsame =>
      have hsame : env'.inst .admin = env.inst .admin := congrArg Settings.admin hsame
      rwa [hsame]
  | configured hconf =>
      have hsame : env'.inst .admin = env.inst .admin := hconf.frame.1
      rwa [hsame]
  | @initialised _ admin _ _ _ _ _ _ hset =>
      have hnew : env'.inst .admin = some admin := congrArg Settings.admin hset
      rw [hnew]
      rfl

/-- A step that is no `initialize` makes an administrative change only by the
    admin's authority. -/
theorem Step.byAdmin_of_not_initialises {t : Move (Env H) (Label H)}
    (h : Step t.pre t.label t.post) (hinit : t.label.Initialises = false) (hc : AdminChange t) :
    ByAdmin t := by
  obtain ⟨pre, l, post⟩ := t
  have hbook := h.book.on_settings
  have hcounter : post.escrowCounter.val < pre.escrowCounter.val →
      post.book.counter.val < pre.book.counter.val := id
  cases hbook with
  | untouched _ hsame hle =>
      -- nothing of what the change is about has changed
      rcases hc with h | h | h | h | h | h | h | ⟨h, h'⟩
      · exact absurd (congrArg Settings.admin hsame) h
      · exact absurd (congrArg Settings.token hsame) h
      · exact absurd (congrArg Settings.slashBps hsame) h
      · exact absurd (congrArg Settings.feeBps hsame) h
      · exact absurd (congrArg Settings.treasury hsame) h
      · exact absurd (congrArg Settings.pauser hsame) h
      · exact absurd (hcounter h) hle.not_gt
      · have hp : post.isPaused = pre.isPaused := congrArg Settings.isPaused hsame
        rw [hp, h] at h'
        cases h'
  | @configured auth c r _ hconf hsame =>
      rcases hconf.by_admin_or_pauses with ⟨admin, hadmin, hauth⟩ | hpause
      · exact ⟨auth, c, r, admin, rfl, hadmin, hauth⟩
      · -- a pause changes the flag only, and only to true
        have hset := hpause.trans (Settings.setPaused_eq _ _)
        rcases hc with h | h | h | h | h | h | h | ⟨h, h'⟩
        · exact absurd (congrArg Settings.admin hset) h
        · exact absurd (congrArg Settings.token hset) h
        · exact absurd (congrArg Settings.slashBps hset) h
        · exact absurd (congrArg Settings.feeBps hset) h
        · exact absurd (congrArg Settings.treasury hset) h
        · exact absurd (congrArg Settings.pauser hset) h
        · exact absurd (hcounter h) (by rw [hsame]; exact lt_irrefl _)
        · have hp : post.isPaused = true :=
            (congrArg Settings.isPaused hpause).trans (Settings.setPaused_isPaused _ _)
          rw [hp] at h'
          cases h'
  | initialised => cases hinit

/-- An `initialize` nobody but the installed admin authorised is an administrative
    change. -/
theorem Step.adminChange_of_initialises {t : Move (Env H) (Label H)}
    (h : Step t.pre t.label t.post) (hinit : t.label.Initialises = true)
    (hadmin : (t.pre.inst .admin).isSome = true) : ByAdmin t ∨ AdminChange t := by
  obtain ⟨pre, l, post⟩ := t
  cases h.book.on_settings with
  | untouched hl => cases hl.symm.trans hinit
  | @configured _ _ r _ hconf => cases (hconf.initialises r).symm.trans hinit
  | @initialised auth admin token slashBps _ hself hauth hbps hset =>
      have hpost : post.inst .admin = some admin := congrArg Settings.admin hset
      by_cases heq : pre.inst .admin = some admin
      · exact Or.inl ⟨auth, .initialise admin token slashBps, (), admin, rfl, heq, hauth⟩
      · refine Or.inr (Or.inl ?_)
        show post.inst .admin ≠ pre.inst .admin
        rw [hpost]
        exact Ne.symm heq

/-- The administrative changes of a run are the admin's exactly when every
    `initialize` in it is authorised by the admin it finds. -/
theorem admin_changes_by_admin_iff (hadmin : (env₀.inst .admin).isSome = true)
    (hrun : Run Step env₀ h env) :
    (∀ t ∈ h, AdminChange t → ByAdmin t) ↔
      ∀ t ∈ h, t.label.Initialises = true → ByAdmin t := by
  constructor
  · intro hall t ht hinit
    obtain ⟨later, earlier, rfl, hearlier, hstep, -⟩ := hrun.split_mem ht
    have hpre : (t.pre.inst .admin).isSome = true :=
      Run.invariant (P := fun env : Env H => (env.inst .admin).isSome = true) hadmin
        (fun hP hs => hs.admin_isSome hP) hearlier
    rcases hstep.adminChange_of_initialises hinit hpre with h | h
    · exact h
    · exact hall t ht h
  · intro hall t ht hc
    cases hinit : t.label.Initialises with
    | true => exact hall t ht hinit
    | false => exact (hrun.step_of_mem ht).byAdmin_of_not_initialises hinit hc

/-! ### A take-over -/

/-- The address 1 initialises the contract for the token 9. -/
def initialisation : List (Action Nat (List UInt8)) :=
  [.call (fun a => a == 1) (.initialise 1 9 DEFAULT_SLASH_BPS)]

/-- The address 3, which is not the admin, initialises the contract again, for
    itself and for the token 8. -/
theorem outsider_changes_admin :
    ¬ ∀ {env₀ env : Env Host.plain} {h : History Host.plain},
      (env₀.inst .admin).isSome = true → Run Step env₀ h env →
      ∀ t ∈ h, AdminChange t → ByAdmin t := by
  intro hall
  obtain ⟨h₀, env₀, hplay₀⟩ : ∃ h env, Env.deployed.play initialisation = some (h, env) :=
    ⟨_, _, rfl⟩
  obtain ⟨h, env, hplay⟩ : ∃ h env, env₀.play
      [.call (fun a => a == 3) (.initialise 3 8 DEFAULT_SLASH_BPS)] = some (h, env) :=
    ⟨_, _, rfl⟩
  have hadmin : env₀.inst .admin = some 1 := by
    cases hplay₀
    rfl
  obtain ⟨t, hh, hpre, hpost, hl⟩ : ∃ t, h = [t] ∧ t.pre = env₀ ∧ t.post.inst .admin = some 3 ∧
      t.label = .call (fun a => a == 3) (.initialise 3 8 DEFAULT_SLASH_BPS) () := by
    cases hplay
    exact ⟨_, rfl, rfl, rfl, rfl⟩
  have hchange : AdminChange t := by
    apply Or.inl
    rw [hpost, hpre, hadmin]
    decide
  have hby := hall (by rw [hadmin]; rfl) (Env.play_run hplay) t (by simp [hh]) hchange
  obtain ⟨auth, c, r, admin, hl', hstored, hauth⟩ := hby
  rw [hpre, hadmin] at hstored
  cases hstored
  rw [hl] at hl'
  cases hl'
  cases hauth

/-- The rule applied to a run in which the admin sets the fee. -/
theorem admin_changes_by_admin_sample :
    ∃ (env₀ env : Env Host.plain) (h : History Host.plain), h.length = 1 ∧
      Run Step env₀ h env ∧ env.feeBps.val = 7 ∧ ∀ t ∈ h, AdminChange t → ByAdmin t := by
  obtain ⟨h₀, env₀, hplay₀⟩ : ∃ h env, Env.deployed.play initialisation = some (h, env) :=
    ⟨_, _, rfl⟩
  obtain ⟨h, env, hplay⟩ : ∃ h env, env₀.play
      [.call (fun a => a == 1) (.setFeeBps 1 ⟨7, by decide, by decide⟩)] = some (h, env) := by
    cases hplay₀
    exact ⟨_, _, rfl⟩
  have hadmin : (env₀.inst .admin).isSome = true := by
    cases hplay₀
    rfl
  have hrun := Env.play_run hplay
  refine ⟨env₀, env, h, ?_, hrun, ?_, (admin_changes_by_admin_iff hadmin hrun).mpr ?_⟩
  · cases hplay₀
    cases hplay
    rfl
  · cases hplay₀
    cases hplay
    rfl
  · cases hplay₀
    cases hplay
    simp [Label.Initialises]

end TrustFlow
