import TrustFlow.Crowdfund.Finality

/-!
# The target is announced once

Whether the target was announced is not stored.  A deposit compares the balance
before and after, so it announces the target when it lifts the balance over it;
and as long as deposits are accepted the balance does not fall.
-/

namespace Crowdfund

open Invocation Transition Purse

variable {A : Type} [DecidableEq A] {H : Host A}

/-! ### What a step emits -/

/-- The event `target_reached`. -/
abbrev Event.Reached (e : Event) : Prop := e.topics = ["target_reached"]

/-- How often the target was announced. -/
def Env.announcements (env : Env H) : Nat := env.events.countP fun e => decide e.Reached

/-- The events a transition adds, newest first. -/
def emitted (t : Move (Env H) (Label H)) : List Event :=
  t.post.events.take (t.post.events.length - t.pre.events.length)

def Announces (t : Move (Env H) (Label H)) : Prop := ∃ e ∈ emitted t, e.Reached

def Label.isDeposit : Label H → Bool
  | .call _ (.deposit ..) _ => true
  | _ => false

/-- A successful deposit after which the balance meets the target. -/
def Reaches (c : Campaign A) (t : Move (Env H) (Label H)) : Prop :=
  t.label.isDeposit = true ∧ c.target.val ≤ t.post.balance c.token

section Steps

variable {env env' : Env H} {c : Campaign A} {claimed claimed' : Bool} {l : Label H}
  {events : List Event} {user : A} {amount : I128}

theorem emitted_eq (h : env'.events = events ++ env.events) : emitted ⟨env, l, env'⟩ = events := by
  simp [emitted, h]

theorem announcements_eq (h : env'.events = events ++ env.events) :
    env'.announcements = events.countP (fun e => decide e.Reached) + env.announcements := by
  simp [Env.announcements, h]

/-- A deposit publishes the new balance, and announces the target when it lifts the
    balance over it. -/
theorem Env.Deposits.publishes (hd : env.Deposits c user amount env') :
    env.timestamp.val < c.deadline.val ∧ env'.timestamp = env.timestamp ∧
      env.balance c.token ≤ env'.balance c.token ∧
      ∃ pledged : I128, pledged.val = env'.balance c.token ∧ env'.events =
        (if env.balance c.token < c.target.val ∧ c.target.val ≤ pledged.val then
          [⟨["target_reached"], .amounts [pledged, c.target]⟩] else []) ++
        ⟨["pledged_amount_changed"], .amount pledged⟩ :: env.events := by
  cases hd with
  | @intro total pledged p hpos hopen _ _ hm hpledged =>
    have hle : env.balance c.token ≤ p.balance c.token H.contract := by
      have hb := hm.balance_eq c.token H.contract
      have hbalance : env.balance c.token = env.purse.balance c.token H.contract := rfl
      simp only [true_and, if_true] at hb
      split at hb <;> omega
    refine ⟨hopen, by simp, ?_, pledged, ?_, ?_⟩
    · simpa [Env.balance] using hle
    · simpa [Env.balance] using hpledged
    · unfold Env.announce
      split <;> rfl

/-- Steps that are no deposits announce nothing. -/
theorem Campaign.Step.quiet (hs : c.Step claimed env l claimed' env')
    (hl : l.isDeposit = false) :
    ∃ events, env'.events = events ++ env.events ∧ ∀ e ∈ events, ¬ e.Reached := by
  cases hs with
  | read | failed | close | tokens => exact ⟨[], rfl, by simp⟩
  | deposit => cases hl
  | refund hr =>
      cases hr with
      | @intro left => exact ⟨[⟨["pledged_amount_changed"], .amount left⟩], rfl, by simp⟩
  | payout hp =>
      cases hp with
      | intro => exact ⟨[], rfl, by simp⟩

theorem Campaign.Step.deposits (hs : c.Step claimed env l claimed' env')
    (hl : l.isDeposit = true) : ∃ user amount, env.Deposits c user amount env' := by
  cases hs with
  | read hread => cases hread <;> cases hl
  | deposit _ _ hd => exact ⟨_, _, hd⟩
  | refund | payout | failed | close | tokens => cases hl

/-- While deposits are accepted the balance does not fall. -/
theorem Campaign.Step.running (hs : c.Step claimed env l claimed' env')
    (hopen : env'.timestamp.val < c.deadline.val) :
    env.timestamp.val < c.deadline.val ∧ env.balance c.token ≤ env'.balance c.token := by
  cases hs with
  | read | failed => exact ⟨hopen, le_rfl⟩
  | deposit _ _ hd =>
      rcases hd.publishes with ⟨hopen, _, hle, _⟩
      exact ⟨hopen, hle⟩
  | refund hr =>
      have hover := (Env.stateOf_eq_expired.mp hr.expired).1
      cases hr with
      | intro =>
        have hopen : env.timestamp.val < c.deadline.val := hopen
        omega
  | payout hp =>
      have hover := (Env.stateOf_eq_success.mp hp.success).1
      cases hp with
      | intro =>
        have hopen : env.timestamp.val < c.deadline.val := hopen
        omega
  | close hle => exact ⟨hle.trans_lt hopen, le_rfl⟩
  | tokens hkeeps => exact ⟨hopen, hkeeps c.token⟩

end Steps

/-! ### Announced at most once -/

/-- What the events of a campaign say about its target. -/
structure Announced (h : History H) (env : Env H) (c : Campaign A) : Prop where
  once : env.announcements ≤ 1
  /-- Once it was announced the balance stays at the target while deposits are accepted. -/
  kept : env.timestamp.val < c.deadline.val → 0 < env.announcements →
    c.target.val ≤ env.balance c.token
  payload : ∀ e ∈ env.events, e.Reached → ∃ t ∈ h, ∃ pledged : I128,
    e ∈ emitted t ∧ e.data = .amounts [pledged, c.target] ∧
      pledged.val = t.post.balance c.token ∧ c.target.val ≤ pledged.val

section Once

variable {env env' env₀ : Env H} {h : History H} {c : Campaign A} {claimed claimed' : Bool}
  {l : Label H}

theorem Campaign.Step.announced (hs : c.Step claimed env l claimed' env')
    (ha : Announced h env c) : Announced (⟨env, l, env'⟩ :: h) env' c := by
  have hold {e : Event} (he : e ∈ env.events) (hreached : e.Reached) :
      ∃ t ∈ ⟨env, l, env'⟩ :: h, ∃ pledged : I128, e ∈ emitted t ∧
        e.data = .amounts [pledged, c.target] ∧ pledged.val = t.post.balance c.token ∧
        c.target.val ≤ pledged.val := by
    rcases ha.payload e he hreached with ⟨t, ht, hpayload⟩
    exact ⟨t, List.mem_cons_of_mem _ ht, hpayload⟩
  have honce := ha.once
  cases hl : l.isDeposit with
  | false =>
      rcases hs.quiet hl with ⟨events, hevents, hquiet⟩
      have hzero : events.countP (fun e => decide e.Reached) = 0 :=
        List.countP_eq_zero.mpr fun e he => by simpa using hquiet e he
      have hcount := announcements_eq hevents
      refine ⟨by omega, fun hopen hpos => ?_, fun e he hreached => ?_⟩
      · rcases hs.running hopen with ⟨hopen, hle⟩
        exact (ha.kept hopen (by omega)).trans hle
      · rw [hevents] at he
        rcases List.mem_append.mp he with he | he
        · exact absurd hreached (hquiet e he)
        · exact hold he hreached
  | true =>
      rcases hs.deposits hl with ⟨user, amount, hd⟩
      rcases hd.publishes with ⟨hopen, htime, hle, pledged, hpledged, hevents⟩
      have hkept := ha.kept hopen
      split at hevents
      · next hlifts =>
        have hevents : env'.events = [⟨["target_reached"], .amounts [pledged, c.target]⟩,
            ⟨["pledged_amount_changed"], .amount pledged⟩] ++ env.events := hevents
        have hcount : env'.announcements = 1 + env.announcements := announcements_eq hevents
        refine ⟨by omega, fun _ _ => by omega, fun e he hreached => ?_⟩
        rw [hevents] at he
        rcases List.mem_append.mp he with he | he
        · refine ⟨_, List.mem_cons_self, pledged, ?_, ?_, hpledged, hlifts.2⟩
          · rw [emitted_eq hevents]
            exact he
          · rcases List.mem_pair.mp he with rfl | rfl
            · rfl
            · exact absurd hreached (by simp)
        · exact hold he hreached
      · have hevents : env'.events =
            [⟨["pledged_amount_changed"], .amount pledged⟩] ++ env.events := hevents
        have hcount : env'.announcements = 0 + env.announcements := announcements_eq hevents
        refine ⟨by omega, fun _ hpos => ?_, fun e he hreached => ?_⟩
        · exact (hkept (by omega)).trans hle
        · rw [hevents] at he
          rcases List.mem_append.mp he with he | he
          · rw [List.mem_singleton] at he
            subst he
            exact absurd hreached (by simp)
          · exact hold he hreached

theorem Env.Blank.events {l : Label H} (hb : env.Blank) (hs : Step env l env') :
    env'.events = env.events := by
  cases hs with
  | failed | close | tokens => rfl
  | call _ hcall =>
      rcases hb.call hcall with ⟨_, _, _, _, _, rfl⟩
      rfl

theorem Announced.of_no_events (hevents : env.events = []) (c : Campaign A) :
    Announced h env c := by
  constructor
  · simp [Env.announcements, hevents]
  · simp [Env.announcements, hevents]
  · simp [hevents]

theorem Run.announced (hfresh : env₀.Fresh) (hr : Run Step env₀ h env)
    (hc : env.Stores c claimed) : Announced h env c :=
  Run.campaign_invariant (B := fun _ env => env.events = [])
    (P := fun h env c _ => Announced h env c) hfresh hfresh.no_events
    (fun hb hevents hs => (hb.events hs).trans hevents)
    (fun _ hevents => .of_no_events hevents _) (fun _ hP hs => hs.announced hP) hr hc

end Once

/-! ### Announced by the first deposit that reaches the target -/

/-- Nobody but depositors sent tokens to the contract. -/
def Undisturbed (tok : A) (h : History H) : Prop :=
  ∀ t ∈ h, ∀ n, t.label.leaves? tok = some n → n = t.pre.balance tok

/-- The announcing transitions are the first ones to reach the target. -/
def AnnouncedFirst (h : History H) (c : Campaign A) : Prop :=
  ∀ later t earlier, h = later ++ t :: earlier →
    (Announces t ↔ Reaches c t ∧ ∀ t' ∈ earlier, ¬ Reaches c t')

section First

variable {env env' env₀ : Env H} {h : History H} {c : Campaign A} {claimed claimed' : Bool}
  {l : Label H} {t : Move (Env H) (Label H)}

theorem AnnouncedFirst.cons (hf : AnnouncedFirst h c)
    (ht : Announces t ↔ Reaches c t ∧ ∀ t' ∈ h, ¬ Reaches c t') : AnnouncedFirst (t :: h) c := by
  intro later t' earlier heq
  cases later with
  | nil =>
      cases heq
      exact ht
  | cons x later =>
      rcases List.cons_eq_cons.mp heq with ⟨_, heq⟩
      exact hf later t' earlier heq

/-- Whether a deposit reached the target shows in the balance. -/
structure Reached (h : History H) (env : Env H) (c : Campaign A) : Prop where
  first : AnnouncedFirst h c
  shows : env.timestamp.val < c.deadline.val →
    (c.target.val ≤ env.balance c.token ↔ ∃ t ∈ h, Reaches c t)

theorem Campaign.Step.quiet_iff (hs : c.Step claimed env l claimed' env')
    (hl : l.isDeposit = false) :
    Announces ⟨env, l, env'⟩ ↔ Reaches c ⟨env, l, env'⟩ ∧ ∀ t ∈ h, ¬ Reaches c t := by
  rcases hs.quiet hl with ⟨events, hevents, hquiet⟩
  apply iff_of_false
  · rintro ⟨e, he, hreached⟩
    rw [emitted_eq hevents] at he
    exact hquiet e he hreached
  · rintro ⟨hreaches, _⟩
    cases hl.symm.trans hreaches.1

/-- Only a deposit moves the balance of an undisturbed campaign while it is running. -/
theorem Campaign.Step.still (hs : c.Step claimed env l claimed' env')
    (hl : l.isDeposit = false) (hopen : env'.timestamp.val < c.deadline.val)
    (hgift : ∀ n, l.leaves? c.token = some n → n = env.balance c.token) :
    env'.balance c.token = env.balance c.token := by
  have hopen := (hs.running hopen).1
  cases hs with
  | read | failed | close => rfl
  | deposit => cases hl
  | refund hr =>
      have hover := (Env.stateOf_eq_expired.mp hr.expired).1
      omega
  | payout hp =>
      have hover := (Env.stateOf_eq_success.mp hp.success).1
      omega
  | tokens => exact hgift _ rfl

theorem Campaign.Step.reached (hs : c.Step claimed env l claimed' env')
    (hgift : ∀ n, l.leaves? c.token = some n → n = env.balance c.token) (hr : Reached h env c) :
    Reached (⟨env, l, env'⟩ :: h) env' c := by
  cases hl : l.isDeposit with
  | false =>
      refine ⟨hr.first.cons (hs.quiet_iff hl), fun hopen => ?_⟩
      have hno : ¬ Reaches c ⟨env, l, env'⟩ := fun hreaches => by
        cases hl.symm.trans hreaches.1
      rw [hs.still hl hopen hgift, hr.shows (hs.running hopen).1]
      simp [hno]
  | true =>
      rcases hs.deposits hl with ⟨user, amount, hd⟩
      rcases hd.publishes with ⟨hopen, _, hle, pledged, hpledged, hevents⟩
      have hshows := hr.shows hopen
      have hreaches : Reaches c ⟨env, l, env'⟩ ↔ c.target.val ≤ env'.balance c.token := by
        simp [Reaches, hl]
      have hannounces : Announces ⟨env, l, env'⟩ ↔
          env.balance c.token < c.target.val ∧ c.target.val ≤ env'.balance c.token := by
        rw [← hpledged]
        rw [List.append_cons] at hevents
        rw [Announces, emitted_eq hevents]
        split
        · next hlifts => simp [hlifts]
        · next hlifts => simpa [Event.Reached] using hlifts
      refine ⟨hr.first.cons ?_, fun _ => ?_⟩
      · rw [hannounces, hreaches, ← not_le, hshows]
        constructor
        · rintro ⟨hnone, hmet⟩
          exact ⟨hmet, fun t ht hreach => hnone ⟨t, ht, hreach⟩⟩
        · rintro ⟨hmet, hnone⟩
          exact ⟨fun ⟨t, ht, hreach⟩ => hnone t ht hreach, hmet⟩
      · constructor
        · intro hmet
          exact ⟨_, List.mem_cons_self, hreaches.mpr hmet⟩
        · rintro ⟨t, ht, hreach⟩
          rcases List.mem_cons.mp ht with rfl | ht
          · exact hreach.2
          · exact (hshows.mpr ⟨t, ht, hreach⟩).trans hle

theorem Env.Blank.label_isDeposit (hb : env.Blank) (hs : Step env l env') :
    l.isDeposit = false := by
  cases hs with
  | failed | close | tokens => rfl
  | call _ hcall =>
      rcases hb.call hcall with ⟨_, _, _, _, rfl, _⟩
      rfl

/-- Before the terms are stored nothing was announced and nobody deposited. -/
structure Silent (tok : A) (start : Int) (h : History H) (env : Env H) : Prop where
  balance : env.balance tok = start
  no_deposits : ∀ t ∈ h, t.label.isDeposit = false
  no_announcements : ∀ t ∈ h, ¬ Announces t

theorem Silent.step {tok : A} {start : Int} (hsil : Silent tok start h env) (hb : env.Blank)
    (hs : Step env l env') (hgift : ∀ n, l.leaves? tok = some n → n = env.balance tok) :
    Silent tok start (⟨env, l, env'⟩ :: h) env' where
  balance := by
    rw [← hsil.balance]
    cases hs with
    | failed | close => rfl
    | tokens => exact hgift _ rfl
    | call _ hcall =>
        rcases hb.call hcall with ⟨_, _, _, _, _, rfl⟩
        rfl
  no_deposits t ht := by
    rcases List.mem_cons.mp ht with rfl | ht
    · exact hb.label_isDeposit hs
    · exact hsil.no_deposits t ht
  no_announcements t ht := by
    rcases List.mem_cons.mp ht with rfl | ht
    · have hevents : env'.events = [] ++ env.events := hb.events hs
      rintro ⟨e, he, _⟩
      rw [emitted_eq hevents] at he
      cases he
    · exact hsil.no_announcements t ht

theorem Silent.reached (hsil : Silent c.token start h (env.initialised c))
    (hstart : start < c.target.val) : Reached h (env.initialised c) c where
  first later t earlier heq := by
    have ht : t ∈ h := by simp [heq]
    apply iff_of_false (hsil.no_announcements t ht)
    rintro ⟨hreaches, _⟩
    cases (hsil.no_deposits t ht).symm.trans hreaches.1
  shows _ := by
    rw [hsil.balance]
    apply iff_of_false (not_le.mpr hstart)
    rintro ⟨t, ht, hreaches⟩
    cases (hsil.no_deposits t ht).symm.trans hreaches.1

theorem Undisturbed.cons {tok : A} (hu : Undisturbed tok (t :: h)) :
    (∀ n, t.label.leaves? tok = some n → n = t.pre.balance tok) ∧ Undisturbed tok h :=
  ⟨hu t List.mem_cons_self, fun t ht => hu t (List.mem_cons_of_mem _ ht)⟩

theorem Run.reached (hfresh : env₀.Fresh) (hr : Run Step env₀ h env) (hc : env.Stores c claimed)
    (hstart : env₀.balance c.token < c.target.val) (hu : Undisturbed c.token h) :
    Reached h env c := by
  refine Run.campaign_invariant
    (B := fun h env => ∀ tok, Undisturbed tok h → Silent tok (env₀.balance tok) h env)
    (P := fun h env c _ => env₀.balance c.token < c.target.val → Undisturbed c.token h →
      Reached h env c) hfresh ?_ ?_ ?_ ?_ hr hc hstart hu
  · exact fun tok _ => ⟨rfl, by simp, by simp⟩
  · intro h env l env' hb hB hs tok hu
    exact (hB tok hu.cons.2).step hb hs hu.cons.1
  · intro h env c _ hB hstart hu
    exact (hB c.token hu).reached hstart
  · intro h env l env' c claimed claimed' _ hP hs hstart hu
    exact hs.reached hu.cons.1 (hP hstart hu.cons.2)

/-- The target is announced at most once, with a balance that meets it; and when
    nobody sends tokens to the contract, neither before the run nor in it, by the
    first deposit that reaches the target. -/
theorem target_announced_once (hfresh : env₀.Fresh) (hr : Run Step env₀ h env)
    (hc : env.Stores c claimed) (htarget : 0 < c.target.val) :
    env.announcements ≤ 1 ∧
      (∀ e ∈ env.events, e.topics = ["target_reached"] → ∃ t ∈ h, ∃ pledged : I128,
        e ∈ emitted t ∧ e.data = .amounts [pledged, c.target] ∧
          pledged.val = t.post.balance c.token ∧ c.target.val ≤ pledged.val) ∧
      (env₀.balance c.token = 0 → Undisturbed c.token h → ∀ later t earlier,
        h = later ++ t :: earlier →
          (Announces t ↔ Reaches c t ∧ ∀ t' ∈ earlier, ¬ Reaches c t')) := by
  have ha := Run.announced hfresh hr hc
  refine ⟨ha.once, ha.payload, fun hzero hu => ?_⟩
  have hstart : env₀.balance c.token < c.target.val := by omega
  exact (Run.reached hfresh hr hc hstart hu).first

/-- The campaign of the plain host with the target 8. -/
def Campaign.modest : Campaign Nat := { Campaign.plain with target := .ofNat 8 }

/-- The second of three deposits announces the target. -/
theorem target_announced_once_sample : ∃ (h : History Host.plain) (env : Env Host.plain),
    Run Step Env.deployed h env ∧ env.announcements = 1 ∧ ∃ t₁ t₂ t₃ t₄, h = [t₁, t₂, t₃, t₄] ∧
      ¬ Announces t₁ ∧ Announces t₂ ∧ ¬ Announces t₃ := by
  rcases Env.exists_of_plays
    [.call (fun _ => false) (.initialise 5 (.ofNat 11) (.ofNat 8) 9),
     .call (fun a => a == 1) (.deposit 1 (.ofNat 6)),
     .call (fun a => a == 2) (.deposit 2 (.ofNat 4)),
     .call (fun a => a == 1) (.deposit 1 (.ofNat 6))]
    (fun h env => decide (env.Stores .modest false) &&
      (decide (env.announcements = 1) &&
      (decide (h.map (fun t => t.post.balance 9) = [16, 10, 6, 0]) &&
      (decide (h.map (fun t => t.label.isDeposit) = [true, true, true, false]) &&
      decide (h.map (fun t => t.label.leaves? 9) = [none, none, none, none])))))
    (by decide +kernel) with ⟨h, env, hr, hend⟩
  simp only [Bool.and_eq_true, decide_eq_true_eq] at hend
  rcases hend with ⟨hc, hcount, hbalance, hdeposits, hgifts⟩
  have hlength : h.length = 4 := by simpa using congrArg List.length hbalance
  rcases List.length_eq_four.mp hlength with ⟨t₁, t₂, t₃, t₄, rfl⟩
  simp only [List.map_cons, List.map_nil, List.cons.injEq, and_true] at hbalance hdeposits hgifts
  have hu : Undisturbed 9 [t₁, t₂, t₃, t₄] := by
    intro t ht n hn
    simp only [List.mem_cons, List.not_mem_nil, or_false] at ht
    rcases ht with rfl | rfl | rfl | rfl <;> simp_all
  have hfirst := (target_announced_once Env.deployed_fresh hr hc (by decide)).2.2 rfl hu
  have htarget : Campaign.modest.target.val = 8 := rfl
  have htoken : Campaign.modest.token = 9 := rfl
  have h₁ := hfirst [] t₁ [t₂, t₃, t₄] rfl
  have h₂ := hfirst [t₁] t₂ [t₃, t₄] rfl
  have h₃ := hfirst [t₁, t₂] t₃ [t₄] rfl
  refine ⟨_, env, hr, hcount, t₁, t₂, t₃, t₄, rfl, ?_, ?_, ?_⟩
  · rw [h₁]
    simp [Reaches, hbalance, hdeposits, htarget, htoken]
  · rw [h₂]
    simp [Reaches, hbalance, hdeposits, htarget, htoken]
  · rw [h₃]
    simp [Reaches, hbalance, hdeposits, htarget, htoken]

end First

end Crowdfund
