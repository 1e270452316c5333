import TrustFlow.Protocol.Governance
import TrustFlow.Lib.Refinement

/-!
# The settings

Who can change the settings, and who reads them.  The fee is read by the release;
the paused flag is read by nobody, so a run cannot tell whether it is set.
-/

namespace Protocol.Governance

open Invocation Transition

variable {A : Type}

/-! ### Changes of the settings -/

/-- The fee a request sets. -/
def Request.rate : Request A → Option U32
  | .setFeeBps _ feeBps => some feeBps
  | _ => none

def Request.pauses : Request A → Bool
  | .pause _ => true
  | _ => false

/-- The address a request has to be authorised by as the administrator. -/
def Request.governor : Request A → Option A
  | .setFeeBps admin _ => some admin
  | .pause admin => some admin
  | _ => none

variable [DecidableEq A] {H : Host A}

namespace Label

def rate : Label H → Option U32
  | .call _ q _ => q.rate
  | _ => none

def pauses : Label H → Bool
  | .call _ q _ => q.pauses
  | _ => false

end Label

/-- The fees a history set, the last one first. -/
def rates (h : History H) : List U32 := h.filterMap fun t => t.label.rate

section Steps

variable {auth : A → Bool} {s s' : State H} {l : Label H}

theorem Step.admin (hs : Step s l s') : s'.inst .admin = s.inst .admin := by
  cases hs with
  | call hc =>
      cases Request.effect hc with
      | paused => simp
      | raised | released | feeSet | priced | fresh => rfl
  | failed | close | tokens => rfl

theorem Step.rate (hs : Step s l s') :
    s'.env.get .feeBps = l.rate.or (s.env.get .feeBps) := by
  cases hs with
  | call hc =>
      cases Request.effect hc with
      | raised hraise =>
          rcases raiseDispute_eq_ok.mp hraise with ⟨_, e, _, _, _, rfl⟩
          simp [Env.disputed, Label.rate, Request.rate]
      | released hrelease =>
          rcases releaseToBeneficiary_eq_ok.mp hrelease with ⟨e, p, _, _, _, _, rfl⟩
          simp [Label.rate, Request.rate]
      | feeSet => simp [Label.rate, Request.rate]
      | paused | priced | fresh => rfl
  | failed | close | tokens => rfl

theorem Step.paused (hs : Step s l s') :
    s'.inst .paused = if l.pauses = true then some true else s.inst .paused := by
  cases hs with
  | call hc =>
      cases Request.effect hc with
      | paused => simp [Label.pauses, Request.pauses]
      | raised | released | feeSet | priced | fresh => rfl
  | failed | close | tokens => rfl

/-- The settings are changed by the administrator, and the fee within its bound. -/
theorem Step.governed {q : Request A} {r : Reply} {a : A} (hs : Step s (.call auth q r) s')
    (ha : q.governor = some a) :
    s.inst .admin = some a ∧ auth a = true ∧
      ∀ feeBps, q.rate = some feeBps → feeBps.val ≤ 1000 := by
  cases hs with
  | call hc =>
      cases Request.effect hc with
      | feeSet hauth hadmin hle =>
          cases ha
          refine ⟨hadmin, hauth, ?_⟩
          rintro _ ⟨⟩
          exact hle
      | paused hauth hadmin =>
          cases ha
          refine ⟨hadmin, hauth, ?_⟩
          rintro _ ⟨⟩
      | raised | released | priced | fresh => cases ha

end Steps

/-! ### The paused flag -/

/-- The two states differ in the paused flag at most. -/
structure SameButPaused (s s' : State H) : Prop where
  env : s'.env = s.env
  timestamp : s'.timestamp = s.timestamp
  inst : ∀ k, k ≠ .paused → s'.inst k = s.inst k

section Blind

variable {auth : A → Bool} {s s' t : State H} {l : Label H}

theorem SameButPaused.onEnv {α : Type} {x : Op H α} (h : SameButPaused s s') :
    Agree SameButPaused (onEnv x auth s) (Governance.onEnv x auth s') := by
  unfold Governance.onEnv
  rw [h.env]
  cases x auth s.env with
  | ok p => exact .returned ⟨rfl, h.timestamp, h.inst⟩
  | error e => exact .failed

theorem SameButPaused.read {α : Type} {f : State H → α} (h : SameButPaused s s')
    (hf : f s' = f s) :
    Agree SameButPaused ((reads f : Act H α) auth s) ((reads f : Act H α) auth s') := by
  show Agree _ (.ok (f s, s)) (.ok (f s', s'))
  rw [hf]
  exact .returned h

theorem SameButPaused.requireAdmin {caller : A} (h : SameButPaused s s') :
    Agree SameButPaused (requireAdmin caller auth s) (Governance.requireAdmin caller auth s') := by
  apply h.onEnv.bind
  intro _ _ _ h
  apply (h.read (h.inst .admin (by decide))).bind
  intro _ _ _ h
  apply (Agree.okOr h).bind
  intro _ _ _ h
  exact Agree.failIf h Iff.rfl

theorem SameButPaused.exec {q : Request A} (h : SameButPaused s s') :
    Agree SameButPaused (q.exec auth s) (q.exec auth s') := by
  cases q with
  | raiseDispute | releaseToBeneficiary => exact h.onEnv.bind fun _ _ _ h => .returned h
  | setFeeBps admin feeBps =>
      refine Agree.bind ?_ fun _ _ _ h => .returned h
      apply h.requireAdmin.bind
      intro _ _ _ h
      apply (Agree.failIf h Iff.rfl).bind
      intro _ _ _ h
      exact h.onEnv
  | pause admin =>
      refine Agree.bind ?_ fun _ _ _ h => .returned h
      apply h.requireAdmin.bind
      intro _ s s' h
      refine .returned ⟨h.env, h.timestamp, fun k hk => ?_⟩
      rw [State.inst_setInstance_of_ne hk, State.inst_setInstance_of_ne hk, h.inst k hk]
  | getXlmPriceUsd =>
      refine Agree.bind ?_ fun _ _ _ h => .returned h
      apply (h.read (h.inst .oracleAddress (by decide))).bind
      intro _ _ _ h
      apply (Agree.okOr h).bind
      intro _ _ _ h
      apply (h.read h.timestamp).bind
      intro _ _ _ h
      exact (Agree.failIf h Iff.rfl).bind fun _ _ _ h => .returned h
  | assertOracleFresh oracleTs =>
      refine Agree.bind ?_ fun _ _ _ h => .returned h
      apply (h.read h.timestamp).bind
      intro _ _ _ h
      exact Agree.failIf h Iff.rfl

end Blind

/-! ### Runs -/

/-- The same label, up to the fault of a failure. -/
inductive Alike : Label H → Label H → Prop
  | same {l : Label H} : Alike l l
  | failed {auth : A → Bool} {q : Request A} {fault fault' : Fault} :
      Alike (.failed auth q fault) (.failed auth q fault')

section Runs

variable {s s' s₀ : State H} {h later earlier : History H} {t : Move (State H) (Label H)}

/-- A step is matched from a state that differs in the paused flag. -/
theorem SameButPaused.matched {l : Label H} {t : State H} (h : SameButPaused s s')
    (hs : Step s l t) : ∃ l' t', Step s' l' t' ∧ SameButPaused t t' ∧ Alike l l' := by
  cases hs with
  | @call _ auth q r hc =>
      have hagree : Agree SameButPaused (q.exec auth s) (q.exec auth s') := h.exec
      rw [hc] at hagree
      generalize hc' : q.exec auth s' = o at hagree
      cases hagree with
      | returned ht => exact ⟨_, _, .call hc', ht, .same⟩
  | @failed auth q fault hc =>
      have hagree : Agree SameButPaused (q.exec auth s) (q.exec auth s') := h.exec
      rw [hc] at hagree
      generalize hc' : q.exec auth s' = o at hagree
      cases hagree with
      | failed => exact ⟨_, _, .failed hc', h, .failed⟩
  | @close n timestamp hle htime =>
      have hstep : Step s' (.close n timestamp) _ :=
        .close (by rw [h.env]; exact hle) (by rw [h.timestamp]; exact htime)
      refine ⟨_, _, hstep, ⟨?_, rfl, h.inst⟩, .same⟩
      show { s'.env with sequence := n } = { s.env with sequence := n }
      rw [h.env]
  | @tokens state =>
      have hstep : Step s' (.tokens state) _ := .tokens
      refine ⟨_, _, hstep, ⟨?_, h.timestamp, h.inst⟩, .same⟩
      show s'.env.setPurse _ = s.env.setPurse _
      rw [h.env]

theorem blind : Simulation (Step (H := H)) Step SameButPaused
    fun t new => ∃ u, new = [u] ∧ Alike t.label u.label where
  matched h hs := by
    obtain ⟨l', t', hstep, ht, halike⟩ := h.matched hs
    exact ⟨_, t', Run.single hstep, ht, _, rfl, halike⟩

theorem Step.sameButPaused {l : Label H} (hs : Step s l s') (hpause : l.pauses = true) :
    SameButPaused s' s := by
  cases hs with
  | call hc =>
      cases Request.effect hc with
      | paused => exact ⟨rfl, rfl, fun k hk => (State.inst_setInstance_of_ne hk).symm⟩
      | raised | released | feeSet | priced | fresh => cases hpause
  | failed | close | tokens => cases hpause

/-- What happens after a pause would have happened without it: every later request
    returns what it returns, fails where it fails, and moves the same tokens. -/
theorem pause_halts_nothing (hr : Run Step s₀ (later ++ t :: earlier) s)
    (hpause : t.label.pauses = true) :
    ∃ later' s', Run Step s₀ (later' ++ earlier) s' ∧ SameButPaused s s' ∧
      List.Forall₂ (fun t t' => Alike t.label t'.label) later later' := by
  obtain ⟨m, hfirst, hlater⟩ := hr.split
  obtain ⟨hearlier, hs, rfl⟩ := hfirst.last
  obtain ⟨later', s', hlater', hsame, hstands⟩ := blind.run (hs.sameButPaused hpause) hlater
  exact ⟨later', s', hearlier.append hlater', hsame, hstands.forall₂ fun _ _ h => h⟩

/-- The fourth request of the script pauses; the three after it fare as they did. -/
theorem pause_halts_nothing_sample : ∃ (later later' earlier : History Host.plain)
    (s s' : State Host.plain), later.length = 3 ∧ earlier.length = 3 ∧
      (∃ t, t.label.pauses = true ∧ Run Step State.seeded (later ++ t :: earlier) s) ∧
      Run Step State.seeded (later' ++ earlier) s' ∧ SameButPaused s s' ∧
      List.Forall₂ (fun t t' => Alike t.label t'.label) later later' := by
  rcases State.exists_of_plays State.script
    (fun h _ => decide (h.length = 7) && (h.drop 3).head?.any fun t => t.label.pauses)
    (by decide +kernel) with ⟨h, s, hr, hend⟩
  simp only [Option.any_eq_true, Bool.and_eq_true, decide_eq_true_eq] at hend
  obtain ⟨hlength, t, hhead, hpause⟩ := hend
  obtain ⟨earlier, hdrop⟩ := List.head?_eq_some_iff.mp hhead
  have hsplit : h = h.take 3 ++ t :: earlier := by rw [← hdrop, List.take_append_drop]
  have hearlier : (h.drop 3).length = earlier.length + 1 := by rw [hdrop, List.length_cons]
  rw [List.length_drop, hlength] at hearlier
  rw [hsplit] at hr
  obtain ⟨later', s', hr', hsame, halike⟩ := pause_halts_nothing hr hpause
  refine ⟨h.take 3, later', earlier, s, s', ?_, by omega, ⟨t, hpause, hr⟩, hr', hsame, halike⟩
  rw [List.length_take, hlength]
  rfl

/-- In every run the administrator is the one it started with; the fee is the last one
    set, and the flag is raised by the first pause and never lowered; whoever sets
    either is that administrator, and sets a fee of a tenth at most. -/
theorem settings_governed (hr : Run Step s₀ h s) :
    s.inst .admin = s₀.inst .admin ∧
      s.env.get .feeBps = (rates h).head?.or (s₀.env.get .feeBps) ∧
      s.inst .paused =
        (if h.any (fun t => t.label.pauses) = true then some true else s₀.inst .paused) ∧
      ∀ t ∈ h, ∀ auth q r a, t.label = .call auth q r → q.governor = some a →
        s₀.inst .admin = some a ∧ auth a = true ∧
          ∀ feeBps, q.rate = some feeBps → feeBps.val ≤ 1000 := by
  have hadmin {h : History H} {s : State H} (hr : Run Step s₀ h s) :
      s.inst .admin = s₀.inst .admin := by
    apply Run.invariant (P := fun s => s.inst .admin = s₀.inst .admin) rfl _ hr
    intro _ _ _ hP hs
    exact hs.admin.trans hP
  refine ⟨hadmin hr, ?_, ?_, fun t ht auth q r a hl ha => ?_⟩
  · exact Run.latest_or (c := fun s => s.env.get .feeBps) (fun hs => hs.rate) hr
  · refine Run.history_invariant (P := fun h s => s.inst .paused =
      (if h.any (fun t => t.label.pauses) = true then some true else s₀.inst .paused)) rfl ?_ hr
    intro h s l s' _ ih hs
    rw [hs.paused, ih, List.any_cons]
    cases l.pauses with
    | true => simp
    | false => simp
  · obtain ⟨later, earlier, -, hearlier, hs, -⟩ := hr.split_mem ht
    rw [hl] at hs
    obtain ⟨hgovernor, hauth, hbound⟩ := hs.governed ha
    exact ⟨(hadmin hearlier).symm.trans hgovernor, hauth, hbound⟩

theorem settings_governed_sample : ∃ (h : History Host.plain) (s : State Host.plain),
    Run Step State.seeded h s ∧ s.env.get .feeBps = some (U32.ofNat 100) ∧
      s.inst .paused = some true := by
  rcases State.exists_of_plays State.script
    (fun h _ => decide (rates h = [.ofNat 100]) && h.any fun t => t.label.pauses)
    (by decide +kernel) with ⟨h, s, hr, hend⟩
  simp only [Bool.and_eq_true, decide_eq_true_eq] at hend
  obtain ⟨hrates, hpaused⟩ := hend
  obtain ⟨-, hfee, hflag, -⟩ := settings_governed hr
  rw [hrates] at hfee
  rw [hpaused, if_pos rfl] at hflag
  exact ⟨h, s, hr, hfee, hflag⟩

end Runs

end Protocol.Governance
