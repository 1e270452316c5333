import TrustFlow.Abundance.Journal

/-!
# The administrator and the metadata

`initialise` appoints the first administrator and describes the token, and
`set_admin` hands the office on.  Both cells are read off the history: the
administrator is whom the last such call appointed, and the token is described
once.
-/

namespace Abundance

open Invocation Transition

variable {A : Type} {H : Host}

/-! ### Appointments and descriptions -/

namespace Call

/-- The administrator a call appoints. -/
def appoints : Call A → Option A
  | .initialise admin _ _ _ => some admin
  | .setAdmin newAdmin => some newAdmin
  | _ => none

/-- The metadata a call writes. -/
def describes : Call A → Option TokenMetadata
  | .initialise _ decimal tokenName tokenSymbol => some ⟨decimal, tokenName, tokenSymbol⟩
  | _ => none

end Call

namespace Label

def appoints : Label A H → Option A
  | .call _ c _ => c.appoints
  | _ => none

def describes : Label A H → Option TokenMetadata
  | .call _ c _ => c.describes
  | _ => none

/-- A question about the token that was answered, and what it says of the metadata. -/
inductive Answers : Label A H → (TokenMetadata → Prop) → Prop
  | decimals {auth : A → Bool} {n : U32} :
      Answers (.call auth .decimals n) fun m => m.decimal = n
  | name {auth : A → Bool} {s : String} : Answers (.call auth .name s) fun m => m.name = s
  | symbol {auth : A → Bool} {s : String} : Answers (.call auth .symbol s) fun m => m.symbol = s

end Label

/-- The administrators of a history, the last one first. -/
def administrators (h : History A H) : List A := h.filterMap fun t => t.label.appoints

/-- What the calls of a history wrote as metadata. -/
def descriptions (h : History A H) : List TokenMetadata := h.filterMap fun t => t.label.describes

/-- Whoever describes the token appoints its administrator. -/
theorem descriptions_of_administrators {h : History A H}
    (hnone : administrators h = []) : descriptions h = [] := by
  apply List.filterMap_eq_nil_iff.mpr
  intro t ht
  have hl : t.label.appoints = none := List.filterMap_eq_nil_iff.mp hnone t ht
  cases hlabel : t.label with
  | call auth c r =>
      rw [hlabel] at hl
      cases c with
      | initialise => cases hl
      | _ => rfl
  | _ => rfl

/-! ### What a step does to the two cells -/

variable [DecidableEq A]

section Cells

variable {auth : A → Bool} {env env' : Env A H} {c : Call A} {r : c.Result} {l : Label A H}

theorem Call.cells (h : c.exec auth env = .ok (r, env')) :
    env'.inst .admin = c.appoints.or (env.inst .admin) ∧
      env'.metadata = c.describes.or env.metadata := by
  have hkept {g} (hg : Acts Env.standing g (c.exec : Op A H c.Result))
      (hstore : ∀ s, (g s).1 = s.1) (hmeta : ∀ s, (g s).2.1 = s.2.1) :
      env'.instanceStore = env.instanceStore ∧ env'.metadata = env.metadata := by
    have hstanding := hg.eq h
    exact ⟨(congrArg (fun s => s.1) hstanding).trans (hstore _),
      (congrArg (fun s => s.2.1) hstanding).trans (hmeta _)⟩
  have hsame (hsame : env'.instanceStore = env.instanceStore ∧ env'.metadata = env.metadata) :
      env'.inst .admin = none.or (env.inst .admin) ∧ env'.metadata = none.or env.metadata := by
    rw [Env.inst, hsame.1]
    exact ⟨rfl, hsame.2⟩
  cases c with
  | initialise =>
      have hstanding := (initialise_standing h).2.2
      have hstore : env'.instanceStore = _ := congrArg (fun s => s.1) hstanding
      rw [Env.inst, hstore]
      exact ⟨FiniteMap.find?_insert_self .., congrArg (fun s => s.2.1) hstanding⟩
  | setAdmin =>
      rcases setAdmin_standing h with ⟨_, _, _, hstanding⟩
      have hstore : env'.instanceStore = _ := congrArg (fun s => s.1) hstanding
      rw [Env.inst, hstore]
      exact ⟨FiniteMap.find?_insert_self .., congrArg (fun s => s.2.1) hstanding⟩
  | mint => exact hsame (hkept mint_acts (fun _ => rfl) fun _ => rfl)
  | allowance => exact hsame (hkept allowance_keeps (fun _ => rfl) fun _ => rfl)
  | approve => exact hsame (hkept approve_acts (fun _ => rfl) fun _ => rfl)
  | balance | spendableBalance => exact hsame (hkept balance_keeps (fun _ => rfl) fun _ => rfl)
  | transfer => exact hsame (hkept transfer_acts (fun _ => rfl) fun _ => rfl)
  | transferFrom => exact hsame (hkept transferFrom_acts (fun _ => rfl) fun _ => rfl)
  | burn => exact hsame (hkept burn_acts (fun _ => rfl) fun _ => rfl)
  | burnFrom => exact hsame (hkept burnFrom_acts (fun _ => rfl) fun _ => rfl)
  | decimals | name | symbol =>
      exact hsame (hkept (getMetadata_keeps.bind fun _ => Keeps.pure) (fun _ => rfl) fun _ => rfl)

theorem Step.admin (hs : Step env l env') :
    env'.inst .admin = l.appoints.or (env.inst .admin) := by
  cases hs with
  | call hc => exact (Call.cells hc).1
  | failed | close | prolong => rfl

theorem Step.metadata (hs : Step env l env') : env'.metadata = l.describes.or env.metadata := by
  cases hs with
  | call hc => exact (Call.cells hc).2
  | failed | close | prolong => rfl

/-- Only a token without an administrator is described. -/
theorem Step.describes {m : TokenMetadata} (hs : Step env l env') (hm : l.describes = some m) :
    env.inst .admin = none ∧ m.decimal.val ≤ 255 := by
  cases hs with
  | @call _ _ c _ hc =>
      cases c with
      | initialise =>
          rcases initialise_standing hc with ⟨hnone, hdecimal, _⟩
          cases hm
          exact ⟨hnone, hdecimal⟩
      | _ => cases hm
  | failed | close | prolong => cases hm

/-- The office is handed on by whom it belongs to. -/
theorem Step.hands_on {newAdmin : A} {u : Unit}
    (hs : Step env (.call auth (.setAdmin newAdmin) u) env') :
    ∃ admin, env.inst .admin = some admin ∧ auth admin = true := by
  cases hs with
  | call hc =>
      rcases setAdmin_standing hc with ⟨admin, hadmin, hauth, _⟩
      exact ⟨admin, hadmin, hauth⟩

/-- A question is answered from the metadata. -/
theorem Step.answers {P : TokenMetadata → Prop} (hs : Step env l env') (hl : l.Answers P) :
    ∃ m, env.metadata = some m ∧ P m := by
  cases hl with
  | decimals =>
      cases hs with
      | call hc =>
        simp only [Call.exec, decimals, readDecimal, bind_eq_ok, getMetadata_eq_ok,
          pure_eq_ok] at hc
        rcases hc with ⟨m, _, ⟨hm, rfl⟩, rfl, rfl⟩
        exact ⟨m, hm, rfl⟩
  | name =>
      cases hs with
      | call hc =>
        simp only [Call.exec, name, readName, bind_eq_ok, getMetadata_eq_ok, pure_eq_ok] at hc
        rcases hc with ⟨m, _, ⟨hm, rfl⟩, rfl, rfl⟩
        exact ⟨m, hm, rfl⟩
  | symbol =>
      cases hs with
      | call hc =>
        simp only [Call.exec, symbol, readSymbol, bind_eq_ok, getMetadata_eq_ok, pure_eq_ok] at hc
        rcases hc with ⟨m, _, ⟨hm, rfl⟩, rfl, rfl⟩
        exact ⟨m, hm, rfl⟩

end Cells

/-! ### Runs -/

section Runs

variable {env env₀ : Env A H} {h : History A H}

theorem Run.admin (hfresh : env₀.Fresh) (hr : Run Step env₀ h env) :
    env.inst .admin = (administrators h).head? :=
  Run.latest (c := fun env => env.inst .admin) (hfresh.no_instance _)
    (fun hs => hs.admin) hr

theorem Run.metadata (hfresh : env₀.Fresh) (hr : Run Step env₀ h env) :
    env.metadata = (descriptions h).head? :=
  Run.latest hfresh.no_metadata (fun hs => hs.metadata) hr

theorem Run.undescribed (hfresh : env₀.Fresh) (hr : Run Step env₀ h env)
    (hnone : env.inst .admin = none) : descriptions h = [] := by
  rw [Run.admin hfresh hr, List.head?_eq_none_iff] at hnone
  exact descriptions_of_administrators hnone

theorem Run.described_once (hfresh : env₀.Fresh) (hr : Run Step env₀ h env) :
    (descriptions h).length ≤ 1 := by
  refine Run.history_invariant (P := fun h _ => (descriptions h).length ≤ 1) ?_ ?_ hr
  · exact Nat.zero_le 1
  · intro h env l env' hr ih hs
    rw [descriptions, List.filterMap_cons]
    cases hm : l.describes with
    | none => exact ih
    | some m =>
        have hempty : descriptions h = [] := Run.undescribed hfresh hr (hs.describes hm).1
        rw [descriptions] at hempty
        rw [hempty]
        exact le_rfl

/-- The token is described from the moment it has an administrator. -/
theorem Run.described (hfresh : env₀.Fresh) (hr : Run Step env₀ h env) :
    env.metadata.isSome = (env.inst .admin).isSome := by
  refine Run.invariant (P := fun env : Env A H => env.metadata.isSome = (env.inst .admin).isSome)
    ?_ ?_ hr
  · rw [hfresh.no_metadata, hfresh.no_instance]
    rfl
  · intro env l env' ih hs
    rw [hs.metadata, hs.admin, Option.isSome_or, Option.isSome_or, ih]
    cases hl : l with
    | call auth c r =>
        cases c with
        | setAdmin =>
            subst hl
            rcases hs.hands_on with ⟨admin, hadmin, _⟩
            rw [hadmin, Option.isSome_some, Bool.or_true, Bool.or_true]
        | _ => rfl
    | _ => rfl

/-- The administrator is the one appointed last, and only the one in office appoints
    another.  `initialise` goes through once at most: what it says of the token is
    what every question is answered with from then on. -/
theorem administration (hfresh : env₀.Fresh) (hr : Run Step env₀ h env) :
    env.inst .admin = (administrators h).head? ∧ env.metadata = (descriptions h).head? ∧
      env.metadata.isSome = (env.inst .admin).isSome ∧ (descriptions h).length ≤ 1 ∧
      (∀ m ∈ descriptions h, m.decimal.val ≤ 255) ∧
      (∀ t ∈ h, ∀ P, t.label.Answers P → ∃ m ∈ descriptions h, P m) ∧
      ∀ later t earlier, h = later ++ t :: earlier →
        (∀ m, t.label.describes = some m → administrators earlier = []) ∧
        ∀ auth newAdmin u, t.label = .call auth (.setAdmin newAdmin) u →
          ∃ admin, (administrators earlier).head? = some admin ∧ auth admin = true := by
  refine ⟨Run.admin hfresh hr, Run.metadata hfresh hr, Run.described hfresh hr,
    Run.described_once hfresh hr, ?_, ?_, ?_⟩
  · intro m hm
    rcases List.mem_filterMap.mp hm with ⟨t, ht, hl⟩
    exact ((hr.step_of_mem ht).describes hl).2
  · intro t ht P hl
    rcases hr.split_mem ht with ⟨later, earlier, rfl, hearlier, hs, _⟩
    rcases hs.answers hl with ⟨m, hm, hP⟩
    have hmem : m ∈ descriptions earlier := by
      rw [Run.metadata hfresh hearlier] at hm
      exact List.mem_of_mem_head? hm
    refine ⟨m, ?_, hP⟩
    rcases List.mem_filterMap.mp hmem with ⟨t', ht', hl'⟩
    exact List.mem_filterMap.mpr ⟨t', List.mem_append_right _ (List.mem_cons_of_mem _ ht'), hl'⟩
  · rintro later t earlier rfl
    rcases hr.split with ⟨_, hfirst, _⟩
    rcases hfirst.last with ⟨hearlier, hs, _⟩
    constructor
    · intro m hm
      have hnone := (hs.describes hm).1
      rwa [Run.admin hfresh hearlier, List.head?_eq_none_iff] at hnone
    · intro auth newAdmin u hl
      rw [hl] at hs
      rcases hs.hands_on with ⟨admin, hadmin, hauth⟩
      rw [Run.admin hfresh hearlier] at hadmin
      exact ⟨admin, hadmin, hauth⟩

/-- Address 9 is appointed and hands on to address 8, which is asked for nothing more. -/
theorem administration_sample : ∃ (h : History Nat Host.plain) (env : Env Nat Host.plain),
    Run Step Env.deployed h env ∧ administrators h = [8, 9] ∧ env.inst .admin = some 8 ∧
      env.metadata = some ⟨.ofNat 7, "Abundance", "ABND"⟩ := by
  rcases Env.exists_of_plays
    [.call (fun _ => false) (.initialise 9 (.ofNat 7) "Abundance" "ABND"),
      .call (fun x => x == 9) (.setAdmin 8), .call (fun _ => false) .decimals,
      .call (fun x => x == 9) (.setAdmin 9),
      .call (fun _ => true) (.initialise 5 (.ofNat 2) "Other" "OTH")]
    (fun h _ => decide (administrators h = [8, 9]) &&
      decide (descriptions h = [⟨.ofNat 7, "Abundance", "ABND"⟩])) (by decide +kernel) with
    ⟨h, env, hr, hend⟩
  simp only [Bool.and_eq_true, decide_eq_true_eq] at hend
  rcases hend with ⟨hadmins, hdescriptions⟩
  have hall := administration Env.deployed_fresh hr
  rw [hadmins, hdescriptions] at hall
  exact ⟨h, env, hr, hadmins, hall.1, hall.2.1⟩

end Runs

end Abundance
