import TrustFlow.Lib.Run
import TrustFlow.Protocol.Contract

/-!
# Disputes and release

What `raise_dispute` and `release_to_beneficiary` do to the status of an escrow,
over any sequence of calls of the two.  A raised dispute keeps the escrow
`Disputed` until it is released, and a released escrow stays `Released`; but
nothing in the release asks whether the escrow is disputed, so a dispute halts
releases only where none is called.
-/

namespace Protocol

open Invocation Transition Purse

variable {A : Type} [DecidableEq A] {H : Host A}

/-! ### The two calls -/

section Calls

variable {auth : A → Bool} {env env' : Env H} {id : U64} {e : EscrowRecord A}

/-- `env.storage().persistent().get(Escrow(id))`, its status only. -/
def Env.status (env : Env H) (id : U64) : Option EscrowStatus :=
  (env.get (.escrow id)).map EscrowRecord.status

theorem Env.status_of_get (h : env.get (.escrow id) = some e) : env.status id = some e.status := by
  rw [status, h, Option.map_some]

/-- What the release of `e` pays: its amount less the fee, where both fit. -/
def Env.Payout (env : Env H) (e : EscrowRecord A) (payout : I128) : Prop :=
  ∃ product, e.amount.checkedMul ((env.get .feeBps).getD (.ofNat 50)).toI128 = some product ∧
    e.amount.checkedSub (I128.quot product (.ofNat 10000)) = some payout

theorem Env.Payout.unique {n n' : I128} (h : env.Payout e n) (h' : env.Payout e n') : n = n' := by
  rcases h with ⟨product, hproduct, hpayout⟩
  rcases h' with ⟨product', hproduct', hpayout'⟩
  cases hproduct.symm.trans hproduct'
  exact Option.some.inj (hpayout.symm.trans hpayout')

/-- What `raise_dispute` writes. -/
def Env.disputed (env : Env H) (e : EscrowRecord A) (id : U64) (caller : A) (reason : String) :
    Env H :=
  ((((env.setPersistent (.escrow id) { e with status := .disputed }).extendTtl
    (.escrow id)).setPersistent (.dispute id) ⟨id, caller, reason, false, false⟩).extendTtl
    (.dispute id)).publish ("disputed", id) caller

@[simp] theorem requireAuth_eq_ok {a : A} {u : Unit} :
    (requireAuth a : Op H Unit) auth env = .ok (u, env') ↔ auth a = true ∧ env' = env := by
  unfold requireAuth
  split
  · next h => simp [h, eq_comm]
  · next h => simp [h]

@[simp] theorem tokenTransfer_eq_ok {tok src dst : A} {n : I128} {u : Unit} :
    (tokenTransfer tok src dst n : Op H Unit) auth env = .ok (u, env') ↔
      ∃ p, Moves tok src dst n env.purse p ∧ env' = env.setPurse p := by
  unfold tokenTransfer
  constructor
  · intro h
    split at h
    · next s hs =>
      cases h
      exact ⟨_, .intro hs, rfl⟩
    · cases h
  · rintro ⟨_, ⟨hs⟩, rfl⟩
    rw [hs]

theorem raiseDispute_eq_ok {caller : A} {reason : String} {u : Unit} :
    raiseDispute id caller reason auth env = .ok (u, env') ↔
      auth caller = true ∧ ∃ e, env.get (.escrow id) = some e ∧
        (caller = e.depositor ∨ caller = e.beneficiary) ∧ e.status = .active ∧
        env' = env.disputed e id caller reason := by
  simp only [raiseDispute, persistentGet, persistentSet, extendTtl, publish, bind_eq_ok,
    requireAuth_eq_ok, reads_eq_ok, okOr_eq_ok, failIf_eq_ok, modify_eq_ok]
  constructor
  · rintro ⟨_, _, ⟨hauth, rfl⟩, _, _, ⟨rfl, rfl⟩, e, _, ⟨he, rfl⟩, _, _, ⟨hparty, rfl⟩, _, _,
      ⟨hactive, rfl⟩, _, _, rfl, _, _, rfl, _, _, rfl, _, _, rfl, rfl⟩
    refine ⟨hauth, e, he, ?_, not_not.mp hactive, rfl⟩
    rw [not_and_or, not_not, not_not] at hparty
    exact hparty
  · rintro ⟨hauth, e, he, hparty, hactive, rfl⟩
    refine ⟨(), _, ⟨hauth, rfl⟩, _, _, ⟨rfl, rfl⟩, e, _, ⟨he, rfl⟩, (), _, ⟨?_, rfl⟩, (), _,
      ⟨not_not.mpr hactive, rfl⟩, (), _, rfl, (), _, rfl, (), _, rfl, (), _, rfl, rfl⟩
    rw [not_and_or, not_not, not_not]
    exact hparty

theorem releaseToBeneficiary_eq_ok {payout : I128} :
    releaseToBeneficiary id auth env = .ok (payout, env') ↔
      ∃ e p, env.get (.escrow id) = some e ∧ ¬ (e.status = .released ∨ e.status = .cancelled) ∧
        env.Payout e payout ∧ Moves e.token H.contract e.beneficiary payout env.purse p ∧
        env' = (env.setPurse p).setPersistent (.escrow id) { e with status := .released } := by
  simp only [releaseToBeneficiary, persistentGet, persistentSet, bind_eq_ok, reads_eq_ok,
    okOr_eq_ok, failIf_eq_ok, tokenTransfer_eq_ok, modify_eq_ok, pure_eq_ok]
  constructor
  · rintro ⟨_, _, ⟨rfl, rfl⟩, e, _, ⟨he, rfl⟩, _, _, ⟨hopen, rfl⟩, _, _, ⟨rfl, rfl⟩, product, _,
      ⟨hproduct, rfl⟩, _, _, ⟨hpayout, rfl⟩, _, _, ⟨p, hm, rfl⟩, _, _, rfl, rfl, rfl⟩
    exact ⟨e, p, he, hopen, ⟨product, hproduct, hpayout⟩, hm, rfl⟩
  · rintro ⟨e, p, he, hopen, ⟨product, hproduct, hpayout⟩, hm, rfl⟩
    exact ⟨_, _, ⟨rfl, rfl⟩, e, _, ⟨he, rfl⟩, (), _, ⟨hopen, rfl⟩, _, _, ⟨rfl, rfl⟩, product, _,
      ⟨hproduct, rfl⟩, payout, _, ⟨hpayout, rfl⟩, (), _, ⟨p, hm, rfl⟩, (), _, rfl, rfl, rfl⟩

theorem Env.disputed_status (env : Env H) (caller : A) (reason : String) (id' : U64) :
    (env.disputed e id caller reason).status id' =
      if id' = id then some .disputed else env.status id' := by
  by_cases hid : id' = id
  · subst hid
    simp [disputed, status]
  · simp [disputed, status, hid]

theorem Env.released_status (env : Env H) (p : Purse H.tokens) (id' : U64) :
    ((env.setPurse p).setPersistent (.escrow id) { e with status := .released }).status id' =
      if id' = id then some .released else env.status id' := by
  by_cases hid : id' = id
  · subst hid
    simp [status]
  · simp [status, hid]

end Calls

/-! ### Runs -/

inductive Call (A : Type) where
  | raiseDispute (escrowId : U64) (caller : A) (reason : String)
  | releaseToBeneficiary (escrowId : U64)

namespace Call

/-- What a call returns. -/
abbrev Result : Call A → Type
  | .raiseDispute .. => Unit
  | .releaseToBeneficiary _ => I128

def exec : (c : Call A) → Op H c.Result
  | .raiseDispute id caller reason => Protocol.raiseDispute id caller reason
  | .releaseToBeneficiary id => Protocol.releaseToBeneficiary id

end Call

/-- A call that returned, a call that failed, time that passed, a change of the
    tokens nobody called this contract for. -/
inductive Label (H : Host A) where
  | call (auth : A → Bool) (c : Call A) (result : c.Result)
  | failed (auth : A → Bool) (c : Call A) (fault : Fault)
  | close (sequence : U32)
  | tokens (state : H.tokens.State)

inductive Step : Env H → Label H → Env H → Prop
  | call {env env' : Env H} {auth : A → Bool} {c : Call A} {r : c.Result}
      (h : c.exec auth env = .ok (r, env')) : Step env (.call auth c r) env'
  | failed {env : Env H} {auth : A → Bool} {c : Call A} {fault : Fault}
      (h : (c.exec : Op H c.Result) auth env = .error fault) : Step env (.failed auth c fault) env
  | close {env : Env H} {n : U32} (h : env.sequence.val ≤ n.val) :
      Step env (.close n) { env with sequence := n }
  | tokens {env : Env H} {s : H.tokens.State} :
      Step env (.tokens s) (env.setPurse ⟨s, env.purse.transfers⟩)

/-- The transitions of a run so far, newest first. -/
abbrev History (H : Host A) := List (Move (Env H) (Label H))

namespace Label

/-- A `raise_dispute` of the escrow that returned. -/
inductive Raises : Label H → U64 → Prop
  | intro {auth : A → Bool} {id : U64} {caller : A} {reason : String} :
      Raises (.call auth (.raiseDispute id caller reason) ()) id

/-- A `release_to_beneficiary` of the escrow that returned. -/
inductive Releases : Label H → U64 → Prop
  | intro {auth : A → Bool} {id : U64} {payout : I128} :
      Releases (.call auth (.releaseToBeneficiary id) payout) id

/-- A `release_to_beneficiary` of the escrow, whatever came of it. -/
inductive Tries : Label H → U64 → Prop
  | returned {auth : A → Bool} {id : U64} {payout : I128} :
      Tries (.call auth (.releaseToBeneficiary id) payout) id
  | failed {auth : A → Bool} {id : U64} {fault : Fault} :
      Tries (.failed auth (.releaseToBeneficiary id) fault) id

end Label

/-! ### The status of an escrow -/

/-- What a step can do to the status of an escrow. -/
inductive StatusChange (l : Label H) (id : U64) :
    Option EscrowStatus → Option EscrowStatus → Prop
  | kept {s : Option EscrowStatus} (hraise : ¬ l.Raises id) (hrelease : ¬ l.Releases id) :
      StatusChange l id s s
  | raised (h : l.Raises id) : StatusChange l id (some .active) (some .disputed)
  | released {s : EscrowStatus} (h : l.Releases id) (hopen : ¬ (s = .released ∨ s = .cancelled)) :
      StatusChange l id (some s) (some .released)

section Steps

variable {env env' : Env H} {l : Label H} {id : U64}

theorem Step.status (hs : Step env l env') (id : U64) :
    StatusChange l id (env.status id) (env'.status id) := by
  cases hs with
  | @call _ _ c r h =>
      cases c with
      | raiseDispute id' caller reason =>
          rcases raiseDispute_eq_ok.mp h with ⟨_, e, he, _, hactive, rfl⟩
          rw [Env.disputed_status]
          by_cases hid : id = id'
          · subst hid
            rw [if_pos rfl, Env.status_of_get he, hactive]
            exact .raised .intro
          · rw [if_neg hid]
            exact .kept (by rintro ⟨⟩; exact hid rfl) (by rintro ⟨⟩)
      | releaseToBeneficiary id' =>
          rcases releaseToBeneficiary_eq_ok.mp h with ⟨e, p, he, hopen, _, _, rfl⟩
          rw [Env.released_status]
          by_cases hid : id = id'
          · subst hid
            rw [if_pos rfl, Env.status_of_get he]
            exact .released .intro hopen
          · rw [if_neg hid]
            exact .kept (by rintro ⟨⟩) (by rintro ⟨⟩; exact hid rfl)
  | failed => exact .kept (by rintro ⟨⟩) (by rintro ⟨⟩)
  | close => exact .kept (by rintro ⟨⟩) (by rintro ⟨⟩)
  | tokens => exact .kept (by rintro ⟨⟩) (by rintro ⟨⟩)

theorem StatusChange.of_released {s : Option EscrowStatus}
    (h : StatusChange l id (some .released) s) : s = some .released := by
  cases h with
  | kept => rfl
  | released => rfl

theorem StatusChange.of_releases {s s' : Option EscrowStatus} (h : StatusChange l id s s')
    (hl : l.Releases id) : s' = some .released := by
  cases h with
  | kept _ hrelease => exact absurd hl hrelease
  | raised hraise =>
      cases hl
      cases hraise
  | released => rfl

theorem StatusChange.not_releases {s : Option EscrowStatus}
    (h : StatusChange l id (some .released) s) : ¬ l.Releases id := by
  cases h with
  | kept _ hrelease => exact hrelease
  | released _ hopen => exact absurd (.inl rfl) hopen

theorem StatusChange.of_raised {s s' : Option EscrowStatus} (h : StatusChange l id s s')
    (hl : l.Raises id) : s' = some .disputed := by
  cases h with
  | kept hraise => exact absurd hl hraise
  | raised => rfl
  | released hrelease =>
      cases hl
      cases hrelease

/-- A disputed escrow stays so until it is released. -/
theorem StatusChange.of_disputed {s : Option EscrowStatus}
    (h : StatusChange l id (some .disputed) s) (hl : ¬ l.Releases id) : s = some .disputed := by
  cases h with
  | kept => rfl
  | released hrelease => exact absurd hrelease hl

theorem Label.Releases.tries (h : l.Releases id) : l.Tries id := by
  cases h
  exact .returned

end Steps

/-! ### Halting -/

/-- A dispute halts release: once `raise_dispute` returned, no release of that
    escrow returns or moves tokens; and a released escrow is never disputed. -/
structure Halted (h : History H) (env : Env H) : Prop where
  dispute_halts : h.Pairwise fun later earlier => ∀ id, earlier.label.Raises id →
    later.label.Tries id → ¬ later.label.Releases id ∧ later.post.purse = later.pre.purse
  release_ends : ∀ t ∈ h, ∀ id, t.label.Releases id → t.post.status id = some .released
  released_final : (env :: h.map Move.pre).Pairwise fun later earlier =>
    ∀ id, earlier.status id = some .released → later.status id = some .released

section Runs

variable {env env₀ : Env H} {h : History H}

/-- Released is final, whatever is called. -/
theorem released_final (hr : Run Step env₀ h env) :
    (env :: h.map Move.pre).Pairwise fun later earlier =>
      ∀ id, earlier.status id = some .released → later.status id = some .released := by
  have hkeep (id : U64) : (env :: h.map Move.pre).Pairwise fun later earlier =>
      earlier.status id = some .released → later.status id = some .released := by
    refine Run.pairwise_of_guard (I := fun _ => True) (G := fun _ => True) trivial
      (fun _ _ => trivial) (fun _ hreleased hs _ => ?_) hr fun _ _ => trivial
    have hchange := hs.status id
    rw [hreleased] at hchange
    exact hchange.of_released
  exact List.pairwise_iff_forall_sublist.mpr fun hsub id =>
    List.pairwise_iff_forall_sublist.mp (hkeep id) hsub

/-- After its dispute no release of the escrow is called while it is `Disputed`. -/
def Untried (h : History H) : Prop :=
  h.Pairwise fun later earlier => ∀ id, earlier.label.Raises id → later.label.Tries id →
    later.pre.status id ≠ some .disputed

/-- An escrow nobody tries to release stays disputed. -/
theorem disputed_since (hr : Run Step env₀ h env) (hnever : Untried h) :
    (h.Pairwise fun later earlier => ∀ id, earlier.label.Raises id →
      later.pre.status id = some .disputed) ∧
    ∀ t ∈ h, ∀ id, t.label.Raises id → env.status id = some .disputed := by
  rw [Untried] at hnever
  refine Run.pairwise_since (T := fun id t => t.label.Raises id)
    (G := fun id t => t.label.Tries id → t.pre.status id ≠ some .disputed)
    (I := fun id env => env.status id = some .disputed) ?_ ?_ hr hnever
  · intro id s l s' hs hl
    exact (hs.status id).of_raised hl
  · intro id s l s' hdisputed hs huntried
    have hchange := hs.status id
    rw [hdisputed] at hchange
    exact hchange.of_disputed fun hl => huntried hl.tries hdisputed

/-- As long as no release is called on a disputed escrow a dispute halts the releases
    of a run, and its escrow is still disputed at the end.  A released escrow is never
    disputed, whatever is called. -/
theorem halts_unless_tried (hr : Run Step env₀ h env) (hnever : Untried h) :
    Halted h env ∧ ∀ t ∈ h, ∀ id, t.label.Raises id → env.status id = some .disputed := by
  rcases disputed_since hr hnever with ⟨hsince, hend⟩
  refine ⟨⟨?_, fun t ht id hl => ?_, released_final hr⟩, hend⟩
  · apply (hnever.and hsince).imp
    rintro later earlier ⟨hnever, hsince⟩ id hraise htry
    exact absurd (hsince id hraise) (hnever id hraise htry)
  · exact ((hr.step_of_mem ht).status id).of_releases hl

end Runs

/-! ### A disputed escrow -/

/-- A host over addresses `Nat`: balances in a table, the contract at address 0. -/
def Host.plain : Host Nat where
  contract := 0
  tokens := Tokens.balances Nat
  defaultTtl := 4096

/-- The escrow of 1000 of token 9 between the addresses 2 and 3. -/
def EscrowRecord.plain : EscrowRecord Nat := ⟨1, 2, 3, .ofNat 1000, 9, .active, 0, 0⟩

/-- A contract that stores the one escrow and holds `held` of every token. -/
def Env.seeded (held : Int) : Env Host.plain where
  sequence := 1
  persistent := Persistent.empty.set 4096 (.escrow 1) .plain
  purse := ⟨fun _ x => if x = 0 then held else 0, []⟩
  events := []

/-- The depositor of the escrow disputes it. -/
theorem Env.raise_step {env : Env Host.plain} (he : env.get (.escrow 1) = some .plain) :
    Step env (.call (fun x => x == 2) (.raiseDispute 1 2 "late") ())
      (env.disputed .plain 1 2 "late") := by
  have hok : raiseDispute 1 2 "late" (fun x => x == 2) env = .ok ((), _) :=
    raiseDispute_eq_ok.mpr ⟨rfl, .plain, he, .inl rfl, rfl, rfl⟩
  exact .call hok

/-- An open escrow of 1000 is released for 995 by anybody. -/
theorem Env.release_step {env : Env Host.plain} {id : U64} {e : EscrowRecord Nat}
    (he : env.get (.escrow id) = some e) (hopen : ¬ (e.status = .released ∨ e.status = .cancelled))
    (hamount : e.amount = .ofNat 1000) (hfee : env.get .feeBps = none)
    (hcovered : 995 ≤ env.purse.balance e.token 0) : ∃ env',
      Step env (.call (fun _ => false) (.releaseToBeneficiary id) (.ofNat 995)) env' := by
  have hpayout : env.Payout e (.ofNat 995) := by
    refine ⟨I128.ofNat 50000, ?_, ?_⟩
    · rw [hamount, hfee]
      decide
    · rw [hamount]
      decide
  obtain ⟨p, hm⟩ : ∃ p, Moves e.token 0 e.beneficiary (.ofNat 995) env.purse p :=
    exists_moves (Tokens.balances_paysFrom 0) (by decide) hcovered
  have hok : releaseToBeneficiary id (fun _ => false) env = .ok (.ofNat 995, _) :=
    releaseToBeneficiary_eq_ok.mpr ⟨e, p, he, hopen, hpayout, hm, rfl⟩
  exact ⟨_, .call hok⟩

/-- A contract that stores two such escrows. -/
def Env.pair : Env Host.plain :=
  (seeded 1000).setPersistent (.escrow (.ofNat 2)) { EscrowRecord.plain with id := .ofNat 2 }

/-- One of them is disputed and stays so, the other one is released. -/
theorem halts_unless_tried_sample : ∃ (h : History Host.plain) (env : Env Host.plain),
    Run Step Env.pair h env ∧ (∃ t ∈ h, t.label.Raises 1) ∧
      (∃ t ∈ h, t.label.Releases (.ofNat 2)) ∧ Halted h env ∧
      env.status 1 = some .disputed := by
  have hne : (1 : U64) ≠ .ofNat 2 := by decide
  have hget : Env.pair.get (.escrow 1) = some .plain := by
    simp [Env.pair, hne]
    rfl
  have hraise := Env.raise_step hget
  obtain ⟨env, hrelease⟩ : ∃ env, Step (Env.pair.disputed .plain 1 2 "late")
      (.call (fun _ => false) (.releaseToBeneficiary (.ofNat 2)) (.ofNat 995)) env := by
    refine Env.release_step (e := { EscrowRecord.plain with id := .ofNat 2 }) ?_ (by decide) rfl ?_
      (by decide)
    · simp [Env.pair, Env.disputed, hne.symm]
    · simp [Env.pair, Env.disputed]
      rfl
  have hr := (Run.single hraise).snoc hrelease
  obtain ⟨hhalted, hend⟩ := halts_unless_tried hr <| List.pairwise_pair.mpr fun id hid htry => by
    cases hid
    cases htry
  exact ⟨_, env, hr, ⟨_, List.mem_of_getLast? rfl, .intro⟩, ⟨_, List.mem_cons_self, .intro⟩,
    hhalted, hend _ (List.mem_of_getLast? rfl) 1 .intro⟩

/-- The release of the disputed escrow pays 995 to the beneficiary. -/
theorem disputed_release : ∃ (h : History Host.plain) (env : Env Host.plain),
    Run Step (Env.seeded 1000) h env ∧ ¬ Halted h env := by
  have hget : (Env.seeded 1000).get (.escrow 1) = some .plain := Persistent.get_set_self ..
  have hraise := Env.raise_step hget
  obtain ⟨env, hrelease⟩ : ∃ env, Step ((Env.seeded 1000).disputed .plain 1 2 "late")
      (.call (fun _ => false) (.releaseToBeneficiary 1) (.ofNat 995)) env := by
    refine Env.release_step (e := { EscrowRecord.plain with status := .disputed }) ?_ (by decide)
      rfl ?_ (by decide)
    · simp [Env.disputed]
    · simp [Env.disputed]
      rfl
  refine ⟨_, _, (Run.single hraise).snoc hrelease, fun hhalted => ?_⟩
  have hhalts := List.pairwise_pair.mp hhalted.dispute_halts 1 .intro .returned
  exact hhalts.1 .intro

end Protocol
