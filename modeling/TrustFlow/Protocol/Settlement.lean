import TrustFlow.Protocol.Governance
import TrustFlow.Lib.Sums

/-!
# Settlement under governance

Disputes, releases, changes of the fee and of the time come in any order.  What
an escrow is about never changes, only its status does; so what a release pays
is a matter of the record at the start and of the fee in force.
-/

namespace Protocol.Governance

open Invocation Transition Purse

variable {A : Type}

/-! ### Records and payments -/

/-- What of a record never changes. -/
def terms (e : EscrowRecord A) : EscrowRecord A := { e with status := .pending }

theorem of_terms {e e' : EscrowRecord A} (h : terms e = terms e') :
    e.amount = e'.amount ∧ e.token = e'.token ∧ e.beneficiary = e'.beneficiary := by
  have hamount := congrArg EscrowRecord.amount h
  have htoken := congrArg EscrowRecord.token h
  have hbeneficiary := congrArg EscrowRecord.beneficiary h
  exact ⟨hamount, htoken, hbeneficiary⟩

variable [DecidableEq A] {H : Host A}

namespace Label

def releases (id : U64) : Label H → Bool
  | .call _ (.releaseToBeneficiary id') _ => decide (id = id')
  | _ => false

end Label

/-- The transfers of the contract so far, newest first. -/
def State.transfers (s : State H) : List (Transfer A) := s.env.purse.transfers

/-- The transfer a transition makes. -/
def paid (s : State H) : Label H → Option (Transfer A)
  | .call _ (.releaseToBeneficiary id) (.amount n) =>
      (s.env.get (.escrow id)).map fun e => ⟨e.token, H.contract, e.beneficiary, n⟩
  | _ => none

/-- The transfers of a history, newest first. -/
def payments (h : History H) : List (Transfer A) := h.filterMap fun t => paid t.pre t.label

/-- The release of `id` paid the amount of its first record less the fee in force,
    which was a tenth at most. -/
inductive Paid (s₀ s : State H) (id : U64) (n : I128) : Option (Transfer A) → Prop
  | intro {e : EscrowRecord A} {fee : I128} (he : s₀.env.get (.escrow id) = some e)
      (hfee : computeFee e.amount s.env.feeRate = .ok (fee, n))
      (hsplit : fee.val + n.val = e.amount.val) (h0 : 0 ≤ fee.val)
      (htenth : 10 * fee.val ≤ e.amount.val) :
      Paid s₀ s id n (some ⟨e.token, H.contract, e.beneficiary, n⟩)

/-! ### Steps -/

section Steps

variable {auth : A → Bool} {env env' : Env H} {s s' s₀ : State H} {l : Label H} {id id' : U64}
  {e : EscrowRecord A} {n : I128}

theorem disputed_terms {caller : A} {reason : String} (he : env.get (.escrow id) = some e) :
    ((env.disputed e id caller reason).get (.escrow id')).map terms =
      (env.get (.escrow id')).map terms := by
  by_cases hid : id' = id
  · subst hid
    simp [Env.disputed, he, terms]
  · simp [Env.disputed, hid]

theorem released_terms {p : Purse H.tokens} (he : env.get (.escrow id) = some e) :
    (((env.setPurse p).setPersistent (.escrow id) { e with status := .released }).get
      (.escrow id')).map terms = (env.get (.escrow id')).map terms := by
  by_cases hid : id' = id
  · subst hid
    simp [he, terms]
  · simp [hid]

/-- What an escrow is about stays as it is. -/
theorem Step.terms_kept (hs : Step s l s') (id : U64) :
    (s'.env.get (.escrow id)).map terms = (s.env.get (.escrow id)).map terms := by
  cases hs with
  | call hc =>
      cases Request.effect hc with
      | raised hraise =>
          rcases raiseDispute_eq_ok.mp hraise with ⟨_, e, he, _, _, rfl⟩
          exact disputed_terms he
      | released hrelease =>
          rcases releaseToBeneficiary_eq_ok.mp hrelease with ⟨e, p, he, _, _, _, rfl⟩
          exact released_terms he
      | feeSet => simp
      | paused | priced | fresh => rfl
  | failed | close | tokens => rfl

theorem Step.feeRate_le (hs : Step s l s') (h : s.env.feeRate.val ≤ 1000) :
    s'.env.feeRate.val ≤ 1000 := by
  cases hs with
  | call hc =>
      cases Request.effect hc with
      | raised hraise =>
          rcases raiseDispute_eq_ok.mp hraise with ⟨_, e, _, _, _, rfl⟩
          simpa [Env.feeRate, Env.disputed] using h
      | released hrelease =>
          rcases releaseToBeneficiary_eq_ok.mp hrelease with ⟨e, p, _, _, _, _, rfl⟩
          simpa [Env.feeRate] using h
      | feeSet _ _ hle => simpa [Env.feeRate] using hle
      | paused | priced | fresh => exact h
  | failed | close | tokens => exact h

/-- A step logs the transfer it makes. -/
theorem Step.log (hs : Step s l s') :
    s'.transfers = (paid s l).toList ++ s.transfers := by
  cases hs with
  | call hc =>
      cases Request.effect hc with
      | raised hraise =>
          rcases raiseDispute_eq_ok.mp hraise with ⟨_, e, _, _, _, rfl⟩
          simp [State.transfers, Env.disputed, paid]
      | released hrelease =>
          rcases releaseToBeneficiary_eq_ok.mp hrelease with ⟨e, p, he, _, _, hm, rfl⟩
          rw [paid, he, Option.map_some]
          exact hm.transfers
      | feeSet | paused | priced | fresh => rfl
  | failed | close | tokens => rfl

/-- What a step does to the status of an escrow, as a step of the two modules or none. -/
theorem Step.status (hs : Step s l s') (id : U64) :
    (l.releases id = false ∧ s'.env.status id = s.env.status id) ∨
      ∃ l' : Protocol.Label H, StatusChange l' id (s.env.status id) (s'.env.status id) ∧
        (l.releases id = true ↔ l'.Releases id) := by
  cases hs with
  | call hc =>
      cases Request.effect hc with
      | raised hraise =>
          have hs' : Protocol.Step s.env (.call _ (.raiseDispute _ _ _) ()) _ := .call hraise
          refine .inr ⟨_, hs'.status id, ?_⟩
          constructor
          · intro hl
            cases hl
          · rintro ⟨⟩
      | @released id' n env hrelease =>
          have hs' : Protocol.Step s.env (.call _ (.releaseToBeneficiary id') n) env :=
            .call hrelease
          refine .inr ⟨_, hs'.status id, ?_⟩
          constructor
          · intro hl
            cases of_decide_eq_true hl
            exact .intro
          · rintro ⟨⟩
            exact decide_eq_true rfl
      | feeSet =>
          refine .inl ⟨rfl, ?_⟩
          simp [Env.status]
      | paused | priced | fresh => exact .inl ⟨rfl, rfl⟩
  | failed | close | tokens => exact .inl ⟨rfl, rfl⟩

theorem Step.released_final (hs : Step s l s') (h : s.env.status id = some .released) :
    s'.env.status id = some .released := by
  rcases hs.status id with ⟨-, hkept⟩ | ⟨l', hchange, -⟩
  · exact hkept.trans h
  · rw [h] at hchange
    exact hchange.of_released

theorem Step.releases (hs : Step s l s') (hl : l.releases id = true) :
    s.env.status id ≠ some .released ∧ s'.env.status id = some .released := by
  rcases hs.status id with ⟨hnot, -⟩ | ⟨l', hchange, hiff⟩
  · rw [hl] at hnot
    cases hnot
  · have hreleases := hiff.mp hl
    refine ⟨fun h => ?_, hchange.of_releases hreleases⟩
    rw [h] at hchange
    exact hchange.not_releases hreleases

/-- What a release pays, with the records as they were at the start. -/
theorem Step.paid (hs : Step s (.call auth (.releaseToBeneficiary id) (.amount n)) s')
    (hfee : s.env.feeRate.val ≤ 1000)
    (hterms : (s.env.get (.escrow id)).map terms =
      (s₀.env.get (.escrow id)).map terms) :
    Paid s₀ s id n (Governance.paid s (.call auth (.releaseToBeneficiary id) (.amount n))) := by
  cases hs with
  | call hc =>
      cases Request.effect hc with
      | released hrelease =>
          rcases releaseToBeneficiary_eq_ok.mp hrelease with ⟨e, p, he, _, hpayout, hm, _⟩
          rw [Governance.paid, he, Option.map_some]
          rw [he, Option.map_some] at hterms
          obtain ⟨e₀, he₀, hsame⟩ := Option.map_eq_some_iff.mp hterms.symm
          obtain ⟨hamount, htoken, hbeneficiary⟩ := of_terms hsame.symm
          obtain ⟨fee, hfees⟩ := Env.payout_iff.mp hpayout
          obtain ⟨-, hshare, hrest⟩ := computeFee_eq_ok.mp hfees
          have hwithin : Within (10 * fee.val) e.amount.val := by
            rw [hshare]
            exact Within.mul_share _ (by decide) s.env.feeRate.lo_le (by decide) (by omega)
          have h0 := hm.nonneg
          -- a negative amount would be paid out as a negative one
          have hpos : 0 ≤ fee.val ∧ 10 * fee.val ≤ e.amount.val := by
            rcases hwithin with hwithin | hwithin
            · omega
            · omega
          rw [htoken, hbeneficiary]
          rw [hamount] at hfees hrest hpos
          exact .intro he₀ hfees (by omega) hpos.1 hpos.2

end Steps

/-! ### Runs -/

section Runs

variable {s s₀ : State H} {h : History H}

theorem Run.terms_kept (hr : Run Step s₀ h s) (id : U64) :
    (s.env.get (.escrow id)).map terms = (s₀.env.get (.escrow id)).map terms := by
  apply Run.invariant (P := fun s => (s.env.get (.escrow id)).map terms =
    (s₀.env.get (.escrow id)).map terms) rfl _ hr
  intro s l s' hP hs
  exact (hs.terms_kept id).trans hP

theorem Run.releases_once (hr : Run Step s₀ h s) (id : U64) :
    h.countP (fun t => t.label.releases id) ≤
      if s.env.status id = some .released then 1 else 0 := by
  induction hr with
  | nil => exact Nat.zero_le _
  | @snoc h s l s' _ hs ih =>
      rw [List.countP_cons]
      by_cases hl : l.releases id = true
      · obtain ⟨hopen, hreleased⟩ := hs.releases hl
        rw [if_neg hopen] at ih
        rw [if_pos hl, if_pos hreleased]
        omega
      · rw [if_neg hl, Nat.add_zero]
        refine ih.trans ?_
        by_cases hreleased : s.env.status id = some .released
        · rw [if_pos hreleased, if_pos (hs.released_final hreleased)]
        · rw [if_neg hreleased]
          exact Nat.zero_le _

/-- In every run from a fee of a tenth at most the fee stays so, the transfers of the
    contract are the payments of its releases, no escrow is released twice, and every
    release pays the beneficiary of the record at the start the recorded amount less
    the fee in force, at least nine tenths of it. -/
theorem settlement_governed (hfee : s₀.env.feeRate.val ≤ 1000)
    (hlog : s₀.transfers = []) (hr : Run Step s₀ h s) :
    s.env.feeRate.val ≤ 1000 ∧ s.transfers = payments h ∧
      (∀ id, h.countP (fun t => t.label.releases id) ≤ 1) ∧
      ∀ t ∈ h, ∀ auth id n, t.label = .call auth (.releaseToBeneficiary id) (.amount n) →
        Paid s₀ t.pre id n (paid t.pre t.label) := by
  have hrate {h : History H} {s : State H} (hr : Run Step s₀ h s) : s.env.feeRate.val ≤ 1000 :=
    Run.invariant (P := fun s => s.env.feeRate.val ≤ 1000) hfee (fun hP hs => hs.feeRate_le hP) hr
  refine ⟨hrate hr, ?_, fun id => ?_, fun t ht auth id n hl => ?_⟩
  · exact Run.log_eq_filterMap hlog Step.log hr
  · apply (Run.releases_once hr id).trans
    split <;> omega
  · obtain ⟨later, earlier, -, hearlier, hs, -⟩ := hr.split_mem ht
    rw [hl] at hs ⊢
    exact hs.paid (hrate hearlier) (Run.terms_kept hearlier id)

theorem settlement_governed_sample : ∃ (h : History Host.plain) (s : State Host.plain),
    Run Step State.seeded h s ∧ h.length = 7 ∧ payments h = [⟨9, 0, 3, .ofNat 990⟩] ∧
      s.transfers = [⟨9, 0, 3, .ofNat 990⟩] := by
  rcases State.exists_of_plays State.script
    (fun h _ => decide (h.length = 7) && decide (payments h = [⟨9, 0, 3, .ofNat 990⟩]))
    (by decide +kernel) with ⟨h, s, hr, hend⟩
  simp only [Bool.and_eq_true, decide_eq_true_eq] at hend
  obtain ⟨hlength, hpayments⟩ := hend
  have hgoverned := settlement_governed (by decide +kernel) rfl hr
  rw [hpayments] at hgoverned
  exact ⟨h, s, hr, hlength, hpayments, hgoverned.2.1⟩

end Runs

end Protocol.Governance
