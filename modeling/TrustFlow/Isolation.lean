import TrustFlow.Commuting
import TrustFlow.Payouts
import TrustFlow.Lib.Isolation

/-!
# Escrows are isolated

All escrows share one contract, one token, one staking pool and one set of
settings.  Still what becomes of an escrow is decided by the calls on it alone:
by what they ask, when they are made and which token they pay in, and by the fee
and the treasury in force when it was opened.
-/

namespace TrustFlow

open Transition Purse

variable {A D : Type} [DecidableEq A] {H : Host A D}

deriving instance DecidableEq for Call

/-- A call that opens an escrow. -/
def Call.Opens : Call A D → Bool
  | .createEscrow .. | .initEscrow .. => true
  | _ => false

/-- Two releases from the same file compute the same, up to the token they pay in. -/
theorem Tranche.Admissible.agree {b c : Book H} {t t' : Tranche A} {i : U32}
    {auth auth' : A → Bool} {id : U64} {gross : I128} {caller : A}
    (h : t.Admissible b i auth id gross caller) (h' : t'.Admissible c i auth' id gross caller)
    (hfile : c.file id = b.file id) : t' = { t with token := t'.token } := by
  have hescrow : t'.escrow = t.escrow := Option.some.inj
    (h'.escrow_eq.symm.trans ((congrArg File.escrow hfile).trans h.escrow_eq))
  have hconfig : t'.feeConfig = t.feeConfig := Option.some.inj
    (h'.feeConfig_eq.symm.trans ((congrArg File.feeConfig hfile).trans h.feeConfig_eq))
  have hcounter : (c.milestoneReleasedOf id i) = b.milestoneReleasedOf id i :=
    congrArg (fun f => f.milestoneReleasedOf i) hfile
  have hreleased : c.releasedOf id = b.releasedOf id := congrArg File.releasedOf hfile
  have hmilestoneAfter : t'.milestoneAfter = t.milestoneAfter := by
    apply BoundedInt.ext
    rw [h.milestoneAfter_eq, h'.milestoneAfter_eq, hcounter]
  have hreleasedAfter : t'.releasedAfter = t.releasedAfter := by
    apply BoundedInt.ext
    rw [h.releasedAfter_eq, h'.releasedAfter_eq, hreleased]
  have hmilestone := h'.milestone_eq
  rw [hescrow, h.milestone_eq] at hmilestone
  have hbefore := h'.feeBefore_eq
  rw [hconfig, hreleased, h.feeBefore_eq] at hbefore
  have hafter := h'.feeAfter_eq
  rw [hconfig, hreleasedAfter, h.feeAfter_eq] at hafter
  have hfee : t'.fee = t.fee := by
    apply BoundedInt.ext
    rw [h.fee_eq, h'.fee_eq, Except.ok.inj hbefore, Except.ok.inj hafter]
  have hpayout : t'.payout = t.payout := by
    apply BoundedInt.ext
    rw [h.payout_eq, h'.payout_eq, hfee]
  cases t
  cases t'
  simp only [Tranche.mk.injEq]
  exact ⟨hescrow, (Option.some.inj hmilestone).symm, hmilestoneAfter, hreleasedAfter, hconfig,
    (Except.ok.inj hbefore).symm, (Except.ok.inj hafter).symm, hfee, hpayout, trivial⟩

/-- Two resolutions of the same file rule and pay alike. -/
theorem Book.Resolve.agree {b b' c c' : Book H} {id : U64} {ruling ruling' : Bool}
    (h : b.Resolve id ruling b') (h' : c.Resolve id ruling' c') (hfile : c.file id = b.file id)
    (htoken : c.settings.token = b.settings.token) :
    ruling' = ruling ∧ since c.purse c'.purse = since b.purse b'.purse := by
  have hescrow : c.escrow id = b.escrow id := congrArg File.escrow hfile
  have hreleased : c.releasedOf id = b.releasedOf id := congrArg File.releasedOf hfile
  have hruling : c.ruling id = b.ruling id := Book.ruling_congr hfile
  cases h with
  | intro _ _ _ _ _ _ he htok hrest hpay =>
    cases h' with
    | intro _ _ _ _ _ _ he' htok' hrest' hpay' =>
      cases he.symm.trans (hescrow.symm.trans he')
      cases htok.symm.trans (htoken.symm.trans htok')
      rw [hreleased] at hrest'
      rw [hpay.since_eq, hpay'.since_eq, BoundedInt.ext (hrest'.trans hrest.symm), hruling]
      exact ⟨rfl, rfl⟩

namespace Book.OnFile

variable {b b' c c' : Book H} {auth auth' : A → Bool} {id : U64} {q : Call A D}
  {r r' : q.Result}

theorem untouched_of {l : Label H} (h : b.OnFile id l b') (hl : l.escrow? ≠ some id) :
    b'.file id = b.file id := by
  cases h with
  | untouched _ hsame => exact hsame
  | opened _ hopens => exact absurd hopens.escrow?_eq hl
  | released | raised | committed | revealed | resolved => exact absurd rfl hl

/-- A call on an escrow does the same to the same file. -/
theorem agree (h : b.OnFile id (.call auth q r) b') (h' : c.OnFile id (.call auth' q r') c')
    (hid : (Label.call auth q r : Label H).escrow? = some id)
    (hid' : (Label.call auth' q r' : Label H).escrow? = some id)
    (hfile : c.file id = b.file id) (hnow : c.sequence = b.sequence)
    (hterms : q.Opens = true → c.settings.treasury = b.settings.treasury ∧
      c.settings.feeBps.getD DEFAULT_FEE_BPS = b.settings.feeBps.getD DEFAULT_FEE_BPS) :
    c'.file id = b'.file id := by
  cases q with
  | createEscrow =>
      cases h with
      | untouched hl => exact absurd hid hl
      | opened _ hl _ ht hnew =>
          cases h' with
          | untouched hl' => exact absurd hid' hl'
          | opened _ hl' _ ht' hnew' =>
              cases hl
              cases hl'
              rcases hterms rfl with ⟨htreasury, hbps⟩
              cases ht.symm.trans (htreasury.symm.trans ht')
              rw [hnew, hnew', hfile, hbps]
  | initEscrow =>
      cases h with
      | untouched hl => exact absurd hid hl
      | opened _ hl _ ht hnew =>
          cases h' with
          | untouched hl' => exact absurd hid' hl'
          | opened _ hl' _ ht' hnew' =>
              cases hl with
              | init hamount =>
              cases hl' with
              | init hamount' =>
                rcases hterms rfl with ⟨htreasury, hbps⟩
                cases ht.symm.trans (htreasury.symm.trans ht')
                rw [hnew, hnew', hfile, hbps, BoundedInt.ext (hamount.trans hamount'.symm)]
  | releaseMilestoneTranche =>
      cases h with
      | untouched hl => exact absurd hid hl
      | opened _ hl => cases hl
      | released ht _ _ hnew =>
          cases h' with
          | untouched hl' => exact absurd hid' hl'
          | opened _ hl' => cases hl'
          | released ht' _ _ hnew' =>
              rw [hnew, hnew', hfile, ht.agree ht' hfile]
              rfl
  | raiseDispute =>
      cases h with
      | untouched hl => exact absurd hid hl
      | opened _ hl => cases hl
      | raised _ he _ hnew =>
          cases h' with
          | untouched hl' => exact absurd hid' hl'
          | opened _ hl' => cases hl'
          | raised _ he' _ hnew' =>
              cases he.symm.trans ((congrArg File.escrow hfile).symm.trans he')
              rw [hnew, hnew', hfile, hnow]
  | commitVote =>
      cases h with
      | untouched hl => exact absurd hid hl
      | opened _ hl => cases hl
      | committed _ _ _ _ _ _ _ hnew =>
          cases h' with
          | untouched hl' => exact absurd hid' hl'
          | opened _ hl' => cases hl'
          | committed _ _ _ _ _ _ _ hnew' => rw [hnew, hnew', hfile]
  | revealVote =>
      cases h with
      | untouched hl => exact absurd hid hl
      | opened _ hl => cases hl
      | revealed _ _ _ _ _ _ _ _ hvoters hnew =>
          cases h' with
          | untouched hl' => exact absurd hid' hl'
          | opened _ hl' => cases hl'
          | revealed _ _ _ _ _ _ _ _ hvoters' hnew' =>
              have hsame : c.votersOf id = b.votersOf id := congrArg File.votersOf hfile
              rw [hsame] at hvoters'
              rw [hnew, hnew', hfile, Vec.ext (hvoters.trans hvoters'.symm)]
  | resolveDispute =>
      cases h with
      | untouched hl => exact absurd hid hl
      | opened _ hl => cases hl
      | resolved hres hd _ _ _ he hnew =>
          cases h' with
          | untouched hl' => exact absurd hid' hl'
          | opened _ hl' => cases hl'
          | resolved hres' hd' _ _ _ he' hnew' =>
              cases he.symm.trans ((congrArg File.escrow hfile).symm.trans he')
              cases hd.symm.trans ((congrArg File.dispute hfile).symm.trans hd')
              rw [hnew, hnew', hfile, hres.ruling_eq, hres'.ruling_eq, ruling_congr hfile]
  | _ => cases hid

/-- A call that pays out for an escrow pays the same from the same file. -/
theorem pays_agree (h : b.OnFile id (.call auth q r) b')
    (h' : c.OnFile id (.call auth' q r') c')
    (hid : (Label.call auth q r : Label H).pays? = some id)
    (hid' : (Label.call auth' q r' : Label H).pays? = some id)
    (hfile : c.file id = b.file id) (htoken : c.settings.token = b.settings.token) :
    since c.purse c'.purse = since b.purse b'.purse := by
  cases q with
  | releaseMilestoneTranche =>
      cases h with
      | untouched hl => exact absurd (Label.escrow?_of_pays? hid) hl
      | opened _ hl => cases hl
      | released ht hpayout hfee =>
          cases h' with
          | untouched hl' => exact absurd (Label.escrow?_of_pays? hid') hl'
          | opened _ hl' => cases hl'
          | released ht' hpayout' hfee' =>
              have hagree := ht.agree ht' hfile
              have htoken' := Option.some.inj (ht'.token_eq.symm.trans (htoken.trans ht.token_eq))
              rw [hpayout.since_pays hfee, hpayout'.since_pays hfee', htoken', hagree]
  | resolveDispute =>
      cases h with
      | untouched hl => exact absurd (Label.escrow?_of_pays? hid) hl
      | opened _ hl => cases hl
      | resolved hres =>
          cases h' with
          | untouched hl' => exact absurd (Label.escrow?_of_pays? hid') hl'
          | opened _ hl' => cases hl'
          | resolved hres' => exact (hres.agree hres' hfile htoken).2
  | _ => cases hid

end Book.OnFile

/-! ### Two runs -/

section Runs

/-- A call on an escrow as its file sees it: the call, the ledger, the token, and for an
    opening the treasury and the fee in force. -/
structure Dealing (A D : Type) where
  call : Call A D
  ledger : U32
  token : Option A
  terms : Option (Option A × U32)
deriving DecidableEq

/-- What a transition tells the file of `id`. -/
def dealing (id : U64) (t : Move (Env H) (Label H)) : Option (Dealing A D) :=
  match t.label with
  | .call auth c r =>
      if (Label.call auth c r : Label H).escrow? = some id then
        some ⟨c, t.pre.sequence, t.pre.inst .token,
          if c.Opens = true then some (t.pre.inst .treasury, t.pre.feeBps) else none⟩
      else none
  | _ => none

def dealings (id : U64) (h : History H) : List (Dealing A D) := h.filterMap (dealing id)

/-- The transfers a transition makes on account of `id`. -/
def paymentsOf (id : U64) (t : Move (Env H) (Label H)) : List (Transfer A) :=
  if t.label.pays? = some id then since t.pre.purse t.post.purse else []

variable {id : U64} {t : Move (Env H) (Label H)}

theorem escrow?_of_no_dealing (h : dealing id t = none) : t.label.escrow? ≠ some id := by
  rcases t with ⟨env, l, env'⟩
  cases l with
  | call auth c r =>
      simp only [dealing] at h
      split at h
      · cases h
      · next hl => exact hl
  | failed | close | tokens => exact nofun

theorem eq_of_dealing {e : Dealing A D} (h : dealing id t = some e) : ∃ auth c r,
    t.label = .call auth c r ∧ t.label.escrow? = some id ∧ e = ⟨c, t.pre.sequence,
      t.pre.inst .token, if c.Opens = true then some (t.pre.inst .treasury, t.pre.feeBps)
        else none⟩ := by
  rcases t with ⟨env, l, env'⟩
  cases l with
  | call auth c r =>
      simp only [dealing] at h
      split at h
      · next hl => exact ⟨auth, c, r, rfl, hl, (Option.some.inj h).symm⟩
      · cases h
  | failed | close | tokens => cases h

theorem Label.pays?_call {auth auth' : A → Bool} {c : Call A D} {r r' : c.Result} :
    (Label.call auth' c r' : Label H).pays? = (Label.call auth c r : Label H).pays? := by
  cases c <;> rfl

variable [DecidableEq D]

theorem isolates (id : U64) :
    Isolates (Step (H := H)) (dealing id) (fun env => env.book.file id) (paymentsOf id) where
  keeps := by
    intro env l env' hs hnone
    have hl : l.escrow? ≠ some id := escrow?_of_no_dealing hnone
    exact ⟨(hs.book.on_file id).untouched_of hl,
      if_neg fun hpays => hl (Label.escrow?_of_pays? hpays)⟩
  tells := by
    intro env l env' m l' m' e hs hs' hown hown' hfile
    rcases eq_of_dealing hown with ⟨auth, c, r, rfl, hl, rfl⟩
    rcases eq_of_dealing hown' with ⟨auth', c', r', rfl, hl', heq⟩
    rcases Dealing.mk.inj heq with ⟨rfl, hnow, htoken, hterms⟩
    have hon := hs.book.on_file id
    have hon' := hs'.book.on_file id
    refine ⟨hon.agree hon' hl hl' hfile hnow.symm ?_, ?_⟩
    · intro hopens
      rw [if_pos hopens, if_pos hopens] at hterms
      exact Prod.mk.inj (Option.some.inj hterms.symm)
    · have hpays : (Label.call auth' c r' : Label H).pays? = (Label.call auth c r).pays? :=
        Label.pays?_call
      by_cases hpay : (Label.call auth c r : Label H).pays? = some id
      · rw [paymentsOf, if_pos (hpays.trans hpay), paymentsOf, if_pos hpay]
        exact hon.pays_agree hon' hpay (hpays.trans hpay) hfile htoken.symm
      · rw [paymentsOf, if_neg (hpays ▸ hpay), paymentsOf, if_neg hpay]

variable {env₀ env env₀' env' : Env H} {h h' : History H}

/-- Isolation: two runs, from states with the same file of an escrow, in which the calls
    on that escrow are the same, one after the other, at the same ledgers, leave the same
    file and make the same payments for it. -/
theorem escrows_isolated (hr : Run Step env₀ h env) (hr' : Run Step env₀' h' env')
    (h0 : env₀'.book.file id = env₀.book.file id) (hsame : dealings id h' = dealings id h) :
    env'.book.file id = env.book.file id ∧
      h'.flatMap (paymentsOf id) = h.flatMap (paymentsOf id) :=
  (isolates id).agree hr hr' h0 hsame

end Runs

/-- The same with other parties: they lock, stake, vote and resolve in between, and the
    admin pauses, unpauses and changes the fee and the treasury. -/
def releaseAndResolveAmid : List (Action Nat (List UInt8)) :=
  partRelease.take 2 ++
    [.call (fun a => a == 4) (.createEscrow 4 2 (.ofNat 50)),
      .call (fun a => a == 5) (.stake 5 (.ofNat 30)),
      .call (fun a => a == 1) (.setFeeBps 1 (.ofNat 70)),
      .call (fun a => a == 1) (.setTreasury 1 5),
      .call (fun a => a == 2) (.releaseMilestoneTranche 1 0 (.ofNat 25) 2),
      .call (fun a => a == 4) (.raiseDispute (.ofNat 2) 4 "late"),
      .call (fun a => a == 4) (.raiseDispute 1 4 "late"),
      .call (fun a => a == 3) (.stake 3 (.ofNat 20)),
      .call (fun a => a == 5) (.commitVote (.ofNat 2) 5 (1 :: List.replicate 32 8)),
      .call (fun a => a == 3) (.commitVote 1 3 (0 :: List.replicate 32 7)),
      .call (fun a => a == 1) (.pause 1),
      .close (.ofNat 17281),
      .call (fun a => a == 1) (.unpause 1),
      .call (fun a => a == 3) (.revealVote 1 3 false (Vector.replicate 32 7)),
      .call (fun a => a == 5) (.revealVote (.ofNat 2) 5 true (Vector.replicate 32 8)),
      .close (.ofNat 34561),
      .call (fun _ => false) (.resolveDispute (.ofNat 2)),
      .call (fun a => a == 5) (.unstake 5 (.ofNat 30)),
      .call (fun _ => false) (.resolveDispute 1)]

theorem escrows_isolated_sample :
    ∃ (h h' : History Host.plain) (env env' : Env Host.plain), Run Step Env.deployed h env ∧
      Run Step Env.deployed h' env' ∧ h'.length = h.length + 11 ∧
      env'.book.file 1 = env.book.file 1 ∧
      h'.flatMap (paymentsOf 1) = [⟨9, 0, 4, .ofNat 75⟩, ⟨9, 0, 4, .ofNat 25⟩] := by
  rcases Env.exists_of_plays releaseAndResolve
    (fun h _ => (Env.deployed.play releaseAndResolveAmid).any
      fun p : History Host.plain × Env Host.plain => decide (p.1.length = h.length + 11 ∧
        dealings 1 p.1 = dealings 1 h ∧
        h.flatMap (paymentsOf 1) = [⟨9, 0, 4, .ofNat 75⟩, ⟨9, 0, 4, .ofNat 25⟩]))
    (by decide +kernel) with ⟨h, env, hs, hend⟩
  simp only [Option.any_eq_true, decide_eq_true_eq] at hend
  rcases hend with ⟨⟨h', env'⟩, hplay, hlength, hsame, hpaid⟩
  have hr := Env.play_run hplay
  rcases escrows_isolated hs.run hr rfl hsame with ⟨hfile, hpayments⟩
  exact ⟨h, h', env, env', hs.run, hr, hlength, hfile, hpayments.trans hpaid⟩

end TrustFlow
