import TrustFlow.Openings

/-!
# What an escrow pays out

Tokens leave the contract on account of an escrow in two ways: the tranches of
`release_milestone_tranche` and the settlement of `resolve_dispute`.  `paidFor`
adds up the transfers those calls logged.  The invariant compares it with the
file: what was paid is the released total while the escrow is open and its
whole amount once it is settled (`File.paid`).
-/

namespace TrustFlow

open Transition Purse

variable {A D : Type}

/-- What was paid out for an escrow, as its file has it. -/
def File.paid (f : File A D) : Int :=
  match f.escrow with
  | some e => if e.status = .settled then e.amount.val else f.releasedOf.val
  | none => 0

namespace File

variable {f : File A D} {e : EscrowRecord A}

theorem paid_of_open (he : f.escrow = some e) (hs : e.status ≠ .settled) :
    f.paid = f.releasedOf.val := by
  rw [paid, he]
  exact if_neg hs

theorem paid_of_settled (he : f.escrow = some e) (hs : e.status = .settled) :
    f.paid = e.amount.val := by
  rw [paid, he]
  exact if_pos hs

end File

variable [DecidableEq A] {H : Host A D}

/-- The escrow a successful call pays tokens out for. -/
def Label.pays? : Label H → Option U64
  | .call _ (.releaseMilestoneTranche id ..) _ => some id
  | .call _ (.resolveDispute id) _ => some id
  | _ => none

/-- A successful `unstake`. -/
def Label.Unstakes : Label H → Bool
  | .call _ (.unstake ..) _ => true
  | _ => false

theorem Label.escrow?_of_pays? {l : Label H} {id : U64} (h : l.pays? = some id) :
    l.escrow? = some id := by
  cases l with
  | call auth c r => cases c <;> first | exact h | cases h
  | failed | close | tokens => cases h

theorem Label.Opens.pays?_eq {l : Label H} {auth : A → Bool} {depositor beneficiary : A}
    {amount : I128} {milestones : Vec Milestone} {id : U64}
    (h : l.Opens auth depositor beneficiary amount milestones id) : l.pays? = none := by
  cases h <;> rfl

/-- The sum of the transfers a step logged for the escrow `id`. -/
def paidBy (id : U64) (l : Label H) (p p' : Purse H.tokens) : Int :=
  if l.pays? = some id then ((since p p').map fun t => t.amount.val).sum else 0

/-- The gross amount that left the contract on account of the escrow `id`. -/
def paidFor (id : U64) (h : History H) : Int :=
  (h.map fun t => paidBy id t.label t.pre.purse t.post.purse).sum

namespace Book

variable {b b' : Book H} {l : Label H} {id : U64} {ruling : Bool}

/-- The transfers of a release: the fee, after the payout. -/
theorem OnFile.tranche_since {auth : A → Bool} {i : U32} {gross : I128} {caller : A}
    {t : Tranche A} {p : Purse H.tokens} (_ht : t.Admissible b i auth id gross caller)
    (hpayout : Pays t.token H.self t.escrow.beneficiary t.payout b.purse p)
    (hfee : Pays t.token H.self t.feeConfig.treasury t.fee p b'.purse) :
    since b.purse b'.purse = payment t.token H.self t.feeConfig.treasury t.fee ++
      payment t.token H.self t.escrow.beneficiary t.payout := by
  apply since_eq
  rw [hfee.transfers, hpayout.transfers, List.append_assoc]

/-- A resolution moves what is left to the winner, and something is left. -/
theorem Resolve.moves (h : b.Resolve id ruling b') (hb : b.Sound) :
    ∃ e tok, ∃ rest : I128, b.escrow id = some e ∧ b.settings.token = some tok ∧
      0 < rest.val ∧ rest.val = e.amount.val - (b.releasedOf id).val ∧
      Moves tok H.self (if ruling = true then e.depositor else e.beneficiary) rest b.purse
        b'.purse := by
  cases h with
  | @intro d e _ tok rest _ _ hdispute hopen _ _ _ hescrow htoken hrest hpay =>
    have hstatus := (hb.proceedings hescrow).status_of_unresolved hdispute hopen
    have hlt : (b.releasedOf id).val < e.amount.val :=
      (hb.accounts hescrow).open_lt (hstatus.trans_ne EscrowStatus.disputed_ne_settled)
    refine ⟨e, tok, rest, hescrow, htoken, by omega, hrest, ?_⟩
    cases hpay with
    | nothing hnot => omega
    | moved _ hmove => exact hmove

/-- The settlement of a resolution: one transfer of all that is left. -/
theorem Resolve.settlement (h : b.Resolve id ruling b') (hb : b.Sound) :
    ∃ e d tok, ∃ rest : I128, b.escrow id = some e ∧ b.settings.token = some tok ∧
      b'.dispute id = some d ∧ d.rulingForDepositor = ruling ∧ 0 < rest.val ∧
      rest.val = e.amount.val - (b.releasedOf id).val ∧
      since b.purse b'.purse =
        [⟨tok, H.self, if ruling = true then e.depositor else e.beneficiary, rest⟩] := by
  rcases h.moves hb with ⟨e, tok, rest, he, htok, hpos, hrest, hmove⟩
  cases h with
  | intro =>
    exact ⟨e, _, tok, rest, he, htok, Function.update_self .., rfl, hpos, hrest, hmove.since_eq⟩

/-- What a step pays out for an escrow its file takes note of. -/
theorem Step.paid (h : b.Step l b') (hb : b.Sound) (id : U64) :
    (b'.file id).paid = (b.file id).paid + paidBy id l b.purse b'.purse := by
  have hsilent (hl : l.pays? ≠ some id) (hpaid : (b'.file id).paid = (b.file id).paid) :
      (b'.file id).paid = (b.file id).paid + paidBy id l b.purse b'.purse := by
    rw [paidBy, if_neg hl, hpaid, add_zero]
  cases h.on_file id with
  | untouched hl hsame =>
      apply hsilent
      · exact fun hpays => hl (Label.escrow?_of_pays? hpays)
      · rw [hsame]
  | opened _ hl hopen _ hnew =>
      apply hsilent
      · rw [hl.pays?_eq]
        exact nofun
      · rw [hnew, hb.unusedAbove.opens hopen]
        rfl
  | @released auth i gross caller t _ _ ht hpayout hfee hnew =>
      have hpays : (Label.call auth (.releaseMilestoneTranche id i gross caller) () :
          Label H).pays? = some id := rfl
      have hsum : paidBy id (.call auth (.releaseMilestoneTranche id i gross caller) ()) b.purse
          b'.purse = gross.val := by
        rw [paidBy, if_pos hpays, OnFile.tranche_since ht hpayout hfee, List.map_append,
          List.sum_append, sum_payment, sum_payment]
        have := ht.payout_eq
        omega
      have hbefore : (b.file id).paid = (b.file id).releasedOf.val :=
        File.paid_of_open ht.escrow_eq (by rw [ht.active]; exact nofun)
      have hreleased : t.releasedAfter.val = (b.file id).releasedOf.val + gross.val :=
        ht.releasedAfter_eq
      have hafter : (b'.file id).paid = t.releasedAfter.val := by
        rw [hnew]
        by_cases heq : t.releasedAfter = t.escrow.amount
        · rw [heq]
          exact File.paid_of_settled (e := t.escrowAfter i) rfl (if_pos heq)
        · have hstatus : (t.escrowAfter i).status = t.escrow.status := if_neg heq
          exact File.paid_of_open (e := t.escrowAfter i) rfl
            (by rw [hstatus, ht.active]; exact nofun)
      omega
  | raised _ he hactive hnew =>
      apply hsilent nofun
      have hbefore : (b.file id).paid = (b.file id).releasedOf.val :=
        File.paid_of_open he (by rw [hactive]; exact nofun)
      rw [hbefore, hnew]
      exact File.paid_of_open rfl nofun
  | committed _ _ _ _ _ _ _ hnew =>
      apply hsilent nofun
      rw [hnew]
      rfl
  | revealed _ _ _ _ _ _ _ _ _ hnew =>
      apply hsilent nofun
      rw [hnew]
      rfl
  | @resolved auth ruling d e _ hres hd hopen _ _ he hnew =>
      rcases hres.settlement hb with ⟨e', _, _, rest, he', _, _, _, _, hrest, hsince⟩
      cases he.symm.trans he'
      have hstatus := (hb.proceedings he).status_of_unresolved hd hopen
      have hpays : (Label.call auth (.resolveDispute id) ruling : Label H).pays? = some id := rfl
      have hsum : paidBy id (.call auth (.resolveDispute id) ruling) b.purse b'.purse =
          rest.val := by
        rw [paidBy, if_pos hpays, hsince]
        exact add_zero _
      have hbefore : (b.file id).paid = (b.releasedOf id).val :=
        File.paid_of_open he (by rw [hstatus]; exact nofun)
      have hafter : (b'.file id).paid = e.amount.val := by
        rw [hnew]
        exact File.paid_of_settled (e := { e with status := .settled }) rfl rfl
      omega

/-- Nothing is paid for a settled escrow, and it stays settled. -/
theorem Step.of_settled (h : b.Step l b') (hb : b.Sound) {e : EscrowRecord A}
    (he : b.escrow id = some e) (hs : e.status = .settled) :
    l.pays? ≠ some id ∧ b'.escrow id = some e := by
  cases h.on_file id with
  | untouched hl hsame =>
      exact ⟨fun hpays => hl (Label.escrow?_of_pays? hpays),
        (congrArg File.escrow hsame).trans he⟩
  | opened _ _ hopen =>
      have hnone : b.escrow id = none := congrArg File.escrow (hb.unusedAbove.opens hopen)
      cases hnone.symm.trans he
  | released ht =>
      cases he.symm.trans ht.escrow_eq
      cases hs.symm.trans ht.active
  | raised _ he' hactive =>
      cases he.symm.trans he'
      cases hs.symm.trans hactive
  | committed _ _ _ _ _ _ _ hnew => exact ⟨nofun, (congrArg File.escrow hnew).trans he⟩
  | revealed _ _ _ _ _ _ _ _ _ hnew => exact ⟨nofun, (congrArg File.escrow hnew).trans he⟩
  | resolved _ hd hopen _ _ he' =>
      cases he.symm.trans he'
      have hstatus := (hb.proceedings he).status_of_unresolved hd hopen
      cases hs.symm.trans hstatus

/-- Only an unstake and the payouts of an escrow take tokens out of the contract. -/
theorem Step.outflow (h : b.Step l b') (hl : l.pays? = none) (hunstake : l.Unstakes = false)
    {x : Transfer A} (hx : x ∈ since b.purse b'.purse) : x.src ≠ H.self := by
  have hnone (hsame : b'.purse.transfers = b.purse.transfers) : x.src ≠ H.self := by
    have hnil : since b.purse b'.purse = [] := since_eq hsame
    rw [hnil] at hx
    cases hx
  have hone {tok src : A} {n : I128} {auth : A → Bool} (hself : auth H.self = false)
      (hauth : auth src = true) (hm : Moves tok src H.self n b.purse b'.purse) :
      x.src ≠ H.self := by
    rw [hm.since_eq, List.mem_singleton] at hx
    subst hx
    rintro rfl
    exact absurd hauth (by simp [hself])
  cases h with
  | idle | configure | initialise | close | tokens => exact hnone rfl
  | stake hself h =>
      cases h with
      | intro hauth _ _ _ hmove => exact hone hself hauth hmove
  | unstake => cases hunstake
  | opens hself _ h =>
      have hauth := h.hauth
      cases h.lock with
      | intro _ hmove => exact hone hself hauth hmove
  | release | resolve => cases hl
  | raise h => exact hnone (by cases h; rfl)
  | commit _ h => exact hnone (by cases h; rfl)
  | reveal _ h => exact hnone (by cases h; rfl)

end Book

/-! ### Over a history -/

/-- A step that pays tokens out for the escrow `id` of record `e`: a tranche, to
    the beneficiary and the treasury with the depositor's authorisation, or the
    settlement, in one transfer to the party the recorded ruling names. -/
inductive Payout (id : U64) (e : EscrowRecord A) (treasury : A) (pre : Env H) :
    Label H → Env H → Prop
  | tranche {auth : A → Bool} {i : U32} {gross payout fee : I128} {caller tok : A} {post : Env H}
      (hauth : auth e.depositor = true) (htoken : pre.inst .token = some tok)
      (hpayout : 0 ≤ payout.val) (hfee : 0 ≤ fee.val) (hgross : payout.val + fee.val = gross.val)
      (h : since pre.purse post.purse =
        payment tok H.self treasury fee ++ payment tok H.self e.beneficiary payout) :
      Payout id e treasury pre (.call auth (.releaseMilestoneTranche id i gross caller) ()) post
  | settlement {auth : A → Bool} {d : DisputeRecord A} {tok : A} {rest : I128} {post : Env H}
      (htoken : pre.inst .token = some tok) (hdispute : post.get (.dispute id) = some d)
      (hrest : rest.val = e.amount.val - (pre.releasedOf id).val)
      (h : since pre.purse post.purse =
        [⟨tok, H.self, if d.rulingForDepositor = true then e.depositor else e.beneficiary,
          rest⟩]) :
      Payout id e treasury pre (.call auth (.resolveDispute id) d.rulingForDepositor) post

section Histories

variable [DecidableEq D] {env₀ env : Env H} {h : History H} {id : U64}

namespace SingleInit

theorem paidFor_eq (hs : SingleInit env₀ h env) (id : U64) :
    paidFor id h = (env.book.file id).paid := by
  refine history_invariant (P := fun h b => paidFor id h = (b.file id).paid) ?_ ?_ hs
  · intro hb
    rw [hb.file id]
    rfl
  · intro h env l env' hs hP hstep
    have hcons : paidFor id (⟨env, l, env'⟩ :: h) =
        paidBy id l env.purse env'.purse + paidFor id h := List.sum_cons ..
    have hpaid : (env'.book.file id).paid =
        (env.book.file id).paid + paidBy id l env.purse env'.purse := hstep.step.paid hs.sound id
    omega

/-- Every payout of the history goes to the parties of the record at its end. -/
theorem payout (hs : SingleInit env₀ h env) {e : EscrowRecord A} (he : env.book.escrow id = some e)
    {c : EscrowFeeConfig A} (hc : env.book.feeConfig id = some c)
    {t : Move (Env H) (Label H)} (ht : t ∈ h) (hpays : t.label.pays? = some id) :
    Payout id e c.treasury t.pre t.label t.post := by
  rcases hs.split_mem ht with ⟨later, earlier, rfl, hearlier, hstep, -⟩
  have hsub : ∀ x ∈ earlier, x ∈ later ++ t :: earlier := fun x hx =>
    List.mem_append_right _ (List.mem_cons_of_mem _ hx)
  rcases t with ⟨pre, l, post⟩
  cases hstep.step.on_file id with
  | untouched hl => exact absurd (Label.escrow?_of_pays? hpays) hl
  | opened _ hl =>
      rw [hl.pays?_eq] at hpays
      cases hpays
  | released htranche hpayout hfee =>
      rcases hs.agreed hearlier hsub he htranche.escrow_eq with ⟨hdep, hben, -, -, hconfig⟩
      have hcfg : _ = c :=
        Option.some.inj (htranche.feeConfig_eq.symm.trans (hconfig.trans hc))
      have hsince := Book.OnFile.tranche_since htranche hpayout hfee
      rw [hcfg, hben] at hsince
      have hauth := htranche.hauth
      rw [htranche.caller_eq, hdep] at hauth
      have hgross := htranche.payout_eq
      exact .tranche hauth htranche.token_eq hpayout.nonneg hfee.nonneg (by omega) hsince
  | raised | committed | revealed => cases hpays
  | resolved hres =>
      rcases hres.settlement hearlier.sound with
        ⟨e', d, tok, rest, he', htoken, hdispute, rfl, -, hrest, hsince⟩
      rcases hs.agreed hearlier hsub he he' with ⟨hdep, hben, hamount, -, -⟩
      rw [hdep, hben] at hsince
      rw [hamount] at hrest
      exact .settlement htoken hdispute hrest hsince

end SingleInit

/-- What left the contract for an escrow is its released total while it is open
    and its amount once it is settled; each payout goes to the parties of the
    escrow and the treasury of its creation, and none follows the settlement. -/
theorem escrow_pays_out_once (hs : SingleInit env₀ h env) (id : U64) :
    (env.get (.escrow id) = none → paidFor id h = 0) ∧
    (∀ e, env.get (.escrow id) = some e →
      ((e.status = .active ∨ e.status = .disputed → paidFor id h = (env.releasedOf id).val) ∧
        (e.status = .settled → paidFor id h = e.amount.val)) ∧
      ∃ t₀ ∈ h, ∃ auth milestones treasury,
        t₀.label.Opens auth e.depositor e.beneficiary e.amount milestones id ∧
        t₀.pre.inst .treasury = some treasury ∧
        ∀ t ∈ h, t.label.pays? = some id → Payout id e treasury t.pre t.label t.post) ∧
    (∀ t ∈ h, ∀ e, t.pre.get (.escrow id) = some e → e.status = .settled →
      t.label.pays? ≠ some id ∧ t.post.get (.escrow id) = some e) ∧
    ∀ t ∈ h, ∀ x ∈ since t.pre.purse t.post.purse, x.src = H.self →
      t.label.Unstakes = true ∨ ∃ id', t.label.pays? = some id' := by
  have hpaid := hs.paidFor_eq id
  refine ⟨?_, ?_, ?_, ?_⟩
  · intro hnone
    rw [hpaid, (hs.sound.file id).empty hnone]
    rfl
  · intro e he
    refine ⟨⟨?_, ?_⟩, ?_⟩
    · intro hopen
      rw [hpaid]
      apply File.paid_of_open he
      rcases hopen with hopen | hopen <;> rw [hopen] <;> exact nofun
    · intro hsettled
      rw [hpaid]
      exact File.paid_of_settled he hsettled
    · rcases hs.exists_opens he with ⟨t₀, ht₀, auth, dep, ben, amount, milestones, hl⟩
      rcases hs.opened ht₀ hl with ⟨⟨e', he', rfl, rfl, rfl, -⟩, treasury, htreasury, hfee⟩
      cases he'.symm.trans he
      exact ⟨t₀, ht₀, auth, milestones, treasury, hl, htreasury,
        fun t ht hpays => hs.payout he hfee ht hpays⟩
  · intro t ht e he hsettled
    rcases hs.split_mem ht with ⟨later, earlier, rfl, hearlier, hstep, -⟩
    exact hstep.step.of_settled hearlier.sound he hsettled
  · intro t ht x hx hsrc
    rcases hs.split_mem ht with ⟨later, earlier, rfl, hearlier, hstep, -⟩
    by_contra hnot
    rcases not_or.mp hnot with ⟨hunstake, hpays⟩
    have hnone : t.label.pays? = none :=
      Option.eq_none_iff_forall_ne_some.mpr fun id' hid => hpays ⟨id', hid⟩
    exact hstep.step.outflow hnone (by simpa using hunstake) hx hsrc

end Histories

/-- An escrow of 100 of which 25 is released and the rest decided by one juror. -/
def releaseAndResolve : List (Action Nat (List UInt8)) :=
  partRelease ++
    [.call (fun a => a == 4) (.raiseDispute 1 4 "late"),
      .call (fun a => a == 3) (.stake 3 (.ofNat 30)),
      .call (fun a => a == 3) (.commitVote 1 3 (0 :: List.replicate 32 7)),
      .close (.ofNat 17281),
      .call (fun a => a == 3) (.revealVote 1 3 false (Vector.replicate 32 7)),
      .close (.ofNat 34561),
      .call (fun _ => false) (.resolveDispute 1)]

theorem escrow_pays_out_once_sample :
    ∃ (h : History Host.plain) (env : Env Host.plain) (e : EscrowRecord Nat),
      SingleInit Env.deployed h env ∧ env.get (.escrow 1) = some e ∧ e.status = .settled ∧
        paidFor 1 h = e.amount.val ∧ env.purse.balance 9 4 = 1100 := by
  rcases Env.exists_of_plays releaseAndResolve
    (fun _ env => decide ((env.get (.escrow 1)).map (fun e => e.status) = some .settled ∧
      env.purse.balance 9 4 = 1100)) (by decide +kernel) with ⟨h, env, hs, hend⟩
  rcases of_decide_eq_true hend with ⟨hstatus, hbalance⟩
  rcases Option.map_eq_some_iff.mp hstatus with ⟨e, he, hsettled⟩
  exact ⟨h, env, e, hs, he, hsettled, ((escrow_pays_out_once hs 1).2.1 e he).1.2 hsettled,
    hbalance⟩

end TrustFlow
