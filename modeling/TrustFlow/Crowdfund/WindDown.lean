import TrustFlow.Crowdfund.Refunds

/-!
# Winding a campaign down

A campaign that missed its target is wound down by its donors, each of whom calls
`withdraw` for itself in its own time.  As long as nobody sends tokens to the
contract the state stays expired, `WoundDown` says what any such stretch of a run
leaves, and `winds_down` that the donors can finish in any order they like.
-/

namespace Crowdfund

open Invocation Transition Purse

variable {A : Type} [DecidableEq A] {H : Host A}

/-- A token operation of others. -/
def Label.Sends : Label H → Bool
  | .tokens _ => true
  | _ => false

/-- The addresses a successful `withdraw` was for, newest first. -/
def refundees (h : History H) : List A := h.filterMap fun t => t.label.withdrawn?

/-- What a stretch `later` of a run leaves of the expired campaign of `env`: whoever
    withdrew has the record cleared, and has been paid what the record lost. -/
structure WoundDown (c : Campaign A) (env : Env H) (later : History H) (env' : Env H) : Prop where
  stores : env'.Stores c false
  expired : env'.stateOf c false = .expired
  deposits : ∀ user,
    env'.depositOf user = if user ∈ refundees later then 0 else env.depositOf user
  paid : ∀ user, env'.paid c.token user + (env'.depositOf user).val =
    env.paid c.token user + (env.depositOf user).val
  balance : env'.balance c.token + ∑ᶠ user, (env.depositOf user).val =
    env.balance c.token + ∑ᶠ user, (env'.depositOf user).val
  recipient : c.recipient ∉ refundees later

section WoundDown

variable {env env' m m' : Env H} {c : Campaign A} {claimed : Bool} {l : Label H}
  {later : History H}

theorem refundees_cons (t : Move (Env H) (Label H)) (h : History H) :
    refundees (t :: h) = t.label.withdrawn?.toList ++ refundees h := by
  rw [refundees, List.filterMap_cons]
  cases t.label.withdrawn? <;> rfl

namespace WoundDown

theorem refl (hc : env.Stores c false) (h : env.stateOf c false = .expired) :
    WoundDown c env [] env where
  stores := hc
  expired := h
  deposits user := by simp [refundees]
  paid _ := rfl
  balance := rfl
  recipient := by simp [refundees]

/-- What moves no tokens and writes nothing leaves the campaign as far as it was. -/
theorem congr (hw : WoundDown c env later m) (hl : l.withdrawn? = none)
    (hinst : ∀ k, m'.inst k = m.inst k) (hpurse : m'.purse = m.purse)
    (hexpired : m'.stateOf c false = .expired) :
    WoundDown c env (⟨m, l, m'⟩ :: later) m' := by
  have hrefundees : refundees (⟨m, l, m'⟩ :: later) = refundees later := by
    rw [refundees_cons, hl]
    rfl
  have hdeposit (user : A) : m'.depositOf user = m.depositOf user := Env.depositOf_congr hinst user
  have hpaid (user : A) : m'.paid c.token user = m.paid c.token user := by
    rw [Env.paid, Env.paid, hpurse]
  have hbalance : m'.balance c.token = m.balance c.token := by
    rw [Env.balance, Env.balance, hpurse]
  constructor
  · exact hw.stores.congr fun k _ => hinst k
  · exact hexpired
  · intro user
    rw [hdeposit, hrefundees]
    exact hw.deposits user
  · intro user
    rw [hpaid, hdeposit]
    exact hw.paid user
  · simp only [hbalance, hdeposit]
    exact hw.balance
  · rw [hrefundees]
    exact hw.recipient

/-- A refund clears one record, and pays it. -/
theorem refund (hw : WoundDown c env later m) {auth : A → Bool} {dest : A}
    (hself : m.depositOf H.contract = 0) (hr : m.Refunds c false dest m')
    (hstores : m'.Stores c false) (hexpired : m'.stateOf c false = .expired) :
    WoundDown c env (⟨m, .call auth (.withdraw dest) (), m'⟩ :: later) m' := by
  have hrepays := hr.repays
  have hrefundees : refundees (⟨m, .call auth (.withdraw dest) (), m'⟩ :: later) =
      dest :: refundees later := rfl
  have hpaid (user : A) : m'.paid c.token user =
      (if dest = user then (m.depositOf dest).val else 0) + m.paid c.token user := by
    simp [Env.paid, hrepays.moves.transfers]
  constructor
  · exact hstores
  · exact hexpired
  · intro user
    rw [hrefundees]
    by_cases h : user = dest
    · rw [if_pos (List.mem_cons.mpr (.inl h)), h]
      exact hrepays.cleared
    · rw [hrepays.others user h, hw.deposits]
      simp only [List.mem_cons, h, false_or]
  · intro user
    have hbefore := hw.paid user
    rw [hpaid]
    by_cases h : dest = user
    · subst h
      rw [if_pos rfl, hrepays.cleared]
      simp only [I128.val_zero]
      omega
    · rw [if_neg h, hrepays.others user (Ne.symm h), zero_add]
      exact hbefore
  · have hbefore := hw.balance
    have hsum : ∑ᶠ user, (m'.depositOf user).val =
        ∑ᶠ user, (m.depositOf user).val - (m.depositOf dest).val := by
      cases hr with
      | intro =>
        have hset := m.sum_setUser dest 0
        rw [I128.val_zero, add_zero] at hset
        exact hset
    -- what the contract pays to itself is nothing, for it has no record
    have hbalance : m'.balance c.token = m.balance c.token - (m.depositOf dest).val := by
      have hmoved := hrepays.moves.balance_eq c.token H.contract
      by_cases h : H.contract = dest
      · rw [← h, hself] at hmoved ⊢
        simpa [Env.balance] using hmoved
      · simpa [Env.balance, h] using hmoved
    omega
  · rw [hrefundees, List.mem_cons, not_or]
    cases hr with
    | intro _ hdonor => exact ⟨Ne.symm hdonor, hw.recipient⟩

theorem step {claimed : Bool} (hw : WoundDown c env later m) (hself : m.depositOf H.contract = 0)
    (hs : c.Step false m l claimed m') (hl : l.Sends = false) :
    WoundDown c env (⟨m, l, m'⟩ :: later) m' := by
  have hnot : ¬ Revives ⟨m, l, m'⟩ := by
    intro h
    cases h
    cases hl
  have hexpired := hs.expired hw.stores hw.expired hnot
  have hstores := hs.stores hw.stores
  cases hs with
  | @read auth call r hread =>
      refine hw.congr ?_ (fun _ => rfl) rfl hexpired
      cases hread <;> rfl
  | deposit _ _ hd =>
      have hover := (Env.stateOf_eq_expired.mp hw.expired).1
      cases hd with
      | intro _ hopen => omega
  | refund hr => exact hw.refund hself hr hstores hexpired
  | payout hp => cases hw.expired.symm.trans hp.success
  | failed => exact hw.congr rfl (fun _ => rfl) rfl hexpired
  | close => exact hw.congr rfl (fun _ => rfl) rfl hexpired
  | tokens => cases hl

end WoundDown

end WoundDown

/-! ### The contract has no record -/

section Runs

variable {env env' env₀ m : Env H} {c : Campaign A} {claimed : Bool} {l : Label H}
  {h later : History H}

theorem Campaign.Step.own_deposit {claimed' : Bool} (hs : c.Step claimed env l claimed' env')
    (h0 : env.depositOf H.contract = 0) : env'.depositOf H.contract = 0 := by
  cases hs with
  | read | failed | close | tokens => exact h0
  | deposit _ hself hd =>
      cases hd with
      | @intro total =>
        rw [← h0, ← env.depositOf_setUser_of_ne total (Ne.symm hself)]
        exact Env.depositOf_congr (by simp) _
  | @refund auth dest _ hr =>
      by_cases h : H.contract = dest
      · rw [h]
        exact hr.repays.cleared
      · rw [hr.repays.others _ h]
        exact h0
  | payout hp =>
      cases hp with
      | intro =>
        rw [← h0]
        simp [Env.depositOf]

/-- The contract signs nothing, so it deposits nothing. -/
theorem Run.own_deposit (hfresh : env₀.Fresh) (hr : Run Step env₀ h env)
    (hc : env.Stores c claimed) : env.depositOf H.contract = 0 := by
  refine Run.campaign_invariant (B := fun _ _ => True)
    (P := fun _ env _ _ => env.depositOf H.contract = 0) hfresh trivial
    (fun _ _ _ => trivial) ?_ (fun _ h0 hs => hs.own_deposit h0) hr hc
  intro h env c hb _
  simp [Env.depositOf, Env.initialised, hb _]

/-! ### The donors leave -/

/-- Without tokens from others an expired campaign is wound down and nothing else. -/
theorem Run.woundDown (hfresh : env₀.Fresh) (hr : Run Step env₀ h env) (hc : env.Stores c false)
    (hexpired : env.stateOf c false = .expired) (hlater : Run Step env later env')
    (hquiet : ∀ t ∈ later, t.label.Sends = false) : WoundDown c env later env' := by
  induction hlater with
  | nil => exact .refl hc hexpired
  | @snoc later m l m' hm hs ih =>
      have hw := ih fun t ht => hquiet t (List.mem_cons_of_mem _ ht)
      have hrun := hr.append hm
      rcases hs.stored hw.stores ((Run.sound hfresh hrun).answers _) with ⟨claimed', hstep, _⟩
      exact hw.step (Run.own_deposit hfresh hrun hw.stores) hstep (hquiet _ List.mem_cons_self)

/-- The donors can leave in any order. -/
theorem Run.exists_refundees (hfresh : env₀.Fresh) (hr : Run Step env₀ h env)
    (hc : env.Stores c false) (hexpired : env.stateOf c false = .expired)
    (hpays : H.tokens.PaysFrom H.contract) (donors : List A) (hdonors : c.recipient ∉ donors) :
    ∃ later env', Run Step env later env' ∧ refundees later = donors ∧
      ∀ t ∈ later, t.label.Sends = false := by
  induction donors with
  | nil => exact ⟨[], env, .nil, rfl, fun _ ht => absurd ht List.not_mem_nil⟩
  | cons donor donors ih =>
      rw [List.mem_cons, not_or] at hdonors
      rcases ih hdonors.2 with ⟨later, m, hm, hrefundees, hquiet⟩
      have hw := Run.woundDown hfresh hr hc hexpired hm hquiet
      have hrun := hr.append hm
      have hanswers := (Run.sound hfresh hrun).answers c.token
      -- whatever was refunded so far, the balance covers the next record
      have hrepaid : ∃ m', (withdraw donor : Op H Unit) (fun _ => false) m = .ok ((), m') ∧
          Repays m c donor m' :=
        (Run.accounts hfresh hrun hw.stores).repays hpays hw.stores hanswers hw.expired
          (Ne.symm hdonors.1)
      rcases hrepaid with ⟨m', hcall, -⟩
      refine ⟨⟨m, .call (fun _ => false) (.withdraw donor) (), m'⟩ :: later, m',
        hm.snoc (.call rfl hcall), ?_, ?_⟩
      · rw [refundees_cons, hrefundees]
        rfl
      · intro t ht
        rcases List.mem_cons.mp ht with rfl | ht
        · rfl
        · exact hquiet t ht

/-- From an expired state on, as long as nobody sends tokens to the contract: the state
    stays expired, whoever withdrew was paid its record and nobody else anything, and who
    did not can still do so.  The donors can leave in any order, until all records are
    cleared and every donor has back what it deposited. -/
theorem winds_down (hfresh : env₀.Fresh) (hr : Run Step env₀ h env)
    (hexpired : env.Shows .expired) (hpays : H.tokens.PaysFrom H.contract) :
    ∃ c : Campaign A, env.Stores c false ∧
      (∀ later env', Run Step env later env' → (∀ t ∈ later, t.label.Sends = false) →
        WoundDown c env later env' ∧ ∀ auth dest, dest ≠ c.recipient → ∃ env'',
          (withdraw dest : Op H Unit) auth env' = .ok ((), env'') ∧ Repays env' c dest env'') ∧
      (∀ donors, c.recipient ∉ donors → ∃ later env', Run Step env later env' ∧
        refundees later = donors ∧ ∀ t ∈ later, t.label.Sends = false) ∧
      ∃ later env', Run Step env later env' ∧ (∀ t ∈ later, t.label.Sends = false) ∧
        ∀ user, env'.depositOf user = 0 ∧ env'.paid c.token user = deposited user h := by
  rcases (Run.sound hfresh hr).shows.mp hexpired with ⟨c, claimed, hc, hstate⟩
  obtain rfl : claimed = false := (Env.stateOf_eq_expired.mp hstate).2.1
  have haccounts := Run.accounts hfresh hr hc
  have hleave := Run.exists_refundees hfresh hr hc hstate hpays
  refine ⟨c, hc, fun later env' hlater hquiet => ⟨?_, fun auth dest hdest => ?_⟩, hleave, ?_⟩
  · exact Run.woundDown hfresh hr hc hstate hlater hquiet
  · have hw := Run.woundDown hfresh hr hc hstate hlater hquiet
    have hrun := hr.append hlater
    exact (Run.accounts hfresh hrun hw.stores).repays hpays hw.stores
      ((Run.sound hfresh hrun).answers _) hw.expired hdest
  · have hdonors : c.recipient ∉ env.finite_deposits.toFinset.toList := by
      simp [haccounts.recipient]
    rcases hleave _ hdonors with ⟨later, env', hlater, hrefundees, hquiet⟩
    have hw := Run.woundDown hfresh hr hc hstate hlater hquiet
    have hcleared (user : A) : env'.depositOf user = 0 := by
      rw [hw.deposits, hrefundees]
      split
      · rfl
      · next hnot =>
        have hzero : (env.depositOf user).val = 0 := by simpa using hnot
        exact BoundedInt.val_inj.mp hzero
    refine ⟨later, env', hlater, hquiet, fun user => ⟨hcleared user, ?_⟩⟩
    have hpaid := hw.paid user
    have hexact := haccounts.exact user
    rw [hcleared, I128.val_zero] at hpaid
    omega

/-- Addresses 1 to 3 deposit 6, 4 and 2; past the deadline address 2 has its refund. -/
def threeDonors : List (Action Nat) :=
  [.call (fun _ => false) (.initialise 5 (.ofNat 11) (.ofNat 15) 9),
   .call (fun a => a == 1) (.deposit 1 (.ofNat 6)),
   .call (fun a => a == 2) (.deposit 2 (.ofNat 4)),
   .call (fun a => a == 3) (.deposit 3 (.ofNat 2)),
   .close (.ofNat 11),
   .call (fun _ => false) (.withdraw 2)]

theorem winds_down_sample : ∃ (h : History Host.plain) (env : Env Host.plain),
    Run Step Env.deployed h env ∧ env.paid 9 2 = 4 ∧
      (∃ later env', Run Step env later env' ∧ refundees later = [3, 1]) ∧
      ∃ later env', Run Step env later env' ∧ env'.paid 9 1 = 6 ∧ env'.paid 9 2 = 4 ∧
        env'.paid 9 3 = 2 := by
  rcases Env.exists_of_plays threeDonors
    (fun h env => decide (env.Stores .plain false ∧ 11 ≤ env.timestamp.val ∧
      env.balance 9 = 8 ∧ env.paid 9 2 = 4 ∧ deposited 1 h = 6 ∧ deposited 2 h = 4 ∧
      deposited 3 h = 2)) (by decide +kernel) with ⟨h, env, hr, hend⟩
  rcases of_decide_eq_true hend with ⟨hc, hover, hheld, hpaid, h1, h2, h3⟩
  have hexpired : env.stateOf .plain false = .expired := by
    refine Env.stateOf_eq_expired.mpr ⟨hover, rfl, ?_⟩
    show env.balance 9 < 15
    omega
  have hshows : env.Shows .expired :=
    (hc.shows ((Run.sound Env.deployed_fresh hr).answers _)).mpr hexpired
  have hpays : Host.plain.tokens.PaysFrom Host.plain.contract := Tokens.balances_paysFrom 0
  rcases winds_down Env.deployed_fresh hr hshows hpays with ⟨c, hc', -, hleave, hall⟩
  rcases hc.unique hc' with ⟨rfl, -⟩
  rcases hleave [3, 1] (by decide) with ⟨later, env', hlater, hrefundees, -⟩
  rcases hall with ⟨rest, last, hrest, -, hcleared⟩
  exact ⟨h, env, hr, hpaid, ⟨later, env', hlater, hrefundees⟩, rest, last, hrest,
    (hcleared 1).2.trans h1, (hcleared 2).2.trans h2, (hcleared 3).2.trans h3⟩

end Runs

end Crowdfund
