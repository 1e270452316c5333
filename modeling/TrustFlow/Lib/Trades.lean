import TrustFlow.Lib.Token

/-!
# Sequences of transfers

`Trades R p p'` says that the purse `p'` comes from `p` by transfers that all
meet `R`, each of them logged.  What transfers keep of the tokens such a
sequence keeps, and whatever was logged in between meets `R`.  `Purse.unlogged` is
what a holder has beside what the log brought it, which transfers do not change.
-/

/-- What a transfer brings to a holder. -/
def Transfer.flow {A : Type} [DecidableEq A] (tok holder : A) (t : Transfer A) : Int :=
  (if tok = t.token ∧ holder = t.dst then t.amount.val else 0) -
    (if tok = t.token ∧ holder = t.src then t.amount.val else 0)

namespace Purse

variable {A : Type} [DecidableEq A] {T : Tokens A} {R : Transfer A → Prop} {p p' p'' : Purse T}
  {tok src dst : A} {amount : I128}

inductive Trades (R : Transfer A → Prop) : Purse T → Purse T → Prop
  | nil {p : Purse T} : Trades R p p
  | cons {tok src dst : A} {amount : I128} {p p' p'' : Purse T}
      (hm : Moves tok src dst amount p p') (hR : R ⟨tok, src, dst, amount⟩)
      (h : Trades R p' p'') : Trades R p p''

/-- What a holder has and the log does not account for. -/
def unlogged (p : Purse T) (tok holder : A) : Int :=
  p.balance tok holder - (p.transfers.map (Transfer.flow tok holder)).sum

theorem Moves.unlogged_eq (hm : Moves tok src dst amount p p') (t x : A) :
    p'.unlogged t x = p.unlogged t x := by
  have hb := hm.balance_eq t x
  simp only [unlogged, hm.transfers, List.map_cons, List.sum_cons, Transfer.flow]
  omega

theorem Moves.trades (hm : Moves tok src dst amount p p') (hR : R ⟨tok, src, dst, amount⟩) :
    Trades R p p' := .cons hm hR .nil

theorem Pays.trades (h : Pays tok src dst amount p p')
    (hR : 0 < amount.val → R ⟨tok, src, dst, amount⟩) : Trades R p p' := by
  cases h with
  | zero => exact .nil
  | moved h hm =>
      have h0 := hm.nonneg
      exact hm.trades (hR (by omega))

theorem PaysPositive.trades (h : PaysPositive tok src dst amount p p')
    (hR : 0 < amount.val → R ⟨tok, src, dst, amount⟩) : Trades R p p' := by
  cases h with
  | nothing => exact .nil
  | moved h hm => exact hm.trades (hR h)

namespace Trades

theorem append (h : Trades R p p') (h' : Trades R p' p'') : Trades R p p'' := by
  induction h with
  | nil => exact h'
  | cons hm hR _ ih => exact .cons hm hR (ih h')

/-- What was logged in between, with what it meets. -/
theorem logged (h : Trades R p p') :
    ∃ new, p'.transfers = new ++ p.transfers ∧ ∀ t ∈ new, R t ∧ 0 ≤ t.amount.val := by
  induction h with
  | nil => exact ⟨[], rfl, fun _ ht => absurd ht List.not_mem_nil⟩
  | @cons tok src dst amount p p' p'' hm hR _ ih =>
      rcases ih with ⟨new, hnew, hall⟩
      refine ⟨new ++ [⟨tok, src, dst, amount⟩], ?_, fun t ht => ?_⟩
      · rw [hnew, hm.transfers, List.append_assoc, List.singleton_append]
      · rcases List.mem_append.mp ht with ht | ht
        · exact hall t ht
        · rw [List.mem_singleton] at ht
          subst ht
          exact ⟨hR, hm.nonneg⟩

/-- What every transfer keeps of the tokens is kept. -/
theorem state {P : T.State → Prop}
    (hP : ∀ {s s' tok src dst amount}, P s → T.transfer s tok src dst amount = some s' → P s')
    (h : Trades R p p') (hp : P p.state) : P p'.state := by
  induction h with
  | nil => exact hp
  | cons hm _ _ ih =>
      apply ih
      cases hm with
      | intro hs => exact hP hp hs

/-- Who is the source of no transfer loses nothing. -/
theorem balance_le {t x : A} (h : Trades R p p') (hR : ∀ tr, R tr → tr.token = t → tr.src ≠ x) :
    p.balance t x ≤ p'.balance t x := by
  induction h with
  | nil => exact le_rfl
  | @cons tok src dst amount _ _ _ hm hparty _ ih =>
      have h0 := hm.nonneg
      have hsrc : ¬ (t = tok ∧ x = src) := fun h => hR _ hparty h.1.symm h.2.symm
      have hb := hm.balance_eq t x
      rw [if_neg hsrc] at hb
      split at hb
      · omega
      · omega

end Trades

end Purse
