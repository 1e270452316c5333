import TrustFlow.Lib.Machine
import Mathlib.Algebra.Order.BigOperators.Group.List

/-!
# Tokens as a contract sees them

A contract holds and moves tokens through other contracts.  `Tokens A` is what
it may rely on about all of them together: a state, the balance of a holder in
a token, and a transfer that either fails or moves exactly a non-negative
amount.  Nothing is said about when a transfer fails; `PaysFrom` and `Fundable`
name the two liveness assumptions a progress property may add.

`Tokens.balances` is the plainest implementation, a table of balances.
-/

/-- A transfer that took place. -/
structure Transfer (A : Type) where
  token : A
  src : A
  dst : A
  amount : I128
deriving DecidableEq

/-- What a payment amounts to: one transfer, or none when the amount is zero. -/
def payment {A : Type} (tok src dst : A) (amount : I128) : List (Transfer A) :=
  if amount.val = 0 then [] else [⟨tok, src, dst, amount⟩]

theorem sum_payment {A : Type} (tok src dst : A) (amount : I128) :
    ((payment tok src dst amount).map fun t => t.amount.val).sum = amount.val := by
  unfold payment
  split
  · next h => simp [h]
  · simp

/-- The token contracts of a ledger and the laws of their transfers. -/
structure Tokens (A : Type) [DecidableEq A] where
  State : Type
  balance : State → (token holder : A) → Int
  transfer : State → (token src dst : A) → I128 → Option State
  transfer_nonneg : ∀ {s s' t a b n}, transfer s t a b n = some s' → 0 ≤ n.val
  balance_transfer : ∀ {s s' t a b n}, transfer s t a b n = some s' → ∀ t' x,
    balance s' t' x =
      balance s t' x + (if t' = t ∧ x = b then n.val else 0) - (if t' = t ∧ x = a then n.val else 0)

namespace Tokens

variable {A : Type} [DecidableEq A] (T : Tokens A)

/-- Transfers out of `src` succeed whenever the amount is non-negative and covered. -/
def PaysFrom (src : A) : Prop :=
  ∀ s t dst n, 0 ≤ n.val → n.val ≤ T.balance s t src → ∃ s', T.transfer s t src dst n = some s'

/-- Any holder but `self` can be given tokens without `self` losing any. -/
def Fundable (self : A) : Prop :=
  ∀ s t x, x ≠ self → ∃ s', 1 ≤ T.balance s' t x ∧ ∀ t', T.balance s t' self ≤ T.balance s' t' self

/-! ### A table of balances -/

/-- The state after moving `n` in the table, whatever the table holds. -/
def moveBalance (s : A → A → Int) (t a b : A) (n : Int) : A → A → Int := fun t' x =>
  s t' x + (if t' = t ∧ x = b then n else 0) - (if t' = t ∧ x = a then n else 0)

/-- Tokens as a table of balances: a transfer needs a non-negative amount the
    source holds. -/
def balances (A : Type) [DecidableEq A] : Tokens A where
  State := A → A → Int
  balance s t x := s t x
  transfer s t a b n :=
    if 0 ≤ n.val ∧ n.val ≤ s t a then some (moveBalance s t a b n.val) else none
  transfer_nonneg := by
    intro s s' t a b n h
    split at h
    · next hn => exact hn.1
    · cases h
  balance_transfer := by
    intro s s' t a b n h t' x
    split at h
    · cases h; rfl
    · cases h

theorem balances_paysFrom (src : A) : (balances A).PaysFrom src := by
  intro s t dst n h0 hn
  exact ⟨_, if_pos ⟨h0, hn⟩⟩

theorem balances_fundable (self : A) : (balances A).Fundable self := by
  intro s t x hx
  refine ⟨fun t' y => if t' = t ∧ y = x then 1 else s t' y, ?_, ?_⟩
  · show 1 ≤ if t = t ∧ x = x then 1 else s t x
    simp
  · intro t'
    show s t' self ≤ if t' = t ∧ self = x then 1 else s t' self
    simp [hx.symm]

end Tokens

/-! ### A holder's purse

The tokens as one contract leaves them, together with the log of the transfers
it made, newest first. -/

structure Purse {A : Type} [DecidableEq A] (T : Tokens A) where
  state : T.State
  transfers : List (Transfer A)

namespace Purse

variable {A : Type} [DecidableEq A] {T : Tokens A} {p p' : Purse T} {tok src dst self : A}
  {amount : I128}

def balance (p : Purse T) (tok holder : A) : Int := T.balance p.state tok holder

/-- One transfer, logged. -/
inductive Moves (tok src dst : A) (amount : I128) (p : Purse T) : Purse T → Prop
  | intro {s : T.State} (h : T.transfer p.state tok src dst amount = some s) :
      Moves tok src dst amount p ⟨s, ⟨tok, src, dst, amount⟩ :: p.transfers⟩

/-- A payment: a transfer, or nothing when the amount is zero. -/
inductive Pays (tok src dst : A) (amount : I128) (p : Purse T) : Purse T → Prop
  | zero (h : amount.val = 0) : Pays tok src dst amount p p
  | moved {p' : Purse T} (h : amount.val ≠ 0) (hm : Moves tok src dst amount p p') :
      Pays tok src dst amount p p'

/-- A payment of what is positive: a transfer, or nothing at zero and below. -/
inductive PaysPositive (tok src dst : A) (amount : I128) (p : Purse T) : Purse T → Prop
  | nothing (h : amount.val ≤ 0) : PaysPositive tok src dst amount p p
  | moved {p' : Purse T} (h : 0 < amount.val) (hm : Moves tok src dst amount p p') :
      PaysPositive tok src dst amount p p'

/-- The amount of a transfer a holder made to itself in `tok`. -/
def selfPaid (self tok : A) (t : Transfer A) : Int :=
  if t.token = tok ∧ t.src = self ∧ t.dst = self then t.amount.val else 0

/-- What `self` holds less what it paid to itself: what is left when a payment
    counts as gone whoever received it. -/
def net (p : Purse T) (self tok : A) : Int :=
  p.balance tok self - (p.transfers.map (selfPaid self tok)).sum

theorem Moves.nonneg (h : Moves tok src dst amount p p') : 0 ≤ amount.val := by
  cases h with
  | intro h => exact T.transfer_nonneg h

theorem Moves.transfers (h : Moves tok src dst amount p p') :
    p'.transfers = ⟨tok, src, dst, amount⟩ :: p.transfers := by
  cases h with
  | intro h => rfl

/-- The log tells one amount from another. -/
theorem Moves.amount_unique {amount' : I128} (h : Moves tok src dst amount p p')
    (h' : Moves tok src dst amount' p p') : amount' = amount := by
  have hlog := h'.transfers.symm.trans h.transfers
  exact congrArg Transfer.amount (List.cons.inj hlog).1

theorem Moves.balance_eq (h : Moves tok src dst amount p p') (t x : A) :
    p'.balance t x = p.balance t x + (if t = tok ∧ x = dst then amount.val else 0) -
      (if t = tok ∧ x = src then amount.val else 0) := by
  cases h with
  | intro h => exact T.balance_transfer h t x

/-- Money out of `self` lowers its net holding by the amount. -/
theorem Moves.net_out (h : Moves tok self dst amount p p') :
    p'.net self tok = p.net self tok - amount.val := by
  cases h with
  | intro h =>
    have hb := T.balance_transfer h tok self
    by_cases hd : dst = self
    · simp [net, balance, selfPaid, hd, hb]
      omega
    · have hd' : self ≠ dst := fun he => hd he.symm
      simp [net, balance, selfPaid, hd, hd', hb]
      omega

/-- Money from another holder into `self` raises its net holding by the amount. -/
theorem Moves.net_in (h : Moves tok src self amount p p') (hs : src ≠ self) :
    p'.net self tok = p.net self tok + amount.val := by
  cases h with
  | intro h =>
    have hb := T.balance_transfer h tok self
    simp [net, balance, selfPaid, hs, hs.symm, hb]
    omega

theorem Pays.nonneg (h : Pays tok src dst amount p p') : 0 ≤ amount.val := by
  cases h with
  | zero h => omega
  | moved _ hm => exact hm.nonneg

theorem Pays.net_out (h : Pays tok self dst amount p p') :
    p'.net self tok = p.net self tok - amount.val := by
  cases h with
  | zero h => omega
  | moved _ hm => exact hm.net_out

theorem Pays.balance_eq (h : Pays tok src dst amount p p') (t x : A) :
    p'.balance t x = p.balance t x + (if t = tok ∧ x = dst then amount.val else 0) -
      (if t = tok ∧ x = src then amount.val else 0) := by
  cases h with
  | zero h => simp [h]
  | moved _ hm => exact hm.balance_eq t x

theorem Pays.transfers (h : Pays tok src dst amount p p') :
    p'.transfers = payment tok src dst amount ++ p.transfers := by
  cases h with
  | zero h => simp [payment, h]
  | moved h hm => simp [payment, h, hm.transfers]

/-- Of an amount that is not negative, paying the positive is paying it. -/
theorem PaysPositive.pays (h : PaysPositive tok src dst amount p p') (h0 : 0 ≤ amount.val) :
    Pays tok src dst amount p p' := by
  cases h with
  | nothing h => exact .zero (by omega)
  | moved h hm => exact .moved (by omega) hm

/-- A transfer takes no more than its amount from the source. -/
theorem Moves.balance_src_ge (h : Moves tok src dst amount p p') :
    p.balance tok src - amount.val ≤ p'.balance tok src := by
  have h0 := h.nonneg
  cases h with
  | intro h =>
    have hb := T.balance_transfer h tok src
    simp only [balance, hb, true_and, if_true]
    split <;> omega

theorem Pays.balance_src_ge (h : Pays tok src dst amount p p') :
    p.balance tok src - amount.val ≤ p'.balance tok src := by
  cases h with
  | zero h => omega
  | moved _ hm => exact hm.balance_src_ge

/-- The transfers logged between two states of a purse, newest first. -/
def since (p p' : Purse T) : List (Transfer A) :=
  p'.transfers.take (p'.transfers.length - p.transfers.length)

theorem since_eq {ts : List (Transfer A)} (h : p'.transfers = ts ++ p.transfers) :
    since p p' = ts := by
  rw [since, h, List.length_append, Nat.add_sub_cancel, List.take_left]

/-- Two payments in a row, newest first. -/
theorem Pays.since_pays {p'' : Purse T} {tok' src' dst' : A} {amount' : I128}
    (h : Pays tok src dst amount p p') (h' : Pays tok' src' dst' amount' p' p'') :
    since p p'' = payment tok' src' dst' amount' ++ payment tok src dst amount := by
  apply since_eq
  rw [h'.transfers, h.transfers, List.append_assoc]

theorem Moves.since_eq (h : Moves tok src dst amount p p') :
    since p p' = [⟨tok, src, dst, amount⟩] := Purse.since_eq h.transfers

theorem PaysPositive.since_eq (h : PaysPositive tok src dst amount p p') :
    since p p' = if 0 < amount.val then [⟨tok, src, dst, amount⟩] else [] := by
  cases h with
  | nothing h =>
      rw [if_neg (Int.not_lt.mpr h)]
      exact Purse.since_eq rfl
  | moved h hm =>
      rw [if_pos h]
      exact hm.since_eq

/-- No logged transfer is of a negative amount. -/
def Honest (p : Purse T) : Prop := ∀ t ∈ p.transfers, 0 ≤ t.amount.val

theorem Moves.honest (h : Moves tok src dst amount p p') (hp : p.Honest) : p'.Honest := by
  intro t ht
  rw [h.transfers] at ht
  rcases List.mem_cons.mp ht with rfl | ht
  · exact h.nonneg
  · exact hp t ht

theorem Pays.honest (h : Pays tok src dst amount p p') (hp : p.Honest) : p'.Honest := by
  cases h with
  | zero => exact hp
  | moved _ hm => exact hm.honest hp

theorem PaysPositive.honest (h : PaysPositive tok src dst amount p p') (hp : p.Honest) :
    p'.Honest := by
  cases h with
  | nothing => exact hp
  | moved _ hm => exact hm.honest hp

/-- What an honest holder paid to itself is not negative. -/
theorem Honest.selfPaid_nonneg (hp : p.Honest) (self tok : A) :
    0 ≤ (p.transfers.map (selfPaid self tok)).sum := by
  apply List.sum_nonneg
  intro x hx
  obtain ⟨t, ht, rfl⟩ := List.mem_map.mp hx
  unfold selfPaid
  split
  · exact hp t ht
  · exact le_rfl

/-- A holder that pays out whatever it covers makes any covered payment. -/
theorem exists_moves (hT : T.PaysFrom src) (h0 : 0 ≤ amount.val)
    (hb : amount.val ≤ p.balance tok src) : ∃ p', Moves tok src dst amount p p' := by
  obtain ⟨s, hs⟩ := hT p.state tok dst amount h0 hb
  exact ⟨_, .intro hs⟩

theorem exists_pays (hT : T.PaysFrom src) (h0 : 0 ≤ amount.val)
    (hb : amount.val ≤ p.balance tok src) : ∃ p', Pays tok src dst amount p p' := by
  by_cases h : amount.val = 0
  · exact ⟨p, .zero h⟩
  · obtain ⟨p', hp⟩ : ∃ p', Moves tok src dst amount p p' := exists_moves hT h0 hb
    exact ⟨p', .moved h hp⟩

end Purse
