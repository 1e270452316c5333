import Mathlib.Data.Set.Finite.Basic
import Mathlib.Algebra.Notation.Support

/-!
# Typed key-value storage with entry lifetimes

A host stores values under keys, the type of a value depending on its key.
`FiniteMap K V` is such a store: a partial dependent function whose domain is
finite, the finiteness being part of the value so that a sum over all keys is
always a finite one.  `Persistent K V` adds to each value the ledger up to
which its entry is kept alive.

The lemmas say how reads see writes.  Lifetimes and values are independent:
extending an entry never changes a read (`Persistent.get_bump`).
-/

/-- A finite partial map with values of key-dependent type. -/
structure FiniteMap (K : Type*) (V : K → Type*) where
  find? : (k : K) → Option (V k)
  finite : {k | (find? k).isSome}.Finite

namespace FiniteMap

variable {K : Type*} {V : K → Type*}

@[ext] theorem ext {m n : FiniteMap K V} (h : ∀ k, m.find? k = n.find? k) : m = n := by
  cases m; cases n
  congr
  funext k
  exact h k

/-- The map with no keys. -/
def empty : FiniteMap K V := ⟨fun _ => none, by simp⟩

@[simp] theorem find?_empty (k : K) : (empty : FiniteMap K V).find? k = none := rfl

/-- A family of keys carries finitely many values, read with a default. -/
theorem finite_support {ι M : Type*} [Zero M] (m : FiniteMap K V) (key : ι → K)
    (hkey : Function.Injective key) (f : ι → M) (hf : ∀ i, m.find? (key i) = none → f i = 0) :
    (Function.support f).Finite := by
  apply (m.finite.preimage hkey.injOn).subset
  intro i hi
  rw [Set.mem_preimage, Set.mem_ofPred_eq, Option.isSome_iff_ne_none]
  exact fun hn => hi (hf i hn)

variable [DecidableEq K]

/-- Store `v` under `k`. -/
def insert (m : FiniteMap K V) (k : K) (v : V k) : FiniteMap K V where
  find? := Function.update m.find? k (some v)
  finite := (m.finite.insert k).subset fun k' hk' => by
    by_cases h : k' = k
    · exact Or.inl h
    · rw [Set.mem_ofPred_eq, Function.update_of_ne h] at hk'
      exact Or.inr hk'

/-- Drop the key `k`. -/
def erase (m : FiniteMap K V) (k : K) : FiniteMap K V where
  find? := Function.update m.find? k none
  finite := m.finite.subset fun k' hk' => by
    by_cases h : k' = k
    · subst h; simp at hk'
    · rw [Set.mem_ofPred_eq, Function.update_of_ne h] at hk'
      exact hk'

@[simp] theorem find?_insert_self (m : FiniteMap K V) (k : K) (v : V k) :
    (m.insert k v).find? k = some v := Function.update_self ..

@[simp] theorem find?_insert_of_ne (m : FiniteMap K V) {k k' : K} (v : V k) (h : k' ≠ k) :
    (m.insert k v).find? k' = m.find? k' := Function.update_of_ne h ..

@[simp] theorem find?_erase_self (m : FiniteMap K V) (k : K) :
    (m.erase k).find? k = none := Function.update_self ..

@[simp] theorem find?_erase_of_ne (m : FiniteMap K V) {k k' : K} (h : k' ≠ k) :
    (m.erase k).find? k' = m.find? k' := Function.update_of_ne h ..

end FiniteMap

/-! ### Entries with a lifetime -/

/-- A stored value and the last ledger its entry is guaranteed to see. -/
@[ext] structure Entry (α : Type*) where
  value : α
  liveUntil : Nat

/-- The lifetime `l` after an extension at `now`: `now + amount` when at most
    `threshold` ledgers are left, and `l` itself otherwise. -/
def extended (now threshold amount l : Nat) : Nat :=
  if l ≤ now + threshold then now + amount else l

section Extended

variable {now threshold amount l : Nat}

/-- An extension to more than the threshold leaves more than the threshold. -/
theorem lt_extended (h : threshold < amount) :
    now + threshold < extended now threshold amount l := by
  unfold extended
  split <;> omega

theorem extended_extended (h : threshold < amount) :
    extended now threshold amount (extended now threshold amount l) =
      extended now threshold amount l :=
  if_neg (Nat.not_le.mpr (lt_extended h))

theorem extended_eq_or (now threshold amount l : Nat) :
    extended now threshold amount l = now + amount ∨ extended now threshold amount l = l := by
  unfold extended
  split
  · exact .inl rfl
  · exact .inr rfl

end Extended

/-- Persistent storage: every key holds an entry with a lifetime of its own. -/
structure Persistent (K : Type*) (V : K → Type*) where
  entries : FiniteMap K fun k => Entry (V k)

namespace Persistent

variable {K : Type*} {V : K → Type*}

def empty : Persistent K V := ⟨FiniteMap.empty⟩

def get (p : Persistent K V) (k : K) : Option (V k) := (p.entries.find? k).map Entry.value

def has (p : Persistent K V) (k : K) : Bool := (p.entries.find? k).isSome

def liveUntil (p : Persistent K V) (k : K) : Option Nat :=
  (p.entries.find? k).map Entry.liveUntil

@[simp] theorem get_empty (k : K) : (empty : Persistent K V).get k = none := rfl

theorem has_eq_isSome_get (p : Persistent K V) (k : K) : p.has k = (p.get k).isSome := by
  simp [has, get]

theorem liveUntil_isSome (p : Persistent K V) (k : K) :
    (p.liveUntil k).isSome = (p.get k).isSome := by
  simp [liveUntil, get]

/-- A family of keys holds finitely many values, read with a default. -/
theorem finite_support {ι M : Type*} [Zero M] (p : Persistent K V) (key : ι → K)
    (hkey : Function.Injective key) (f : ι → M) (hf : ∀ i, p.get (key i) = none → f i = 0) :
    (Function.support f).Finite :=
  p.entries.finite_support key hkey f fun i hi => hf i (by rw [get, hi]; rfl)

variable [DecidableEq K]

/-- Write `v` under `k`.  An existing entry keeps its lifetime; a new one is
    born alive until `birth`. -/
def set (p : Persistent K V) (birth : Nat) (k : K) (v : V k) : Persistent K V :=
  ⟨p.entries.insert k ⟨v, (p.liveUntil k).getD birth⟩⟩

def remove (p : Persistent K V) (k : K) : Persistent K V := ⟨p.entries.erase k⟩

/-- Extend the entry under `k` to `now + amount`, if it exists and has at most
    `threshold` ledgers left. -/
def bump (p : Persistent K V) (now threshold amount : Nat) (k : K) : Persistent K V :=
  match p.entries.find? k with
  | some e =>
      if e.liveUntil ≤ now + threshold then
        ⟨p.entries.insert k { e with liveUntil := now + amount }⟩
      else p
  | none => p

@[simp] theorem get_set_self (p : Persistent K V) (birth : Nat) (k : K) (v : V k) :
    (p.set birth k v).get k = some v := by simp [get, set]

@[simp] theorem get_set_of_ne (p : Persistent K V) (birth : Nat) {k k' : K} (v : V k)
    (h : k' ≠ k) : (p.set birth k v).get k' = p.get k' := by simp [get, set, h]

@[simp] theorem get_remove_self (p : Persistent K V) (k : K) : (p.remove k).get k = none := by
  simp [get, remove]

@[simp] theorem get_remove_of_ne (p : Persistent K V) {k k' : K} (h : k' ≠ k) :
    (p.remove k).get k' = p.get k' := by simp [get, remove, h]

@[simp] theorem get_bump (p : Persistent K V) (now threshold amount : Nat) (k k' : K) :
    (p.bump now threshold amount k).get k' = p.get k' := by
  unfold bump
  split
  · next e he =>
    split
    · by_cases h : k' = k
      · subst h; simp [get, he]
      · simp [get, h]
    · rfl
  · rfl

/-! ### Lifetimes -/

@[simp] theorem liveUntil_set_self (p : Persistent K V) (birth : Nat) (k : K) (v : V k) :
    (p.set birth k v).liveUntil k = some ((p.liveUntil k).getD birth) := by
  simp [liveUntil, set]

@[simp] theorem liveUntil_set_of_ne (p : Persistent K V) (birth : Nat) {k k' : K} (v : V k)
    (h : k' ≠ k) : (p.set birth k v).liveUntil k' = p.liveUntil k' := by
  simp [liveUntil, set, h]

@[simp] theorem liveUntil_remove_self (p : Persistent K V) (k : K) :
    (p.remove k).liveUntil k = none := by simp [liveUntil, remove]

@[simp] theorem liveUntil_remove_of_ne (p : Persistent K V) {k k' : K} (h : k' ≠ k) :
    (p.remove k).liveUntil k' = p.liveUntil k' := by simp [liveUntil, remove, h]

@[simp] theorem liveUntil_bump_self (p : Persistent K V) (now threshold amount : Nat) (k : K) :
    (p.bump now threshold amount k).liveUntil k =
      (p.liveUntil k).map (extended now threshold amount) := by
  unfold bump
  split
  · next e he =>
    split
    · next hle => simp [liveUntil, extended, he, hle]
    · next hgt => simp [liveUntil, extended, he, hgt]
  · next hnone => simp [liveUntil, hnone]

@[simp] theorem liveUntil_bump_of_ne (p : Persistent K V) (now threshold amount : Nat) {k k' : K}
    (h : k' ≠ k) : (p.bump now threshold amount k).liveUntil k' = p.liveUntil k' := by
  unfold bump
  split
  · split
    · simp [liveUntil, h]
    · rfl
  · rfl

end Persistent

/-! ### Entries that expire -/

/-- Temporary storage: what `stored` holds is gone for reads and writes once its
    lifetime is over. -/
structure Temporary (K : Type*) (V : K → Type*) where
  stored : Persistent K V

namespace Temporary

variable {K : Type*} {V : K → Type*}

def empty : Temporary K V := ⟨Persistent.empty⟩

/-- The entry under `k` sees the ledger `now`. -/
def live (t : Temporary K V) (now : Nat) (k : K) : Bool :=
  (t.stored.liveUntil k).any fun l => now ≤ l

def get (t : Temporary K V) (now : Nat) (k : K) : Option (V k) :=
  if t.live now k then t.stored.get k else none

section Reads

variable {t : Temporary K V} {now l : Nat} {k : K} {v : V k}

theorem live_of_le (h : t.stored.liveUntil k = some l) (hl : now ≤ l) : t.live now k = true := by
  simp [live, h, hl]

/-- A read sees what is stored, as long as it is live. -/
theorem get_of_le (hv : t.stored.get k = some v) (h : t.stored.liveUntil k = some l)
    (hl : now ≤ l) : t.get now k = some v := by
  rw [get, if_pos (live_of_le h hl), hv]

theorem stored_get_of_get (h : t.get now k = some v) : t.stored.get k = some v := by
  unfold get at h
  split at h
  · exact h
  · cases h

theorem get_congr {t' : Temporary K V} (hv : t'.stored.get k = t.stored.get k)
    (hl : t'.stored.liveUntil k = t.stored.liveUntil k) : t'.get now k = t.get now k := by
  rw [get, live, hv, hl, get, live]

end Reads

variable [DecidableEq K]

/-- Write `v` under `k`.  A live entry keeps its lifetime; otherwise a new one is
    born alive until `birth`. -/
def set (t : Temporary K V) (now birth : Nat) (k : K) (v : V k) : Temporary K V :=
  if t.live now k then ⟨t.stored.set birth k v⟩ else ⟨(t.stored.remove k).set birth k v⟩

/-- Extend a live entry as persistent storage does. -/
def bump (t : Temporary K V) (now threshold amount : Nat) (k : K) : Temporary K V :=
  if t.live now k then ⟨t.stored.bump now threshold amount k⟩ else t

section Stored

variable {t : Temporary K V} {now birth threshold amount l : Nat} {k k' : K} {v : V k}

@[simp] theorem stored_get_set_self : (t.set now birth k v).stored.get k = some v := by
  unfold set
  split
  · exact Persistent.get_set_self ..
  · exact Persistent.get_set_self ..

@[simp] theorem stored_get_set_of_ne (h : k' ≠ k) :
    (t.set now birth k v).stored.get k' = t.stored.get k' := by
  unfold set
  split
  · exact Persistent.get_set_of_ne _ _ _ h
  · simp [h]

@[simp] theorem stored_liveUntil_set_of_ne (h : k' ≠ k) :
    (t.set now birth k v).stored.liveUntil k' = t.stored.liveUntil k' := by
  unfold set
  split
  · exact Persistent.liveUntil_set_of_ne _ _ _ h
  · simp [h]

@[simp] theorem stored_get_bump :
    (t.bump now threshold amount k).stored.get k' = t.stored.get k' := by
  unfold bump
  split
  · exact Persistent.get_bump ..
  · rfl

@[simp] theorem stored_liveUntil_bump_of_ne (h : k' ≠ k) :
    (t.bump now threshold amount k).stored.liveUntil k' = t.stored.liveUntil k' := by
  unfold bump
  split
  · exact Persistent.liveUntil_bump_of_ne _ _ _ _ h
  · rfl

/-- An extension to at least its threshold shortens no lifetime. -/
theorem stored_liveUntil_bump_le (hle : threshold ≤ amount) (h : t.stored.liveUntil k' = some l) :
    ∃ l', (t.bump now threshold amount k).stored.liveUntil k' = some l' ∧ l ≤ l' := by
  by_cases hk : k' = k
  · subst hk
    unfold bump
    split
    · refine ⟨extended now threshold amount l, by simp [h], ?_⟩
      unfold extended
      split <;> omega
    · exact ⟨l, h, le_rfl⟩
  · exact ⟨l, by rw [stored_liveUntil_bump_of_ne hk, h], le_rfl⟩

/-- A written entry is live. -/
theorem live_set (hbirth : now ≤ birth) : (t.set now birth k v).live now k = true := by
  unfold set
  split
  · next hlive =>
    rw [live, Option.any_eq_true] at hlive
    rcases hlive with ⟨l, hl, hle⟩
    exact live_of_le (by simp [hl]) (decide_eq_true_eq.mp hle)
  · exact live_of_le (by simp) hbirth

/-- An entry that is written and extended by `n` lives for `n` ledgers at least. -/
theorem stored_liveUntil_bump_set (hbirth : now ≤ birth) {n : Nat} :
    ∃ l, ((t.set now birth k v).bump now n n k).stored.liveUntil k = some l ∧ now + n ≤ l := by
  have hlive : (t.set now birth k v).live now k = true := live_set hbirth
  rw [bump, if_pos hlive]
  rw [live, Option.any_eq_true] at hlive
  rcases hlive with ⟨l, hl, -⟩
  refine ⟨extended now n n l, by simp [hl], ?_⟩
  unfold extended
  split <;> omega

end Stored

end Temporary
