import Mathlib.Data.List.Basic
import Mathlib.Tactic.Ring

/-!
# Fixed-width integers and bounded vectors

A contract computes with integers of a fixed range and with vectors whose
length is itself a machine integer.  `BoundedInt lo hi` is the interval
`[lo, hi]` as a type: the bounds travel with the value, so an out-of-range
number cannot be built and every checked operation is an `Option`.

The one specification every caller needs is of the shape
`a.checkedAdd b = some r ↔ r.val = a.val + b.val`: a checked operation
succeeds exactly when some value of the type equals the exact result.
-/

/-- The integers of the closed range `[lo, hi]`. -/
@[ext] structure BoundedInt (lo hi : Int) where
  val : Int
  lo_le : lo ≤ val
  le_hi : val ≤ hi
deriving DecidableEq, Repr

namespace BoundedInt

variable {lo hi : Int}

instance : LE (BoundedInt lo hi) := ⟨fun a b => a.val ≤ b.val⟩
instance : LT (BoundedInt lo hi) := ⟨fun a b => a.val < b.val⟩

@[simp] theorem le_def {a b : BoundedInt lo hi} : a ≤ b ↔ a.val ≤ b.val := Iff.rfl
@[simp] theorem lt_def {a b : BoundedInt lo hi} : a < b ↔ a.val < b.val := Iff.rfl

instance (a b : BoundedInt lo hi) : Decidable (a ≤ b) := inferInstanceAs (Decidable (a.val ≤ b.val))
instance (a b : BoundedInt lo hi) : Decidable (a < b) := inferInstanceAs (Decidable (a.val < b.val))

theorem val_injective : Function.Injective (val : BoundedInt lo hi → Int) :=
  fun _ _ h => BoundedInt.ext h

theorem val_inj {a b : BoundedInt lo hi} : a.val = b.val ↔ a = b := val_injective.eq_iff

/-! ### Checked arithmetic -/

/-- The value `z` when it lies in the range. -/
def ofInt? (z : Int) : Option (BoundedInt lo hi) :=
  if h : lo ≤ z ∧ z ≤ hi then some ⟨z, h.1, h.2⟩ else none

@[simp] theorem ofInt?_eq_some {z : Int} {r : BoundedInt lo hi} :
    ofInt? z = some r ↔ r.val = z := by
  unfold ofInt?
  split
  · next h =>
    rw [Option.some.injEq]
    exact ⟨fun he => by rw [← he], fun he => BoundedInt.ext he.symm⟩
  · next h =>
    refine ⟨fun he => by simp at he, fun he => ?_⟩
    exact absurd ⟨he ▸ r.lo_le, he ▸ r.le_hi⟩ h

@[simp] theorem ofInt?_eq_none {z : Int} :
    (ofInt? z : Option (BoundedInt lo hi)) = none ↔ ¬ (lo ≤ z ∧ z ≤ hi) := by
  unfold ofInt?
  split
  · next h => simp [h]
  · next h => simp only [h, not_false_eq_true]

def checkedAdd (a b : BoundedInt lo hi) : Option (BoundedInt lo hi) := ofInt? (a.val + b.val)
def checkedSub (a b : BoundedInt lo hi) : Option (BoundedInt lo hi) := ofInt? (a.val - b.val)
def checkedMul (a b : BoundedInt lo hi) : Option (BoundedInt lo hi) := ofInt? (a.val * b.val)

/-- Checked division truncates towards zero and fails on a zero divisor. -/
def checkedDiv (a b : BoundedInt lo hi) : Option (BoundedInt lo hi) :=
  if b.val = 0 then none else ofInt? (a.val.tdiv b.val)

@[simp] theorem checkedAdd_eq_some {a b r : BoundedInt lo hi} :
    a.checkedAdd b = some r ↔ r.val = a.val + b.val := ofInt?_eq_some

@[simp] theorem checkedSub_eq_some {a b r : BoundedInt lo hi} :
    a.checkedSub b = some r ↔ r.val = a.val - b.val := ofInt?_eq_some

@[simp] theorem checkedMul_eq_some {a b r : BoundedInt lo hi} :
    a.checkedMul b = some r ↔ r.val = a.val * b.val := ofInt?_eq_some

@[simp] theorem checkedAdd_eq_none {a b : BoundedInt lo hi} :
    a.checkedAdd b = none ↔ ¬ (lo ≤ a.val + b.val ∧ a.val + b.val ≤ hi) := ofInt?_eq_none

@[simp] theorem checkedSub_eq_none {a b : BoundedInt lo hi} :
    a.checkedSub b = none ↔ ¬ (lo ≤ a.val - b.val ∧ a.val - b.val ≤ hi) := ofInt?_eq_none

@[simp] theorem checkedMul_eq_none {a b : BoundedInt lo hi} :
    a.checkedMul b = none ↔ ¬ (lo ≤ a.val * b.val ∧ a.val * b.val ≤ hi) := ofInt?_eq_none

theorem checkedDiv_eq_some {a b r : BoundedInt lo hi} (hb : b.val ≠ 0) :
    a.checkedDiv b = some r ↔ r.val = a.val.tdiv b.val := by
  rw [checkedDiv, if_neg hb, ofInt?_eq_some]

/-- A quotient of non-negatives always fits. -/
theorem exists_checkedDiv {a b : BoundedInt lo hi} (hlo : lo ≤ 0) (ha : 0 ≤ a.val)
    (hb : 0 < b.val) : ∃ r, a.checkedDiv b = some r ∧ r.val = a.val / b.val := by
  have h0 := Int.ediv_nonneg ha hb.le
  have h1 := Int.ediv_le_self b.val ha
  have := a.le_hi
  refine ⟨⟨a.val / b.val, by omega, by omega⟩, ?_, rfl⟩
  rw [checkedDiv_eq_some hb.ne', Int.tdiv_eq_ediv_of_nonneg ha]

/-! ### Saturation, wrap-around and minimum -/

/-- Addition clamped to the range. -/
def saturatingAdd (a b : BoundedInt lo hi) : BoundedInt lo hi :=
  ⟨max lo (min hi (a.val + b.val)), by omega, by have := a.lo_le; have := a.le_hi; omega⟩

/-- Subtraction clamped to the range. -/
def saturatingSub (a b : BoundedInt lo hi) : BoundedInt lo hi :=
  ⟨max lo (min hi (a.val - b.val)), by omega, by have := a.lo_le; have := a.le_hi; omega⟩

/-- Multiplication clamped to the range. -/
def saturatingMul (a b : BoundedInt lo hi) : BoundedInt lo hi :=
  ⟨max lo (min hi (a.val * b.val)), by omega, by have := a.lo_le; have := a.le_hi; omega⟩

theorem saturatingMul_val (a b : BoundedInt lo hi) :
    (a.saturatingMul b).val = max lo (min hi (a.val * b.val)) := rfl

/-- The representative of `z` modulo the size of the range: what a cast between
    integer types of different ranges computes. -/
def wrap (h : lo ≤ hi) (z : Int) : BoundedInt lo hi :=
  ⟨lo + (z - lo) % (hi - lo + 1),
    by have := Int.emod_nonneg (z - lo) (show hi - lo + 1 ≠ 0 by omega); omega,
    by have := Int.emod_lt_of_pos (z - lo) (show 0 < hi - lo + 1 by omega); omega⟩

/-- A cast of a value the target range holds keeps the value. -/
theorem wrap_val_of_mem (h : lo ≤ hi) {z : Int} (h₁ : lo ≤ z) (h₂ : z ≤ hi) :
    (wrap h z).val = z := by
  show lo + (z - lo) % (hi - lo + 1) = z
  rw [Int.emod_eq_of_lt (by omega) (by omega)]
  omega

/-- The smaller of two values. -/
def minimum (a b : BoundedInt lo hi) : BoundedInt lo hi := if a.val ≤ b.val then a else b

theorem minimum_val (a b : BoundedInt lo hi) : (a.minimum b).val = min a.val b.val := by
  unfold minimum
  split <;> omega

end BoundedInt

/-! ### The widths in use -/

abbrev U32 := BoundedInt 0 4294967295
abbrev U64 := BoundedInt 0 18446744073709551615
abbrev U128 := BoundedInt 0 340282366920938463463374607431768211455
abbrev I128 :=
  BoundedInt (-170141183460469231731687303715884105728) 170141183460469231731687303715884105727

/-- `n as u32`. -/
def U32.ofNat (n : Nat) : U32 := BoundedInt.wrap (by decide) n

/-- `n as u64`. -/
def U64.ofNat (n : Nat) : U64 := BoundedInt.wrap (by decide) n

/-- `n as i128`. -/
def I128.ofNat (n : Nat) : I128 := BoundedInt.wrap (by decide) n

theorem U32.ofNat_val {n : Nat} (h : n ≤ 4294967295) : (U32.ofNat n).val = n :=
  BoundedInt.wrap_val_of_mem _ (by omega) (by omega)

instance : Zero U32 := ⟨⟨0, by decide, by decide⟩⟩
instance : One U32 := ⟨⟨1, by decide, by decide⟩⟩
instance : Zero U64 := ⟨⟨0, by decide, by decide⟩⟩
instance : One U64 := ⟨⟨1, by decide, by decide⟩⟩
instance : Zero I128 := ⟨⟨0, by decide, by decide⟩⟩

@[simp] theorem U32.val_zero : (0 : U32).val = 0 := rfl
@[simp] theorem U32.val_one : (1 : U32).val = 1 := rfl
@[simp] theorem U64.val_zero : (0 : U64).val = 0 := rfl
@[simp] theorem U64.val_one : (1 : U64).val = 1 := rfl
@[simp] theorem I128.val_zero : (0 : I128).val = 0 := rfl

/-- `u32 as i128`, an inclusion. -/
def U32.toI128 (a : U32) : I128 :=
  ⟨a.val, by have := a.lo_le; omega, by have := a.le_hi; omega⟩

/-- `u32 as u128`, an inclusion. -/
def U32.toU128 (a : U32) : U128 := ⟨a.val, a.lo_le, by have := a.le_hi; omega⟩

/-- `i128 as u128`, two's complement. -/
def I128.toU128 (a : I128) : U128 := BoundedInt.wrap (by decide) a.val

/-- `u128 as i128`, two's complement. -/
def U128.toI128 (a : U128) : I128 := BoundedInt.wrap (by decide) a.val

@[simp] theorem U32.toI128_val (a : U32) : a.toI128.val = a.val := rfl
@[simp] theorem U32.toU128_val (a : U32) : a.toU128.val = a.val := rfl

theorem I128.toU128_val {a : I128} (h : 0 ≤ a.val) : a.toU128.val = a.val :=
  BoundedInt.wrap_val_of_mem _ h (by have := a.le_hi; omega)

theorem U128.toI128_val {a : U128} (h : a.val ≤ 170141183460469231731687303715884105727) :
    a.toI128.val = a.val :=
  BoundedInt.wrap_val_of_mem _ (by have := a.lo_le; omega) h

/-- `a / d` of `i128`, which truncates.  Where the operator would panic (a zero
    divisor, the minimum by minus one) the value is not meant. -/
def I128.quot (a d : I128) : I128 := BoundedInt.wrap (by decide) (a.val.tdiv d.val)

/-- `a % d` of `i128`, with the sign of the dividend. -/
def I128.rem (a d : I128) : I128 := BoundedInt.wrap (by decide) (a.val.tmod d.val)

theorem I128.quot_val {a d : I128} (h : 0 ≤ a.val) (hd : 0 < d.val) :
    (a.quot d).val = a.val / d.val := by
  have h0 := Int.ediv_nonneg h hd.le
  have h1 := Int.ediv_le_self d.val h
  have := a.le_hi
  rw [I128.quot, Int.tdiv_eq_ediv_of_nonneg h]
  exact BoundedInt.wrap_val_of_mem _ (by omega) (by omega)

theorem I128.rem_val {a d : I128} (h : 0 ≤ a.val) (hd : 0 < d.val) :
    (a.rem d).val = a.val % d.val := by
  have h0 := Int.emod_nonneg a.val hd.ne'
  have h1 := Int.emod_lt_of_pos a.val hd
  have := d.le_hi
  rw [I128.rem, Int.tmod_eq_emod_of_nonneg h]
  exact BoundedInt.wrap_val_of_mem _ (by omega) (by omega)

/-! ### Vectors indexed by a 32-bit word -/

/-- A vector whose length fits in a 32-bit word. -/
@[ext] structure Vec (α : Type*) where
  toList : List α
  length_le : toList.length ≤ 4294967295
deriving DecidableEq

namespace Vec

variable {α : Type*}

def empty : Vec α := ⟨[], by simp⟩

@[simp] theorem toList_empty : (empty : Vec α).toList = [] := rfl

/-- The element at a word index. -/
def get (v : Vec α) (i : U32) : Option α := v.toList[i.val.toNat]?

/-- Overwrite the element at a word index the vector has. -/
def set (v : Vec α) (i : U32) (a : α) : Vec α :=
  ⟨v.toList.set i.val.toNat a, by simpa using v.length_le⟩

/-- Append at the back; the host has no vector longer than a word counts. -/
def pushBack (v : Vec α) (a : α) : Option (Vec α) :=
  if h : (v.toList ++ [a]).length ≤ 4294967295 then some ⟨v.toList ++ [a], h⟩ else none

@[simp] theorem toList_set (v : Vec α) (i : U32) (a : α) :
    (v.set i a).toList = v.toList.set i.val.toNat a := rfl

theorem get_eq_some {v : Vec α} {i : U32} {a : α} :
    v.get i = some a ↔ ∃ h : i.val.toNat < v.toList.length, v.toList[i.val.toNat] = a :=
  List.getElem?_eq_some_iff

theorem get_set_self {v : Vec α} {i : U32} {a b : α} (h : v.get i = some a) :
    (v.set i b).get i = some b := by
  rcases get_eq_some.mp h with ⟨hlt, -⟩
  simp [get, set, hlt]

theorem get_set_of_ne {v : Vec α} {i j : U32} {b : α} (h : j ≠ i) :
    (v.set i b).get j = v.get j := by
  have hne : i.val.toNat ≠ j.val.toNat := by
    intro heq
    apply h
    have hi := i.lo_le
    have hj := j.lo_le
    exact BoundedInt.ext (by omega)
  simp [get, set, List.getElem?_set_ne hne]

@[simp] theorem pushBack_eq_some {v v' : Vec α} {a : α} :
    v.pushBack a = some v' ↔ v'.toList = v.toList ++ [a] := by
  unfold pushBack
  split
  · next h =>
    rw [Option.some.injEq]
    exact ⟨fun he => by rw [← he], fun he => Vec.ext he.symm⟩
  · next h =>
    refine ⟨fun he => by simp at he, fun he => ?_⟩
    exact absurd (he ▸ v'.length_le) h

/-- The word index of an element position. -/
def index (v : Vec α) (n : Nat) (h : n < v.toList.length) : U32 :=
  ⟨n, by omega, by have := v.length_le; omega⟩

@[simp] theorem index_val (v : Vec α) (n : Nat) (h : n < v.toList.length) :
    (v.index n h).val = n := rfl

/-- A word can count the elements of a vector. -/
theorem exists_countP (v : Vec α) (p : α → Bool) : ∃ n : U32, n.val = v.toList.countP p := by
  have hle : v.toList.countP p ≤ 4294967295 := List.countP_le_length.trans v.length_le
  exact ⟨⟨(v.toList.countP p : Nat), by omega, by omega⟩, rfl⟩

end Vec
