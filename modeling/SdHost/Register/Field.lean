/-!
# Register fields

A register of the controller is a 32-bit word at a byte offset.  A *field* is a run of bits in
one register; a *field value* says which bits of the register are decided and what they become.

* `Field.put` — a number in a field, cut off to the field's width;
* `+` on field values — both decisions together;
* `FieldValue.applyTo` — a register word after the decision; `testBit_applyTo`: the decided bits
  are replaced, every other bit stays;
* `Field.get`, `Field.isSet` — reading a field out of a word; `get_applyTo_put`: what was put in
  is read back.

The register is part of the type, so values of different registers do not mix.
-/

namespace SdHost

/-- A register of the controller, known by its byte offset in the register window. -/
structure Register where
  offset : Nat
  deriving DecidableEq, Repr

/-- The `width` bits of register `r` from bit `shift` on, which lie in the word and are neither
none nor all of it. -/
structure Field (r : Register) where
  shift : UInt32
  width : UInt32
  width_pos : 0 < width.toNat := by decide
  width_lt : width.toNat < 32 := by decide
  inside : shift.toNat + width.toNat ≤ 32 := by decide
  deriving DecidableEq, Repr

/-- A decision about some bits of register `r`: the bits of `mask` become those of `value`. -/
structure FieldValue (r : Register) where
  mask : UInt32
  value : UInt32
  deriving DecidableEq, Repr

namespace Field

variable {r : Register}

/-- The largest number the field holds: `width` one bits. -/
def ones (f : Field r) : UInt32 := (1 <<< f.width) - 1

/-- The field's bits in the register word. -/
def mask (f : Field r) : UInt32 := f.ones <<< f.shift

/-- The number `n` in the field; bits of `n` beyond the field's width are dropped. -/
def put (f : Field r) (n : UInt32) : FieldValue r := ⟨f.mask, (n &&& f.ones) <<< f.shift⟩

/-- The field holding one. -/
def set (f : Field r) : FieldValue r := f.put 1

/-- The field holding zero. -/
def clear (f : Field r) : FieldValue r := f.put 0

/-- The field holding one or zero. -/
def flag (f : Field r) (b : Bool) : FieldValue r := if b then f.set else f.clear

/-- The number that `word` holds in the field. -/
def get (f : Field r) (word : UInt32) : UInt32 := (word >>> f.shift) &&& f.ones

/-- Whether `word` has any bit of the field. -/
def isSet (f : Field r) (word : UInt32) : Bool := word &&& f.mask != 0

end Field

namespace FieldValue

variable {r : Register}

/-- Two decisions about one register taken together. -/
instance : Add (FieldValue r) := ⟨fun a b => ⟨a.mask ||| b.mask, a.value ||| b.value⟩⟩

/-- The register word after the decision, from the word before it. -/
def applyTo (v : FieldValue r) (word : UInt32) : UInt32 := (word &&& ~~~v.mask) ||| v.value

@[simp] theorem mask_add (a b : FieldValue r) : (a + b).mask = a.mask ||| b.mask := rfl

@[simp] theorem value_add (a b : FieldValue r) : (a + b).value = a.value ||| b.value := rfl

/-- A decision changes the bits of its mask to those of its value; every other bit stays. -/
theorem testBit_applyTo (v : FieldValue r) (word : UInt32) {i : Nat} (hi : i < 32) :
    (v.applyTo word).toNat.testBit i =
      (word.toNat.testBit i && !v.mask.toNat.testBit i || v.value.toNat.testBit i) := by
  have hm : v.mask.toNat < 2 ^ 32 := v.mask.toNat_lt
  have hn : (~~~v.mask).toNat = 2 ^ 32 - (v.mask.toNat + 1) := by
    rw [UInt32.toNat_not]
    simp only [UInt32.size]
    omega
  rw [applyTo, UInt32.toNat_or, Nat.testBit_or, UInt32.toNat_and, Nat.testBit_and, hn,
    Nat.testBit_two_pow_sub_succ hm]
  simp [hi]

end FieldValue

/-! ### Bit by bit -/

namespace Field

variable {r : Register}

theorem shift_lt (f : Field r) : f.shift.toNat < 32 := by
  have := f.width_pos
  have := f.inside
  omega

theorem testBit_ones (f : Field r) (i : Nat) :
    f.ones.toNat.testBit i = decide (i < f.width.toNat) := by
  have h := f.width_lt
  have hp : 2 ^ f.width.toNat < 2 ^ 32 := Nat.pow_lt_pow_right (by decide) h
  have h1 : ((1 : UInt32) <<< f.width).toNat = 2 ^ f.width.toNat := by
    rw [UInt32.toNat_shiftLeft, Nat.mod_eq_of_lt h, Nat.shiftLeft_eq]
    change 1 * 2 ^ f.width.toNat % 2 ^ 32 = 2 ^ f.width.toNat
    rw [Nat.one_mul, Nat.mod_eq_of_lt hp]
  have hle : (1 : UInt32) ≤ (1 : UInt32) <<< f.width := by
    rw [UInt32.le_iff_toNat_le, h1]
    exact Nat.one_le_two_pow
  rw [ones, UInt32.toNat_sub_of_le _ _ hle, h1]
  exact Nat.testBit_two_pow_sub_one _ _

/-- Bit `i` of a word moved to the field's place. -/
theorem testBit_shiftLeft (f : Field r) (w : UInt32) (i : Nat) :
    (w <<< f.shift).toNat.testBit i =
      (decide (f.shift.toNat ≤ i) && decide (i < 32) && w.toNat.testBit (i - f.shift.toNat)) := by
  rw [UInt32.toNat_shiftLeft, Nat.mod_eq_of_lt f.shift_lt, Nat.testBit_mod_two_pow,
    Nat.testBit_shiftLeft]
  cases decide (i < 32) <;> simp

/-- The field's bits are those from `shift` on, `width` of them. -/
theorem testBit_mask (f : Field r) (i : Nat) :
    f.mask.toNat.testBit i =
      decide (f.shift.toNat ≤ i ∧ i < f.shift.toNat + f.width.toNat) := by
  have := f.inside
  rw [mask, testBit_shiftLeft, testBit_ones, Bool.eq_iff_iff]
  simp only [Bool.and_eq_true, decide_eq_true_eq]
  omega

theorem testBit_get (f : Field r) (w : UInt32) (i : Nat) :
    (f.get w).toNat.testBit i =
      (decide (i < f.width.toNat) && w.toNat.testBit (f.shift.toNat + i)) := by
  rw [get, UInt32.toNat_and, Nat.testBit_and, testBit_ones, UInt32.toNat_shiftRight,
    Nat.mod_eq_of_lt f.shift_lt, Nat.testBit_shiftRight, Bool.and_comm]

theorem testBit_put (f : Field r) (n : UInt32) (i : Nat) :
    (f.put n).value.toNat.testBit i =
      (f.mask.toNat.testBit i && n.toNat.testBit (i - f.shift.toNat)) := by
  have := f.inside
  rw [put, testBit_shiftLeft, UInt32.toNat_and, Nat.testBit_and, testBit_ones, testBit_mask,
    Bool.eq_iff_iff]
  simp only [Bool.and_eq_true, decide_eq_true_eq]
  constructor
  · rintro ⟨h1, h2, h3⟩
    exact ⟨by omega, h2⟩
  · rintro ⟨h1, h2⟩
    exact ⟨by omega, h2, by omega⟩

/-- What was put into a field is read back from it, cut off to the field's width. -/
theorem get_applyTo_put (f : Field r) (n word : UInt32) :
    f.get ((f.put n).applyTo word) = n &&& f.ones := by
  refine UInt32.toNat_inj.mp (Nat.eq_of_testBit_eq fun i => ?_)
  have := f.inside
  rw [testBit_get, UInt32.toNat_and, Nat.testBit_and, testBit_ones]
  by_cases hi : i < f.width.toNat
  · have hm : f.mask.toNat.testBit (f.shift.toNat + i) = true := by
      rw [testBit_mask]
      simpa using hi
    rw [FieldValue.testBit_applyTo _ _ (by omega), testBit_put]
    have : (f.put n).mask = f.mask := rfl
    simp [this, hm, hi]
  · simp [hi]

end Field

end SdHost
