import SdHost.Register.Field

/-!
# Reading fields out of composed words

A register word is composed of field values by `|||`.  A field is read back from the part that it
was put into, if the other parts keep clear of it.

* `and_eq_zero_of_subset` — a word within one mask keeps clear of another;
* `Field.get_or`, `Field.get_put`, `Field.get_eq_zero` — the number in a field;
* `Field.isSet_or_left`, `Field.isSet_or_right` — whether a field is set;
* `AgreeOn` — words that agree on the bits of a mask; `Field.get_congr`, `Field.isSet_congr`: they
  read alike there;
* `FieldValue.Within` — a decision whose value lies within the bits that it decides;
  `agreeOn_applyTo`, `get_applyTo`, `isSet_applyTo` — what it leaves alone, and what is read of the
  fields that it decides.
-/

namespace SdHost

theorem or_and (a b m : UInt32) : (a ||| b) &&& m = a &&& m ||| b &&& m :=
  UInt32.toBitVec_inj.mp BitVec.and_or_distrib_right

/-- A word that lies within a mask keeps clear of what the mask keeps clear of. -/
theorem and_eq_zero_of_subset {w m m' : UInt32} (h : w &&& m = w) (hm : m &&& m' = 0) :
    w &&& m' = 0 := by
  rw [← h, UInt32.and_assoc, hm, UInt32.and_zero]

namespace Field

variable {r : Register}

theorem get_or (f : Field r) (a b : UInt32) : f.get (a ||| b) = f.get a ||| f.get b := by
  refine UInt32.toNat_inj.mp (Nat.eq_of_testBit_eq fun i => ?_)
  rw [UInt32.toNat_or, Nat.testBit_or, testBit_get, testBit_get, testBit_get, UInt32.toNat_or,
    Nat.testBit_or, Bool.and_or_distrib_left]

/-- A number that fits is read back from the field it was put into. -/
theorem get_put (f : Field r) {n : UInt32} (hn : n &&& f.ones = n) :
    f.get (f.put n).value = n := by
  have happly : (f.put n).applyTo 0 = (f.put n).value := by
    rw [FieldValue.applyTo, UInt32.zero_and, UInt32.zero_or]
  rw [← happly, get_applyTo_put, hn]

theorem get_eq_zero (f : Field r) {w : UInt32} (h : w &&& f.mask = 0) : f.get w = 0 := by
  refine UInt32.toNat_inj.mp (Nat.eq_of_testBit_eq fun i => ?_)
  have hbit : (w &&& f.mask).toNat.testBit (f.shift.toNat + i) = false := by
    rw [h]
    exact Nat.zero_testBit _
  rw [UInt32.toNat_and, Nat.testBit_and, testBit_mask] at hbit
  rw [testBit_get]
  by_cases hi : i < f.width.toNat
  · simpa [hi] using hbit
  · simp [hi]

/-- A number that is put into a field stays within it. -/
theorem put_and_mask (f : Field r) (n : UInt32) : (f.put n).value &&& f.mask = (f.put n).value := by
  refine UInt32.toNat_inj.mp (Nat.eq_of_testBit_eq fun i => ?_)
  rw [UInt32.toNat_and, Nat.testBit_and, f.testBit_put]
  cases f.mask.toNat.testBit i <;> simp

/-- A number that is put into a field keeps clear of what the field keeps clear of. -/
theorem value_put_apart (f : Field r) (n : UInt32) {m : UInt32} (h : f.mask &&& m = 0) :
    (f.put n).value &&& m = 0 :=
  and_eq_zero_of_subset (f.put_and_mask n) h

/-- A field is read from the part that may hold it. -/
theorem get_or_left (f : Field r) {a b : UInt32} (h : b &&& f.mask = 0) :
    f.get (a ||| b) = f.get a := by
  rw [get_or, f.get_eq_zero h, UInt32.or_zero]

theorem isSet_or_left (f : Field r) {a b : UInt32} (h : b &&& f.mask = 0) :
    f.isSet (a ||| b) = f.isSet a := by
  rw [isSet, isSet, or_and, h, UInt32.or_zero]

theorem isSet_or_right (f : Field r) {a b : UInt32} (h : a &&& f.mask = 0) :
    f.isSet (a ||| b) = f.isSet b := by
  rw [UInt32.or_comm, f.isSet_or_left h]

theorem get_or_right (f : Field r) {a b : UInt32} (h : a &&& f.mask = 0) :
    f.get (a ||| b) = f.get b := by
  rw [UInt32.or_comm, f.get_or_left h]

end Field

/-! ### Words that agree on some bits -/

/-- The words agree on the bits of the mask. -/
def AgreeOn (m a b : UInt32) : Prop := a &&& m = b &&& m

namespace AgreeOn

variable {m m' a b c : UInt32}

theorem refl (m a : UInt32) : AgreeOn m a a := Eq.refl (a &&& m)

theorem trans (h : AgreeOn m a b) (h' : AgreeOn m b c) : AgreeOn m a c := Eq.trans h h'

/-- Words that agree on some bits agree on fewer. -/
theorem mono (h : AgreeOn m a b) (hm : m &&& m' = m') : AgreeOn m' a b := by
  have hkeep : ∀ w : UInt32, w &&& m' = w &&& m &&& m' := by
    intro w
    rw [UInt32.and_assoc, hm]
  unfold AgreeOn at h ⊢
  rw [hkeep a, hkeep b, h]

end AgreeOn

/-- What keeps clear of a mask is all within its complement. -/
theorem not_and_of_apart {a m : UInt32} (h : a &&& m = 0) : ~~~a &&& m = m := by
  have hall : (~~~a ||| a) &&& m = m := by
    rw [UInt32.or_comm, UInt32.or_not_self, UInt32.neg_one_and]
  rw [or_and, h, UInt32.or_zero] at hall
  exact hall

namespace Field

variable {r : Register} (f : Field r) {a b : UInt32}

theorem get_and_mask (w : UInt32) : f.get (w &&& f.mask) = f.get w := by
  refine UInt32.toNat_inj.mp (Nat.eq_of_testBit_eq fun i => ?_)
  rw [testBit_get, testBit_get, UInt32.toNat_and, Nat.testBit_and, testBit_mask]
  by_cases hi : i < f.width.toNat
  · simp [hi]
  · simp [hi]

/-- A field is read alike from words that agree on it. -/
theorem get_congr (h : AgreeOn f.mask a b) : f.get a = f.get b := by
  rw [← f.get_and_mask a, ← f.get_and_mask b, h]

theorem isSet_congr (h : AgreeOn f.mask a b) : f.isSet a = f.isSet b := by
  rw [isSet, isSet, h]

end Field

namespace FieldValue

variable {r : Register}

/-- The value lies within the bits that are decided. -/
def Within (v : FieldValue r) : Prop := v.value &&& v.mask = v.value

theorem within_put (f : Field r) (n : UInt32) : (f.put n).Within := f.put_and_mask n

/-- A word that lies within a mask lies within a larger one. -/
theorem and_or_of_subset {a m : UInt32} (h : a &&& m = a) (m' : UInt32) :
    a &&& (m ||| m') = a := by
  refine UInt32.toNat_inj.mp (Nat.eq_of_testBit_eq fun i => ?_)
  have hbit : (a &&& m).toNat.testBit i = a.toNat.testBit i := by rw [h]
  rw [UInt32.toNat_and, Nat.testBit_and] at hbit
  rw [UInt32.toNat_and, Nat.testBit_and, UInt32.toNat_or, Nat.testBit_or, Bool.and_or_distrib_left,
    hbit]
  cases a.toNat.testBit i <;> simp

theorem within_add {a b : FieldValue r} (ha : a.Within) (hb : b.Within) : (a + b).Within := by
  show (a.value ||| b.value) &&& (a.mask ||| b.mask) = _
  rw [or_and, and_or_of_subset ha, UInt32.or_comm a.mask, and_or_of_subset hb]
  rfl

variable (v : FieldValue r) (f : Field r) {m : UInt32} (w : UInt32)

/-- **A decision leaves alone** what it keeps clear of. -/
theorem agreeOn_applyTo (hwithin : v.Within) (hmask : v.mask &&& m = 0) :
    AgreeOn m (v.applyTo w) w := by
  have hvalue : v.value &&& m = 0 := and_eq_zero_of_subset hwithin hmask
  unfold AgreeOn applyTo
  rw [or_and, hvalue, UInt32.or_zero, UInt32.and_assoc, not_and_of_apart hmask]

theorem apart_applyTo (hmask : v.mask &&& f.mask = f.mask) : w &&& ~~~v.mask &&& f.mask = 0 := by
  rw [UInt32.and_assoc, ← hmask, ← UInt32.and_assoc (~~~v.mask), UInt32.not_and_self,
    UInt32.zero_and, UInt32.and_zero]

/-- **A field that is decided** is read from the decision. -/
theorem get_applyTo (hmask : v.mask &&& f.mask = f.mask) :
    f.get (v.applyTo w) = f.get v.value :=
  f.get_or_right (v.apart_applyTo f w hmask)

theorem isSet_applyTo (hmask : v.mask &&& f.mask = f.mask) :
    f.isSet (v.applyTo w) = f.isSet v.value :=
  f.isSet_or_right (v.apart_applyTo f w hmask)

end FieldValue

end SdHost
