import Mathlib.Algebra.Order.Field.Basic
import Mathlib.Algebra.Order.Floor.Div
import Mathlib.Data.Rat.Cast.Order
import Mathlib.Order.Bounds.Basic
import SdHost.Clock

/-!
# The best divider

Of the numbers by which a version can divide a clock, the divider takes the least that brings the
clock down to the target.  Nothing is rounded on the way that matters: dividing by `n` is low
enough if and only if `n` is at least the ratio of base clock and target, rounded up.

* `SpecVersion.Divides` — the numbers that a version can divide by;
* `exactValue`, `exactDivisor` — the steps of the choice in exact arithmetic, and
  `toNat_ceilDiv`, `toNat_narrow`, `toNat_wide` — the words that stand for them;
* `Nearest` — the least number that reaches a ratio, or the largest if none does;
* `Best` — what that is for the clock, in exact fractions;
* `choose_best` — the divider that is chosen is the best.
-/

namespace SdHost

/-- The numbers that a version can divide a clock by. -/
def SpecVersion.Divides (v : SpecVersion) (n : Nat) : Prop :=
  n = 1 ∨ if v.hasWideDivider then ∃ d, 1 ≤ d ∧ d ≤ 1023 ∧ n = 2 * d
    else ∃ i, 1 ≤ i ∧ i ≤ 8 ∧ n = 2 ^ i

namespace ClockDivider

/-! ### The steps in exact arithmetic -/

/-- Doubles a divider until its double reaches the ratio or it is the largest. -/
def doubled (ratio d : Nat) : Nat :=
  if 0 < d ∧ d < 128 ∧ 2 * d < ratio then doubled ratio (2 * d) else d
termination_by 128 - d

/-- The divider's value for a ratio. -/
def exactValue (v : SpecVersion) (ratio : Nat) : Nat :=
  if ratio ≤ 1 then 0
  else if v.hasWideDivider then min (ratio ⌈/⌉ 2) 1023
  else doubled ratio 1

/-- The number that a divider's value stands for. -/
def exactDivisor (value : Nat) : Nat := if value = 0 then 1 else 2 * value

/-- Rounding up adds one unless there is no remainder. -/
theorem ceilDiv_eq (a : Nat) {b : Nat} (hb : 0 < b) :
    a ⌈/⌉ b = if a % b = 0 then a / b else a / b + 1 := by
  have hdiv := Nat.div_add_mod a b
  have hmod := Nat.mod_lt a hb
  have hceil : a ≤ b * (a ⌈/⌉ b) := le_smul_ceilDiv hb
  apply le_antisymm
  · rw [ceilDiv_le_iff_le_mul hb]
    split
    · omega
    · rw [Nat.mul_add]
      omega
  · by_contra hlt
    split at hlt
    · have hmul := Nat.mul_le_mul_left b (show a ⌈/⌉ b + 1 ≤ a / b by omega)
      rw [Nat.mul_add] at hmul
      omega
    · have hmul := Nat.mul_le_mul_left b (show a ⌈/⌉ b ≤ a / b by omega)
      omega

theorem toNat_ceilDiv (a : UInt32) {b : UInt32} (hb : 0 < b) :
    (ceilDiv a b).toNat = a.toNat ⌈/⌉ b.toNat := by
  have hb' : 0 < b.toNat := hb
  have ha := a.toNat_lt
  have hzero : a % b = 0 ↔ a.toNat % b.toNat = 0 := by
    rw [← UInt32.toNat_inj, UInt32.toNat_mod]
    rfl
  rw [ceilDiv_eq _ hb', ceilDiv]
  by_cases h : a % b = 0
  · simp [h, hzero.mp h]
  · have hmod : a.toNat % b.toNat ≠ 0 := fun h' => h (hzero.mpr h')
    -- a remainder needs a divisor above one, which leaves room for the one that is added
    have hlt : a.toNat / b.toNat + 1 < 2 ^ 32 := by
      have hdiv := Nat.div_add_mod a.toNat b.toNat
      have hle := Nat.div_le_self a.toNat b.toNat
      by_contra hge
      have hall : a.toNat / b.toNat = a.toNat := by omega
      rw [hall] at hdiv
      have := Nat.le_mul_of_pos_left a.toNat hb'
      omega
    simp only [beq_iff_eq, h, if_false, hmod, UInt32.toNat_add, UInt32.toNat_div]
    exact Nat.mod_eq_of_lt hlt

theorem toNat_double {d : UInt32} (h : d ≤ maxNarrow) : (2 * d).toNat = 2 * d.toNat := by
  have hle : d.toNat ≤ 128 := h
  rw [UInt32.toNat_mul]
  simp
  omega

/-- The dividers that are tried from `d` on, each the double of the one before. -/
inductive Tries : UInt32 → List UInt32 → Prop where
  | last : Tries maxNarrow []
  | double {d : UInt32} {ds : List UInt32} (hpos : 0 < d.toNat) (hlt : d.toNat < 128)
      (h : Tries (2 * d) ds) : Tries d (d :: ds)

theorem toNat_find {ratio d : UInt32} {ds : List UInt32} (h : Tries d ds) :
    ((ds.find? fun d => ratio ≤ 2 * d).getD maxNarrow).toNat = doubled ratio.toNat d.toNat := by
  induction h with
  | last =>
    rw [doubled]
    rfl
  | @double d ds hpos hlt h ih =>
    have hdouble : (2 * d).toNat = 2 * d.toNat := toNat_double (Nat.le_of_lt hlt)
    rw [doubled]
    by_cases hreach : ratio ≤ 2 * d
    · have hreach' : ratio.toNat ≤ 2 * d.toNat := hdouble ▸ hreach
      rw [List.find?_cons_of_pos (by simpa using hreach), if_neg (by omega)]
      rfl
    · have hreach' : ¬ ratio.toNat ≤ 2 * d.toNat := hdouble ▸ hreach
      rw [List.find?_cons_of_neg (by simpa using hreach), if_pos (by omega), ih, hdouble]

theorem toNat_narrow (ratio : UInt32) : (narrow ratio).toNat = doubled ratio.toNat 1 := by
  have htries : Tries 1 [1, 2, 4, 8, 16, 32, 64] := by
    iterate 7 refine .double (by decide) (by decide) ?_
    exact .last
  exact toNat_find htries

theorem toNat_wide (ratio : UInt32) : (wide ratio).toNat = min (ratio.toNat ⌈/⌉ 2) 1023 := by
  have hhalf : (ceilDiv ratio 2).toNat = ratio.toNat ⌈/⌉ 2 := toNat_ceilDiv ratio (by decide)
  have hmax : maxWide.toNat = 1023 := rfl
  rw [← hhalf, ← hmax, wide]
  show (if ceilDiv ratio 2 ≤ maxWide then _ else _ : UInt32).toNat = _
  split
  · rename_i hle
    exact (Nat.min_eq_left hle).symm
  · rename_i hgt
    exact (Nat.min_eq_right (Nat.le_of_not_le hgt)).symm

/-! ### Reaching a ratio -/

/-- The divisor reaches the ratio and is the least that does, or it is the largest and none does. -/
structure Nearest (v : SpecVersion) (ratio divisor : Nat) : Prop where
  divides : v.Divides divisor
  least : ∀ n, v.Divides n → ratio ≤ n → divisor ≤ n
  reaches : ratio ≤ divisor ∨ ∀ n, v.Divides n → n ≤ divisor

section Nearest

variable {v : SpecVersion} {ratio : Nat}

theorem divides_pos {n : Nat} (h : v.Divides n) : 0 < n := by
  unfold SpecVersion.Divides at h
  rcases h with rfl | h
  · exact Nat.one_pos
  · split at h
    · obtain ⟨d, hd, -, rfl⟩ := h
      omega
    · obtain ⟨i, -, -, rfl⟩ := h
      exact Nat.two_pow_pos i

theorem nearest_bypass (h : ratio ≤ 1) : Nearest v ratio 1 :=
  ⟨.inl rfl, fun _ hn _ => divides_pos hn, .inl h⟩

theorem nearest_wide (hv : v.hasWideDivider = true) (h : 1 < ratio) :
    Nearest v ratio (2 * min (ratio ⌈/⌉ 2) 1023) := by
  have hdivides : ∀ n, v.Divides n ↔ n = 1 ∨ ∃ d, 1 ≤ d ∧ d ≤ 1023 ∧ n = 2 * d := by
    intro n
    rw [SpecVersion.Divides, if_pos hv]
  have hhalf : ratio ⌈/⌉ 2 = (ratio + 1) / 2 := rfl
  refine ⟨?_, ?_, ?_⟩
  · exact (hdivides _).mpr (.inr ⟨_, by omega, by omega, rfl⟩)
  · intro n hn hreach
    rcases (hdivides n).mp hn with rfl | ⟨d, hpos, hle, rfl⟩
    · omega
    · omega
  · -- the largest divider is taken only if half of the ratio is more
    by_cases hlarge : ratio ⌈/⌉ 2 ≤ 1023
    · exact .inl (by omega)
    · refine .inr fun n hn => ?_
      rcases (hdivides n).mp hn with rfl | ⟨d, hpos, hle, rfl⟩
      · omega
      · omega

/-- Doubling ends at a power of two that reaches the ratio or is the largest, and did not go on
after the ratio was reached. -/
theorem doubled_spec (ratio : Nat) {i : Nat} (hi : i ≤ 7) :
    ∃ j, i ≤ j ∧ j ≤ 7 ∧ doubled ratio (2 ^ i) = 2 ^ j ∧ (ratio ≤ 2 ^ (j + 1) ∨ j = 7) ∧
      (j = i ∨ 2 ^ j < ratio) := by
  induction hk : 7 - i generalizing i with
  | zero =>
    obtain rfl : i = 7 := by omega
    refine ⟨7, Nat.le_refl _, Nat.le_refl _, ?_, .inr rfl, .inl rfl⟩
    rw [doubled]
    rfl
  | succ k ih =>
    have hpos := Nat.two_pow_pos i
    have hlt : 2 ^ i < 2 ^ 7 := Nat.pow_lt_pow_right (by decide) (by omega)
    have hdouble : 2 * 2 ^ i = 2 ^ (i + 1) := by rw [Nat.pow_succ, Nat.mul_comm]
    rw [doubled, hdouble]
    by_cases hreach : ratio ≤ 2 ^ (i + 1)
    · refine ⟨i, Nat.le_refl _, hi, ?_, .inl hreach, .inl rfl⟩
      rw [if_neg (by omega)]
    · rw [if_pos (by omega)]
      obtain ⟨j, hle, hj, hd, hend, hpast⟩ := ih (i := i + 1) (by omega) (by omega)
      refine ⟨j, by omega, hj, hd, hend, .inr ?_⟩
      rcases hpast with rfl | hpast
      · omega
      · exact hpast

theorem nearest_narrow (hv : v.hasWideDivider = false) (h : 1 < ratio) :
    Nearest v ratio (2 * doubled ratio 1) := by
  have hdivides : ∀ n, v.Divides n ↔ n = 1 ∨ ∃ i, 1 ≤ i ∧ i ≤ 8 ∧ n = 2 ^ i := by
    intro n
    rw [SpecVersion.Divides, if_neg (by simp [hv])]
  obtain ⟨j, -, hj, hd, hend, hpast⟩ := doubled_spec ratio (i := 0) (by decide)
  have hdivisor : 2 * doubled ratio 1 = 2 ^ (j + 1) := by
    rw [show doubled ratio 1 = 2 ^ j from hd, Nat.pow_succ, Nat.mul_comm]
  rw [hdivisor]
  refine ⟨?_, ?_, ?_⟩
  · exact (hdivides _).mpr (.inr ⟨j + 1, by omega, by omega, rfl⟩)
  · intro n hn hreach
    rcases (hdivides n).mp hn with rfl | ⟨i, hpos, -, rfl⟩
    · omega
    · refine Nat.pow_le_pow_right (by decide) ?_
      rcases hpast with rfl | hpast
      · exact hpos
      · exact (Nat.pow_lt_pow_iff_right (by decide)).mp (Nat.lt_of_lt_of_le hpast hreach)
  · rcases hend with hreach | rfl
    · exact .inl hreach
    · refine .inr fun n hn => ?_
      rcases (hdivides n).mp hn with rfl | ⟨i, -, hle, rfl⟩
      · decide
      · exact Nat.pow_le_pow_right (by decide) hle

/-- **In exact arithmetic** the value stands for the nearest divisor. -/
theorem nearest_exact (v : SpecVersion) (ratio : Nat) :
    Nearest v ratio (exactDivisor (exactValue v ratio)) := by
  unfold exactValue exactDivisor
  by_cases hone : ratio ≤ 1
  · simpa [hone] using nearest_bypass hone
  · have hratio : 1 < ratio := by omega
    cases hv : v.hasWideDivider with
    | true =>
      have hnearest := nearest_wide hv hratio
      have hpos := divides_pos hnearest.divides
      rw [if_neg hone, if_pos rfl, if_neg (by omega)]
      exact hnearest
    | false =>
      have hnearest := nearest_narrow hv hratio
      have hpos := divides_pos hnearest.divides
      rw [if_neg hone, if_neg Bool.false_ne_true, if_neg (by omega)]
      exact hnearest

end Nearest

theorem exactValue_le (v : SpecVersion) (ratio : Nat) :
    exactValue v ratio ≤ if v.hasWideDivider then 1023 else 128 := by
  unfold exactValue
  by_cases hone : ratio ≤ 1
  · simp [hone]
  · rw [if_neg hone]
    split
    · exact Nat.min_le_right _ _
    · obtain ⟨j, -, hj, hd, -⟩ := doubled_spec ratio (i := 0) (by decide)
      rw [show doubled ratio 1 = 2 ^ j from hd]
      exact Nat.pow_le_pow_right (by decide) hj

/-! ### The clock that comes out -/

/-- The divisor is the best for a base clock and a target.  If some divisor brings the clock down to
the target, it is the least that does, and its clock is the highest that is not above the target;
else it is the largest, and even its clock is above. -/
structure Best (v : SpecVersion) (base target divisor : Nat) : Prop where
  divides : v.Divides divisor
  least : (∃ n, v.Divides n ∧ base ≤ n * target) →
    IsLeast {n | v.Divides n ∧ base ≤ n * target} divisor
  highest : (∃ n, v.Divides n ∧ base ≤ n * target) →
    IsGreatest {rate : ℚ | (∃ n, v.Divides n ∧ rate = base / n) ∧ rate ≤ target} (base / divisor)
  largest : (¬ ∃ n, v.Divides n ∧ base ≤ n * target) →
    IsGreatest {n | v.Divides n} divisor ∧ (target : ℚ) < base / divisor

/-- A clock is low enough if its divisor reaches the ratio. -/
theorem rate_le_iff {base target n : Nat} (hn : 0 < n) :
    (base : ℚ) / n ≤ target ↔ base ≤ n * target := by
  have hn' : (0 : ℚ) < n := by exact_mod_cast hn
  rw [div_le_iff₀ hn', mul_comm (target : ℚ)]
  exact_mod_cast Iff.rfl

/-- The nearest divisor to the ratio of base clock and target is the best. -/
theorem Nearest.best {v : SpecVersion} {base target divisor : Nat} (ht : 0 < target)
    (h : Nearest v (base ⌈/⌉ target) divisor) : Best v base target divisor := by
  have hratio : ∀ n, base ⌈/⌉ target ≤ n ↔ base ≤ n * target := by
    intro n
    rw [ceilDiv_le_iff_le_mul ht, Nat.mul_comm]
  have hpos := divides_pos h.divides
  have hreach : (∃ n, v.Divides n ∧ base ≤ n * target) → base ≤ divisor * target := by
    rintro ⟨n, hn, hlow⟩
    rcases h.reaches with hreaches | hlargest
    · exact (hratio _).mp hreaches
    · exact hlow.trans (Nat.mul_le_mul_right _ (hlargest n hn))
  refine ⟨h.divides, fun hsome => ⟨⟨h.divides, hreach hsome⟩, ?_⟩, fun hsome => ⟨?_, ?_⟩, ?_⟩
  · rintro n ⟨hn, hlow⟩
    exact h.least n hn ((hratio n).mpr hlow)
  · exact ⟨⟨divisor, h.divides, rfl⟩, (rate_le_iff hpos).mpr (hreach hsome)⟩
  · -- a larger divisor makes a lower clock
    rintro rate ⟨⟨n, hn, rfl⟩, hrate⟩
    have hlow : base ≤ n * target := (rate_le_iff (divides_pos hn)).mp hrate
    have hle : (divisor : ℚ) ≤ n := by exact_mod_cast h.least n hn ((hratio n).mpr hlow)
    have hpos' : (0 : ℚ) < divisor := by exact_mod_cast hpos
    exact div_le_div_of_nonneg_left (Nat.cast_nonneg base) hpos' hle
  · intro hnone
    have hlarge : ∀ n, v.Divides n → n ≤ divisor := by
      rcases h.reaches with hreaches | hlargest
      · exact (hnone ⟨divisor, h.divides, (hratio _).mp hreaches⟩).elim
      · exact hlargest
    refine ⟨⟨h.divides, fun n hn => hlarge n hn⟩, lt_of_not_ge fun hle => ?_⟩
    exact hnone ⟨divisor, h.divides, (rate_le_iff hpos).mp hle⟩

/-! ### The divider -/

/-- The divider behind the bits of the two register fields. -/
def ofFields (lower upper : UInt8) : ClockDivider := ⟨lower.toUInt16 ||| upper.toUInt16 <<< 8⟩

/-- No step on the way to the divider leaves the range of its word. -/
structure Exact (d : ClockDivider) (base target : UInt32) (v : SpecVersion) : Prop where
  ratio : (ceilDiv base target).toNat = base.toNat ⌈/⌉ target.toNat
  half : (ceilDiv (ceilDiv base target) 2).toNat = (base.toNat ⌈/⌉ target.toNat) ⌈/⌉ 2
  double : ∀ tried ≤ maxNarrow, (2 * tried).toNat = 2 * tried.toNat
  value : d.value.toNat = exactValue v (base.toNat ⌈/⌉ target.toNat)
  divisor : d.divisor.toNat = exactDivisor d.value.toNat
  lower : d.lower.toNat = d.value.toNat % 2 ^ 8
  upper : d.upper.toNat = d.value.toNat / 2 ^ 8

section Fields

variable {d : ClockDivider} (h : d.value.toNat ≤ 1023)

theorem toNat_lower (d : ClockDivider) : d.lower.toNat = d.value.toNat % 2 ^ 8 := by
  have hmask : d.value.toNat &&& 0xFF = d.value.toNat % 2 ^ 8 :=
    Nat.and_two_pow_sub_one_eq_mod d.value.toNat 8
  rw [lower, UInt16.toNat_toUInt8, UInt16.toNat_and]
  show (d.value.toNat &&& 0xFF) % 2 ^ 8 = _
  rw [hmask, Nat.mod_mod]

include h

theorem toNat_upper : d.upper.toNat = d.value.toNat / 2 ^ 8 := by
  have hmask : d.value.toNat / 2 ^ 8 &&& 3 = d.value.toNat / 2 ^ 8 % 2 ^ 2 :=
    Nat.and_two_pow_sub_one_eq_mod _ 2
  rw [upper, UInt16.toNat_toUInt8, UInt16.toNat_and, UInt16.toNat_shiftRight,
    Nat.shiftRight_eq_div_pow]
  show (d.value.toNat / 2 ^ 8 &&& 3) % 2 ^ 8 = _
  omega

theorem toNat_divisor : d.divisor.toNat = exactDivisor d.value.toNat := by
  unfold divisor exactDivisor
  by_cases hzero : d.value = 0
  · simp [hzero]
  · have hzero' : d.value.toNat ≠ 0 := fun h' => hzero (UInt16.toNat_inj.mp h')
    simp [hzero, hzero', UInt32.toNat_mul]
    omega

theorem ofFields_eq : ofFields d.lower d.upper = d := by
  have hlower := toNat_lower d
  have hupper := toNat_upper h
  have hlt : d.lower.toNat < 2 ^ 8 := d.lower.toNat_lt
  have hfits : d.upper.toNat <<< 8 < 2 ^ 16 := by
    rw [Nat.shiftLeft_eq]
    omega
  have hvalue : d.lower.toUInt16 ||| d.upper.toUInt16 <<< 8 = d.value := by
    apply UInt16.toNat_inj.mp
    rw [UInt16.toNat_or, UInt16.toNat_shiftLeft, UInt8.toNat_toUInt16, UInt8.toNat_toUInt16]
    show _ ||| d.upper.toNat <<< 8 % 2 ^ 16 = _
    rw [Nat.mod_eq_of_lt hfits, Nat.or_comm, ← Nat.shiftLeft_add_eq_or_of_lt hlt,
      Nat.shiftLeft_eq]
    omega
  exact congrArg ClockDivider.mk hvalue

end Fields

/-- The value of the divider that is chosen. -/
theorem choose_value (base : UInt32) {target : UInt32} (v : SpecVersion) (h : 0 < target) :
    ∃ d, choose base target v = .ok d ∧
      d.value.toNat = exactValue v (base.toNat ⌈/⌉ target.toNat) := by
  have hratio := toNat_ceilDiv base h
  have hne : (target == 0) = false := by
    have hpos : 0 < target.toNat := h
    have : target ≠ 0 := by
      rintro rfl
      exact absurd hpos (by decide)
    simpa using this
  unfold choose
  rw [hne, if_neg Bool.false_ne_true, ← hratio]
  generalize ceilDiv base target = ratio
  unfold exactValue
  by_cases hone : ratio ≤ 1
  · have hone' : ratio.toNat ≤ 1 := hone
    exact ⟨bypass, by simp [hone], by simp [hone', bypass]⟩
  · have hone' : ¬ ratio.toNat ≤ 1 := hone
    simp only [hone, hone', if_false]
    cases v.hasWideDivider with
    | true =>
      refine ⟨_, rfl, ?_⟩
      have hle : (wide ratio).toNat ≤ 1023 := by
        rw [toNat_wide]
        exact Nat.min_le_right _ _
      rw [if_pos rfl, ← toNat_wide, UInt32.toNat_toUInt16]
      omega
    | false =>
      refine ⟨_, rfl, ?_⟩
      have hle : (narrow ratio).toNat ≤ 128 := by
        obtain ⟨j, -, hj, hd, -⟩ := doubled_spec ratio.toNat (i := 0) (by decide)
        rw [toNat_narrow, show doubled ratio.toNat 1 = 2 ^ j from hd]
        exact Nat.pow_le_pow_right (by decide) hj
      rw [if_neg Bool.false_ne_true, ← toNat_narrow, UInt32.toNat_toUInt16]
      omega

/-- **The divider that is chosen is the best** for the base clock and the target, no step on the way
overflows, and its two register fields give it back, the upper one being used by the versions with a
wide divider only. -/
theorem choose_best (base target : UInt32) (v : SpecVersion) (h : 0 < target) :
    ∃ d, choose base target v = .ok d ∧ Best v base.toNat target.toNat d.divisor.toNat ∧
      d.Exact base target v ∧ ofFields d.lower d.upper = d ∧
      (v.hasWideDivider = false → d.upper = 0) := by
  obtain ⟨d, hchoose, hvalue⟩ := choose_value base v h
  have hle := exactValue_le v (base.toNat ⌈/⌉ target.toNat)
  rw [← hvalue] at hle
  have hrange : d.value.toNat ≤ 1023 := by
    split at hle
    · exact hle
    · omega
  have hdivisor := toNat_divisor hrange
  have hratio := toNat_ceilDiv base h
  refine ⟨d, hchoose, ?_, ⟨hratio, ?_, fun _ => toNat_double, hvalue, hdivisor, toNat_lower d,
    toNat_upper hrange⟩, ofFields_eq hrange, fun hv => ?_⟩
  · rw [hdivisor, hvalue]
    exact (nearest_exact v _).best h
  · rw [toNat_ceilDiv _ (by decide), hratio]
    rfl
  · rw [hv, if_neg Bool.false_ne_true] at hle
    refine UInt8.toNat_inj.mp ?_
    rw [toNat_upper hrange]
    exact Nat.div_eq_of_lt (by omega)

/-- From 200 MHz to at most 400 kHz: a wide divider finds the exact ratio, a narrow one is too
small. -/
theorem choose_best_initial : (0 : UInt32) < 400000 ∧
    (∃ d, choose 200000000 400000 .v3 = .ok d ∧
      Best .v3 200000000 400000 d.divisor.toNat ∧ d.divisor = 500) ∧
    ∃ d, choose 200000000 400000 .v2 = .ok d ∧
      Best .v2 200000000 400000 d.divisor.toNat ∧ d.divisor = 256 := by
  refine ⟨by decide, ?_, ?_⟩
  · obtain ⟨d, hd, hbest, -⟩ := choose_best 200000000 400000 .v3 (by decide)
    refine ⟨d, hd, hbest, ?_⟩
    have hchosen : choose 200000000 400000 .v3 = .ok ⟨250⟩ := by decide
    obtain rfl := Except.ok.inj (hchosen.symm.trans hd)
    rfl
  · obtain ⟨d, hd, hbest, -⟩ := choose_best 200000000 400000 .v2 (by decide)
    refine ⟨d, hd, hbest, ?_⟩
    have hchosen : choose 200000000 400000 .v2 = .ok ⟨0x80⟩ := by decide
    obtain rfl := Except.ok.inj (hchosen.symm.trans hd)
    rfl

end ClockDivider

end SdHost
