import Mathlib.Data.List.Basic
import Mathlib.Data.Nat.Basic
import Mathlib.Order.Basic
import SdHost.Interrupt.Classify

/-!
# The severity of status words

The failures that a status word can report stand in an order, from none at all to the removal of the
card.  A word reports the most severe failure whose bit is set.  So two words taken together report
the more severe of their failures, and bits that name no failure do not matter.

* `IsBit` — words with one bit set, of which another word holds all or nothing;
* `precedence`, `severity`, `moreSevere` — the order of what can be reported;
* `reporting`, `classify_eq_reporting` — the bits that report a failure, the more severe the later;
  the last of them that is set counts;
* `severity_classify_le_iff` — what is reported is as severe as the worst bit that is set;
* `classify_restricted` — the bits that are recorded name the failure;
* `classify_joins` — a word reports the join of what its parts report.
-/

namespace SdHost.InterruptStatus

variable {s t m : InterruptStatus}

/-! ### Bits and sets -/

theorem contains_iff : s.contains m = true ↔ s.bits &&& m.bits = m.bits := beq_iff_eq

/-- Bits outside a set do not matter to a question about a part of the set. -/
theorem contains_and (h : m.contains t = true) : (s &&& m).contains t = s.contains t := by
  have hbits : m.bits &&& t.bits = t.bits := eq_of_beq h
  unfold contains
  rw [bits_and, UInt32.and_assoc, hbits]

theorem intersects_or (s t m : InterruptStatus) :
    s.intersects (t ||| m) = (s.intersects t || s.intersects m) := by
  have hunion : s.bits &&& (t.bits ||| m.bits) = (s.bits &&& t.bits) ||| (s.bits &&& m.bits) :=
    UInt32.toBitVec_inj.mp BitVec.and_or_distrib_left
  unfold intersects
  rw [bits_or, hunion, Bool.eq_iff_iff, Bool.or_eq_true, bne_iff_ne, bne_iff_ne, bne_iff_ne, ne_eq,
    UInt32.or_eq_zero_iff, not_and_or]

/-- A word meets a union if it meets one of its parts. -/
theorem intersects_union (s : InterruptStatus) (ms : List InterruptStatus) :
    s.intersects (ms.foldr (· ||| ·) empty) = ms.any s.intersects := by
  induction ms with
  | nil =>
    show (s.bits &&& 0 != 0) = false
    rw [UInt32.and_zero]
    rfl
  | cons m ms ih => rw [List.foldr_cons, intersects_or, ih, List.any_cons]

/-- One bit is set. -/
def IsBit (m : InterruptStatus) : Prop := ∃ i : Fin 32, m.bits.toBitVec = BitVec.twoPow 32 i

instance (m : InterruptStatus) : Decidable m.IsBit :=
  inferInstanceAs (Decidable (∃ i : Fin 32, m.bits.toBitVec = BitVec.twoPow 32 i))

namespace IsBit

theorem ne_zero (h : m.IsBit) : m.bits ≠ 0 := by
  obtain ⟨i, hi⟩ := h
  intro hzero
  have hset : (BitVec.twoPow 32 i).getLsbD i = true := by
    rw [BitVec.getLsbD_twoPow, decide_eq_true i.isLt, decide_eq_true rfl]
    rfl
  rw [← hi, hzero] at hset
  exact absurd hset (by simp)

/-- Of a single bit a word holds all or nothing. -/
theorem and_bits (h : m.IsBit) (s : InterruptStatus) :
    s.bits &&& m.bits = if s.contains m then m.bits else 0 := by
  obtain ⟨i, hi⟩ := h
  have hall : s.bits &&& m.bits = m.bits ∨ s.bits &&& m.bits = 0 := by
    have hbits := BitVec.and_twoPow s.bits.toBitVec i
    rw [← hi] at hbits
    split at hbits
    · exact .inl (UInt32.toBitVec_inj.mp hbits)
    · exact .inr (UInt32.toBitVec_inj.mp hbits)
  split
  · rename_i hset
    exact contains_iff.mp hset
  · rename_i hclear
    exact hall.resolve_left fun habs => hclear (contains_iff.mpr habs)

/-- A single bit is set in two words together if it is set in one of them. -/
theorem contains_or (h : m.IsBit) (s t : InterruptStatus) :
    (s ||| t).contains m = (s.contains m || t.contains m) := by
  have hunion : (s ||| t).bits &&& m.bits = (s.bits &&& m.bits) ||| (t.bits &&& m.bits) :=
    UInt32.toBitVec_inj.mp BitVec.and_or_distrib_right
  rw [h.and_bits s, h.and_bits t] at hunion
  rw [Bool.eq_iff_iff, contains_iff, hunion]
  cases s.contains m <;> cases t.contains m <;> simp [h.ne_zero.symm]

/-- A word meets a single bit if it contains it. -/
theorem intersects_eq (h : m.IsBit) (s : InterruptStatus) : s.intersects m = s.contains m := by
  unfold intersects
  rw [h.and_bits s]
  cases s.contains m with
  | true => exact bne_iff_ne.mpr h.ne_zero
  | false => rfl

end IsBit

/-! ### The order of what is reported -/

/-- What a status word can report, from no failure to the most severe one. -/
def precedence : List (Option CommandError) :=
  [none, some .transfer, some .tuning, some .overcurrent, some .autoCmd12, some .dma, some .adma,
    some .dataEndBit, some .dataCrc, some .dataTimeout, some .commandIndex, some .commandEndBit,
    some .commandCrc, some .commandTimeout, some .cardRemoved]

/-- The place of a report in the order. -/
def severity (report : Option CommandError) : Nat := precedence.idxOf report

/-- The more severe of two reports. -/
def moreSevere (first second : Option CommandError) : Option CommandError :=
  if severity first ≤ severity second then second else first

theorem severity_moreSevere (first second : Option CommandError) :
    severity (moreSevere first second) = max (severity first) (severity second) := by
  unfold moreSevere
  split
  · rename_i hle
    exact (Nat.max_eq_right hle).symm
  · rename_i hgt
    exact (Nat.max_eq_left (Nat.le_of_not_le hgt)).symm

/-! ### The bits that report -/

/-- Every bit that reports a failure, the summary bit included, the more severe the later. -/
def reporting : List (InterruptStatus × CommandError) := (errorSummary, .transfer) :: errorClasses

theorem isBit_reporting : ∀ c ∈ reporting, c.1.IsBit := by decide

theorem pairwise_reporting :
    reporting.Pairwise fun c d => severity (some c.2) < severity (some d.2) := by decide

/-- **The last of these bits** that is set says what is reported. -/
theorem classify_eq_reporting (s : InterruptStatus) :
    s.classify = (reporting.filter fun c => s.contains c.1).getLast?.map Prod.snd := by
  cases hsummary : s.contains errorSummary with
  | false =>
    have hfilter : (reporting.filter fun c => s.contains c.1) =
        errorClasses.filter fun c => s.contains c.1 :=
      List.filter_cons_of_neg (Bool.eq_false_iff.mp hsummary)
    rw [hfilter, classify, hsummary]
    cases (errorClasses.filter fun c => s.contains c.1).getLast? <;> rfl
  | true =>
    have hfilter : (reporting.filter fun c => s.contains c.1) =
        (errorSummary, .transfer) :: errorClasses.filter fun c => s.contains c.1 :=
      List.filter_cons_of_pos hsummary
    rw [hfilter, List.getLast?_cons, classify, hsummary]
    cases (errorClasses.filter fun c => s.contains c.1).getLast? <;> rfl

/-- What is reported stands in the order. -/
theorem classify_mem (s : InterruptStatus) : s.classify ∈ precedence := by
  have hreporting : ∀ c ∈ reporting, some c.2 ∈ precedence := by decide
  rw [classify_eq_reporting]
  cases hlast : (reporting.filter fun c => s.contains c.1).getLast? with
  | none => exact List.mem_cons_self
  | some c => exact hreporting c (List.mem_of_mem_filter (List.mem_of_getLast? hlast))

/-- The last element of a list that goes up is the greatest. -/
theorem le_of_getLast? {α : Type} (f : α → Nat) {l : List α} {x last : α}
    (hl : l.Pairwise (f · < f ·)) (hlast : l.getLast? = some last) (hx : x ∈ l) :
    f x ≤ f last := by
  obtain ⟨before, rfl⟩ := List.getLast?_eq_some_iff.mp hlast
  rcases List.mem_append.mp hx with hx | hx
  · exact Nat.le_of_lt ((List.pairwise_append.mp hl).2.2 x hx last List.mem_cons_self)
  · obtain rfl := List.mem_singleton.mp hx
    exact Nat.le_refl _

/-- **What is reported** is as severe as the worst bit that is set. -/
theorem severity_classify_le_iff (s : InterruptStatus) (n : Nat) :
    severity s.classify ≤ n ↔
      ∀ c ∈ reporting, s.contains c.1 = true → severity (some c.2) ≤ n := by
  rw [classify_eq_reporting]
  cases hlast : (reporting.filter fun c => s.contains c.1).getLast? with
  | none =>
    have hnone := List.filter_eq_nil_iff.mp (List.getLast?_eq_none_iff.mp hlast)
    exact ⟨fun _ c hc hset => absurd hset (hnone c hc), fun _ => Nat.zero_le n⟩
  | some d =>
    obtain ⟨hd, hset⟩ := List.mem_filter.mp (List.mem_of_getLast? hlast)
    constructor
    · intro hle c hc hset
      have hsorted := pairwise_reporting.filter fun c => s.contains c.1
      have hworst := le_of_getLast? (fun c => severity (some c.2)) hsorted hlast
        (List.mem_filter.mpr ⟨hc, hset⟩)
      exact Nat.le_trans hworst hle
    · intro hall
      exact hall d hd hset

/-- Two words together are as severe as the worse of them. -/
theorem severity_classify_or (s t : InterruptStatus) :
    severity (s ||| t).classify = max (severity s.classify) (severity t.classify) := by
  refine eq_of_forall_ge_iff fun n => ?_
  rw [Nat.max_le, severity_classify_le_iff, severity_classify_le_iff, severity_classify_le_iff]
  constructor
  · intro h
    constructor
    · intro c hc hset
      refine h c hc ?_
      rw [(isBit_reporting c hc).contains_or, hset, Bool.true_or]
    · intro c hc hset
      refine h c hc ?_
      rw [(isBit_reporting c hc).contains_or, hset, Bool.or_true]
  · rintro ⟨hs, ht⟩ c hc hset
    rw [(isBit_reporting c hc).contains_or, Bool.or_eq_true] at hset
    exact hset.elim (hs c hc) (ht c hc)

/-! ### The bits that are recorded -/

/-- The bits that are recorded are those that report. -/
theorem recorded_eq :
    errors ||| cardRemoval = (reporting.map Prod.fst).foldr (· ||| ·) empty := by decide

/-- **The bits that are recorded** name the failure that the status reports: the set holds every bit
that names one. -/
theorem classify_restricted (s : InterruptStatus) :
    (s &&& (errors ||| cardRemoval)).classify = s.classify := by
  have hreporting : ∀ c ∈ reporting, (errors ||| cardRemoval).contains c.1 = true := by decide
  rw [classify_eq_reporting, classify_eq_reporting]
  exact congrArg (·.getLast?.map Prod.snd)
    (List.filter_congr fun c hc => contains_and (hreporting c hc))

/-- No failure is reported if no bit is set that reports one. -/
theorem classify_eq_none_iff (s : InterruptStatus) :
    s.classify = none ↔ s.intersects (errors ||| cardRemoval) = false := by
  rw [classify_eq_reporting, Option.map_eq_none_iff, List.getLast?_eq_none_iff,
    List.filter_eq_nil_iff, recorded_eq, intersects_union, List.any_map, List.any_eq_false]
  refine forall₂_congr fun c hc => ?_
  rw [Function.comp_apply, (isBit_reporting c hc).intersects_eq]

/-- No status reports busy lines. -/
theorem classify_ne_controllerBusy (s : InterruptStatus) : s.classify ≠ some .controllerBusy := by
  have hbusy : some .controllerBusy ∉ precedence := by decide
  intro habs
  exact hbusy (habs ▸ s.classify_mem)

/-! ### The join -/

/-- **A word reports the join** of what its parts report: two words taken together report the more
severe of their failures, no failure is reported just if no bit is set that is recorded as an error,
and no other bit makes a difference. -/
theorem classify_joins (s t : InterruptStatus) :
    s.classify ∈ precedence ∧
    (s ||| t).classify = moreSevere s.classify t.classify ∧
    (s.classify = none ↔ s.intersects (errors ||| cardRemoval) = false) ∧
    s.classify = (s &&& (errors ||| cardRemoval)).classify := by
  refine ⟨s.classify_mem, ?_, s.classify_eq_none_iff, s.classify_restricted.symm⟩
  have hplace : severity (s ||| t).classify = severity (moreSevere s.classify t.classify) := by
    rw [severity_classify_or, severity_moreSevere]
  exact (List.idxOf_inj (s ||| t).classify_mem).mp hplace

end SdHost.InterruptStatus
