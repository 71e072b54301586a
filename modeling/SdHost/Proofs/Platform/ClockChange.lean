import SdHost.Platform.ClockChange
import SdHost.Proofs.Platform.SystemControl

/-!
# The ways through a change of a divided clock

The SD clock of a divided family is stopped before its divider is changed, and it is started again
only when the internal clock was seen stable with the new divider.  Here are the words that are
written on the way, and the ways through the change, whatever the lines and the clock service
answer.

* `ClockDivider.InEffect` — a system control word with both clocks running and the divider in it;
* `DividedClock.Stops`, `DividedClock.Divides`, `DividedClock.Programs` — the ways through stopping
  the SD clock, up to the word with the divider, and through the change once the divider is chosen;
* `DividedClock.path_program` — there are no others.
-/

namespace SdHost

open Dialogue Register SystemControl

variable {es : List Exchange} {w : UInt32} {limit : Nat}

/-! ### Words of the register -/

namespace SystemControl

/-- The bits of the clock divider. -/
def dividerBits : UInt32 := 0xFFC0

/-- The bits that a change of the clock has nothing to do with: neither the divider nor the enable
bits of the clocks, nor bits that change by themselves. -/
def bystanders : UInt32 := 0xF0FF0038

end SystemControl

namespace ClockDivider

variable (d : ClockDivider) (old : UInt32)

/-- What is decided about the register when a divider is programmed. -/
def decision : FieldValue systemControl := internalClockEnable.set + d.fields

/-- The word holds the divider, and the internal clock is enabled. -/
structure Programmed (word : UInt32) : Prop where
  lower : frequencySelect.get word = d.lower.toUInt32
  upper : dividerUpper.get word = d.upper.toUInt32
  internal : internalClockEnable.isSet word = true

/-- The word holds the divider, and both clocks are enabled. -/
structure InEffect (word : UInt32) : Prop extends d.Programmed word where
  card : cardClockEnable.isSet word = true

theorem lower_fits : d.lower.toUInt32 &&& frequencySelect.ones = d.lower.toUInt32 := by
  refine UInt32.toNat_inj.mp ?_
  have hlt : d.lower.toNat < 2 ^ 8 := d.lower.toNat_lt
  rw [UInt32.toNat_and, UInt8.toNat_toUInt32]
  exact (Nat.and_two_pow_sub_one_eq_mod d.lower.toNat 8).trans (Nat.mod_eq_of_lt hlt)

theorem upper_fits : d.upper.toUInt32 &&& dividerUpper.ones = d.upper.toUInt32 := by
  refine UInt32.toNat_inj.mp ?_
  have hlt : d.upper.toNat < 2 ^ 2 := by
    have hmask : d.upper.toNat = ((d.value >>> 8).toNat &&& 3) % 2 ^ 8 := by
      rw [upper, UInt16.toNat_toUInt8, UInt16.toNat_and]
      rfl
    have hsmall : (d.value >>> 8).toNat &&& 3 ≤ 3 := Nat.and_le_right
    omega
  rw [UInt32.toNat_and, UInt8.toNat_toUInt32]
  exact (Nat.and_two_pow_sub_one_eq_mod d.upper.toNat 2).trans (Nat.mod_eq_of_lt hlt)

theorem within_decision : d.decision.Within :=
  FieldValue.within_add (FieldValue.within_put _ _)
    (FieldValue.within_add (FieldValue.within_put _ _) (FieldValue.within_put _ _))

theorem mask_decision : d.decision.mask = 0xFFC1 := by
  have hmask : d.decision.mask =
      internalClockEnable.mask ||| (frequencySelect.mask ||| dividerUpper.mask) := rfl
  rw [hmask]
  decide

/-- **A divider that is decided** is read back from the register. -/
theorem programmed_decision : d.Programmed (d.decision.applyTo old) := by
  have hfrequency : d.decision.mask &&& frequencySelect.mask = frequencySelect.mask := by
    rw [mask_decision]
    decide
  have hupper : d.decision.mask &&& dividerUpper.mask = dividerUpper.mask := by
    rw [mask_decision]
    decide
  have hinternal : d.decision.mask &&& internalClockEnable.mask = internalClockEnable.mask := by
    rw [mask_decision]
    decide
  have hvalue : d.decision.value = internalClockEnable.set.value |||
      ((frequencySelect.put d.lower.toUInt32).value |||
        (dividerUpper.put d.upper.toUInt32).value) := rfl
  refine ⟨?_, ?_, ?_⟩
  · rw [FieldValue.get_applyTo _ _ _ hfrequency, hvalue, frequencySelect.get_or_right (by decide),
      frequencySelect.get_or_left (dividerUpper.value_put_apart _ (by decide)),
      frequencySelect.get_put d.lower_fits]
  · rw [FieldValue.get_applyTo _ _ _ hupper, hvalue, dividerUpper.get_or_right (by decide),
      dividerUpper.get_or_right (frequencySelect.value_put_apart _ (by decide)),
      dividerUpper.get_put d.upper_fits]
  · have hfields : d.fields.value &&& internalClockEnable.mask = 0 := by
      show (_ ||| _) &&& _ = _
      rw [or_and, frequencySelect.value_put_apart _ (by decide),
        dividerUpper.value_put_apart _ (by decide)]
      rfl
    rw [FieldValue.isSet_applyTo _ _ _ hinternal]
    show internalClockEnable.isSet (internalClockEnable.set.value ||| d.fields.value) = true
    rw [internalClockEnable.isSet_or_left hfields]
    decide

variable {d} {a b : UInt32}

/-- Words that agree on the divider and the internal clock hold the same divider. -/
theorem Programmed.congr {m : UInt32} (h : d.Programmed a) (hab : AgreeOn m b a)
    (hm : m &&& (dividerBits ||| 1) = dividerBits ||| 1) : d.Programmed b := by
  have hbits := hab.mono hm
  refine ⟨?_, ?_, ?_⟩
  · rw [frequencySelect.get_congr (hbits.mono (by decide)), h.lower]
  · rw [dividerUpper.get_congr (hbits.mono (by decide)), h.upper]
  · rw [internalClockEnable.isSet_congr (hbits.mono (by decide)), h.internal]

theorem InEffect.congr (h : d.InEffect a) (hab : AgreeOn steady b a) : d.InEffect b := by
  refine ⟨h.toProgrammed.congr hab (by decide), ?_⟩
  rw [cardClockEnable.isSet_congr (hab.mono (by decide)), h.card]

/-- Starting the SD clock puts the divider into effect. -/
theorem Programmed.inEffect (h : d.Programmed old) :
    d.InEffect (cardClockEnable.set.applyTo old) := by
  have hkept : AgreeOn (dividerBits ||| 1) (cardClockEnable.set.applyTo old) old :=
    FieldValue.agreeOn_applyTo _ _ (FieldValue.within_put _ _) (by decide)
  refine ⟨h.congr hkept (by decide), ?_⟩
  rw [FieldValue.isSet_applyTo _ _ _ (by decide)]
  decide

end ClockDivider

namespace DividedClock

variable {clock : UInt32} {request : ClockRequest} {d : ClockDivider}
  {out : Except ControllerError Unit}

/-! ### The ways through a change -/

/-- A wait for the lines. -/
def LinesWaited (limit : Nat) : List Exchange → Except ControllerError Unit → Prop :=
  Waited presentState PresentState.free limit .linesStuck .lineBusy

/-- A wait for the internal clock. -/
def ClockWaited (limit : Nat) : List Exchange → Except ControllerError Unit → Prop :=
  Waited systemControl internalClockStable.isSet limit .internalClockUnstable .clockUnstable

/-- The ways through stopping the SD clock: it does not run, or it is stopped and the lines are
awaited. -/
inductive Stops (limit : Nat) : List Exchange → Except ControllerError Unit → Prop where
  | idle {word : UInt32} (h : cardClockEnable.isSet word = false) :
      Stops limit (readings systemControl [word]) (.ok ())
  | stopped {word old : UInt32} {lines : List Exchange} {out : Except ControllerError Unit}
      (hlines : LinesWaited limit lines out) :
      Stops limit (readings systemControl [word] ++ (changing cardClockEnable.clear old ++ lines))
        out

/-- The way to the word with the divider `d`: the lines are awaited, the SD clock is stopped, and
the divider is programmed. -/
inductive Divides (limit : Nat) (d : ClockDivider) : List Exchange → Prop where
  | intro {lines stop : List Exchange} {old : UInt32} (hlines : LinesWaited limit lines (.ok ()))
      (hstop : Stops limit stop (.ok ())) :
      Divides limit d (lines ++ (stop ++ changing d.decision old))

/-- The ways through the change once the divider `d` is chosen.  After the divider was programmed
the lines and the internal clock are awaited, and the SD clock is started; the lines are awaited
once more. -/
inductive Programs (limit : Nat) (d : ClockDivider) :
    List Exchange → Except ControllerError Unit → Prop where
  /-- The lines are busy. -/
  | busy {lines : List Exchange} {e : ControllerError}
      (hlines : LinesWaited limit lines (.error e)) : Programs limit d lines (.error e)
  /-- The lines are busy after the SD clock was stopped. -/
  | halted {lines stop : List Exchange} {e : ControllerError}
      (hlines : LinesWaited limit lines (.ok ())) (hstop : Stops limit stop (.error e)) :
      Programs limit d (lines ++ stop) (.error e)
  /-- The lines are busy after the divider was programmed, or the internal clock is not stable. -/
  | programmed {first waits : List Exchange} {e : ControllerError} (hfirst : Divides limit d first)
      (hwaits : writes waits = []) : Programs limit d (first ++ waits) (.error e)
  /-- The SD clock was started. -/
  | started {first settled stable last told : List Exchange} {old : UInt32}
      {out : Except ControllerError Unit} (hfirst : Divides limit d first)
      (hsettled : LinesWaited limit settled (.ok ())) (hstable : ClockWaited limit stable (.ok ()))
      (hlast : LinesWaited limit last out) (htold : writes told = [])
      (hsilent : ∀ e, out = .error e → told = []) :
      Programs limit d
        (first ++ ((settled ++ stable) ++ (changing cardClockEnable.set old ++ (last ++ told)))) out

theorem waited_awaitLines (h : Path (awaitLines limit).run es out) : LinesWaited limit es out :=
  waited_of_path (sees_run_lift sees_linesFree) h

theorem waited_awaitInternalClock (h : Path (awaitInternalClock limit).run es out) :
    ClockWaited limit es out :=
  waited_of_path (sees_run_lift (sees_reads internalClockStable)) h

theorem stops_stopCardClock (h : Path (stopCardClock limit).run es out) : Stops limit es out := by
  obtain ⟨first, running, rest, hlook, hrest, rfl⟩ := path_run_lift_bind.mp h
  obtain ⟨word, rfl, rfl⟩ := sees_reads cardClockEnable hlook
  cases hrunning : cardClockEnable.isSet word with
  | false =>
    rw [hrunning, if_neg Bool.false_ne_true] at hrest
    obtain ⟨rfl, rfl⟩ := path_run_pure.mp hrest
    exact .idle hrunning
  | true =>
    rw [hrunning, if_pos rfl] at hrest
    obtain ⟨change, _, lines, hchange, hlines, rfl⟩ := path_run_lift_bind.mp hrest
    obtain ⟨old, rfl⟩ := path_modify hchange
    exact .stopped (waited_awaitLines hlines)

theorem path_baseRate {r : Except ControllerError UInt32} (h : Path (baseRate clock).run es r) :
    (∃ cause, r = .error .clockService ∧ es = [⟨.baseClock clock, .error cause⟩,
      ⟨.report (.baseClockUnavailable clock cause), ()⟩]) ∨
      ∃ base, r = .ok base ∧ es = [⟨.baseClock clock, .ok base⟩] := by
  obtain ⟨first, answer, rest, hask, hrest, rfl⟩ := path_run_lift_bind.mp h
  obtain rfl := path_question.mp hask
  cases answer with
  | ok base =>
    obtain ⟨rfl, rfl⟩ := path_run_pure.mp hrest
    exact .inr ⟨base, rfl, rfl⟩
  | error cause =>
    obtain ⟨rfl, rfl⟩ := path_report_throw hrest
    exact .inl ⟨cause, rfl, rfl⟩

theorem path_chooseDivider {base target : UInt32} {version : SpecVersion}
    {r : Except ControllerError ClockDivider}
    (h : Path (chooseDivider base target version).run es r) :
    r = ClockDivider.choose base target version ∧ writes es = [] := by
  unfold chooseDivider at h
  cases hchoose : ClockDivider.choose base target version with
  | error e =>
    rw [hchoose] at h
    obtain ⟨rfl, rfl⟩ := path_run_throw.mp h
    exact ⟨rfl, rfl⟩
  | ok d =>
    rw [hchoose] at h
    by_cases hbypass : d = .bypass
    · simp only [hbypass, if_true] at h
      obtain ⟨rfl, rfl⟩ := path_run_pure.mp h
      rw [hbypass]
      exact ⟨rfl, rfl⟩
    · simp only [hbypass, if_false] at h
      obtain ⟨told, _, last, htold, hlast, rfl⟩ := path_run_lift_bind.mp h
      obtain rfl := path_question.mp htold
      obtain ⟨rfl, rfl⟩ := path_run_pure.mp hlast
      exact ⟨rfl, rfl⟩

/-- The change once the divider is chosen. -/
theorem programs_of_path {base : UInt32}
    (h : Path (do
      awaitLines request.spinLimit
      stopCardClock request.spinLimit
      Register.modify (internalClockEnable.set + d.fields)
      awaitLines request.spinLimit
      awaitInternalClock request.spinLimit
      Register.modify cardClockEnable.set
      awaitLines request.spinLimit
      report (.clockSet request.mode base d) : ExceptT ControllerError Action Unit).run es out) :
    Programs request.spinLimit d es out := by
  rcases path_run_bind.mp h with ⟨lines, _, more, hlines, h₁, rfl⟩ | ⟨e, hlines, rfl⟩
  rotate_left
  · exact .busy (waited_awaitLines hlines)
  have hlines := waited_awaitLines hlines
  rcases path_run_bind.mp h₁ with ⟨stop, _, more, hstop, h₂, rfl⟩ | ⟨e, hstop, rfl⟩
  rotate_left
  · exact .halted hlines (stops_stopCardClock hstop)
  have hstop := stops_stopCardClock hstop
  obtain ⟨change, _, more, hchange, h₃, rfl⟩ := path_run_lift_bind.mp h₂
  obtain ⟨old, rfl⟩ := path_modify hchange
  have hfirst : Divides request.spinLimit d (lines ++ (stop ++ changing d.decision old)) :=
    .intro hlines hstop
  rw [← List.append_assoc stop, ← List.append_assoc lines]
  rcases path_run_bind.mp h₃ with ⟨settled, _, more, hsettled, h₄, rfl⟩ | ⟨e, hsettled, rfl⟩
  rotate_left
  · exact .programmed hfirst (waited_awaitLines hsettled).writes
  have hsettled := waited_awaitLines hsettled
  rcases path_run_bind.mp h₄ with ⟨stable, _, more, hstable, h₅, rfl⟩ | ⟨e, hstable, rfl⟩
  rotate_left
  · exact .programmed hfirst
      (unwritten_append hsettled.writes (waited_awaitInternalClock hstable).writes)
  have hstable := waited_awaitInternalClock hstable
  obtain ⟨change', _, more, hchange', h₆, rfl⟩ := path_run_lift_bind.mp h₅
  obtain ⟨old', rfl⟩ := path_modify hchange'
  rw [← List.append_assoc settled]
  rcases path_run_bind.mp h₆ with ⟨last, _, told, hlast, htold, rfl⟩ | ⟨e, hlast, rfl⟩
  · obtain ⟨_, hreport, rfl⟩ := path_bind_pure.mp htold
    change Path (report _) told _ at hreport
    obtain rfl := path_question.mp hreport
    exact .started hfirst hsettled hstable (waited_awaitLines hlast) rfl fun _ habs => by cases habs
  · rw [← List.append_nil more]
    exact .started hfirst hsettled hstable (waited_awaitLines hlast) writes_nil fun _ _ => rfl

/-- **The ways through a change**: it fails before anything is written, or the divider is chosen and
programmed. -/
theorem path_program (h : Path (program clock request).run es out) :
    (∃ e, out = .error e ∧ writes es = []) ∨
      ∃ base d told more, es = ⟨.baseClock clock, .ok base⟩ :: (told ++ more) ∧ writes told = [] ∧
        ClockDivider.choose base request.targetHz request.version = .ok d ∧
        Programs request.spinLimit d more out := by
  rcases path_run_bind.mp h with ⟨first, base, rest, hbase, h₁, rfl⟩ | ⟨e, hbase, rfl⟩
  · obtain ⟨cause, habs, -⟩ | ⟨base', hok, rfl⟩ := path_baseRate hbase
    · cases habs
    obtain rfl := Except.ok.inj hok
    rcases path_run_bind.mp h₁ with ⟨told, d, more, hchoose, h₂, rfl⟩ | ⟨e, hchoose, rfl⟩
    · obtain ⟨hd, htold⟩ := path_chooseDivider hchoose
      exact .inr ⟨base, d, told, more, rfl, htold, hd.symm, programs_of_path h₂⟩
    · exact .inl ⟨e, rfl, (path_chooseDivider hchoose).2⟩
  · obtain ⟨cause, -, rfl⟩ | ⟨base, habs, -⟩ := path_baseRate hbase
    · exact .inl ⟨e, rfl, rfl⟩
    · cases habs

end DividedClock

end SdHost
