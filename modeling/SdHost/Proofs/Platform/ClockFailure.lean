import SdHost.Proofs.Dialogue.Steps
import SdHost.Proofs.Platform.ClockChange

/-!
# How a change of the clock fails

A change of the SD clock stops at the first thing that goes wrong: its error says what that is, and
nothing is written afterwards.

* `ClockFails` — what was seen last, with the error;
* `ClockFails.writes`, `ClockFails.ne_busy` — the end of a failure;
* `Platform.halts_setClock` — each family's change fails like that.
-/

namespace SdHost

open Dialogue Register SystemControl

/-- What is seen at the end of a change that fails, and the error that it comes to. -/
inductive ClockFails (request : ClockRequest) : List Exchange → ControllerError → Prop where
  /-- The clock service does not know the base clock. -/
  | service {clock : UInt32} {cause : ServiceError} :
      ClockFails request [⟨.baseClock clock, .error cause⟩,
        ⟨.report (.baseClockUnavailable clock cause), ()⟩] .clockService
  /-- No clock was asked for. -/
  | target (h : request.targetHz = 0) : ClockFails request [] .invalidParameter
  /-- The lines were busy whenever they were looked at. -/
  | lines {watch : List Exchange}
      (h : Watched presentState PresentState.free request.spinLimit watch false) :
      ClockFails request (watch ++ [⟨.report .linesStuck, ()⟩]) .lineBusy
  /-- The internal clock was never stable. -/
  | internalClock {watch : List Exchange} {m : Log.Message}
      (h : Watched systemControl internalClockStable.isSet request.spinLimit watch false) :
      ClockFails request (watch ++ [⟨.report m, ()⟩]) .clockUnstable
  /-- The SD clock was not stable. -/
  | cardClock {word : UInt32} (h : PresentState.clockStable.isSet word = false) :
      ClockFails request (readings presentState [word] ++ [⟨.report .cardClockUnstable, ()⟩])
        .clockUnstable

namespace ClockFails

variable {request : ClockRequest} {es : List Exchange} {e : ControllerError}

theorem writes (h : ClockFails request es e) : writes es = [] := by
  cases h with
  | service => rfl
  | target _ => rfl
  | lines h => exact unwritten_append h.writes rfl
  | internalClock h => exact unwritten_append h.writes rfl
  | cardClock _ => exact unwritten_append (writes_readings _ _) rfl

theorem ne_busy (h : ClockFails request es e) : e ≠ .busy := by
  cases h <;> exact ControllerError.noConfusion

end ClockFails

/-- A divider is missing only if no clock is asked for. -/
theorem ClockDivider.choose_error {base target : UInt32} {v : SpecVersion} {e : ControllerError}
    (h : choose base target v = .error e) : target = 0 ∧ e = .invalidParameter := by
  unfold choose at h
  by_cases htarget : target = 0
  · rw [htarget, if_pos (by decide)] at h
    exact ⟨htarget, (Except.error.inj h).symm⟩
  · have hne : ¬(target == 0) = true := fun heq => htarget (eq_of_beq heq)
    rw [if_neg hne] at h
    dsimp only at h
    split at h
    · cases h
    · split at h
      · cases h
      · cases h

namespace DividedClock

variable {clock : UInt32} {request : ClockRequest}

theorem halts_baseRate : Halts (ClockFails request) (baseRate clock) := by
  intro es e hpath
  rcases path_baseRate hpath with ⟨cause, hout, rfl⟩ | ⟨base, hout, -⟩
  · obtain rfl := Except.error.inj hout
    exact ⟨[], _, rfl, .service⟩
  · cases hout

theorem halts_chooseDivider {base : UInt32} :
    Halts (ClockFails request) (chooseDivider base request.targetHz request.version) := by
  unfold chooseDivider
  cases hchoose : ClockDivider.choose base request.targetHz request.version with
  | error e =>
    obtain ⟨htarget, rfl⟩ := ClockDivider.choose_error hchoose
    exact halts_throw (.target htarget)
  | ok d =>
    by_cases hbypass : d = .bypass
    · simp only [hbypass, if_true]
      exact halts_pure _
    · simp only [hbypass, if_false]
      exact halts_bind (halts_lift _) fun _ => halts_pure _

theorem halts_awaitLines : Halts (ClockFails request) (awaitLines request.spinLimit) :=
  halts_wait (sees_run_lift sees_linesFree) fun h => .lines h

theorem halts_awaitInternalClock :
    Halts (ClockFails request) (awaitInternalClock request.spinLimit) :=
  halts_wait (sees_run_lift (sees_reads internalClockStable)) fun h => .internalClock h

theorem halts_stopCardClock : Halts (ClockFails request) (stopCardClock request.spinLimit) := by
  refine halts_bind (halts_lift _) fun running => halts_ite running ?_ (halts_pure _)
  exact halts_bind (halts_lift _) fun _ => halts_awaitLines

theorem halts_program : Halts (ClockFails request) (program clock request) := by
  refine halts_bind halts_baseRate fun base => ?_
  refine halts_bind halts_chooseDivider fun divider => ?_
  refine halts_bind halts_awaitLines fun _ => ?_
  refine halts_bind halts_stopCardClock fun _ => ?_
  refine halts_bind (halts_lift _) fun _ => ?_
  refine halts_bind halts_awaitLines fun _ => ?_
  refine halts_bind halts_awaitInternalClock fun _ => ?_
  refine halts_bind (halts_lift _) fun _ => ?_
  exact halts_bind halts_awaitLines fun _ => halts_lift _

end DividedClock

namespace Usdhc

variable {request : ClockRequest}

theorem halts_startInternalClock :
    Halts (ClockFails request) (startInternalClock request.spinLimit) := by
  refine halts_bind (halts_lift _) fun _ => ?_
  apply halts_wait_bind (sees_run_lift (sees_reads internalClockStable))
  · exact fun h => .internalClock h
  · exact halts_lift _

theorem halts_program : Halts (ClockFails request) (program request) := by
  refine halts_bind (halts_lift _) fun running => ?_
  refine halts_unless halts_startInternalClock ?_
  refine halts_check ?_ fun h => .cardClock h
  refine halts_bind (halts_lift _) fun bothEdges => ?_
  exact halts_bind (halts_lift _) fun _ => halts_lift _

end Usdhc

/-- **A change of the clock** stops at the first thing that goes wrong. -/
theorem Platform.halts_setClock (p : Platform) (request : ClockRequest) :
    Halts (ClockFails request) (p.setClock request) := by
  unfold Platform.setClock
  cases p.family with
  | divided clock irq bringUp => exact DividedClock.halts_program
  | usdhc => exact Usdhc.halts_program

end SdHost
