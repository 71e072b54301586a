import SdHost.Platform.BringUp
import SdHost.Platform.ClockChange
import SdHost.Proofs.Dialogue.Asks
import SdHost.Proofs.Event

/-!
# What the platforms ask

Switching a controller on asks services only; changing the SD clock asks the registers that have to
do with it, of which it writes one, and the clock service.  Neither has an event, and neither asks
which reports are kept.

* `Request.ofPower`, `Platform.asks_powerOn` — switching on;
* `Request.ofControl`, `Platform.asks_setClock` — changing the clock;
* `quiet_of_asks`, `quiet_of_ofControl` — questions that are no events.
-/

namespace SdHost

open Dialogue Register Request

/-- The registers that a change of the clock looks at. -/
def clockRegisters : List Register := [systemControl, presentState, mixerControl]

namespace Request

/-- A question to the power and reset services. -/
def ofPower : Request → Prop
  | power _ _ => True
  | assertReset _ => True
  | deassertReset _ => True
  | report _ => True
  | _ => False

/-- A question to the registers that have to do with the clock, of which only the system control
register is written, or to the clock service. -/
def ofControl : Request → Prop
  | read r => r ∈ clockRegisters
  | write r _ => r = systemControl
  | baseClock _ => True
  | report _ => True
  | _ => False

end Request

/-! ### Switching on -/

theorem asks_switchOn (device : UInt32) : Asks ofPower (switchOn device).run := by
  refine asks_run_bind (asks_run_lift (asks_question trivial)) fun on => ?_
  exact asks_run_ite on (asks_run_lift (asks_question trivial)) (asks_refuse _ trivial _)

theorem asks_pulseReset (line : UInt32) : Asks ofPower (pulseReset line).run := by
  refine asks_run_bind (asks_run_lift (asks_question trivial)) fun asserted => ?_
  cases asserted with
  | error e => exact asks_refuse _ trivial _
  | ok u =>
    refine asks_run_bind (asks_run_lift (asks_question trivial)) fun released => ?_
    cases released with
    | error e => exact asks_refuse _ trivial _
    | ok u => exact asks_run_pure _

/-- **Switching on** asks services. -/
theorem Platform.asks_powerOn (p : Platform) : Asks ofPower p.powerOn.run := by
  obtain ⟨family, gap⟩ := p
  rcases family with ⟨clock, irq, device | device, line | line⟩ | _
  · exact asks_run_pure _
  · exact asks_pulseReset line
  · exact asks_run_bind (asks_switchOn device) fun _ => asks_run_pure _
  · exact asks_run_bind (asks_switchOn device) fun _ => asks_pulseReset line
  · exact asks_run_pure _

/-! ### Changing the clock -/

theorem asks_systemControl (f : Field systemControl) : Asks ofControl (Register.reads f) :=
  asks_bind (asks_question List.mem_cons_self) fun _ => asks_pure _

theorem asks_modify_control (v : FieldValue systemControl) : Asks ofControl (Register.modify v) :=
  asks_bind (asks_question List.mem_cons_self) fun _ => asks_question rfl

theorem asks_linesFree : Asks ofControl linesFree := by
  have hstate : ofControl (.read presentState) := List.mem_of_elem_eq_true rfl
  exact asks_bind (asks_bind (asks_question hstate) fun _ => asks_pure _) fun _ => asks_pure _

namespace DividedClock

theorem asks_awaitLines (limit : Nat) : Asks ofControl (awaitLines limit).run := by
  refine asks_run_bind (asks_run_waitFor _ (asks_run_lift asks_linesFree)) fun free => ?_
  exact asks_run_ite free (asks_run_pure _) (asks_refuse _ trivial _)

theorem asks_baseRate (clock : UInt32) : Asks ofControl (baseRate clock).run := by
  refine asks_run_bind (asks_run_lift (asks_question trivial)) fun answer => ?_
  cases answer with
  | ok rate => exact asks_run_pure _
  | error e => exact asks_refuse _ trivial _

theorem asks_chooseDivider (base target : UInt32) (version : SpecVersion) :
    Asks ofControl (chooseDivider base target version).run := by
  unfold chooseDivider
  cases ClockDivider.choose base target version with
  | error e => exact asks_run_throw _
  | ok divider =>
    by_cases hbypass : divider = .bypass
    · simp only [hbypass, if_true]
      exact asks_run_pure _
    · simp only [hbypass, if_false]
      exact asks_run_bind (asks_run_lift (asks_question trivial)) fun _ => asks_run_pure _

theorem asks_stopCardClock (limit : Nat) : Asks ofControl (stopCardClock limit).run := by
  refine asks_run_bind (asks_run_lift (asks_systemControl _)) fun running => ?_
  refine asks_run_ite running ?_ (asks_run_pure _)
  refine asks_run_bind (asks_run_lift (asks_modify_control _)) fun _ => ?_
  exact asks_awaitLines limit

theorem asks_awaitInternalClock (limit : Nat) : Asks ofControl (awaitInternalClock limit).run := by
  refine asks_run_bind (asks_run_waitFor _ (asks_run_lift (asks_systemControl _))) fun stable => ?_
  exact asks_run_ite stable (asks_run_pure _) (asks_refuse _ trivial _)

theorem asks_program (clock : UInt32) (request : ClockRequest) :
    Asks ofControl (program clock request).run := by
  refine asks_run_bind (asks_baseRate clock) fun base => ?_
  refine asks_run_bind (asks_chooseDivider ..) fun divider => ?_
  refine asks_run_bind (asks_awaitLines _) fun _ => ?_
  refine asks_run_bind (asks_stopCardClock _) fun _ => ?_
  refine asks_run_bind (asks_run_lift (asks_modify_control _)) fun _ => ?_
  refine asks_run_bind (asks_awaitLines _) fun _ => ?_
  refine asks_run_bind (asks_awaitInternalClock _) fun _ => ?_
  refine asks_run_bind (asks_run_lift (asks_modify_control _)) fun _ => ?_
  refine asks_run_bind (asks_awaitLines _) fun _ => ?_
  exact asks_run_lift (asks_question trivial)

end DividedClock

namespace Usdhc

theorem asks_startInternalClock (limit : Nat) : Asks ofControl (startInternalClock limit).run := by
  refine asks_run_bind (asks_run_lift (asks_modify_control _)) fun _ => ?_
  refine asks_run_bind (asks_run_waitFor _ (asks_run_lift (asks_systemControl _))) fun stable => ?_
  refine asks_run_ite stable ?_ (asks_refuse _ trivial _)
  exact asks_run_lift (asks_modify_control _)

theorem asks_program (request : ClockRequest) : Asks ofControl (program request).run := by
  have hstate : ofControl (.read presentState) := List.mem_of_elem_eq_true rfl
  have hmixer : ofControl (.read mixerControl) := List.mem_of_elem_eq_true rfl
  refine asks_run_bind (asks_run_lift (asks_systemControl _)) fun running => ?_
  refine asks_run_unless (asks_startInternalClock _) ?_
  refine asks_run_bind (asks_run_lift (asks_bind (asks_question hstate) fun _ => asks_pure _))
    fun stable => ?_
  refine asks_run_ite stable ?_ (asks_report_throw _ trivial _)
  refine asks_run_bind (asks_run_lift (asks_bind (asks_question hmixer) fun _ => asks_pure _))
    fun bothEdges => ?_
  refine asks_run_bind (asks_run_lift (asks_modify_control _)) fun _ => ?_
  exact asks_run_lift (asks_question trivial)

end Usdhc

/-- **Changing the clock** asks the registers and the clock service. -/
theorem Platform.asks_setClock (p : Platform) (request : ClockRequest) :
    Asks ofControl (p.setClock request).run := by
  unfold Platform.setClock
  cases p.family with
  | divided clock irq bringUp => exact DividedClock.asks_program clock request
  | usdhc => exact Usdhc.asks_program request

/-! ### No events -/

/-- An action has no event if none of its questions is one. -/
theorem quiet_of_asks {α : Type} {P : Request → Prop} {d : Action α} (h : Asks P d)
    (hP : ∀ q, P q → ∀ x, Exchange.event? ⟨q, x⟩ = none) : Quiet d := by
  rintro _ a ⟨es, hpath, rfl⟩
  exact List.filterMap_eq_nil_iff.mpr fun x hx => hP x.question (h hpath x hx) x.answer

/-- **Controlling the clock** has no event. -/
theorem quiet_of_ofControl {α : Type} {d : Action α} (h : Asks ofControl d) : Quiet d := by
  refine quiet_of_asks h fun q hq x => ?_
  have hread : ∀ r ∈ clockRegisters, ∀ word, readEvent? r word = none := by
    intro r hr word
    simp only [clockRegisters, List.mem_cons, List.not_mem_nil, or_false] at hr
    rcases hr with rfl | rfl | rfl <;> rfl
  cases q with
  | read r => exact hread r hq x
  | write r value =>
    obtain rfl : r = systemControl := hq
    rfl
  | handBack e route => exact hq.elim
  | _ => rfl

end SdHost
