import SdHost.Controller.Reset
import SdHost.Proofs.Command.Issue
import SdHost.Proofs.Platform.Asks

/-!
# The events of a reset

A reset says at most what will be latched from now on; a change of the clock has no event.  Both
are refused while commands are queued, and neither touches the queue.

* `Controller.asks_resetHardware`, `Controller.asks_wakeCard` — what the parts of a reset ask;
* `Controller.leads_reset`, `Controller.quiet_setOperational` — the events of both.
-/

namespace SdHost

open Dialogue Register Request

namespace Controller

variable {c c' : Controller} {evs : List Event}

theorem asks_resetHardware (c : Controller) : Asks ofControl c.resetHardware.run := by
  refine asks_run_bind (asks_run_lift (asks_modify_control _)) fun _ => ?_
  refine asks_run_bind (asks_run_waitFor _ ?_) fun b => ?_
  · exact asks_run_bind (asks_run_lift (asks_systemControl _)) fun _ => asks_run_pure _
  · exact asks_run_ite b (asks_run_pure _) (asks_refuse _ trivial _)

theorem asks_wakeCard (c : Controller) : Asks ofControl c.wakeCard.run := by
  refine asks_run_bind (asks_run_waitFor _ (asks_run_lift asks_linesFree)) fun free => ?_
  refine asks_run_ite free ?_ (asks_report_throw _ trivial _)
  refine asks_run_bind (asks_run_lift (asks_modify_control _)) fun _ => ?_
  refine asks_run_bind (asks_run_waitFor _ ?_) fun b => ?_
  · exact asks_run_bind (asks_run_lift (asks_systemControl _)) fun _ => asks_run_pure _
  · exact asks_run_ite b (asks_run_pure _) (asks_refuse _ trivial _)

theorem quiet_cardPresent : Quiet cardPresent := quiet_reads _ fun _ => rfl

theorem quiet_cardWriteProtected : Quiet cardWriteProtected := quiet_reads _ fun _ => rfl

theorem quiet_reportCard : Quiet reportCard := by
  refine quiet_bind quiet_cardPresent fun present => quiet_ite present ?_ (quiet_report _)
  refine quiet_bind (quiet_keeps _) fun kept => quiet_ite kept ?_ (quiet_pure _)
  exact quiet_bind quiet_cardWriteProtected fun _ => quiet_report _

theorem leads_enableEvents {u : Unit} (h : Leads enableEvents evs u) :
    evs = [.latching resetMask.bits] := by
  obtain ⟨_, _, _, hw, h₁, rfl⟩ := leads_bind.mp h
  rw [leads_write.mp hw, quiet_write _ rfl h₁]
  rfl

/-- The steps of a reset say once what will be latched, unless the hardware stays in reset. -/
theorem leads_resetSequence {r : Except ControllerError Unit}
    (h : Leads c.resetSequence.run evs r) : evs = [] ∨ evs = [.latching resetMask.bits] := by
  rcases leads_run_bind.mp h with ⟨_, _, _, hr, h₁, rfl⟩ | ⟨e, hr, rfl⟩
  · rw [quiet_of_ofControl c.asks_resetHardware hr]
    obtain ⟨_, _, _, he, h₂, rfl⟩ := leads_run_lift_bind.mp h₁
    have hrest : Quiet (do
        c.setClock .initial
        Register.modify ProtocolControl.fourBit
        c.wakeCard
        reportCard : ExceptT ControllerError Action Unit).run := by
      refine quiet_run_bind (quiet_of_ofControl (Platform.asks_setClock ..)) fun _ => ?_
      refine quiet_run_bind (quiet_run_lift (quiet_modify _ (fun _ => rfl) fun _ => rfl))
        fun _ => ?_
      refine quiet_run_bind (quiet_of_ofControl c.asks_wakeCard) fun _ => ?_
      exact quiet_run_lift quiet_reportCard
    rw [leads_enableEvents he, hrest h₂]
    exact .inr rfl
  · exact .inl (quiet_of_ofControl c.asks_resetHardware hr)

/-- **A reset** is refused while commands are queued; else it only says what will be latched. -/
theorem leads_reset {r : Except ControllerError Unit × Controller} (h : Leads c.reset evs r) :
    (c.queue.isEmpty = false ∧ evs = [] ∧ r.2 = c) ∨
    (c.queue.isEmpty = true ∧ (evs = [] ∨ evs = [.latching resetMask.bits]) ∧
      (r.2 = c ∨ r.2 = { c with blocksRemaining := 0 })) := by
  rcases leads_ite.mp h with ⟨hempty, h₁⟩ | ⟨hempty, h₁⟩
  · obtain ⟨_, out, _, hs, h₂, rfl⟩ := leads_bind.mp h₁
    cases out with
    | ok u =>
      obtain ⟨rfl, rfl⟩ := leads_done.mp h₂
      rw [List.append_nil]
      exact .inr ⟨hempty, leads_resetSequence hs, .inr rfl⟩
    | error e =>
      obtain ⟨rfl, rfl⟩ := leads_done.mp h₂
      rw [List.append_nil]
      exact .inr ⟨hempty, leads_resetSequence hs, .inl rfl⟩
  · obtain ⟨rfl, rfl⟩ := leads_report_pure h₁
    exact .inl ⟨hempty, rfl, rfl⟩

theorem quiet_setOperational (c : Controller) : Quiet c.setOperational.run :=
  quiet_run_ite _ (quiet_of_ofControl (Platform.asks_setClock ..)) (quiet_run_fail _ _)

end Controller

end SdHost
