import SdHost.Proofs.Controller.ResetSteps
import SdHost.Proofs.Operation
import SdHost.Proofs.Turn.Drain

/-!
# Resets and changes of the clock are guarded

A controller that was reached refuses both while commands are queued, without touching a register.
Else they stop at the first step that fails.  Neither leaves a trace in what the driver remembers:
the blocks of a head are forgotten only when there is no head, and then there are none.

* `Controller.handed_reset`, `Controller.handed_setOperational` — nothing is handed back;
* `Reached.reset_eq` — the controller after a reset is the one before;
* `reset_guarded` — both calls, with all that comes of them.
-/

namespace SdHost

open Dialogue (Path)
open Register Controller

variable {ts : List Record} {c c' : Controller} {es : List Exchange}
  {out : Except ControllerError Unit}

theorem Controller.handed_reset (h : Path c.reset es (out, c')) : handed (events es) = [] := by
  rcases leads_reset (leads_of_path h) with ⟨-, hevents, -⟩ | ⟨-, hevents | hevents, -⟩
  · rw [hevents]
    rfl
  · rw [hevents]
    rfl
  · rw [hevents]
    rfl

theorem Controller.handed_setOperational (h : Path c.setOperational.run es out) :
    handed (events es) = [] := by
  rw [c.quiet_setOperational (leads_of_path h)]
  rfl

/-- **A reset leaves the controller** as it is. -/
theorem Reached.reset_eq (h : Reached ts c) (hreset : Path c.reset es (out, c')) : c' = c := by
  rcases path_reset hreset with ⟨-, -, -, hsame⟩ | ⟨hempty, -, hsame | hforgets⟩
  · exact hsame
  · exact hsame
  · have hnone : c.blocksRemaining = 0 :=
      h.blocksRemaining_idle (List.isEmpty_iff.mp hempty)
    rw [hforgets, ← hnone]

/-- **Resets and changes of the clock are guarded**, whatever the hardware and the clock service
answer.  Both are refused just if commands are queued, and then there is a report and nothing else.
Neither changes what the driver remembers, and neither hands anything back.

A reset is its steps in their order: a step that fails is the last, with the error that it names.
After a good end the hardware was seen to have ended the reset and the wake-up, and the lines were
seen free; both event masks were written last as they are after a reset, and of the register of the
bus only the data width was changed. -/
theorem reset_guarded (h : Reached ts c) :
    (∀ es out c', Path c.reset es (out, c') →
      c' = c ∧ handed (events es) = [] ∧
      (out = .error .busy ↔ c.queue.isEmpty = false) ∧
      (c.queue.isEmpty = false → es = [⟨.report (.resetRefused c.queue.size), ()⟩]) ∧
      (c.queue.isEmpty = true → InOrder c.resetCourses es out ∧
        ∀ e, out = .error e → ∃ before course after earlier last,
          c.resetCourses = before ++ course :: after ∧ es = earlier ++ last ∧
          InOrder before earlier (.ok ()) ∧ course last (.error e)) ∧
      (out = .ok () → c.WasReset es ∧
        (∀ regs, stored regs es interruptStatusEnable = resetMask.bits ∧
          stored regs es interruptSignalEnable = resetMask.bits) ∧
        ∃ before old after, es = before ++ (changing ProtocolControl.fourBit old ++ after) ∧
          (∀ p ∈ writes (before ++ after), p.1 ≠ protocolControl) ∧
          AgreeOn (~~~ProtocolControl.dataWidth.mask) (ProtocolControl.fourBit.applyTo old) old ∧
          ProtocolControl.dataWidth.get (ProtocolControl.fourBit.applyTo old) = 1)) ∧
    (∀ es out, Path c.setOperational.run es out →
      handed (events es) = [] ∧
      (out = .error .busy ↔ c.queue.isEmpty = false) ∧
      (c.queue.isEmpty = false → es = [⟨.report (.clockChangeRefused c.queue.size), ()⟩]) ∧
      (c.queue.isEmpty = true → c.Clocks .operational es out)) ∧
    ∀ budget es outcome c', Path (c.operate budget .setOperational) es (outcome, c') → c' = c := by
  refine ⟨?_, ?_, ?_⟩
  · intro es out c' hreset
    obtain ⟨hbusy, hreport⟩ := busy_reset hreset
    refine ⟨h.reset_eq hreset, handed_reset hreset, hbusy, hreport, ?_, ?_⟩
    · intro hempty
      have hsteps := inOrder_reset hreset hempty
      refine ⟨hsteps, ?_⟩
      rintro e rfl
      exact hsteps.exists_failed
    · rintro rfl
      have hwas := wasReset_of_path hreset
      exact ⟨hwas, hwas.masks, hwas.bus⟩
  · intro es out hchange
    obtain ⟨hbusy, hreport⟩ := busy_setOperational hchange
    exact ⟨handed_setOperational hchange, hbusy, hreport, clocks_setOperational hchange⟩
  · intro budget es outcome c' hcall
    obtain ⟨first, result, rest, -, hrest, rfl⟩ := Dialogue.path_bind.mp hcall
    obtain ⟨-, hpair⟩ := Dialogue.path_done.mp hrest
    exact congrArg Prod.snd hpair

/-- A controller that was just taken over is reset. -/
theorem reset_guarded_rested :
    Reached [] Controller.rested ∧
      ∃ es, Path Controller.rested.reset es (.ok (), Controller.rested) ∧
        Controller.rested.WasReset es ∧
        ∀ regs, stored regs es interruptSignalEnable = resetMask.bits := by
  have hpath : Path Controller.rested.reset _ (.ok (), Controller.rested) :=
    path_scripted
      [(systemControl, 0), (systemControl, 0), (systemControl, 1), (presentState, 8)] rfl
  obtain ⟨hreset, -⟩ := reset_guarded reached_rested
  obtain ⟨-, -, -, -, -, hok⟩ := hreset _ _ _ hpath
  obtain ⟨hwas, hmasks, -⟩ := hok rfl
  exact ⟨reached_rested, _, hpath, hwas, fun regs => (hmasks regs).2⟩

end SdHost
