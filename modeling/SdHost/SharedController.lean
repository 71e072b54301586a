import SdHost.Controller.Interrupt

/-!
# A controller shared with interrupt context

Interrupts may arrive while a controller is in use.  They never wait: the event stays latched in
the hardware and is served by the next interrupt or poll.

* `SharedController.lock?`, `SharedController.unlock` — exclusive use;
* `SharedController.onInterrupt` — the entry for interrupts; its result says whether the interrupt
  was served or deferred;
* `deferInterrupt` — all that happens on an interrupt while the controller is in use.
-/

namespace SdHost

/-- A controller and whether somebody is using it. -/
structure SharedController where
  controller : Controller
  inUse : Bool := false

/-- An interrupt while the controller is in use is noted and nothing else. -/
def deferInterrupt (irq : UInt32) : Action Bool := do
  report (.interruptDeferred irq)
  return false

namespace SharedController

/-- Takes the controller for exclusive use, unless it is in use. -/
def lock? (s : SharedController) : Option (Controller × SharedController) :=
  if s.inUse then none else some (s.controller, { s with inUse := true })

/-- Gives the controller back after exclusive use. -/
def unlock (s : SharedController) (c : Controller) : SharedController :=
  { s with controller := c, inUse := false }

/-- Serves an interrupt on a line, or defers it if the controller is in use. -/
def onInterrupt (s : SharedController) (irq : UInt32) : Action (Bool × SharedController) := do
  match s.lock? with
  | none => return (← deferInterrupt irq, s)
  | some (c, held) => return (true, held.unlock (← c.handleInterruptLine irq))

end SharedController

end SdHost
