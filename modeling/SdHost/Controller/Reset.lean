import SdHost.Controller.Basic
import SdHost.Platform.ClockChange

/-!
# Reset and clock modes

A reset or a change of the clock is refused while commands are queued.  Both stop at the first
step that fails, and neither touches the queue.

* `Controller.reset` — software reset, event masks, clock for finding out about a card, four data
  lines, and the clocks that wake the card;
* `Controller.setOperational` — the clock for moving data.
-/

namespace SdHost

open Register

namespace Controller

/-- Changes the SD clock to that of a mode. -/
def setClock (c : Controller) (mode : ClockMode) : ExceptT ControllerError Action Unit :=
  c.platform.setClock
    { mode := mode
      targetHz := c.config.clockHz mode
      version := c.version
      spinLimit := c.config.spinLimit }

/-- Resets the hardware and waits for it. -/
def resetHardware (c : Controller) : ExceptT ControllerError Action Unit := do
  Register.modify SystemControl.resetAll.set
  unless ← waitFor c.config.spinLimit (return !(← Register.reads SystemControl.resetAll)) do
    report .resetTimedOut
    throw .resetTimeout

/-- The events that are latched and raise the interrupt line after a reset. -/
def resetMask : InterruptStatus :=
  InterruptStatus.ambient ||| InterruptStatus.bufferReady ||| InterruptStatus.completion

/-- Lets every event of the engine through. -/
def enableEvents : Action Unit := do
  interruptStatusEnable.write resetMask.bits
  interruptSignalEnable.write resetMask.bits

/-- Sends the clocks that wake the card, once the lines are free. -/
def wakeCard (c : Controller) : ExceptT ControllerError Action Unit := do
  unless ← waitFor c.config.spinLimit linesFree do
    report .linesBusyAfterReset
    throw .lineBusy
  Register.modify SystemControl.wakeCard.set
  unless ← waitFor c.config.spinLimit (return !(← Register.reads SystemControl.wakeCard)) do
    report .wakeUpTimedOut
    throw .resetTimeout

/-- Reports whether a card is in the slot.  Whether it is read-only is looked at only if the log
keeps the report. -/
def reportCard : Action Unit := do
  if ← cardPresent then
    if ← keeps .info then
      report (.cardPresent (← cardWriteProtected))
  else
    report .noCard

/-- The steps of a reset. -/
def resetSequence (c : Controller) : ExceptT ControllerError Action Unit := do
  c.resetHardware
  enableEvents
  c.setClock .initial
  Register.modify ProtocolControl.fourBit
  c.wakeCard
  reportCard

/-- Resets the controller, unless commands are queued. -/
def reset (c : Controller) : Action (Except ControllerError Unit × Controller) := do
  if c.queue.isEmpty then
    match ← c.resetSequence.run with
    | .ok () => return (.ok (), { c with blocksRemaining := 0 })
    | .error e => return (.error e, c)
  else
    report (.resetRefused c.queue.size)
    return (.error .busy, c)

/-- Changes to the clock for moving data, unless commands are queued. -/
def setOperational (c : Controller) : ExceptT ControllerError Action Unit := do
  if c.queue.isEmpty then
    c.setClock .operational
  else
    report (.clockChangeRefused c.queue.size)
    throw .busy

end Controller

end SdHost
