import SdHost.Command.Issue
import SdHost.Config

/-!
# The controller

A controller is what the driver remembers about one piece of hardware: the queue of commands, how
far the head's data has come, and which blocking submission is being polled for.

* `Controller`, `Controller.takeOver` — the state, and its beginning: every event is masked and
  whatever is latched is acknowledged, without a reset;
* `Controller.isIdle`, `Controller.pending`, `Controller.isPending` — what is queued;
* `Capabilities` and `Controller.offeredVoltages` — what the hardware says it can do;
* `Controller.dumpRegisters` — every harmless register in the log.
-/

namespace SdHost

open Register

/-- How many commands are queued at once, the one on the wire included. -/
def queueDepth : Nat := 8

/-- How many interrupt lines a controller is wired to at most. -/
def maxIrqs : Nat := 4

/-- What the driver remembers about one piece of hardware. -/
structure Controller where
  platform : Platform
  version : SpecVersion
  /-- The interrupt lines of this controller. -/
  irqs : List UInt32
  config : Config
  queue : Queue queueDepth := Queue.empty
  /-- Blocks that the processor still has to move for the head. -/
  blocksRemaining : Nat := 0
  /-- The blocking submission that is being polled for. -/
  waiting : Option Ticket := none
  /-- The finished command of that submission, until it is picked up. -/
  finished : Option (Ticket × Command) := none
  deriving DecidableEq

namespace Controller

/-- Takes over a controller with the given interrupt lines. -/
def takeOver (platform : Platform) (irqs : List UInt32) (config : Config) :
    ExceptT ControllerError Action Controller := do
  if irqs.length > maxIrqs then
    report (.tooManyIrqs irqs.length maxIrqs)
    throw .tooManyIrqs
  let version := SpecVersion.ofRaw (← rawVersion)
  interruptStatusEnable.write InterruptStatus.empty.bits
  interruptSignalEnable.write InterruptStatus.empty.bits
  acknowledge (← latchedStatus)
  report (.takenOver platform.name version irqs.length)
  return { platform := platform, version := version, irqs := irqs, config := config }

/-- Whether no command is queued. -/
def isIdle (c : Controller) : Bool := c.queue.isEmpty

/-- The number of queued commands, the one on the wire included. -/
def pending (c : Controller) : Nat := c.queue.size

/-- Whether the submission of `ticket` is still queued. -/
def isPending (c : Controller) (ticket : Ticket) : Bool := c.queue.contains ticket

/-- The interrupt line with number `n`. -/
def irq? (c : Controller) (n : Nat) : Option UInt32 := c.irqs[n]?

end Controller

/-! ### What the hardware can do -/

namespace Capabilities

/-- Whether the hardware has DMA. -/
def supportsDma : Action Bool := Register.reads dma

/-- Whether the hardware has descriptor DMA. -/
def supportsAdma : Action Bool := Register.reads adma

/-- Whether the hardware has the high speed mode. -/
def supportsHighSpeed : Action Bool := Register.reads highSpeed

/-- The largest block that a capability word allows, in bytes. -/
def blockLength (word : UInt32) : UInt32 := 512 <<< maxBlockLength.get word

/-- The largest block that the hardware accepts, in bytes. -/
def largestBlock : Action UInt32 := return blockLength (← capabilities.read)

/-- Whether the hardware drives a card at a voltage in millivolts. -/
def drives (millivolts : UInt32) : Action Bool := do
  let word ← capabilities.read
  return match millivolts with
    | 3300 => volts33.isSet word
    | 3000 => volts30.isSet word
    | 1800 => volts18.isSet word
    | _ => false

end Capabilities

/-- Whether a card is in the slot. -/
def cardPresent : Action Bool := Register.reads PresentState.cardInserted

/-- Whether the card is read-only. -/
def cardWriteProtected : Action Bool := Register.reads PresentState.writeProtectLevel

namespace Controller

/-- The operating conditions offered to a card that reported `card`. -/
def offeredVoltages (c : Controller) (card : UInt32) : Action UInt32 :=
  return c.platform.voltageWindow (← Capabilities.drives 3300) card

/-- Puts every harmless register into the log; one that the log would not keep is not read. -/
def dumpRegisters : Action Unit :=
  Register.diagnostic.forM fun entry => do
    if ← keeps .debug then
      report (.registerValue entry.1 entry.2 (← entry.2.read))

end Controller

end SdHost
