import SdHost.Platform.Basic

/-!
# Bringing a controller up

Before a controller is touched its device is switched on and its reset line pulsed.

* `BringUp.perform` — the steps in order, ending at the first that fails;
* `Platform.powerOn` — the steps that a family knows for itself.
-/

namespace SdHost

/-- Asks a service to switch a device. -/
def switchPower (device : UInt32) (on : Bool) : Action Bool :=
  Dialogue.question (Request.power device on)

/-- Switches a device on. -/
def switchOn (device : UInt32) : ExceptT ControllerError Action Unit := do
  if ← switchPower device true then
    report (.poweredOn device)
  else
    report (.powerOnFailed device)
    throw .powerFailed

/-- Asserts a reset line and releases it. -/
def pulseReset (line : UInt32) : ExceptT ControllerError Action Unit := do
  match ← (Dialogue.question (Request.assertReset line) : Action _) with
  | .error e =>
    report (.assertResetFailed line e)
    throw .resetControl
  | .ok () =>
    match ← (Dialogue.question (Request.deassertReset line) : Action _) with
    | .error e =>
      report (.deassertResetFailed line e)
      throw .resetControl
    | .ok () => pure ()

/-- Switches the device on, then pulses the reset line. -/
def BringUp.perform (b : BringUp) : ExceptT ControllerError Action Unit := do
  if let some device := b.powerDevice then
    switchOn device
  if let some line := b.resetLine then
    pulseReset line

/-- Brings the family's own device up. -/
def Platform.powerOn (p : Platform) : ExceptT ControllerError Action Unit :=
  match p.family with
  | .divided _ _ bringUp => bringUp.perform
  | .usdhc => pure ()

end SdHost
