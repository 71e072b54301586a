import SdHost.Platform.Basic

/-!
# Changing the SD clock

Each family programs the system control register in its own order.

* `DividedClock.program` — the SD clock is stopped, the divider written together with the enable
  bit of the internal clock, the internal clock awaited, and only then the SD clock started; the
  lines are awaited between the steps;
* `Usdhc.program` — the internal clock is started if it is not running; a clock that is not stable
  is left alone; then prescaler, divisor and timeout are written at once;
* `Platform.setClock` — the change in the family's own way.
-/

namespace SdHost

open Register

namespace DividedClock

/-- Waits until the lines are free. -/
def awaitLines (limit : Nat) : ExceptT ControllerError Action Unit := do
  unless ← waitFor limit linesFree do
    report .linesStuck
    throw .lineBusy

/-- Asks for the rate of the base clock. -/
def baseRate (clock : UInt32) : ExceptT ControllerError Action UInt32 := do
  match ← (Dialogue.question (Request.baseClock clock) : Action _) with
  | .ok rate => pure rate
  | .error e =>
    report (.baseClockUnavailable clock e)
    throw .clockService

/-- Chooses the divider and reports it, unless the base clock passes through. -/
def chooseDivider (base target : UInt32) (version : SpecVersion) :
    ExceptT ControllerError Action ClockDivider := do
  match ClockDivider.choose base target version with
  | .error e => throw e
  | .ok divider =>
    unless divider = .bypass do
      report (.dividerChosen target base divider)
    pure divider

/-- Stops the SD clock if it is running. -/
def stopCardClock (limit : Nat) : ExceptT ControllerError Action Unit := do
  if ← Register.reads SystemControl.cardClockEnable then
    Register.modify SystemControl.cardClockEnable.clear
    awaitLines limit

/-- Waits until the internal clock is stable. -/
def awaitInternalClock (limit : Nat) : ExceptT ControllerError Action Unit := do
  unless ← waitFor limit (Register.reads SystemControl.internalClockStable) do
    report .internalClockUnstable
    throw .clockUnstable

/-- Changes the SD clock to a division of base clock `clock`. -/
def program (clock : UInt32) (request : ClockRequest) :
    ExceptT ControllerError Action Unit := do
  let base ← baseRate clock
  let divider ← chooseDivider base request.targetHz request.version
  awaitLines request.spinLimit
  stopCardClock request.spinLimit
  Register.modify (SystemControl.internalClockEnable.set + divider.fields)
  awaitLines request.spinLimit
  awaitInternalClock request.spinLimit
  Register.modify SystemControl.cardClockEnable.set
  awaitLines request.spinLimit
  report (.clockSet request.mode base divider)

end DividedClock

namespace Usdhc

/-- The fixed settings of one clock mode. -/
structure Setting where
  /-- The divisor, less one. -/
  divisor : UInt32
  /-- Half the prescaler. -/
  prescaler : UInt32
  timeout : UInt32
  deriving DecidableEq, Repr

/-- The base clock over 512 to find out about a card, over 8 to move data. -/
def Setting.ofMode : ClockMode → Setting
  | .initial => { divisor := 0xF, prescaler := 0x10, timeout := 0x0 }
  | .operational => { divisor := 0x3, prescaler := 0x01, timeout := 0xF }

/-- The prescaler with both clock edges in use or not: it counts twice if they are. -/
def Setting.effectivePrescaler (s : Setting) (bothEdges : Bool) : UInt32 :=
  if bothEdges then s.prescaler >>> 1 else s.prescaler

/-- The decision about the three fields of a setting. -/
def Setting.fields (s : Setting) (prescaler : UInt32) : FieldValue systemControl :=
  SystemControl.frequencySelect.put prescaler + SystemControl.divisor.put s.divisor
    + SystemControl.dataTimeout.put s.timeout

/-- Starts the internal clock, waits for it, and lets the SD clock out. -/
def startInternalClock (limit : Nat) : ExceptT ControllerError Action Unit := do
  Register.modify SystemControl.internalClockEnable.set
  unless ← waitFor limit (Register.reads SystemControl.internalClockStable) do
    report .usdhcInternalClockUnstable
    throw .clockUnstable
  Register.modify SystemControl.cardClockEnable.set

/-- Changes the SD clock to the setting of a mode. -/
def program (request : ClockRequest) : ExceptT ControllerError Action Unit := do
  unless ← Register.reads SystemControl.internalClockEnable do
    startInternalClock request.spinLimit
  unless ← Register.reads PresentState.clockStable do
    report .cardClockUnstable
    throw .clockUnstable
  let setting := Setting.ofMode request.mode
  let prescaler := setting.effectivePrescaler (← Register.reads MixerControl.doubleDataRate)
  Register.modify (setting.fields prescaler)
  report (.usdhcClockSet request.mode prescaler (setting.divisor + 1))

end Usdhc

/-- Changes the SD clock in the family's way. -/
def Platform.setClock (p : Platform) (request : ClockRequest) :
    ExceptT ControllerError Action Unit :=
  match p.family with
  | .divided clock _ _ => DividedClock.program clock request
  | .usdhc => Usdhc.program request

end SdHost
