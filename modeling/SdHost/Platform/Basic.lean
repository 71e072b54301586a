import SdHost.Action

/-!
# Controller families

Controllers run commands alike; they differ in how the SD clock is made, in how they are switched
on, in the pause they need between commands, and in the voltages they offer a card.

* `Family`, `Platform` — a controller family and the pause it needs;
* `Platform.bcm2837`, `Platform.bcm2711`, `Platform.imx6` — known controllers;
* `ClockRequest` — what a change of the SD clock asks for;
* `Platform.voltageWindow` — the voltages that the host offers a card.
-/

namespace SdHost

/-- What is done before a controller is touched. -/
structure BringUp where
  /-- A device to switch on. -/
  powerDevice : Option UInt32 := none
  /-- A reset line to pulse. -/
  resetLine : Option UInt32 := none
  deriving DecidableEq, Repr

/-- A controller family. -/
inductive Family where
  /-- The SD clock divides a base clock that a service knows about. -/
  | divided (clock irq : UInt32) (bringUp : BringUp)
  /-- The SD clock is made from fixed settings of a prescaler and a divisor. -/
  | usdhc
  deriving DecidableEq, Repr

/-- The pause before each command that suffices for every known controller, in microseconds. -/
def commandGapMicros : UInt32 := 1000

/-- A kind of controller on a kind of board. -/
structure Platform where
  family : Family
  /-- The pause before each command, in microseconds. -/
  commandGap : UInt32 := commandGapMicros
  deriving DecidableEq, Repr

namespace Platform

/-- The controller of a BCM2837: its clock is number 1, its interrupt line 126. -/
def bcm2837 : Platform := { family := .divided 1 126 { powerDevice := some 0 } }

/-- The controller of a BCM2711: its clock is number 12, its interrupt line 158. -/
def bcm2711 : Platform := { family := .divided 12 158 { powerDevice := some 0 } }

/-- A controller of an i.MX6. -/
def imx6 : Platform := { family := .usdhc }

/-- The interrupt lines of the four controllers of an i.MX6. -/
def imx6Irqs : List UInt32 := [86, 87, 88, 89]

/-- The name of the family in reports. -/
def name (p : Platform) : String :=
  match p.family with
  | .divided _ _ _ => "generic-sdhc"
  | .usdhc => "imx6-usdhc"

/-- The interrupt line that a family knows. -/
def irq? (p : Platform) : Option UInt32 :=
  match p.family with
  | .divided _ irq _ => some irq
  | .usdhc => none

end Platform

/-- A change of the SD clock. -/
structure ClockRequest where
  mode : ClockMode
  /-- The rate asked for, in hertz. -/
  targetHz : UInt32
  version : SpecVersion
  /-- How often each state of the hardware is looked at. -/
  spinLimit : Nat
  deriving DecidableEq, Repr

/-! ### Voltages -/

namespace Voltage

/-- From 2.9 to 3.0 volts. -/
def v29to30 : UInt32 := (1 : UInt32) <<< 17
/-- From 3.0 to 3.1 volts. -/
def v30to31 : UInt32 := (1 : UInt32) <<< 18
/-- From 3.1 to 3.2 volts. -/
def v31to32 : UInt32 := (1 : UInt32) <<< 19
/-- From 3.2 to 3.3 volts. -/
def v32to33 : UInt32 := (1 : UInt32) <<< 20
/-- From 3.3 to 3.4 volts. -/
def v33to34 : UInt32 := (1 : UInt32) <<< 21
/-- The host asks to switch to 1.8 volts. -/
def switch18 : UInt32 := (1 : UInt32) <<< 24
/-- Set together with the switch to 1.8 volts. -/
def switchCompanion : UInt32 := (1 : UInt32) <<< 25
/-- The host accepts cards of high capacity. -/
def highCapacity : UInt32 := (1 : UInt32) <<< 30

end Voltage

open Voltage in
/-- The operating conditions offered to a card that reported `card`, by a host that can or cannot
drive 3.3 volts. -/
def Platform.voltageWindow (p : Platform) (drives33 : Bool) (card : UInt32) : UInt32 :=
  match p.family with
  | .divided _ _ _ =>
    highCapacity ||| v33to34 ||| v32to33 ||| v31to32 ||| v30to31 ||| v29to30
  | .usdhc =>
    let window := v29to30 ||| v30to31
    if drives33 && card &&& window != 0 then
      window ||| highCapacity ||| switchCompanion ||| switch18
    else window

end SdHost
