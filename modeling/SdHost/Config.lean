import SdHost.Clock

/-!
# Configuration

What one controller can be told: its two clock rates and how long it waits.
-/

namespace SdHost

/-- The clock for finding out about a card, in hertz. -/
def initialClockHz : UInt32 := 400000

/-- The clock for moving data, in hertz. -/
def operationalClockHz : UInt32 := 25000000

/-- How often a state of the hardware is looked at before waiting for it has failed. -/
def defaultSpinLimit : Nat := 1000000

/-- Iterations that make a microsecond of busy waiting. -/
def spinsPerMicrosecond : Nat := 100

/-- The configuration of one controller. -/
structure Config where
  /-- The clock for finding out about a card, in hertz. -/
  initialClockHz : UInt32 := SdHost.initialClockHz
  /-- The clock for moving data, in hertz. -/
  operationalClockHz : UInt32 := SdHost.operationalClockHz
  /-- How often a reset, a clock or the lines are looked at. -/
  spinLimit : Nat := defaultSpinLimit
  /-- How often a blocking submission serves the controller; without it, until the end. -/
  pollLimit : Option Nat := none
  deriving DecidableEq, Repr

/-- The rate that a clock mode asks for. -/
def Config.clockHz (c : Config) : ClockMode → UInt32
  | .initial => c.initialClockHz
  | .operational => c.operationalClockHz

end SdHost
