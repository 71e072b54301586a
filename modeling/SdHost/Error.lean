/-!
# Causes of failure

Three kinds of cause, each with the negative number under which callers know it.

* `CommandError` — why one command failed, from the least to the most specific cause the
  interrupt status can report, and the failure to start it at all;
* `ControllerError` — why an operation on the whole controller failed;
* `ServiceError` — why a clock, power or reset service refused.
-/

namespace SdHost

/-- Why a command failed. -/
inductive CommandError where
  /-- Tuning failed. -/
  | tuning
  /-- The bus drew more current than allowed. -/
  | overcurrent
  /-- The transfer failed for no cause of its own. -/
  | transfer
  /-- The automatic stop command failed. -/
  | autoCmd12
  /-- The DMA engine failed. -/
  | dma
  /-- The descriptor DMA engine failed. -/
  | adma
  /-- A data block had no end bit. -/
  | dataEndBit
  /-- A data block had a wrong checksum. -/
  | dataCrc
  /-- Data did not arrive in time. -/
  | dataTimeout
  /-- The response named another command. -/
  | commandIndex
  /-- The response had no end bit. -/
  | commandEndBit
  /-- The response had a wrong checksum. -/
  | commandCrc
  /-- No response arrived. -/
  | commandTimeout
  /-- The card was taken out. -/
  | cardRemoved
  /-- The lines never became free to start the command. -/
  | controllerBusy
  deriving DecidableEq, Repr

namespace CommandError

/-- The number of the cause. -/
def code : CommandError → Int
  | tuning => -1
  | overcurrent => -2
  | transfer => -3
  | autoCmd12 => -4
  | dma => -5
  | adma => -6
  | dataEndBit => -7
  | dataCrc => -8
  | dataTimeout => -9
  | commandIndex => -10
  | commandEndBit => -11
  | commandCrc => -12
  | commandTimeout => -13
  | cardRemoved => -14
  | controllerBusy => -15

/-- The name of the cause in reports. -/
def name : CommandError → String
  | tuning => "Tuning"
  | overcurrent => "Overcurrent"
  | transfer => "Transfer"
  | autoCmd12 => "AutoCmd12"
  | dma => "Dma"
  | adma => "Adma"
  | dataEndBit => "DataEndBit"
  | dataCrc => "DataCrc"
  | dataTimeout => "DataTimeout"
  | commandIndex => "CommandIndex"
  | commandEndBit => "CommandEndBit"
  | commandCrc => "CommandCrc"
  | commandTimeout => "CommandTimeout"
  | cardRemoved => "CardRemoved"
  | controllerBusy => "ControllerBusy"

/-- Every cause, in the order of the numbers. -/
def all : List CommandError :=
  [tuning, overcurrent, transfer, autoCmd12, dma, adma, dataEndBit, dataCrc, dataTimeout,
    commandIndex, commandEndBit, commandCrc, commandTimeout, cardRemoved, controllerBusy]

/-- A cause's number tells it from every other. -/
theorem code_injective {a b : CommandError} (h : a.code = b.code) : a = b := by
  cases a <;> cases b <;> first | rfl | exact absurd h (by decide)

end CommandError

/-- Why an operation on the controller failed. -/
inductive ControllerError where
  /-- A parameter is outside its range. -/
  | invalidParameter
  /-- There are more interrupt lines than a controller tracks. -/
  | tooManyIrqs
  /-- Commands are still queued. -/
  | busy
  /-- A reset or the card's wake-up sequence did not end. -/
  | resetTimeout
  /-- A clock did not become stable. -/
  | clockUnstable
  /-- The command or data lines stayed busy. -/
  | lineBusy
  /-- The base clock could not be learned. -/
  | clockService
  /-- The block did not power on. -/
  | powerFailed
  /-- The reset line could not be moved. -/
  | resetControl
  /-- There was no memory for a DMA buffer. -/
  | allocationFailed
  /-- A buffer lies outside the addresses of the DMA engine. -/
  | addressRange
  deriving DecidableEq, Repr

namespace ControllerError

/-- The number of the cause. -/
def code : ControllerError → Int
  | invalidParameter => -1
  | tooManyIrqs => -2
  | busy => -3
  | resetTimeout => -4
  | clockUnstable => -5
  | lineBusy => -6
  | clockService => -7
  | powerFailed => -8
  | resetControl => -9
  | allocationFailed => -10
  | addressRange => -11

/-- Every cause, in the order of the numbers. -/
def all : List ControllerError :=
  [invalidParameter, tooManyIrqs, busy, resetTimeout, clockUnstable, lineBusy, clockService,
    powerFailed, resetControl, allocationFailed, addressRange]

end ControllerError

/-- Why a clock, power or reset service refused. -/
inductive ServiceError where
  /-- The service did not answer. -/
  | noResponse
  /-- The service refused. -/
  | rejected
  /-- The service does not know the clock, device or reset line. -/
  | unknownId
  deriving DecidableEq, Repr

/-- The name of the cause in reports. -/
def ServiceError.name : ServiceError → String
  | noResponse => "NoResponse"
  | rejected => "Rejected"
  | unknownId => "UnknownId"

end SdHost
