import SdHost.Clock
import SdHost.Interrupt.Status
import SdHost.Log.Record
import SdHost.Text.Hex

/-!
# What the driver reports

Every report of the driver is a `Message`.  `Message.record` fixes its level, the part of the
driver it comes from and its wording.
-/

namespace SdHost.Log

open SdHost.Text

/-- The parts of the driver that report. -/
inductive Source where
  | controller
  | interrupts
  | dispatch
  | clock
  | host
  | platform
  | dividedClock
  | usdhc
  deriving DecidableEq, Repr

/-- The path under which a part reports. -/
def Source.path : Source → String
  | controller => "sdhc_drivers::drivers::sdhci"
  | interrupts => "sdhc_drivers::drivers::sdhci::irq"
  | dispatch => "sdhc_drivers::drivers::sdhci::dispatch"
  | clock => "sdhc_drivers::drivers::sdhci::clock"
  | host => "sdhc_drivers::drivers::sdhci::host"
  | platform => "sdhc_drivers::drivers::sdhci::platform"
  | dividedClock => "sdhc_drivers::drivers::sdhci::platform::generic"
  | usdhc => "sdhc_drivers::drivers::sdhci::platform::imx6"

/-- One report. -/
inductive Message where
  -- taking over and resetting a controller
  | tooManyIrqs (given most : Nat)
  | takenOver (platform : String) (version : SpecVersion) (irqs : Nat)
  | resetRefused (queued : Nat)
  | resetTimedOut
  | linesBusyAfterReset
  | wakeUpTimedOut
  | cardPresent (readOnly : Bool)
  | noCard
  | clockChangeRefused (queued : Nat)
  -- submissions and their ends
  | resubmitted (index : UInt8)
  | invalidData (index : UInt8)
  | gaveUp (polls : Nat)
  | abandoned (index : UInt8) (verdict : Except CommandError Unit)
  -- memory and registers
  | allocationFailed (size : UInt64)
  | regionOutOfRange (address : UInt64)
  | registerValue (mnemonic : String) (register : Register) (value : UInt32)
  -- interrupts
  | statusReported (status : InterruptStatus)
  | cardInserted
  | spurious (status : InterruptStatus)
  | commandFailed (index : UInt8) (cause : CommandError) (status : InterruptStatus)
  | unexpectedBufferReady (index : UInt8)
  | transferBeforeResponse (index : UInt8)
  | blocksUntransferred (index : UInt8) (blocks : Nat)
  | wordsMoved (index : UInt8) (first stop : Nat)
  -- starting a command
  | inhibitNeverCleared (index : UInt8)
  | dataLineStillActive (index : UInt8)
  | commandStarted (index : UInt8) (argument : UInt32)
  -- clock and power
  | dividerChosen (target base : UInt32) (divider : ClockDivider)
  | foreignInterrupt (irq : UInt32)
  | interruptDeferred (irq : UInt32)
  | powerOnFailed (device : UInt32)
  | poweredOn (device : UInt32)
  | assertResetFailed (line : UInt32) (cause : ServiceError)
  | deassertResetFailed (line : UInt32) (cause : ServiceError)
  | linesStuck
  | baseClockUnavailable (clock : UInt32) (cause : ServiceError)
  | internalClockUnstable
  | clockSet (mode : ClockMode) (base : UInt32) (divider : ClockDivider)
  | usdhcInternalClockUnstable
  | cardClockUnstable
  | usdhcClockSet (mode : ClockMode) (prescaler divisor : UInt32)

/-- The end of a command in words. -/
def verdictText : Except CommandError Unit → String
  | .ok () => "Ok(())"
  | .error cause => s!"Err({cause.name})"

/-- A word as eight digits in base 16. -/
def wordText (w : UInt32) : String := hexWide 8 w.toNat

namespace Message

/-- The record of a report. -/
def record : Message → Record
  | tooManyIrqs given most =>
    ⟨.error, Source.controller.path, s!"SDHC: {given} interrupts given, at most {most}"⟩
  | takenOver platform version irqs =>
    ⟨.info, Source.controller.path,
      s!"SDHC: {platform} controller, spec v{version.number}, {irqs} irq(s)"⟩
  | resetRefused queued =>
    ⟨.error, Source.controller.path, s!"SDHC: reset refused, {queued} command(s) queued"⟩
  | resetTimedOut => ⟨.error, Source.controller.path, "SDHC: software reset timed out"⟩
  | linesBusyAfterReset =>
    ⟨.error, Source.controller.path, "SDHC: CMD/DAT lines busy after reset"⟩
  | wakeUpTimedOut => ⟨.error, Source.controller.path, "SDHC: card init sequence timed out"⟩
  | cardPresent readOnly =>
    ⟨.info, Source.controller.path,
      "SDHC: card inserted" ++ if readOnly then " (read-only)" else ""⟩
  | noCard => ⟨.info, Source.controller.path, "SDHC: no card inserted"⟩
  | clockChangeRefused queued =>
    ⟨.error, Source.controller.path, s!"SDHC: clock change refused, {queued} command(s) queued"⟩
  | resubmitted index =>
    ⟨.error, Source.controller.path, s!"SDHC: CMD{index} resubmitted without reset"⟩
  | invalidData index =>
    ⟨.error, Source.controller.path, s!"SDHC: CMD{index} has an invalid data descriptor"⟩
  | gaveUp polls =>
    ⟨.warn, Source.controller.path, s!"SDHC: gave up waiting after {polls} polls"⟩
  | abandoned index verdict =>
    ⟨.warn, Source.controller.path,
      s!"SDHC: CMD{index} finished after its submitter gave up ({verdictText verdict})"⟩
  | allocationFailed size =>
    ⟨.error, Source.controller.path, s!"SDHC: DMA allocation of {size} bytes failed"⟩
  | regionOutOfRange address =>
    ⟨.error, Source.controller.path,
      s!"SDHC: DMA buffer at {hex address.toNat} is above 4 GiB"⟩
  | registerValue mnemonic register value =>
    ⟨.debug, Source.controller.path,
      s!"SDHC: {padRight 20 mnemonic} [{hexWide 2 register.offset}] = {wordText value}"⟩
  | statusReported status =>
    ⟨.debug, Source.interrupts.path, s!"SDHC: status {status.describe}"⟩
  | cardInserted => ⟨.info, Source.interrupts.path, "SDHC: card inserted"⟩
  | spurious status =>
    ⟨.trace, Source.interrupts.path,
      s!"SDHC: spurious interrupt {wordText status.bits} with no command"⟩
  | commandFailed index cause status =>
    ⟨.error, Source.interrupts.path,
      s!"SDHC: CMD{index} failed: {cause.name} (status {wordText status.bits})"⟩
  | unexpectedBufferReady index =>
    ⟨.warn, Source.interrupts.path, s!"SDHC: CMD{index}: unexpected buffer ready"⟩
  | transferBeforeResponse index =>
    ⟨.debug, Source.interrupts.path, s!"SDHC: CMD{index}: transfer complete before response"⟩
  | blocksUntransferred index blocks =>
    ⟨.warn, Source.interrupts.path,
      s!"SDHC: CMD{index} complete with {blocks} block(s) untransferred"⟩
  | wordsMoved index first stop =>
    ⟨.trace, Source.interrupts.path, s!"SDHC: CMD{index} PIO words {first}..{stop}"⟩
  | inhibitNeverCleared index =>
    ⟨.error, Source.dispatch.path, s!"SDHC: CMD{index}: command inhibit never cleared"⟩
  | dataLineStillActive index =>
    ⟨.error, Source.dispatch.path, s!"SDHC: CMD{index}: data line still active"⟩
  | commandStarted index argument =>
    ⟨.debug, Source.dispatch.path, s!"SDHC: CMD{index} arg {wordText argument}"⟩
  | dividerChosen target base divider =>
    ⟨.trace, Source.clock.path,
      s!"SDHC: divider for {target} Hz from {base} Hz: {hex divider.value.toNat} "
        ++ s!"(actual {divider.rate base} Hz)"⟩
  | foreignInterrupt irq => ⟨.trace, Source.host.path, s!"SDHC: irq {irq} is not ours"⟩
  | interruptDeferred irq =>
    ⟨.trace, Source.host.path, s!"SDHC: irq {irq} deferred, host in use"⟩
  | powerOnFailed device =>
    ⟨.error, Source.platform.path, s!"SDHC: device {device} did not power on"⟩
  | poweredOn device => ⟨.debug, Source.platform.path, s!"SDHC: device {device} powered on"⟩
  | assertResetFailed line cause =>
    ⟨.error, Source.platform.path, s!"SDHC: assert reset {line} failed: {cause.name}"⟩
  | deassertResetFailed line cause =>
    ⟨.error, Source.platform.path, s!"SDHC: deassert reset {line} failed: {cause.name}"⟩
  | linesStuck => ⟨.error, Source.dividedClock.path, "SDHC: CMD/DAT lines stuck busy"⟩
  | baseClockUnavailable clock cause =>
    ⟨.error, Source.dividedClock.path,
      s!"SDHC: base clock {clock} unavailable: {cause.name}"⟩
  | internalClockUnstable =>
    ⟨.error, Source.dividedClock.path, "SDHC: internal clock not stable"⟩
  | clockSet mode base divider =>
    ⟨.debug, Source.dividedClock.path,
      s!"SDHC: {mode.name} clock {divider.rate base} Hz (base {base} Hz, "
        ++ s!"divider {hex divider.bits.toNat})"⟩
  | usdhcInternalClockUnstable =>
    ⟨.error, Source.usdhc.path, "SDHC: uSDHC internal clock not stable"⟩
  | cardClockUnstable =>
    ⟨.error, Source.usdhc.path, "SDHC: SD clock unstable, refusing to change it"⟩
  | usdhcClockSet mode prescaler divisor =>
    ⟨.debug, Source.usdhc.path,
      s!"SDHC: uSDHC {mode.name} clock, prescaler {hex prescaler.toNat}, divisor {divisor}"⟩

/-- The level of a report. -/
def level (m : Message) : Level := m.record.level

end Message

end SdHost.Log
