import SdHost.Platform.Basic

/-!
# Starting a command

To start a command the controller's registers are programmed for it, the transfer type last,
since writing that register starts the command.

* `Command.interruptMask` — the events that are latched while the command runs;
* `Command.transferFields`, `DataPhase.mixerFields` — what the command says in the transfer type
  and in the transfer mode;
* `Command.transferWord` — the word written to start it: where the transfer mode has no register
  of its own, it rides in the low half;
* `Command.issue` — the whole sequence: the lines are awaited first, and a line that stays busy
  ends it before anything but the event mask is written.
-/

namespace SdHost

open Register

/-! ### What the registers say -/

/-- The fields that say which response is expected and how it is checked. -/
def ResponseKind.fields : ResponseKind → FieldValue transferType
  | none => TransferType.noResponse
  | r2 => TransferType.longResponse + TransferType.crcCheck.set
  | r3 | r4 => TransferType.shortResponse
  | r1 | r5 | r6 =>
    TransferType.shortResponse + TransferType.indexCheck.set + TransferType.crcCheck.set
  | r1b | r5b =>
    TransferType.shortBusyResponse + TransferType.indexCheck.set + TransferType.crcCheck.set

namespace DataPhase

/-- The size and number of the blocks. -/
def attributes (d : DataPhase) : FieldValue blockAttributes :=
  BlockAttributes.size.put d.blockSize + BlockAttributes.count.put d.blocks

/-- The data timeout of every command, which stands for 2^27 periods of the SD clock. -/
def timeout : UInt32 := 0xE

/-- The level of a buffer event: one block, at most what the buffer accepts. -/
def watermarkLevel (d : DataPhase) : UInt32 := min (d.blockSize / 4) Watermark.maxLevel

/-- The level in the field of the direction. -/
def watermarkFields (d : DataPhase) : Direction → FieldValue watermark
  | .read => Watermark.readLevel.put d.watermarkLevel
  | .write => Watermark.writeLevel.put d.watermarkLevel

/-- The transfer mode. -/
def mixerFields (d : DataPhase) (direction : Direction) : FieldValue mixerControl :=
  MixerControl.blockCountEnable.set + MixerControl.multiBlock.flag (d.blocks > 1)
    + MixerControl.readDirection.flag (direction = .read)
    + MixerControl.dmaEnable.flag d.buffer.isDma

end DataPhase

namespace Command

/-- The events latched while the command runs: buffer events only if the processor moves its
data. -/
def interruptMask (c : Command) : InterruptStatus :=
  if c.usesWords then
    InterruptStatus.ambient ||| InterruptStatus.completion ||| InterruptStatus.bufferReady
  else InterruptStatus.ambient ||| InterruptStatus.completion

/-- The command in the transfer type register, without the transfer mode. -/
def transferFields (c : Command) : FieldValue transferType :=
  TransferType.commandIndex.put c.index.toUInt32 + TransferType.normalCommand
    + c.responseKind.fields + TransferType.dataPresent.flag c.data.isSome

/-- The transfer mode that rides in the transfer type register. -/
def sharedMixerBits (version : SpecVersion) (c : Command) : UInt32 :=
  match c.data with
  | some d =>
    if version.hasSeparateMixer then 0
    else (d.mixerFields c.direction).value &&& MixerControl.sharedMask
  | none => 0

/-- The word that starts the command. -/
def transferWord (version : SpecVersion) (c : Command) : UInt32 :=
  c.transferFields.value ||| c.sharedMixerBits version

/-! ### The sequence -/

/-- Programs the data phase. -/
def programData (version : SpecVersion) (direction : Direction) (d : DataPhase) :
    Action Unit := do
  Register.modify (SystemControl.dataTimeout.put DataPhase.timeout)
  blockAttributes.write d.attributes.value
  watermark.write (d.watermarkFields direction).value
  if let .dma address := d.buffer then
    dmaAddress.write address
  if version.hasSeparateMixer then
    mixerControl.write (d.mixerFields direction).value

/-- Waits until the lines are free and no data line is active. -/
def awaitLines (spinLimit : Nat) (c : Command) : ExceptT CommandError Action Unit := do
  unless ← waitFor spinLimit linesFree do
    report (.inhibitNeverCleared c.index)
    throw .controllerBusy
  unless ← waitFor spinLimit dataLineQuiet do
    report (.dataLineStillActive c.index)
    throw .controllerBusy

/-- Programs the registers once the lines are free, and starts the command. -/
def start (platform : Platform) (version : SpecVersion) (c : Command) : Action Unit := do
  delay platform.commandGap
  report (.commandStarted c.index c.argument)
  commandArgument.write c.argument
  if let some d := c.data then
    programData version c.direction d
  transferType.write (c.transferWord version)

/-- Starts the command; the result is the number of blocks that the processor will move. -/
def issue (platform : Platform) (version : SpecVersion) (spinLimit : Nat) (c : Command) :
    ExceptT CommandError Action Nat := do
  interruptStatusEnable.write c.interruptMask.bits
  c.awaitLines spinLimit
  c.start platform version
  return c.blocksToMove

end Command

end SdHost
