import SdHost.Register.Field

/-!
# The register map

The registers of a 32-bit wide SD host controller, their fields, and the encoded values that
have names.  A register's fields stand in a namespace of the register's own name.

* `Register.diagnostic` — the registers that can be read without a side effect, with their
  data-sheet mnemonics;
* `Layout`, `Layout.all` — the fields of each register under their mnemonics.
-/

namespace SdHost

namespace Register

/-- Bus address of the data buffer for single-descriptor DMA. -/
def dmaAddress : Register := ⟨0x00⟩
/-- Block size and block count. -/
def blockAttributes : Register := ⟨0x04⟩
/-- Argument of the command. -/
def commandArgument : Register := ⟨0x08⟩
/-- Index and kind of the command; writing it starts the command. -/
def transferType : Register := ⟨0x0C⟩
/-- First response word. -/
def response0 : Register := ⟨0x10⟩
/-- Second response word. -/
def response1 : Register := ⟨0x14⟩
/-- Third response word. -/
def response2 : Register := ⟨0x18⟩
/-- Last response word. -/
def response3 : Register := ⟨0x1C⟩
/-- Window through which programmed transfers move the data words, one at a time. -/
def bufferAccess : Register := ⟨0x20⟩
/-- State of the lines and of the card slot. -/
def presentState : Register := ⟨0x24⟩
/-- Bus width, card detection and DMA selection. -/
def protocolControl : Register := ⟨0x28⟩
/-- Clock, data timeout and resets. -/
def systemControl : Register := ⟨0x2C⟩
/-- Latched interrupt status; writing a one acknowledges it. -/
def interruptStatus : Register := ⟨0x30⟩
/-- Status bits that are latched at all. -/
def interruptStatusEnable : Register := ⟨0x34⟩
/-- Status bits that raise the interrupt line. -/
def interruptSignalEnable : Register := ⟨0x38⟩
/-- Why an automatic stop command failed. -/
def autoStopError : Register := ⟨0x3C⟩
/-- What the controller can do. -/
def capabilities : Register := ⟨0x40⟩
/-- Fill level of the data buffer that raises a buffer event. -/
def watermark : Register := ⟨0x44⟩
/-- Transfer mode, where it has a register of its own. -/
def mixerControl : Register := ⟨0x48⟩
/-- Forces status bits. -/
def forceEvent : Register := ⟨0x50⟩
/-- Where a descriptor DMA failed. -/
def admaErrorStatus : Register := ⟨0x54⟩
/-- Address of the DMA descriptors. -/
def admaAddress : Register := ⟨0x58⟩
/-- Control of the delay line. -/
def delayLineControl : Register := ⟨0x60⟩
/-- State of the delay line. -/
def delayLineStatus : Register := ⟨0x64⟩
/-- Clock tuning. -/
def clockTuning : Register := ⟨0x68⟩
/-- Vendor specific control. -/
def vendorSpecific : Register := ⟨0xC0⟩
/-- Boot mode of an MMC device. -/
def mmcBoot : Register := ⟨0xC4⟩
/-- More vendor specific control. -/
def vendorSpecific2 : Register := ⟨0xC8⟩
/-- Version of the controller. -/
def hostVersion : Register := ⟨0xFC⟩

/-- Size of the register window in bytes. -/
def windowSize : Nat := 0x100

/-- The registers that can be read without a side effect, in the order of a register dump. -/
def diagnostic : List (String × Register) :=
  [("DS_ADDR", dmaAddress), ("BLK_ATT", blockAttributes), ("CMD_ARG", commandArgument),
    ("CMD_XFR_TYP", transferType), ("CMD_RSP0", response0), ("CMD_RSP1", response1),
    ("CMD_RSP2", response2), ("CMD_RSP3", response3), ("PRES_STATE", presentState),
    ("PROT_CTRL", protocolControl), ("SYS_CTRL", systemControl),
    ("INT_STATUS", interruptStatus), ("INT_STATUS_EN", interruptStatusEnable),
    ("INT_SIGNAL_EN", interruptSignalEnable), ("AUTOCMD12_ERR_STATUS", autoStopError),
    ("HOST_CTRL_CAP", capabilities), ("WTMK_LVL", watermark), ("MIX_CTRL", mixerControl),
    ("FORCE_EVENT", forceEvent), ("ADMA_ERR_STATUS", admaErrorStatus),
    ("ADMA_SYS_ADDR", admaAddress), ("DLL_CTRL", delayLineControl),
    ("DLL_STATUS", delayLineStatus), ("CLK_TUNE_CTRL_STATUS", clockTuning),
    ("VEND_SPEC", vendorSpecific), ("HOST_VERSION", hostVersion)]

end Register

open Register

/-! ### Block attributes -/

namespace BlockAttributes

/-- Bytes per block. -/
def size : Field blockAttributes := { shift := 0, width := 13 }
/-- Number of blocks. -/
def count : Field blockAttributes := { shift := 16, width := 16 }

end BlockAttributes

/-! ### Transfer type -/

namespace TransferType

/-- Data moves by DMA. -/
def dmaEnable : Field transferType := { shift := 0, width := 1 }
/-- The block count is observed. -/
def blockCountEnable : Field transferType := { shift := 1, width := 1 }
/-- The controller sends the stop command by itself. -/
def autoStopEnable : Field transferType := { shift := 2, width := 1 }
/-- Data moves from card to host. -/
def readDirection : Field transferType := { shift := 4, width := 1 }
/-- More than one block moves. -/
def multiBlock : Field transferType := { shift := 5, width := 1 }
/-- Length of the expected response. -/
def responseLength : Field transferType := { shift := 16, width := 2 }
/-- The response's CRC is checked. -/
def crcCheck : Field transferType := { shift := 19, width := 1 }
/-- The response's command index is checked. -/
def indexCheck : Field transferType := { shift := 20, width := 1 }
/-- The command has a data phase. -/
def dataPresent : Field transferType := { shift := 21, width := 1 }
/-- Normal, suspend, resume or abort command. -/
def commandType : Field transferType := { shift := 22, width := 2 }
/-- Command index. -/
def commandIndex : Field transferType := { shift := 24, width := 6 }

/-- No response is expected. -/
def noResponse : FieldValue transferType := responseLength.put 0
/-- A response of 136 bits is expected. -/
def longResponse : FieldValue transferType := responseLength.put 1
/-- A response of 48 bits is expected. -/
def shortResponse : FieldValue transferType := responseLength.put 2
/-- A response of 48 bits is expected and the card may hold the data line after it. -/
def shortBusyResponse : FieldValue transferType := responseLength.put 3

/-- An ordinary command. -/
def normalCommand : FieldValue transferType := commandType.put 0
/-- A command that suspends a transfer. -/
def suspendCommand : FieldValue transferType := commandType.put 1
/-- A command that resumes a transfer. -/
def resumeCommand : FieldValue transferType := commandType.put 2
/-- A command that ends a transfer. -/
def abortCommand : FieldValue transferType := commandType.put 3

end TransferType

/-! ### Present state -/

namespace PresentState

/-- The command line is held. -/
def commandInhibit : Field presentState := { shift := 0, width := 1 }
/-- The data lines are held. -/
def dataInhibit : Field presentState := { shift := 1, width := 1 }
/-- A data line is active. -/
def dataLineActive : Field presentState := { shift := 2, width := 1 }
/-- The SD clock is stable. -/
def clockStable : Field presentState := { shift := 3, width := 1 }
/-- A write is in progress. -/
def writeActive : Field presentState := { shift := 8, width := 1 }
/-- A read is in progress. -/
def readActive : Field presentState := { shift := 9, width := 1 }
/-- The data buffer accepts words. -/
def bufferWriteEnable : Field presentState := { shift := 10, width := 1 }
/-- The data buffer holds words. -/
def bufferReadEnable : Field presentState := { shift := 11, width := 1 }
/-- A card is in the slot. -/
def cardInserted : Field presentState := { shift := 16, width := 1 }
/-- Level of the card detection pin. -/
def cardDetectLevel : Field presentState := { shift := 18, width := 1 }
/-- Level of the write protection switch; one is read-only. -/
def writeProtectLevel : Field presentState := { shift := 19, width := 1 }
/-- Levels of the eight data lines. -/
def dataLineLevels : Field presentState := { shift := 24, width := 8 }

end PresentState

/-! ### Protocol control -/

namespace ProtocolControl

/-- The LED. -/
def led : Field protocolControl := { shift := 0, width := 1 }
/-- Width of the data bus. -/
def dataWidth : Field protocolControl := { shift := 1, width := 2 }
/-- The third data line detects the card. -/
def dataLineDetect : Field protocolControl := { shift := 3, width := 1 }
/-- Byte order of the data buffer. -/
def byteOrder : Field protocolControl := { shift := 4, width := 2 }
/-- Kind of DMA. -/
def dmaSelect : Field protocolControl := { shift := 8, width := 2 }

/-- One data line. -/
def oneBit : FieldValue protocolControl := dataWidth.put 0
/-- Four data lines. -/
def fourBit : FieldValue protocolControl := dataWidth.put 1
/-- Eight data lines. -/
def eightBit : FieldValue protocolControl := dataWidth.put 2
/-- Single-descriptor DMA. -/
def simpleDma : FieldValue protocolControl := dmaSelect.put 0
/-- Descriptor DMA, first form. -/
def adma1 : FieldValue protocolControl := dmaSelect.put 1
/-- Descriptor DMA, second form. -/
def adma2 : FieldValue protocolControl := dmaSelect.put 2

end ProtocolControl

/-! ### System control -/

namespace SystemControl

/-- The internal clock runs. -/
def internalClockEnable : Field systemControl := { shift := 0, width := 1 }
/-- The internal clock is stable. -/
def internalClockStable : Field systemControl := { shift := 1, width := 1 }
/-- The SD clock runs. -/
def cardClockEnable : Field systemControl := { shift := 2, width := 1 }
/-- Divisor of a uSDHC, less one. -/
def divisor : Field systemControl := { shift := 4, width := 4 }
/-- The two upper bits of a ten-bit clock divider. -/
def dividerUpper : Field systemControl := { shift := 6, width := 2 }
/-- Clock divider, or prescaler of a uSDHC. -/
def frequencySelect : Field systemControl := { shift := 8, width := 8 }
/-- Data timeout, as a power of two of SD clocks. -/
def dataTimeout : Field systemControl := { shift := 16, width := 4 }
/-- Resets the whole controller. -/
def resetAll : Field systemControl := { shift := 24, width := 1 }
/-- Resets the command line. -/
def resetCommand : Field systemControl := { shift := 25, width := 1 }
/-- Resets the data lines. -/
def resetData : Field systemControl := { shift := 26, width := 1 }
/-- Sends the clocks that wake a card. -/
def wakeCard : Field systemControl := { shift := 27, width := 1 }

end SystemControl

/-! ### Capabilities -/

namespace Capabilities

/-- Largest block: 512 bytes, doubled this many times. -/
def maxBlockLength : Field capabilities := { shift := 16, width := 2 }
/-- Descriptor DMA. -/
def adma : Field capabilities := { shift := 20, width := 1 }
/-- High speed. -/
def highSpeed : Field capabilities := { shift := 21, width := 1 }
/-- DMA. -/
def dma : Field capabilities := { shift := 22, width := 1 }
/-- Suspend and resume. -/
def suspendResume : Field capabilities := { shift := 23, width := 1 }
/-- Cards at 3.3 volts. -/
def volts33 : Field capabilities := { shift := 24, width := 1 }
/-- Cards at 3.0 volts. -/
def volts30 : Field capabilities := { shift := 25, width := 1 }
/-- Cards at 1.8 volts. -/
def volts18 : Field capabilities := { shift := 26, width := 1 }

end Capabilities

/-! ### Watermark, mixer and version -/

namespace Watermark

/-- Watermark of reads, in words. -/
def readLevel : Field watermark := { shift := 0, width := 8 }
/-- Watermark of writes, in words. -/
def writeLevel : Field watermark := { shift := 16, width := 8 }

/-- The largest level the data buffer accepts, in words. -/
def maxLevel : UInt32 := 0x80

end Watermark

namespace MixerControl

/-- Data moves by DMA. -/
def dmaEnable : Field mixerControl := { shift := 0, width := 1 }
/-- The block count is observed. -/
def blockCountEnable : Field mixerControl := { shift := 1, width := 1 }
/-- The controller sends the stop command by itself. -/
def autoStopEnable : Field mixerControl := { shift := 2, width := 1 }
/-- Data moves on both clock edges. -/
def doubleDataRate : Field mixerControl := { shift := 3, width := 1 }
/-- Data moves from card to host. -/
def readDirection : Field mixerControl := { shift := 4, width := 1 }
/-- More than one block moves. -/
def multiBlock : Field mixerControl := { shift := 5, width := 1 }

/-- The mixer bits that fit into the low half of the transfer type. -/
def sharedMask : UInt32 := 0x3F

end MixerControl

namespace HostVersion

/-- Version of the specification, counted from zero. -/
def specification : Field hostVersion := { shift := 16, width := 8 }
/-- Version of the vendor. -/
def vendor : Field hostVersion := { shift := 24, width := 8 }

end HostVersion

/-! ### Layouts -/

/-- The fields of one register, from the lowest declared to the highest, under their
mnemonics. -/
structure Layout where
  mnemonic : String
  register : Register
  fields : List (String × Field register)

namespace Layout

/-- The field called `name`. -/
def field? (l : Layout) (name : String) : Option (Field l.register) := l.fields.lookup name

/-- Layout of the block attributes. -/
def blockAttributes : Layout :=
  ⟨"BLK_ATT", Register.blockAttributes,
    [("BLKSIZE", BlockAttributes.size), ("BLKCNT", BlockAttributes.count)]⟩

/-- Layout of the transfer type. -/
def transferType : Layout :=
  ⟨"CMD_XFR_TYP", Register.transferType,
    [("DMAEN", TransferType.dmaEnable), ("BCEN", TransferType.blockCountEnable),
      ("AC12EN", TransferType.autoStopEnable), ("DTDSEL", TransferType.readDirection),
      ("MSBSEL", TransferType.multiBlock), ("RSPTYP", TransferType.responseLength),
      ("CCCEN", TransferType.crcCheck), ("CICEN", TransferType.indexCheck),
      ("DPSEL", TransferType.dataPresent), ("CMDTYP", TransferType.commandType),
      ("CMDINX", TransferType.commandIndex)]⟩

/-- Layout of the present state. -/
def presentState : Layout :=
  ⟨"PRES_STATE", Register.presentState,
    [("CIHB", PresentState.commandInhibit), ("CDIHB", PresentState.dataInhibit),
      ("DLA", PresentState.dataLineActive), ("SDSTB", PresentState.clockStable),
      ("WTA", PresentState.writeActive), ("RTA", PresentState.readActive),
      ("BWEN", PresentState.bufferWriteEnable), ("BREN", PresentState.bufferReadEnable),
      ("CINST", PresentState.cardInserted), ("CDPL", PresentState.cardDetectLevel),
      ("WPSPL", PresentState.writeProtectLevel), ("DLSL", PresentState.dataLineLevels)]⟩

/-- Layout of the protocol control. -/
def protocolControl : Layout :=
  ⟨"PROT_CTRL", Register.protocolControl,
    [("LCTL", ProtocolControl.led), ("DTW", ProtocolControl.dataWidth),
      ("D3CD", ProtocolControl.dataLineDetect), ("EMODE", ProtocolControl.byteOrder),
      ("DMASEL", ProtocolControl.dmaSelect)]⟩

/-- Layout of the system control. -/
def systemControl : Layout :=
  ⟨"SYS_CTRL", Register.systemControl,
    [("CLK_INT_EN", SystemControl.internalClockEnable),
      ("CLK_INT_STABLE", SystemControl.internalClockStable),
      ("CLK_CARD_EN", SystemControl.cardClockEnable), ("DVS", SystemControl.divisor),
      ("SDCLK_UPPER", SystemControl.dividerUpper), ("SDCLKS", SystemControl.frequencySelect),
      ("DTOCV", SystemControl.dataTimeout), ("RSTA", SystemControl.resetAll),
      ("RSTC", SystemControl.resetCommand), ("RSTD", SystemControl.resetData),
      ("INITA", SystemControl.wakeCard)]⟩

/-- Layout of the capabilities. -/
def capabilities : Layout :=
  ⟨"HOST_CTRL_CAP", Register.capabilities,
    [("MBL", Capabilities.maxBlockLength), ("ADMAS", Capabilities.adma),
      ("HSS", Capabilities.highSpeed), ("DMAS", Capabilities.dma),
      ("SRS", Capabilities.suspendResume), ("VS33", Capabilities.volts33),
      ("VS30", Capabilities.volts30), ("VS18", Capabilities.volts18)]⟩

/-- Layout of the watermark. -/
def watermark : Layout :=
  ⟨"WTMK_LVL", Register.watermark,
    [("RD_WML", Watermark.readLevel), ("WR_WML", Watermark.writeLevel)]⟩

/-- Layout of the mixer control. -/
def mixerControl : Layout :=
  ⟨"MIX_CTRL", Register.mixerControl,
    [("DMAEN", MixerControl.dmaEnable), ("BCEN", MixerControl.blockCountEnable),
      ("AC12EN", MixerControl.autoStopEnable), ("DDR_EN", MixerControl.doubleDataRate),
      ("DTDSEL", MixerControl.readDirection), ("MSBSEL", MixerControl.multiBlock)]⟩

/-- Layout of the host version. -/
def hostVersion : Layout :=
  ⟨"HOST_VERSION", Register.hostVersion,
    [("SVN", HostVersion.specification), ("VVN", HostVersion.vendor)]⟩

/-- Every register that has named fields. -/
def all : List Layout :=
  [blockAttributes, transferType, presentState, protocolControl, systemControl, capabilities,
    watermark, mixerControl, hostVersion]

/-- The layout of the register called `mnemonic`. -/
def named? (mnemonic : String) : Option Layout := all.find? (·.mnemonic == mnemonic)

end Layout

end SdHost
