import SdHost.Text.Hex

/-!
# Interrupt status words

One 32-bit word carries every event the controller can report; the same layout selects which
events are latched and which raise the interrupt line.

* the named bits, and `InterruptStatus.flags`, their table from the lowest bit to the highest;
* `contains`, `intersects` — all bits of a set, any bit of a set;
* `ambient`, `completion`, `bufferReady`, `errors`, `informational` — the sets that the command
  engine distinguishes;
* `describe` — a word as text: the named bits, then the rest as one number.
-/

namespace SdHost

/-- A word of interrupt status bits; bits without a name are kept. -/
structure InterruptStatus where
  bits : UInt32
  deriving DecidableEq, Repr

namespace InterruptStatus

instance : OrOp InterruptStatus := ⟨fun a b => ⟨a.bits ||| b.bits⟩⟩

instance : AndOp InterruptStatus := ⟨fun a b => ⟨a.bits &&& b.bits⟩⟩

@[simp] theorem bits_or (a b : InterruptStatus) : (a ||| b).bits = a.bits ||| b.bits := rfl

@[simp] theorem bits_and (a b : InterruptStatus) : (a &&& b).bits = a.bits &&& b.bits := rfl

/-- The word with bit `n` alone. -/
def bit (n : UInt32) : InterruptStatus := ⟨1 <<< n⟩

/-- No event. -/
def empty : InterruptStatus := ⟨0⟩

/-- Whether no bit is set. -/
def isEmpty (s : InterruptStatus) : Bool := s.bits == 0

/-- Whether every bit of `t` is set. -/
def contains (s t : InterruptStatus) : Bool := s.bits &&& t.bits == t.bits

/-- Whether some bit of `t` is set. -/
def intersects (s t : InterruptStatus) : Bool := s.bits &&& t.bits != 0

/-! ### Named bits -/

/-- The command is complete. -/
def commandComplete : InterruptStatus := bit 0
/-- The transfer is complete. -/
def transferComplete : InterruptStatus := bit 1
/-- The transfer stopped at a gap between blocks. -/
def blockGap : InterruptStatus := bit 2
/-- The DMA engine reports. -/
def dmaInterrupt : InterruptStatus := bit 3
/-- The data buffer accepts a block. -/
def bufferWriteReady : InterruptStatus := bit 4
/-- The data buffer holds a block. -/
def bufferReadReady : InterruptStatus := bit 5
/-- A card was put in. -/
def cardInsertion : InterruptStatus := bit 6
/-- The card was taken out. -/
def cardRemoval : InterruptStatus := bit 7
/-- The card reports. -/
def cardInterrupt : InterruptStatus := bit 8
/-- The clock should be tuned again. -/
def retuning : InterruptStatus := bit 12
/-- Tuning passed. -/
def tuningPass : InterruptStatus := bit 14
/-- Some error. -/
def errorSummary : InterruptStatus := bit 15
/-- No response arrived. -/
def commandTimeout : InterruptStatus := bit 16
/-- The response had a wrong checksum. -/
def commandCrc : InterruptStatus := bit 17
/-- The response had no end bit. -/
def commandEndBit : InterruptStatus := bit 18
/-- The response named another command. -/
def commandIndex : InterruptStatus := bit 19
/-- Data did not arrive in time. -/
def dataTimeout : InterruptStatus := bit 20
/-- A data block had a wrong checksum. -/
def dataCrc : InterruptStatus := bit 21
/-- A data block had no end bit. -/
def dataEndBit : InterruptStatus := bit 22
/-- The bus drew more current than allowed. -/
def overcurrent : InterruptStatus := bit 23
/-- The automatic stop command failed. -/
def autoStop : InterruptStatus := bit 24
/-- The descriptor DMA engine failed. -/
def adma : InterruptStatus := bit 25
/-- Tuning failed. -/
def tuning : InterruptStatus := bit 26
/-- The DMA engine failed. -/
def dma : InterruptStatus := bit 28

/-- The named bits under their mnemonics, from the lowest to the highest. -/
def flags : List (String × InterruptStatus) :=
  [("CC", commandComplete), ("TC", transferComplete), ("BGE", blockGap),
    ("DINT", dmaInterrupt), ("BWR", bufferWriteReady), ("BRR", bufferReadReady),
    ("CINS", cardInsertion), ("CRM", cardRemoval), ("CINT", cardInterrupt), ("RTE", retuning),
    ("TP", tuningPass), ("ERR", errorSummary), ("CTOE", commandTimeout), ("CCE", commandCrc),
    ("CEBE", commandEndBit), ("CIE", commandIndex), ("DTOE", dataTimeout), ("DCE", dataCrc),
    ("DEBE", dataEndBit), ("OVRCURE", overcurrent), ("AC12E", autoStop), ("ADMAE", adma),
    ("TNE", tuning), ("DMAE", dma)]

/-! ### Sets -/

/-- Every named bit. -/
def known : InterruptStatus := flags.foldl (fun s f => s ||| f.2) empty

/-- The errors and card events that are enabled at all times. -/
def ambient : InterruptStatus :=
  adma ||| overcurrent ||| dataEndBit ||| dataCrc ||| dataTimeout ||| cardRemoval |||
    cardInsertion ||| commandIndex ||| commandEndBit ||| commandCrc ||| commandTimeout

/-- The events that complete a command or its data phase. -/
def completion : InterruptStatus := transferComplete ||| commandComplete

/-- The events that ask for one block of a programmed transfer. -/
def bufferReady : InterruptStatus := bufferReadReady ||| bufferWriteReady

/-- Every bit that reports a failure. -/
def errors : InterruptStatus :=
  errorSummary ||| commandTimeout ||| commandCrc ||| commandEndBit ||| commandIndex |||
    dataTimeout ||| dataCrc ||| dataEndBit ||| overcurrent ||| autoStop ||| adma ||| tuning |||
    dma

/-- The events that are only reported. -/
def informational : InterruptStatus :=
  tuningPass ||| retuning ||| cardInterrupt ||| cardInsertion ||| dmaInterrupt ||| blockGap

/-- Only the named bits. -/
def truncated (s : InterruptStatus) : InterruptStatus := s &&& known

/-- The named bits that are not set. -/
def complement (s : InterruptStatus) : InterruptStatus := ⟨~~~s.bits &&& known.bits⟩

/-- Whether every set bit has a name. -/
def isKnown (s : InterruptStatus) : Bool := s.bits &&& ~~~known.bits == 0

/-! ### Text -/

/-- The parts of `s` in text: the mnemonics of its named bits, then its other bits together. -/
def parts (s : InterruptStatus) : List String :=
  let names := (flags.filter fun f => s.contains f.2).map Prod.fst
  let rest := s.bits &&& ~~~known.bits
  if rest == 0 then names else names ++ [Text.hex rest.toNat]

/-- A status word as text. -/
def describe (s : InterruptStatus) : String :=
  let shown := if s.isEmpty then [Text.hex 0] else s.parts
  "IntStatus(" ++ String.intercalate " | " shown ++ ")"

example : ambient.bits = 0x02ff00c0 ∧ completion.bits = 0x3 ∧ bufferReady.bits = 0x30 := by
  decide

end InterruptStatus

end SdHost
