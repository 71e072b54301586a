import SdHost.Dma
import SdHost.Interrupt.Status

/-!
# Commands

A command is what the host sends to the card: an index, an argument, the response it expects and,
for some, a data phase.  The same value carries the answer back: the response words, how the
command ended and which error bits were seen.

* `Direction.ofIndex` — which way a command's data goes;
* `DataPhase.validate` — whether the controller can carry out a data phase;
* `Completion` — how a command ended, and its number;
* `Command` — the command; `succeed` keeps an earlier failure, `fail` replaces any ending, and
  `reset` makes a finished command as good as new.

The words of a buffer for programmed transfers travel with the command, so whoever holds the
command holds its data.
-/

namespace SdHost

/-! ### Kinds of command -/

/-- The response that a command expects. -/
inductive ResponseKind where
  | none
  | r1
  | r1b
  | r2
  | r3
  | r4
  | r5
  | r5b
  | r6
  deriving DecidableEq, Repr

/-- Which way data goes. -/
inductive Direction where
  /-- From card to host. -/
  | read
  /-- From host to card. -/
  | write
  deriving DecidableEq, Repr

namespace CommandIndex

/-- Ends a transfer. -/
def stopTransmission : UInt8 := 12
/-- Reads one block. -/
def readSingleBlock : UInt8 := 17
/-- Reads several blocks. -/
def readMultipleBlock : UInt8 := 18
/-- Writes one block. -/
def writeBlock : UInt8 := 24
/-- Writes several blocks. -/
def writeMultipleBlock : UInt8 := 25

/-- The commands whose data goes from card to host: function switch, extended card data, card
status, the block reads, both tuning blocks, blocks written, write protection and configuration
register. -/
def readers : List UInt8 := [6, 8, 13, readSingleBlock, readMultipleBlock, 19, 21, 22, 30, 51]

end CommandIndex

/-- The way that the data of command `index` goes. -/
def Direction.ofIndex (index : UInt8) : Direction :=
  if index ∈ CommandIndex.readers then .read else .write

/-! ### Data phases -/

/-- Where the data of a command comes from or goes to. -/
inductive Buffer where
  /-- The DMA engine moves the data at a bus address. -/
  | dma (address : UInt32)
  /-- The processor moves the data word by word; `id` is the owner's name for the buffer. -/
  | words (id : Nat) (contents : List UInt32)
  deriving DecidableEq, Repr

namespace Buffer

/-- A buffer in a region of DMA memory. -/
def ofRegion (region : DmaRegion) : Except ControllerError Buffer :=
  region.busAddress.map .dma

/-- Whether the DMA engine moves the data. -/
def isDma : Buffer → Bool
  | .dma _ => true
  | .words _ _ => false

/-- The words of a buffer that the processor fills or empties. -/
def contents? : Buffer → Option (List UInt32)
  | .dma _ => Option.none
  | .words _ contents => some contents

end Buffer

/-- The data phase of a command: `blocks` blocks of `blockSize` bytes each. -/
structure DataPhase where
  blockSize : UInt32
  blocks : UInt32
  buffer : Buffer
  deriving DecidableEq, Repr

namespace DataPhase

/-- The largest block count that the block attributes hold. -/
def maxBlocks : UInt32 := 0xFFFF

/-- The words of one block. -/
def blockWords (d : DataPhase) : Nat := (d.blockSize / 4).toNat

/-- Whether the buffer has a word for every word that the processor moves. -/
def bufferSuffices (d : DataPhase) : Bool :=
  match d.buffer with
  | .dma _ => true
  | .words _ contents => d.blockWords * d.blocks.toNat ≤ contents.length

/-- Checks a data phase against the largest block that the controller accepts: blocks of whole
words, not longer than that; at least one block and not more than the register counts; and room
for all of it. -/
def validate (maxBlockLength : UInt32) (d : DataPhase) : Except ControllerError Unit :=
  if d.blockSize == 0 || d.blockSize % 4 != 0 || d.blockSize > maxBlockLength then
    .error .invalidParameter
  else if d.blocks == 0 || d.blocks > maxBlocks then
    .error .invalidParameter
  else if !d.bufferSuffices then
    .error .invalidParameter
  else
    .ok ()

end DataPhase

/-! ### Completion -/

/-- How a command ended. -/
inductive Completion where
  | pending
  | succeeded
  | failed (cause : CommandError)
  deriving DecidableEq, Repr

namespace Completion

/-- Zero before the end, one after success, the cause's number after failure. -/
def code : Completion → Int
  | pending => 0
  | succeeded => 1
  | failed cause => cause.code

/-- Whether the command has not ended. -/
def isPending : Completion → Bool
  | pending => true
  | _ => false

/-- The ending, or nothing before it. -/
def result : Completion → Option (Except CommandError Unit)
  | pending => Option.none
  | succeeded => some (.ok ())
  | failed cause => some (.error cause)

/-- The ending as it is handed to the submitter; no ending reads as a failed transfer. -/
def verdict (c : Completion) : Except CommandError Unit := c.result.getD (.error .transfer)

end Completion

/-- The four response words. -/
structure Response where
  word0 : UInt32 := 0
  word1 : UInt32 := 0
  word2 : UInt32 := 0
  word3 : UInt32 := 0
  deriving DecidableEq, Repr

/-- The response words in order. -/
def Response.toList (r : Response) : List UInt32 := [r.word0, r.word1, r.word2, r.word3]

/-! ### Commands -/

/-- A command and what came of it. -/
structure Command where
  index : UInt8
  argument : UInt32
  responseKind : ResponseKind
  data : Option DataPhase := Option.none
  response : Response := {}
  completion : Completion := .pending
  errors : InterruptStatus := .empty
  deriving DecidableEq, Repr

namespace Command

/-- A command without data, with the index cut off to its six bits. -/
def new (index : UInt8) (argument : UInt32) (responseKind : ResponseKind) : Command :=
  { index := index &&& 0x3F, argument := argument, responseKind := responseKind }

/-- The command with a data phase. -/
def withData (c : Command) (d : DataPhase) : Command := { c with data := some d }

/-- A finished command made ready to be submitted again. -/
def reset (c : Command) : Command :=
  { c with response := {}, completion := .pending, errors := .empty }

/-- The way the command's data goes. -/
def direction (c : Command) : Direction := Direction.ofIndex c.index

/-- Whether the DMA engine moves the command's data. -/
def usesDma (c : Command) : Bool := c.data.any (·.buffer.isDma)

/-- Whether the processor moves the command's data. -/
def usesWords (c : Command) : Bool := c.data.any (!·.buffer.isDma)

/-- The number of buffer events that the data phase raises: one for each block that the processor
moves. -/
def blocksToMove (c : Command) : Nat :=
  match c.data with
  | some d => if d.buffer.isDma then 0 else d.blocks.toNat
  | Option.none => 0

/-- Adds error bits that were seen while the command was on the wire. -/
def recordErrors (c : Command) (errors : InterruptStatus) : Command :=
  { c with errors := c.errors ||| errors }

/-- Ends the command well, unless it has ended. -/
def succeed (c : Command) : Command :=
  if c.completion.isPending then { c with completion := .succeeded } else c

/-- Ends the command badly. -/
def fail (c : Command) (cause : CommandError) : Command :=
  { c with completion := .failed cause }

end Command

end SdHost
