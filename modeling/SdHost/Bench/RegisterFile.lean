import SdHost.Interrupt.Status
import SdHost.Register.Map

/-!
# A register file to test against

A register file stands in for the hardware.  It stores a word for each register, latches one
event at a time in the interrupt status, and lets resets and clocks settle at once unless told
otherwise.

* `RegisterFile.read`, `RegisterFile.write` — one access, with its effect;
* `settle` — what becomes of a word written to the system control register;
* `Poke` — what a tester does to the registers from behind.

A *plain* register file only stores: nothing latches, settles or is scripted.
-/

namespace SdHost.Bench

/-- A stand-in for the registers of a controller. -/
structure RegisterFile where
  /-- The stored words, by register. -/
  stored : Array UInt32
  /-- The register file only stores. -/
  plain : Bool := false
  /-- Status words that are latched one after the other. -/
  events : List UInt32 := []
  /-- Words that the data buffer has for the host. -/
  received : List UInt32 := []
  /-- Words that the host has put into the data buffer. -/
  sent : Array UInt32 := #[]
  /-- Values that the next reads of a register give, by register. -/
  scripts : Array (List UInt32)
  /-- Software resets never end. -/
  stuckReset : Bool := false
  /-- The wake-up of the card never ends. -/
  stuckWakeUp : Bool := false
  /-- The command line is never free. -/
  stuckLines : Bool := false
  /-- The internal clock never becomes stable. -/
  clockNeverStable : Bool := false
  deriving Repr

namespace RegisterFile

/-- The number of registers in the window. -/
def registers : Nat := Register.windowSize / 4

/-- The place of a register in the file. -/
def place (r : Register) : Nat := r.offset / 4

/-- The word stored for a register. -/
def storedAt (f : RegisterFile) (r : Register) : UInt32 := f.stored.getD (place r) 0

/-- Stores a word for a register. -/
def store (f : RegisterFile) (r : Register) (value : UInt32) : RegisterFile :=
  { f with stored := f.stored.setIfInBounds (place r) value }

/-- The register file of a version 3 controller with a card in the slot. -/
def initial : RegisterFile :=
  { stored := Array.replicate registers 0, scripts := Array.replicate registers [] : RegisterFile }
    |>.store Register.hostVersion 0x00020000
    |>.store Register.capabilities 0x05420000
    |>.store Register.presentState 0x00010008

/-! ### Accesses -/

/-- The words `register ↦ script`: what the next read gives, if it is scripted. -/
def takeScripted (f : RegisterFile) (r : Register) : Option (UInt32 × RegisterFile) :=
  match f.scripts.getD (place r) [] with
  | [] => none
  | v :: rest => some (v, { f with scripts := f.scripts.setIfInBounds (place r) rest })

/-- The interrupt status, after the next event has been latched if none is. -/
def readStatus (f : RegisterFile) : UInt32 × RegisterFile :=
  let latched := f.storedAt Register.interruptStatus
  match f.events with
  | event :: rest =>
    if latched == 0 then (event, { f with events := rest }.store Register.interruptStatus event)
    else (latched, f)
  | [] => (latched, f)

/-- The next word of the data buffer, zero if there is none. -/
def readBuffer (f : RegisterFile) : UInt32 × RegisterFile :=
  match f.received with
  | word :: rest => (word, { f with received := rest })
  | [] => (0, f)

/-- A read by the side effects of the register. -/
def readLive (f : RegisterFile) (r : Register) : UInt32 × RegisterFile :=
  if r = Register.interruptStatus then f.readStatus
  else if r = Register.bufferAccess then f.readBuffer
  else if r = Register.presentState && f.stuckLines then (f.storedAt r ||| 1, f)
  else (f.storedAt r, f)

/-- One read. -/
def read (f : RegisterFile) (r : Register) : UInt32 × RegisterFile :=
  if f.plain then (f.storedAt r, f)
  else
    match f.takeScripted r with
    | some scripted => scripted
    | none => f.readLive r

/-- What a word written to the system control register becomes: resets and the wake-up end at once
unless they are stuck, and the internal clock is stable as soon as it is enabled. -/
def settle (f : RegisterFile) (value : UInt32) : UInt32 :=
  let ended := value &&& ~~~(SystemControl.resetCommand.mask ||| SystemControl.resetData.mask)
  let ended := if f.stuckReset then ended else ended &&& ~~~SystemControl.resetAll.mask
  let ended := if f.stuckWakeUp then ended else ended &&& ~~~SystemControl.wakeCard.mask
  if SystemControl.internalClockEnable.isSet ended && !f.clockNeverStable then
    ended ||| SystemControl.internalClockStable.mask
  else ended &&& ~~~SystemControl.internalClockStable.mask

/-- A write by the side effects of the register. -/
def writeLive (f : RegisterFile) (r : Register) (value : UInt32) : RegisterFile :=
  if r = Register.interruptStatus then f.store r (f.storedAt r &&& ~~~value)
  else if r = Register.systemControl then f.store r (f.settle value)
  else if r = Register.bufferAccess then { f with sent := f.sent.push value }
  else f.store r value

/-- One write. -/
def write (f : RegisterFile) (r : Register) (value : UInt32) : RegisterFile :=
  if f.plain then f.store r value else f.writeLive r value

/-- The registers that store a nonzero word, by their offsets. -/
def nonzero (f : RegisterFile) : List (Nat × UInt32) :=
  (f.stored.toList.zipIdx.filter (·.1 != 0)).map fun (value, i) => (4 * i, value)

end RegisterFile

/-! ### From behind -/

/-- What a tester does to the registers from behind. -/
inductive Poke where
  /-- Stores a word. -/
  | set (register : Register) (value : UInt32)
  /-- Looks at a stored word. -/
  | get (register : Register)
  /-- Adds events to be latched. -/
  | events (words : List UInt32)
  /-- Adds words to the data buffer. -/
  | receive (words : List UInt32)
  /-- Scripts the next reads of a register. -/
  | script (register : Register) (value : UInt32) (count : Nat)
  | stuckReset (on : Bool)
  | stuckWakeUp (on : Bool)
  | stuckLines (on : Bool)
  | clockNeverStable (on : Bool)
  deriving Repr

/-- Does something to the registers from behind; only a look has a result. -/
def Poke.apply (p : Poke) (f : RegisterFile) : Option UInt32 × RegisterFile :=
  match p with
  | .set r value => (none, f.store r value)
  | .get r => (some (f.storedAt r), f)
  | .events words => (none, { f with events := f.events ++ words })
  | .receive words => (none, { f with received := f.received ++ words })
  | .script r value count =>
    let place := RegisterFile.place r
    let script := f.scripts.getD place [] ++ List.replicate count value
    (none, { f with scripts := f.scripts.setIfInBounds place script })
  | .stuckReset on => (none, { f with stuckReset := on })
  | .stuckWakeUp on => (none, { f with stuckWakeUp := on })
  | .stuckLines on => (none, { f with stuckLines := on })
  | .clockNeverStable on => (none, { f with clockNeverStable := on })

end SdHost.Bench
