import SdHost.Bench.RegisterFile
import SdHost.Bench.Trace
import SdHost.SharedController

/-!
# A test bench

A bench is surroundings for the driver: registers, a clock and power service, an allocator, a log
and a tester whose callbacks keep what they are given and react to it.

* `Bench` — the state of the surroundings, with the trace of what happened;
* `Bench.answer` — how each request is answered;
* `Bench.reply` — the same, with the tester's callbacks and their reactions.
-/

namespace SdHost

/-- A clock, power and reset service with fixed answers. -/
structure Bench.Service where
  baseClock : Except ServiceError UInt32 := .ok 200000000
  powerOk : Bool := true
  assertReset : Except ServiceError Unit := .ok ()
  deassertReset : Except ServiceError Unit := .ok ()

/-- What a tester's callback does when it has been called. -/
inductive Bench.Reaction where
  /-- Does something to the registers from behind. -/
  | poke (p : Bench.Poke)
  /-- Raises an interrupt. -/
  | interrupt (irq : UInt32)
  /-- Tries to lock the controller. -/
  | lock
  deriving Repr

/-- Surroundings to test the driver in. -/
structure Bench where
  registers : Bench.RegisterFile := Bench.RegisterFile.initial
  service : Bench.Service := {}
  allocator : DmaAllocator := .none
  verbosity : Log.Verbosity := .off
  tracing : Bench.Tracing := .writes
  trace : Bench.Trace := #[]
  /-- Commands that the tester keeps, by slot. -/
  slots : List (Nat × Command) := []
  /-- What callbacks do, by token. -/
  reactions : List (Nat × List Bench.Reaction) := []
  /-- The words of every buffer as they were last handed back, by the number of the buffer. -/
  buffers : Array (List UInt32) := #[]

namespace Bench

/-- Adds to the trace. -/
def note (b : Bench) (e : TraceEntry) : Bench := { b with trace := b.trace.add e }

/-- Keeps a command in a slot. -/
def keep (b : Bench) (slot : Nat) (c : Command) : Bench :=
  { b with slots := (slot, c) :: b.slots.filter (·.1 != slot) }

/-- Takes the command out of a slot. -/
def takeSlot (b : Bench) (slot : Nat) : Option (Command × Bench) :=
  (b.slots.lookup slot).map (·, { b with slots := b.slots.filter (·.1 != slot) })

/-- Replaces what callbacks with a token do. -/
def onDone (b : Bench) (token : Nat) (rs : List Reaction) : Bench :=
  { b with reactions := (token, rs) :: b.reactions.filter (·.1 != token) }

/-- Does something to the registers from behind. -/
def poke (b : Bench) (p : Poke) : Option UInt32 × Bench :=
  let (found, registers) := p.apply b.registers
  (found, { b with registers := registers })

/-- Takes note of the words of a buffer. -/
def noteBuffer (b : Bench) : Buffer → Bench
  | .dma _ => b
  | .words id contents => { b with buffers := b.buffers.setIfInBounds id contents }

/-! ### Answers -/

/-- Answers a read. -/
def readRegister (b : Bench) (r : Register) : UInt32 × Bench :=
  let (value, registers) := b.registers.read r
  let b := { b with registers := registers }
  (value, if b.tracing.listsReads then { b with trace := b.trace.addRead r value } else b)

/-- Carries out a write. -/
def writeRegister (b : Bench) (r : Register) (value : UInt32) : Bench :=
  let b := { b with registers := b.registers.write r value }
  if b.tracing.listsWrites then b.note (.wrote r value) else b

/-- Keeps a report, if its level is kept. -/
def logMessage (b : Bench) (m : Log.Message) : Bench :=
  if b.verbosity.admits m.level then b.note (.logged m.record.line) else b

/-- Hands out DMA memory. -/
def allocate (b : Bench) (size alignment : UInt64) : Option DmaRegion × Bench :=
  let (region, allocator) := b.allocator.allocate size alignment
  (region,
    { b with allocator := allocator }.note
      (.allocated size alignment (region.map DmaRegion.physicalAddress)))

/-- Answers a request. -/
def answer : Dialogue.Surroundings Request.Answer Bench
  | .read r, b => b.readRegister r
  | .write r value, b => ((), b.writeRegister r value)
  | .delay micros, b => ((), b.note (.delayed micros))
  | .baseClock clock, b => (b.service.baseClock, b.note (.askedClock clock))
  | .power device on, b => (b.service.powerOk, b.note (.switchedPower device on))
  | .assertReset line, b => (b.service.assertReset, b.note (.assertedReset line))
  | .deassertReset line, b => (b.service.deassertReset, b.note (.deassertedReset line))
  | .allocate size alignment, b => b.allocate size alignment
  | .release region alignment, b => ((), b.note (.released region alignment))
  | .keeps level, b => (b.verbosity.admits level, b)
  | .report m, b => ((), b.logMessage m)
  | .handBack e _, b =>
    match e.command.data with
    | some d => ((), b.noteBuffer d.buffer)
    | none => ((), b)

/-! ### Callbacks -/

/-- One reaction of a callback.  The controller is in use while a callback runs, so an interrupt is
deferred and a lock fails. -/
def react (b : Bench) : Reaction → Bench
  | .poke p => (b.poke p).2
  | .interrupt irq =>
    let (served, b) := (deferInterrupt irq).run answer b
    b.note (.raisedInterrupt served)
  | .lock => b.note (.triedLock false)

/-- The number that a callback is given: one for success, else that of the cause. -/
def verdictCode : Except CommandError Unit → Int
  | .ok () => 1
  | .error cause => cause.code

/-- A tester's callback: it notes the command, keeps it in the slot of its token and reacts. -/
def callBack (b : Bench) (e : Entry) : Bench :=
  let noted := b.note (.calledBack e.token (verdictCode e.command.completion.verdict) e.command)
  let kept := noted.keep e.token e.command
  ((kept.reactions.lookup e.token).getD []).foldl react kept

/-- Answers a request; a command that goes to a callback runs it. -/
def reply : Dialogue.Surroundings Request.Answer Bench
  | .handBack e (.callback handler), b =>
    ((), (answer (.handBack e (.callback handler)) b).2.callBack e)
  | q, b => answer q b

/-- Runs an action of the driver on the bench. -/
def perform {α : Type} (b : Bench) (a : Action α) : α × Bench := a.run reply b

end Bench

end SdHost
