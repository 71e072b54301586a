import SdHost.Bench.Basic
import SdHost.Controller.Memory
import SdHost.Controller.Reset
import SdHost.Controller.Submission
import SdHost.Platform.BringUp

/-!
# Sessions on a bench

A session is a shared controller on a bench, used step by step.

* `CommandSource`, `Session.obtain` — where the command of a step comes from: a description, or a
  slot in which a callback or an earlier step has left one;
* `Step`, `Outcome`, `Session.step` — the steps, what each shows, and what it does;
* `Session.start` — takes a controller over;
* `Session.view` — what is looked at after every step.
-/

namespace SdHost.Bench

/-! ### Descriptions of commands -/

/-- Where the data of a command is. -/
inductive BufferSource where
  /-- At a bus address, unchecked. -/
  | address (bus : UInt32)
  /-- In a region at a bus address. -/
  | regionAt (bus : UInt64)
  /-- In a region that was allocated before, by its number. -/
  | region (number : Nat)
  /-- In words of its own. -/
  | words (contents : List UInt32)
  deriving Repr

/-- The data phase of a command. -/
structure DataSource where
  blockSize : UInt32
  blocks : UInt32
  buffer : BufferSource
  deriving Repr

/-- Where a command comes from. -/
inductive CommandSource where
  /-- A new command, with its index replaced after it was made. -/
  | fresh (command : Command) (index : Option UInt8) (data : Option DataSource)
  /-- The command in a slot, with its response replaced. -/
  | slot (number : Nat) (response : Option Response)
  deriving Repr

/-- Why a step has no command. -/
inductive SourceError where
  | emptySlot
  | data (cause : ControllerError)
  deriving DecidableEq, Repr

/-- A shared controller on a bench. -/
structure Session where
  shared : SharedController
  bench : Bench
  /-- The regions that were allocated. -/
  regions : Array DmaRegion := #[]

namespace Session

/-- A buffer as described; buffers of words are numbered in turn. -/
def obtainBuffer (s : Session) : BufferSource → Except ControllerError (Buffer × Session)
  | .address bus => .ok (.dma bus, s)
  | .regionAt bus => do
    let region : DmaRegion := ⟨bus, bus, 0⟩
    return (← Buffer.ofRegion region, s)
  | .region number => do
    let some region := s.regions[number]? | .error .invalidParameter
    return (← Buffer.ofRegion region, s)
  | .words contents =>
    let id := s.bench.buffers.size
    .ok (.words id contents,
      { s with bench := { s.bench with buffers := s.bench.buffers.push contents } })

/-- The command of a step. -/
def obtain (s : Session) : CommandSource → Except SourceError (Command × Session)
  | .slot number response =>
    match s.bench.takeSlot number with
    | none => .error .emptySlot
    | some (command, bench) =>
      let command := match response with
        | some words => { command with response := words }
        | none => command
      .ok (command, { s with bench := bench })
  | .fresh command index data =>
    let command := match index with
      | some i => { command with index := i }
      | none => command
    match data with
    | none => .ok (command, s)
    | some d =>
      match s.obtainBuffer d.buffer with
      | .error e => .error (.data e)
      | .ok (buffer, s) => .ok (command.withData ⟨d.blockSize, d.blocks, buffer⟩, s)

/-! ### Steps -/

/-- One step of a session. -/
inductive Step where
  | poke (p : Poke)
  | send (source : CommandSource) (slot : Nat)
  | submit (source : CommandSource) (slot : Nat) (withCallback : Bool)
  | sendAsync (source : CommandSource) (slot : Nat)
  | onDone (token : Nat) (reactions : List Reaction)
  | interrupt (irq : UInt32)
  | lockedInterrupt (irq : UInt32)
  | poll (times : Nat)
  | resetCommand (slot : Nat)
  | reset
  | setOperational
  | isPending (ticket : Ticket)
  | irq (number : Nat)
  | drives (millivolts : UInt32)
  | voltages (card : UInt32)
  | presentState
  | capabilities
  | config
  | dump
  | read (register : Register)
  | write (register : Register) (value : UInt32)
  | allocate (size : UInt64)
  | release (number : Nat)
  | powerOn
  | setVerbosity (v : Log.Verbosity)
  | buffer (number : Nat)

/-- What the hardware says it can do, looked at in this order. -/
structure CapabilityReport where
  dma : Bool
  adma : Bool
  highSpeed : Bool
  largestBlock : UInt32
  card : Bool
  writeProtected : Bool
  separateMixer : Bool
  deriving DecidableEq, Repr

/-- What a step shows. -/
inductive Outcome where
  | nothing
  | flag (b : Bool)
  | number (n : Option UInt32)
  | finished (result : Except ControllerError Unit)
  /-- How a submission went, and with which command it came back. -/
  | submitted (result : Except SubmitError (Option Command))
  /-- A submission without a limit was not followed to its end. -/
  | unfinished
  | noCommand (cause : SourceError)
  | command (c : Command)
  | locked (first second served : Bool)
  | capabilities (report : CapabilityReport)
  | config (c : Config)
  | region (result : Except ControllerError (Nat × DmaRegion))
  | poweredOn (result : Except ControllerError Unit) (irq : Option UInt32)
  | words (contents : List UInt32)

/-- Runs an action on the bench. -/
def perform {α : Type} (s : Session) (a : Action α) : α × Session :=
  let (x, bench) := s.bench.perform a
  (x, { s with bench := bench })

/-- Uses the controller exclusively for an action that changes it. -/
def hold {α : Type} (s : Session) (f : Controller → Action (α × Controller)) : α × Session :=
  let ((x, c), s) := s.perform (f s.shared.controller)
  (x, { s with shared := s.shared.unlock c })

/-- The callback of every command that has one. -/
def callback : Callback := ⟨0⟩

/-- What a submission shows; a command that came back is kept in the slot. -/
def settle (s : Session) (slot : Nat) (result : Except SubmitError (Option Command)) :
    Outcome × Session :=
  let back := match result with
    | .ok command => command
    | .error e => e.command?
  let s := match back with
    | some command => { s with bench := s.bench.keep slot command }
    | none => s
  (.submitted result, s)

/-- The controller's own submission of a command with or without a callback. -/
def submitCommand (budget : Nat) (s : Session) (command : Command) (slot : Nat)
    (withCallback : Bool) : Outcome × Session :=
  let handler := if withCallback then some callback else none
  match s.hold fun c => c.submit budget command handler slot with
  | (some result, s) => s.settle slot result
  | (none, s) => (.unfinished, s)

/-- Submits the command of a step. -/
def submitFrom (budget : Nat) (s : Session) (source : CommandSource) (slot : Nat)
    (withCallback : Bool) : Outcome × Session :=
  match s.obtain source with
  | .error e => (.noCommand e, s)
  | .ok (command, s) => s.submitCommand budget command slot withCallback

/-- Serves the controller so many times. -/
def poll (s : Session) : Nat → Session
  | 0 => s
  | times + 1 => ((s.hold fun c => return ((), ← c.handleInterrupt)).2).poll times

/-- Looks at the words of a buffer: those of the queued command that has it, else as it was last
handed back. -/
def bufferWords (s : Session) (number : Nat) : List UInt32 :=
  let queued := s.shared.controller.queue.entries.findSome? fun e =>
    match e.command.data with
    | some ⟨_, _, .words id contents⟩ => if id = number then some contents else none
    | _ => none
  queued.getD (s.bench.buffers.getD number [])

/-- Asks the hardware what it can do. -/
def askCapabilities (c : Controller) : Action CapabilityReport := do
  let dma ← Capabilities.supportsDma
  let adma ← Capabilities.supportsAdma
  let highSpeed ← Capabilities.supportsHighSpeed
  let largestBlock ← Capabilities.largestBlock
  let card ← cardPresent
  let writeProtected ← cardWriteProtected
  return ⟨dma, adma, highSpeed, largestBlock, card, writeProtected, c.version.hasSeparateMixer⟩

/-- An interrupt while the controller is held by its user, who also tries to lock it again. -/
def interruptWhileHeld (s : Session) (irq : UInt32) : Outcome × Session :=
  let first := s.shared.lock?
  let held := match first with
    | some (_, held) => held
    | none => s.shared
  let ((served, _), s) := s.perform (held.onInterrupt irq)
  (.locked first.isSome held.lock?.isSome served, s)

/-- Carries out one step.  A submission without a poll limit is followed for `budget` polls. -/
def step (budget : Nat) (s : Session) : Step → Outcome × Session
  | .poke p =>
    let (found, bench) := s.bench.poke p
    (match found with
      | some word => .number (some word)
      | none => .nothing, { s with bench := bench })
  | .send source slot => s.submitFrom budget source slot false
  | .submit source slot withCallback => s.submitFrom budget source slot withCallback
  | .sendAsync source slot => s.submitFrom budget source slot true
  | .onDone token reactions => (.nothing, { s with bench := s.bench.onDone token reactions })
  | .interrupt irq =>
    let ((served, shared), s) := s.perform (s.shared.onInterrupt irq)
    (.flag served, { s with shared := shared })
  | .lockedInterrupt irq => s.interruptWhileHeld irq
  | .poll times => (.nothing, s.poll times)
  | .resetCommand slot =>
    match s.bench.takeSlot slot with
    | none => (.noCommand .emptySlot, s)
    | some (command, bench) =>
      (.command command.reset, { s with bench := bench.keep slot command.reset })
  | .reset =>
    let (result, s) := s.hold Controller.reset
    (.finished result, s)
  | .setOperational =>
    let (result, s) := s.perform s.shared.controller.setOperational.run
    (.finished result, s)
  | .isPending ticket => (.flag (s.shared.controller.isPending ticket), s)
  | .irq number => (.number (s.shared.controller.irq? number), s)
  | .drives millivolts =>
    let (yes, s) := s.perform (Capabilities.drives millivolts)
    (.flag yes, s)
  | .voltages card =>
    let (window, s) := s.perform (s.shared.controller.offeredVoltages card)
    (.number (some window), s)
  | .presentState =>
    let (word, s) := s.perform Register.presentState.read
    (.number (some word), s)
  | .capabilities =>
    let (found, s) := s.perform (askCapabilities s.shared.controller)
    (.capabilities found, s)
  | .config => (.config s.shared.controller.config, s)
  | .dump => (.nothing, (s.perform Controller.dumpRegisters).2)
  | .read r =>
    let (word, s) := s.perform r.read
    (.number (some word), s)
  | .write r value => (.nothing, (s.perform (r.write value)).2)
  | .allocate size =>
    match s.perform (Controller.allocateRegion size).run with
    | (.ok region, s) =>
      (.region (.ok (s.regions.size, region)), { s with regions := s.regions.push region })
    | (.error e, s) => (.region (.error e), s)
  | .release number =>
    match s.regions[number]? with
    | some region => (.nothing, (s.perform (Controller.releaseRegion region)).2)
    | none => (.nothing, s)
  | .powerOn =>
    let platform := s.shared.controller.platform
    let (result, s) := s.perform platform.powerOn.run
    (.poweredOn result platform.irq?, s)
  | .setVerbosity v => (.nothing, { s with bench := { s.bench with verbosity := v } })
  | .buffer number => (.words (s.bufferWords number), s)

/-- Takes over the controller of a bench. -/
def start (bench : Bench) (platform : Platform) (irqs : List UInt32) (config : Config) :
    Except ControllerError Session × Bench :=
  match bench.perform (Controller.takeOver platform irqs config).run with
  | (.ok c, bench) => (.ok { shared := { controller := c }, bench := bench }, bench)
  | (.error e, bench) => (.error e, bench)

/-- The trace since the last time, and the session with an empty one. -/
def takeTrace (s : Session) : Trace × Session :=
  (s.bench.trace, { s with bench := { s.bench with trace := #[] } })

/-- What is looked at after every step: the commands queued, the latched status, the events not
latched yet and the words not read yet. -/
def view (s : Session) : Nat × UInt32 × Nat × Nat :=
  (s.shared.controller.pending, s.bench.registers.storedAt Register.interruptStatus,
    s.bench.registers.events.length, s.bench.registers.received.length)

/-- The words of every buffer. -/
def allBuffers (s : Session) : List (List UInt32) :=
  (List.range s.bench.buffers.size).map s.bufferWords

end Session

end SdHost.Bench
