import SdHost.Bench.RegisterFile
import SdHost.Platform.BringUp
import SdHost.Proofs.Operation
import SdHost.SharedController

/-!
# Calls and their answers

Two runs of the same calls are compared by what the calls come back with, so here every call keeps
its answer.

* `Reply`, `Controller.answer` — what an operation comes back with;
* `Controller.operate_eq_answer` — the operation as it is elsewhere, which drops some answers;
* `Call`, `Controller.call` — an operation, an interrupt for a shared controller, power, or a write
  past the driver;
* `Controller.callAll`, `Controller.session` — calls one after the other, and from taking over on;
* `Request.lasting`, `doings` — what is done to the surroundings: everything but reads and the log;
* `Bench.RegisterFile.answer` — hardware to run sessions on.
-/

namespace SdHost

/-- What a call comes back with. -/
inductive Reply where
  | nothing
  | flag (b : Bool)
  | word (w : UInt32)
  | region (result : Except ControllerError DmaRegion)
  | finished (result : Except ControllerError Unit)
  /-- A submission; there is no result while it still polls. -/
  | submitted (result : Option (Except SubmitError (Option Command)))
  deriving DecidableEq

/-- Asks, and keeps the answer. -/
def Query.answer (c : Controller) : Query → Action Reply
  | supportsDma => return .flag (← Capabilities.supportsDma)
  | supportsAdma => return .flag (← Capabilities.supportsAdma)
  | supportsHighSpeed => return .flag (← Capabilities.supportsHighSpeed)
  | largestBlock => return .word (← Capabilities.largestBlock)
  | drives millivolts => return .flag (← Capabilities.drives millivolts)
  | cardPresent => return .flag (← SdHost.cardPresent)
  | cardWriteProtected => return .flag (← SdHost.cardWriteProtected)
  | offeredVoltages card => return .word (← c.offeredVoltages card)
  | dumpRegisters => do
    Controller.dumpRegisters
    return .nothing
  | allocate size => return .region (← (Controller.allocateRegion size).run)
  | release region => do
    Controller.releaseRegion region
    return .nothing
  | register r => return .word (← r.read)

namespace Controller

/-- Makes a call, and keeps its answer. -/
def answer (budget : Nat) (c : Controller) : Operation → Action (Reply × Controller)
  | .send command => do
    let (result, c) ← c.send budget command
    return (.submitted (result.map (·.map some)), c)
  | .sendAsync command callback token => do
    let (result, c) ← c.sendAsync command callback token
    return (.submitted (some (result.map fun _ => none)), c)
  | .submit command callback token => do
    let (result, c) ← c.submit budget command callback token
    return (.submitted result, c)
  | .handleInterrupt => return (.nothing, ← c.handleInterrupt)
  | .handleInterruptLine irq => return (.nothing, ← c.handleInterruptLine irq)
  | .reset => do
    let (result, c) ← c.reset
    return (.finished result, c)
  | .setOperational => do
    let result ← c.setOperational.run
    return (.finished result, c)
  | .query q => return (← q.answer c, c)

end Controller

/-- The answer as the outcome of a step of a run. -/
def Reply.outcome? : Reply → Option Outcome
  | submitted result => result.map .submitted
  | _ => some .finished

/-- **An operation** is the call without some of its answer. -/
theorem Controller.operate_eq_answer (budget : Nat) (c : Controller) (op : Operation) :
    c.operate budget op = c.answer budget op >>= fun r => pure (r.1.outcome?, r.2) := by
  cases op with
  | query q =>
    cases q <;>
      simp only [operate, answer, Query.ask, Query.answer, bind_assoc, pure_bind, Reply.outcome?]
  | _ => simp only [operate, answer, bind_assoc, pure_bind, Reply.outcome?, Option.map_some,
      Option.map_map, Function.comp_def]

/-! ### Any calls -/

/-- What the owner of a controller can call, also when it is shared. -/
inductive Call where
  | operation (op : Operation)
  /-- An interrupt on a line, while the controller is in use or not. -/
  | interrupt (irq : UInt32) (inUse : Bool)
  | powerOn
  /-- Writes a register past the driver. -/
  | write (r : Register) (value : UInt32)

namespace Controller

/-- Makes a call. -/
def call (budget : Nat) (c : Controller) : Call → Action (Reply × Controller)
  | .operation op => c.answer budget op
  | .interrupt irq inUse => do
    let (served, shared) ← SharedController.onInterrupt ⟨c, inUse⟩ irq
    return (.flag served, shared.controller)
  | .powerOn => do
    let result ← c.platform.powerOn.run
    return (.finished result, c)
  | .write r value => do
    r.write value
    return (.nothing, c)

/-- Makes calls one after the other. -/
def callAll (budget : Nat) (c : Controller) : List Call → Action (List Reply × Controller)
  | [] => return ([], c)
  | call :: calls => do
    let (reply, c) ← c.call budget call
    let (replies, c) ← c.callAll budget calls
    return (reply :: replies, c)

/-- Takes a controller over and makes calls. -/
def session (budget : Nat) (platform : Platform) (irqs : List UInt32) (config : Config)
    (calls : List Call) : Action (Except ControllerError (List Reply × Controller)) := do
  match ← (takeOver platform irqs config).run with
  | .ok c => return .ok (← c.callAll budget calls)
  | .error e => return .error e

end Controller

/-! ### What is done -/

/-- Something is done to the surroundings: no register is just read, and the log is not
concerned. -/
def Request.lasting : Request → Bool
  | read _ => false
  | keeps _ => false
  | report _ => false
  | _ => true

/-- What is done to the surroundings, with what comes back. -/
def doings (es : List Exchange) : List Exchange := es.filter (·.question.lasting)

theorem doings_append (first second : List Exchange) :
    doings (first ++ second) = doings first ++ doings second :=
  List.filter_append first second

/-! ### Hardware to look at -/

/-- A register file with nothing scripted, as hardware to run sessions on; no service
is there. -/
def Bench.RegisterFile.answer : Dialogue.Surroundings Request.Answer Bench.RegisterFile
  | .read r, f => f.readLive r
  | .write r value, f => ((), f.writeLive r value)
  | .delay _, f => ((), f)
  | .baseClock _, f => (.ok 0, f)
  | .power _ _, f => (true, f)
  | .assertReset _, f => (.ok (), f)
  | .deassertReset _, f => (.ok (), f)
  | .allocate _ _, f => (none, f)
  | .release _ _, f => ((), f)
  | .keeps _, f => (false, f)
  | .report _, f => ((), f)
  | .handBack _ _, f => ((), f)

theorem Bench.RegisterFile.look_answer (f : Bench.RegisterFile) :
    (answer (.read Register.presentState) f).2 = f := by
  show (f.readLive Register.presentState).2 = f
  unfold readLive
  rw [if_neg (by decide), if_neg (by decide)]
  split <;> rfl

end SdHost
