import SdHost.Dialogue
import SdHost.Log.Message
import SdHost.Queue

/-!
# Actions on the hardware and its surroundings

The driver reaches the outside in a fixed number of ways, which are the questions of its
dialogues: registers, delays, the clock and power service, DMA memory, the log, and handing a
finished command back.

* `Request` — the questions, `Request.Answer` — the types of their answers;
* `Route` — how a finished command leaves: to its callback, parked for the submitter that polls
  for it, or abandoned because that submitter gave up;
* `Action` — dialogues in these questions, and one action for each;
* `waitFor` — looking at a condition until it holds, a limited number of times.
-/

namespace SdHost

/-- How a finished command leaves the engine. -/
inductive Route where
  /-- To a completion handler. -/
  | callback (handler : Callback)
  /-- To the submitter that polls for it. -/
  | parked
  /-- To nobody: its submitter has given up. -/
  | abandoned
  deriving DecidableEq, Repr

/-- What the driver asks of its surroundings. -/
inductive Request where
  /-- Reads a register. -/
  | read (register : Register)
  /-- Writes a register. -/
  | write (register : Register) (value : UInt32)
  /-- Waits for some microseconds. -/
  | delay (micros : UInt32)
  /-- Asks for the rate of a clock. -/
  | baseClock (clock : UInt32)
  /-- Switches a device on or off. -/
  | power (device : UInt32) (on : Bool)
  /-- Asserts a reset line. -/
  | assertReset (line : UInt32)
  /-- Releases a reset line. -/
  | deassertReset (line : UInt32)
  /-- Asks for DMA memory. -/
  | allocate (size alignment : UInt64)
  /-- Gives DMA memory back. -/
  | release (region : DmaRegion) (alignment : UInt64)
  /-- Asks whether records of a level are kept. -/
  | keeps (level : Log.Level)
  /-- Offers a report to the log. -/
  | report (message : Log.Message)
  /-- Hands a finished command back; a completion handler runs now. -/
  | handBack (entry : Entry) (route : Route)

/-- What a request is answered with. -/
@[reducible] def Request.Answer : Request → Type
  | read _ => UInt32
  | write _ _ => Unit
  | delay _ => Unit
  | baseClock _ => Except ServiceError UInt32
  | power _ _ => Bool
  | assertReset _ => Except ServiceError Unit
  | deassertReset _ => Except ServiceError Unit
  | allocate _ _ => Option DmaRegion
  | release _ _ => Unit
  | keeps _ => Bool
  | report _ => Unit
  | handBack _ _ => Unit

/-- A computation of the driver. -/
abbrev Action := Dialogue Request.Answer

namespace Register

/-- Reads the register. -/
def read (r : Register) : Action UInt32 := Dialogue.question (Request.read r)

/-- Writes the register. -/
def write (r : Register) (value : UInt32) : Action Unit :=
  Dialogue.question (Request.write r value)

/-- Reads one field of the register. -/
def readField {r : Register} (f : Field r) : Action UInt32 := do
  return f.get (← r.read)

/-- Reads whether a field of the register is set. -/
def reads {r : Register} (f : Field r) : Action Bool := do
  return f.isSet (← r.read)

/-- Replaces some bits of the register by reading it and writing it back. -/
def modify {r : Register} (v : FieldValue r) : Action Unit := do
  r.write (v.applyTo (← r.read))

end Register

/-- Waits for some microseconds. -/
def delay (micros : UInt32) : Action Unit := Dialogue.question (Request.delay micros)

/-- Offers a report to the log. -/
def report (m : Log.Message) : Action Unit := Dialogue.question (Request.report m)

/-- Whether records of a level are kept. -/
def keeps (level : Log.Level) : Action Bool := Dialogue.question (Request.keeps level)

/-- Hands a finished command back. -/
def handBack (e : Entry) (route : Route) : Action Unit :=
  Dialogue.question (Request.handBack e route)

/-! ### Bounded waiting -/

/-- Looks at a condition up to `tries` times, until it holds. -/
def lookUpTo {m : Type → Type} [Monad m] (condition : m Bool) : Nat → m Bool
  | 0 => pure false
  | tries + 1 => do if ← condition then pure true else lookUpTo condition tries

/-- Waits until a condition holds, looking at most `limit` times and at least once. -/
def waitFor {m : Type → Type} [Monad m] (limit : Nat) (condition : m Bool) : m Bool :=
  lookUpTo condition (max limit 1)

/-! ### Lines -/

/-- Whether the command or data lines are still held by an earlier command. -/
def linesBusy : Action Bool := do
  let state ← Register.presentState.read
  return PresentState.commandInhibit.isSet state || PresentState.dataInhibit.isSet state

/-- Whether the command and data lines are free. -/
def linesFree : Action Bool := return !(← linesBusy)

/-- Whether a data line is active. -/
def dataLineActive : Action Bool := Register.reads PresentState.dataLineActive

/-- Whether no data line is active. -/
def dataLineQuiet : Action Bool := return !(← dataLineActive)

/-- Reads the latched interrupt status. -/
def latchedStatus : Action InterruptStatus := return ⟨← Register.interruptStatus.read⟩

/-- Acknowledges status bits. -/
def acknowledge (s : InterruptStatus) : Action Unit := Register.interruptStatus.write s.bits

/-- The controller's version number, counted from zero. -/
def rawVersion : Action UInt32 := Register.readField HostVersion.specification

end SdHost
