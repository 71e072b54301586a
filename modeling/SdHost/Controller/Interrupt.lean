import SdHost.Controller.Dispatch
import SdHost.Interrupt.Classify

/-!
# Serving an interrupt

One pass reads the latched status, acknowledges it and advances the head of the queue:

* an error bit fails the head at once;
* command complete captures the response, and ends a command without data;
* a buffer event moves one block;
* a command with data ends once both its response and its data phase have ended, in either order.

A finished command leaves the queue, the next one is started, and only then is the finished one
handed back.

* `Command.captureResponse`, `Entry.moveBlock` — the response words and one block of data;
* `Entry.advance` — what a status word does to the head;
* `Controller.handleInterrupt` — the whole pass, also for polling;
* `Controller.handleInterruptLine` — the same behind the test for the controller's own lines.
-/

namespace SdHost

open Register

/-! ### Response and data -/

/-- Reads the response registers: all four words of a long response, the last word of a stop
command that waits for the card, else the first word. -/
def Command.captureResponse (c : Command) : Action Command :=
  match c.responseKind with
  | .none => return c
  | .r2 => do
    let word0 ← response0.read
    let word1 ← response1.read
    let word2 ← response2.read
    let word3 ← response3.read
    return { c with response := ⟨word0, word1, word2, word3⟩ }
  | .r1b => do
    if c.index == CommandIndex.stopTransmission then
      return { c with response := { c.response with word3 := ← response3.read } }
    else
      return { c with response := { c.response with word0 := ← response0.read } }
  | _ => return { c with response := { c.response with word0 := ← response0.read } }

/-- Reads words out of the data buffer, behind those read before in reverse. -/
def readWords : Nat → List UInt32 → Action (List UInt32)
  | 0, got => return got.reverse
  | count + 1, got => do readWords count ((← bufferAccess.read) :: got)

/-- Writes words into the data buffer. -/
def writeWords : List UInt32 → Action Unit
  | [] => return ()
  | w :: rest => do
    bufferAccess.write w
    writeWords rest

/-- Moves one block between the data buffer of the hardware and the words of a command. -/
def Entry.moveBlock (e : Entry) : Action Entry :=
  match e.command.data with
  | some d =>
    match d.buffer with
    | .words id contents => do
      let first := e.wordOffset
      let stop := min (first + d.blockWords) contents.length
      let contents ← match e.command.direction with
        | .read => do
          let got ← readWords (stop - first) []
          pure (contents.take first ++ got ++ contents.drop stop)
        | .write => do
          writeWords ((contents.drop first).take (stop - first))
          pure contents
      report (.wordsMoved e.command.index first stop)
      let d := { d with buffer := .words id contents }
      return { e with command := { e.command with data := some d }, wordOffset := stop }
    | .dma _ => return e
  | none => return e

/-! ### Progress of the head -/

/-- What a status word has done to the head of the queue. -/
structure Progress where
  entry : Entry
  /-- Blocks that the processor still has to move. -/
  blocks : Nat
  /-- The command has ended. -/
  ended : Bool
  deriving DecidableEq

namespace Entry

open InterruptStatus

/-- Fails the head; a response that came along with the error is kept. -/
def failWith (e : Entry) (status : InterruptStatus) (cause : CommandError) : Action Entry := do
  let command := e.command.recordErrors (status &&& (errors ||| cardRemoval))
  let command ←
    if status.contains commandComplete then command.captureResponse else pure command
  report (.commandFailed command.index cause status)
  return { e with command := command.fail cause }

/-- Takes the response in. -/
def receiveResponse (e : Entry) : Action Entry :=
  return { e with command := ← e.command.captureResponse, commandDone := true }

/-- Moves a block if one is due; the result is the head and the blocks that remain. -/
def serveBuffer (e : Entry) (blocks : Nat) : Action (Entry × Nat) := do
  if 0 < blocks && e.command.usesWords then
    return (← e.moveBlock, blocks - 1)
  else
    report (.unexpectedBufferReady e.command.index)
    return (e, blocks)

/-- Notes the end of the data phase, if there is one. -/
def endTransfer (e : Entry) : Action Entry := do
  if e.command.data.isSome then
    unless e.commandDone do
      report (.transferBeforeResponse e.command.index)
    return { e with dataDone := true }
  else return e

/-- Ends the head well if both its response and its data phase have ended. -/
def conclude (e : Entry) (blocks : Nat) : Action Progress := do
  if e.commandDone && e.dataDone then
    if 0 < blocks then
      report (.blocksUntransferred e.command.index blocks)
    return ⟨{ e with command := e.command.succeed }, blocks, true⟩
  else return ⟨e, blocks, false⟩

/-- What a status word without errors does to the head. -/
def proceed (e : Entry) (status : InterruptStatus) (blocks : Nat) : Action Progress := do
  let e ← if status.contains commandComplete then e.receiveResponse else pure e
  if status.contains commandComplete && e.command.data.isNone then
    return ⟨{ e with command := e.command.succeed }, blocks, true⟩
  else
    let (e, blocks) ←
      if status.intersects bufferReady then e.serveBuffer blocks else pure (e, blocks)
    let e ← if status.contains transferComplete then e.endTransfer else pure e
    e.conclude blocks

/-- What a status word does to the head. -/
def advance (e : Entry) (status : InterruptStatus) (blocks : Nat) : Action Progress :=
  match status.classify with
  | some cause => return ⟨← e.failWith status cause, blocks, true⟩
  | none => e.proceed status blocks

end Entry

/-! ### The pass -/

namespace Controller

open InterruptStatus

/-- Reports the events that are only reported. -/
def reportInformational (status : InterruptStatus) : Action Unit := do
  let seen := status &&& informational
  unless seen.isEmpty do
    report (.statusReported seen)
    if seen.contains cardInsertion then
      report .cardInserted

/-- Takes a finished head off the queue, starts the next command and hands the finished one
back. -/
def complete (c : Controller) (e : Entry) : Action Controller := do
  let (failed, c) ← { c with queue := c.queue.tail, blocksRemaining := 0 }.issueHead
  let c ← c.deliver e
  let c ← match failed with
    | some f => c.deliver f
    | none => pure c
  c.dispatch

/-- Advances the head by a status word; without a head the word is dropped. -/
def serve (c : Controller) (status : InterruptStatus) : Action Controller :=
  match c.queue.head? with
  | none => do
    if status.intersects (errors ||| completion ||| bufferReady) then
      report (.spurious status)
    return c
  | some head => do
    let progress ← head.advance status c.blocksRemaining
    if progress.ended then c.complete progress.entry
    else
      return { c with
        queue := c.queue.modifyHead fun _ => progress.entry
        blocksRemaining := progress.blocks }

/-- Serves the controller: reads the latched status, acknowledges it and acts on it. -/
def handleInterrupt (c : Controller) : Action Controller := do
  let status ← latchedStatus
  if status.isEmpty then return c
  else
    acknowledge status
    reportInformational status
    c.serve status

/-- Serves an interrupt on a line, if the line is the controller's. -/
def handleInterruptLine (c : Controller) (irq : UInt32) : Action Controller :=
  if irq ∈ c.irqs then c.handleInterrupt
  else do
    report (.foreignInterrupt irq)
    return c

end Controller

end SdHost
