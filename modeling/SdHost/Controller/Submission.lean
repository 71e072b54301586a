import SdHost.Controller.Interrupt

/-!
# Submitting commands

A command is accepted if it has not ended, its data phase fits the hardware and there is room.  A
refused command comes back unchanged, and the controller is as before.

* `SubmitError` — why a submission failed, with the command where there is one to give back;
* `Controller.enqueue` — accepts a command, and starts it at once if nothing is queued;
* `Controller.sendAsync` — submits with a completion handler;
* `Controller.send` — submits and polls until the command has ended, or for as often as the
  configuration allows; a command that is given up stays queued under its ticket.
-/

namespace SdHost

/-- Why a submission failed. -/
inductive SubmitError where
  /-- There is no room. -/
  | queueFull (command : Command)
  /-- The command has ended and was not reset. -/
  | notReset (command : Command)
  /-- The data phase does not fit the hardware. -/
  | invalidData (command : Command)
  /-- The command ran and failed. -/
  | failed (command : Command)
  /-- The submitter gave up; the command stays queued under its ticket. -/
  | timeout (ticket : Ticket)
  deriving DecidableEq, Repr

namespace SubmitError

/-- The number of the cause. -/
def code : SubmitError → Int
  | failed command => command.completion.code
  | queueFull _ => -16
  | notReset _ => -17
  | invalidData _ => -18
  | timeout _ => -19

/-- The command that comes back. -/
def command? : SubmitError → Option Command
  | queueFull c | notReset c | invalidData c | failed c => some c
  | timeout _ => none

end SubmitError

namespace Controller

/-- Accepts a command; the result is its ticket.  A blocking submission has no handler and becomes
the one that is polled for. -/
def enqueue (c : Controller) (command : Command) (callback : Option Callback) (token : Nat) :
    ExceptT SubmitError Action (Ticket × Controller) := do
  unless command.completion.isPending do
    report (.resubmitted command.index)
    throw (.notReset command)
  let largest ← Capabilities.largestBlock
  if command.data.any fun d => (d.validate largest).toOption.isNone then
    report (.invalidData command.index)
    throw (.invalidData command)
  match c.queue.push command callback token with
  | none => throw (.queueFull command)
  | some queue =>
    let ticket := c.queue.nextTicket
    let accepted :=
      { c with queue := queue, waiting := if callback.isNone then some ticket else c.waiting }
    if c.queue.isEmpty then
      return (ticket, ← accepted.dispatch)
    else
      return (ticket, accepted)

/-- Submits a command with a completion handler, which runs when the controller is served. -/
def sendAsync (c : Controller) (command : Command) (callback : Callback) (token : Nat) :
    Action (Except SubmitError Unit × Controller) := do
  match ← (c.enqueue command (some callback) token).run with
  | .ok (_, c) => return (.ok (), c)
  | .error e => return (.error e, c)

/-- Picks up the finished command of a submission. -/
def takeFinished (c : Controller) (ticket : Ticket) : Option (Command × Controller) :=
  match c.finished with
  | some (done, command) =>
    if done = ticket then some (command, { c with finished := none }) else none
  | none => none

/-- Serves the controller until the command of a submission has ended, at most so many times. -/
def pollUpTo (ticket : Ticket) : Nat → Controller → Action (Option Command × Controller)
  | polls, c =>
    match c.takeFinished ticket with
    | some (command, c) => return (some command, c)
    | none =>
      match polls with
      | 0 => return (none, c)
      | polls + 1 => do pollUpTo ticket polls (← c.handleInterrupt)

/-- A command that has ended, as the result of its blocking submission. -/
def resultOf (command : Command) : Except SubmitError Command :=
  match command.completion.result with
  | some (.ok ()) => .ok command
  | _ => .error (.failed command)

/-- Submits a command and polls until it has ended.  With a poll limit the submitter gives up after
so many polls.  Without one it polls until the end; `budget` is then how many polls are looked at,
and no result means that they were too few. -/
def send (budget : Nat) (c : Controller) (command : Command) :
    Action (Option (Except SubmitError Command) × Controller) := do
  match ← (c.enqueue command none 0).run with
  | .error e => return (some (.error e), c)
  | .ok (ticket, c) =>
    match ← pollUpTo ticket (c.config.pollLimit.getD budget) c with
    | (some command, c) => return (some (resultOf command), c)
    | (none, c) =>
      match c.config.pollLimit with
      | some polls =>
        report (.gaveUp polls)
        return (some (.error (.timeout ticket)), { c with waiting := none })
      | none => return (none, c)

/-- Submits with a handler or, without one, blocking; a blocking submission gives its command
back. -/
def submit (budget : Nat) (c : Controller) (command : Command) (callback : Option Callback)
    (token : Nat) : Action (Option (Except SubmitError (Option Command)) × Controller) := do
  match callback with
  | some handler =>
    let (result, c) ← c.sendAsync command handler token
    return (some (result.map fun _ => none), c)
  | none =>
    let (result, c) ← c.send budget command
    return (result.map (·.map some), c)

end Controller

end SdHost
