import SdHost.Controller.Basic

/-!
# Dispatching and handing back

Commands leave the engine in the order of their submission, each by one route, and whenever the
engine rests a queued head is on the wire.

* `Controller.deliver` — hands a finished command back: to its callback, to the submitter that
  polls for it, or to nobody;
* `Controller.issueHead` — starts the head unless it is on the wire; a head that cannot be started
  fails and leaves the queue;
* `Controller.dispatch` — starts heads until one is on the wire or the queue is empty.
-/

namespace SdHost.Controller

/-- The route by which a finished command leaves. -/
def routeOf (c : Controller) (e : Entry) : Route :=
  match e.callback with
  | some handler => .callback handler
  | none => if c.waiting = some e.ticket then .parked else .abandoned

/-- Hands a finished command back. -/
def deliver (c : Controller) (e : Entry) : Action Controller := do
  let route := c.routeOf e
  handBack e route
  match route with
  | .callback _ => return c
  | .parked => return { c with waiting := none, finished := some (e.ticket, e.command) }
  | .abandoned =>
    report (.abandoned e.command.index e.command.completion.verdict)
    return c

/-- Starts the head unless it is on the wire.  A head that cannot be started leaves the queue as a
failed command, which is the result. -/
def issueHead (c : Controller) : Action (Option Entry × Controller) :=
  match c.queue.head? with
  | none => return (none, c)
  | some head =>
    if head.issued then return (none, c)
    else do
      let fresh := { head with commandDone := false, dataDone := false, wordOffset := 0 }
      match ← (fresh.command.issue c.platform c.version c.config.spinLimit).run with
      | .ok blocks =>
        return (none,
          { c with
            queue := c.queue.modifyHead fun _ => { fresh with issued := true }
            blocksRemaining := blocks })
      | .error cause =>
        return (some { fresh with command := fresh.command.fail cause },
          { c with queue := c.queue.tail })

/-- Starts heads until one is on the wire, at most so many times. -/
def dispatchUpTo : Nat → Controller → Action Controller
  | 0, c => return c
  | attempts + 1, c => do
    match ← c.issueHead with
    | (none, c) => return c
    | (some failed, c) => dispatchUpTo attempts (← c.deliver failed)

/-- Starts heads until one is on the wire or the queue is empty.  Each head that fails leaves the
queue, so the length of the queue bounds the attempts. -/
def dispatch (c : Controller) : Action Controller := dispatchUpTo c.queue.size c

end SdHost.Controller
