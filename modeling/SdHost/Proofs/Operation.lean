import SdHost.Proofs.Turn

/-!
# Operations

What the owner of a controller can call, and the runs of such calls.

* `Operation`, `Controller.operate` — the calls, and what they do;
* `Operation.submission?`, `Entry.submitted` — what a call submits, and an entry read as a
  submission;
* `Command.order`, `Entry.order` — the same without what came of it;
* `Command.Obtainable` — the commands that an owner can get hold of;
* `Step`, `Run` — what is known of a call afterwards, and any calls after taking over.
-/

namespace SdHost

/-- What the owner of a controller can call. -/
inductive Operation where
  | send (command : Command)
  | sendAsync (command : Command) (callback : Callback) (token : Nat)
  | submit (command : Command) (callback : Option Callback) (token : Nat)
  | handleInterrupt
  | handleInterruptLine (irq : UInt32)
  | reset
  | setOperational
  | query (q : Query)

/-- What a call comes back with. -/
inductive Outcome where
  /-- A submission; a blocking one gives its command back. -/
  | submitted (result : Except SubmitError (Option Command))
  /-- Anything else. -/
  | finished

/-- Makes a call.  No outcome means that a submission without a poll limit still polls after
`budget` polls. -/
def Controller.operate (budget : Nat) (c : Controller) :
    Operation → Action (Option Outcome × Controller)
  | .send command => do
    let (result, c) ← c.send budget command
    return (result.map fun r => .submitted (r.map some), c)
  | .sendAsync command callback token => do
    let (result, c) ← c.sendAsync command callback token
    return (some (.submitted (result.map fun _ => none)), c)
  | .submit command callback token => do
    let (result, c) ← c.submit budget command callback token
    return (result.map .submitted, c)
  | .handleInterrupt => return (some .finished, ← c.handleInterrupt)
  | .handleInterruptLine irq => return (some .finished, ← c.handleInterruptLine irq)
  | .reset => return (some .finished, (← c.reset).2)
  | .setOperational => do
    let _ ← c.setOperational.run
    return (some .finished, c)
  | .query q => do
    q.ask c
    return (some .finished, c)

/-! ### Submissions -/

/-- What a call submits. -/
def Operation.submission? : Operation → Option Submission
  | .send command => some ⟨command, none, 0⟩
  | .sendAsync command callback token => some ⟨command, some callback, token⟩
  | .submit command (some callback) token => some ⟨command, some callback, token⟩
  | .submit command none _ => some ⟨command, none, 0⟩
  | _ => none

/-- A command without what came of it: neither response nor ending, and of the words of its buffer
only how many there are. -/
def Command.order (c : Command) : Command :=
  { c with
    data := c.data.map (DataPhase.withWords (List.replicate c.words.length 0))
    response := {}
    completion := .pending
    errors := .empty }

/-- A submission without what came of it. -/
def Submission.order (s : Submission) : Submission := { s with command := s.command.order }

/-- A queued command, or one that was handed back, as its submitter knows it. -/
def Entry.submitted (e : Entry) : Submission := ⟨e.command, e.callback, e.token⟩

/-- The same without what came of it. -/
def Entry.order (e : Entry) : Submission := e.submitted.order

/-! ### Runs -/

/-- What is known of a call afterwards. -/
structure Step where
  operation : Operation
  outcome : Outcome
  exchanges : List Exchange

namespace Step

/-- What was submitted and accepted. -/
def submission? (st : Step) : Option Submission :=
  match st.outcome with
  | .submitted (.error err) => if err.isRefusal then none else st.operation.submission?
  | _ => st.operation.submission?

/-- The events of a call. -/
def events (st : Step) : List Event := SdHost.events st.exchanges

/-- The commands handed back, with their routes. -/
def deliveries (st : Step) : List (Entry × Route) := handed st.events

end Step

/-- What a call has submitted is what it submits. -/
theorem Step.submission?_operation {st : Step} {s : Submission} (h : st.submission? = some s) :
    st.operation.submission? = some s := by
  unfold submission? at h
  split at h
  · split at h
    · cases h
    · exact h
  · exact h

/-- The accepted submissions, in their order. -/
def submissions (steps : List Step) : List Submission := steps.filterMap Step.submission?

/-- The commands handed back, with their routes, in their order. -/
def deliveries (steps : List Step) : List (Entry × Route) := steps.flatMap Step.deliveries

/-- The commands that an owner can get hold of, if these came back: new ones, those that came back,
and what can be made of a command.  How a command ended is not for its owner to change. -/
inductive Command.Obtainable (back : List Command) : Command → Prop where
  | new (index : UInt8) (argument : UInt32) (kind : ResponseKind) :
      Obtainable back (Command.new index argument kind)
  | back {c : Command} (h : c ∈ back) : Obtainable back c
  | reset {c : Command} (h : Obtainable back c) : Obtainable back c.reset
  | edit {c : Command} (index : UInt8) (argument : UInt32) (kind : ResponseKind)
      (data : Option DataPhase) (response : Response) (h : Obtainable back c) :
      Obtainable back { c with
        index := index, argument := argument, responseKind := kind, data := data,
        response := response }

/-- The calls lead from taking over to the controller. -/
inductive Run : List Step → Controller → Prop where
  | takenOver {platform : Platform} {irqs : List UInt32} {config : Config} {es : List Exchange}
      {c : Controller}
      (h : Dialogue.Path (Controller.takeOver platform irqs config).run es (.ok c)) :
      Run [] c
  | step {steps : List Step} {c c' : Controller} {operation : Operation} {budget : Nat}
      {outcome : Outcome} {es : List Exchange} (h : Run steps c)
      (hcommand : ∀ s, operation.submission? = some s →
        s.command.Obtainable ((deliveries steps).map fun d => d.1.command))
      (hstep : Dialogue.Path (c.operate budget operation) es (some outcome, c')) :
      Run (steps ++ [⟨operation, outcome, es⟩]) c'

section Views

variable (steps more : List Step) (st : Step)

@[simp] theorem submissions_append :
    submissions (steps ++ more) = submissions steps ++ submissions more :=
  List.filterMap_append

@[simp] theorem deliveries_append :
    deliveries (steps ++ more) = deliveries steps ++ deliveries more :=
  List.flatMap_append

theorem submissions_concat :
    submissions (steps ++ [st]) = submissions steps ++ st.submission?.toList := by
  rw [submissions_append]
  cases h : st.submission? <;> simp [submissions, h]

theorem deliveries_concat : deliveries (steps ++ [st]) = deliveries steps ++ st.deliveries := by
  rw [deliveries_append]
  exact congrArg _ (List.append_nil _)

end Views

/-! ### What becomes of a submission -/

namespace Entry

variable {s e : Entry}

theorem Ends.callback (h : s.Ends e) : e.callback = s.callback := by
  cases h with
  | refused => rfl
  | landed hlands =>
    obtain ⟨commandDone, dataDone, rfl⟩ := hlands.entry
    rfl

theorem Ends.ticket (h : s.Ends e) : e.ticket = s.ticket := by
  cases h with
  | refused => rfl
  | landed hlands =>
    obtain ⟨commandDone, dataDone, rfl⟩ := hlands.entry
    rfl

end Entry

/-! ### Calls to look at -/

/-- A call by a script, that comes back with the outcome. -/
def Controller.called (c : Controller) (operation : Operation) (outcome : Outcome)
    (script : List (Register × UInt32)) : Step :=
  ⟨operation, outcome, Dialogue.exchanges scripted (c.operate 2 operation) script⟩

/-- The controller after a call by a script. -/
def Controller.afterCall (c : Controller) (operation : Operation)
    (script : List (Register × UInt32)) : Controller :=
  (Dialogue.run scripted (c.operate 2 operation) script).1.2

theorem run_rested : Run [] Controller.rested := by
  have hopen : Dialogue.Path (Controller.takeOver .imx6 [] Controller.rested.config).run _
      (.ok Controller.rested) := path_scripted [] rfl
  exact .takenOver hopen

theorem Run.scripted {steps : List Step} {c : Controller} {outcome : Outcome} (h : Run steps c)
    (operation : Operation) (script : List (Register × UInt32))
    (hcommand : ∀ s, operation.submission? = some s →
      s.command.Obtainable ((deliveries steps).map fun d => d.1.command))
    (houtcome : (Dialogue.run SdHost.scripted (c.operate 2 operation) script).1.1 = some outcome) :
    Run (steps ++ [c.called operation outcome script]) (c.afterCall operation script) :=
  h.step hcommand (path_scripted script (Prod.ext houtcome rfl))

theorem obtainable_twoBlockRead (back : List Command) : Command.twoBlockRead.Obtainable back :=
  .edit CommandIndex.readMultipleBlock 0 .r1 Command.twoBlockRead.data {}
    (.new CommandIndex.readMultipleBlock 0 .r1)

end SdHost
