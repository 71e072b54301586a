import SdHost.Proofs.Controller.Equations
import SdHost.Proofs.Dialogue.Asks

/-!
# What the engine asks

Serving the controller and starting commands reads and writes registers, waits, reports and hands
commands back.  What the hardware can do is looked at by submissions only.

* `Request.ofLines`, `Request.ofHead`, `Request.ofDevice`, `Request.ofEngine` — the questions of
  waiting for the lines, of serving the head, of starting a command, and of a pass;
* `asks_issue`, `asks_announce`, `asks_dispatchUpTo`, `asks_handleInterrupt`, `asks_inspect` — what
  the parts of the engine ask.
-/

namespace SdHost

open Register Dialogue

namespace Request

/-- A question to the device or the log; what the device can do is left alone. -/
def ofDevice : Request → Prop
  | read r => r ≠ capabilities
  | write r _ => r ≠ capabilities
  | delay _ => True
  | report _ => True
  | _ => False

/-- A question about the state of the lines. -/
def ofLines : Request → Prop
  | read r => r = presentState
  | report _ => True
  | _ => False

/-- A question about the response and the data of the command on the wire. -/
def ofHead : Request → Prop
  | read r => r ∈ responseRegisters ∨ r = bufferAccess
  | write r _ => r = bufferAccess
  | report _ => True
  | _ => False

/-- A question that serving the controller can ask. -/
def ofEngine : Request → Prop
  | handBack _ _ => True
  | q => q.ofDevice

/-- A question about a command that is handed back. -/
def ofAnnouncement : Request → Prop
  | handBack _ _ => True
  | report _ => True
  | _ => False

/-- A question about a command that is to be submitted. -/
def ofInspection : Request → Prop
  | read r => r = capabilities
  | report _ => True
  | _ => False

theorem ofEngine_of_ofDevice {q : Request} (h : q.ofDevice) : q.ofEngine := by
  cases q with
  | handBack e route => trivial
  | _ => exact h

theorem ofDevice_of_ofHead {q : Request} (h : q.ofHead) : q.ofDevice := by
  have hresponses : ∀ r ∈ responseRegisters, r ≠ capabilities := by decide
  have hbuffer : bufferAccess ≠ capabilities := by decide
  cases q with
  | read r => exact h.elim (hresponses r) fun hr => hr ▸ hbuffer
  | write r value => exact (show r = bufferAccess from h) ▸ hbuffer
  | report m => trivial
  | _ => exact h.elim

theorem ofDevice_of_ofLines {q : Request} (h : q.ofLines) : q.ofDevice := by
  have hstate : presentState ≠ capabilities := by decide
  cases q with
  | read r => exact (show r = presentState from h) ▸ hstate
  | report m => trivial
  | _ => exact h.elim

theorem ofEngine_of_ofHead {q : Request} (h : q.ofHead) : q.ofEngine :=
  ofEngine_of_ofDevice (ofDevice_of_ofHead h)

theorem ofEngine_of_ofAnnouncement {q : Request} (h : q.ofAnnouncement) : q.ofEngine := by
  cases q with
  | handBack e route => trivial
  | report m => trivial
  | _ => exact h.elim

end Request

open Request

theorem asks_read {r : Register} (h : r ≠ capabilities) : Asks ofDevice r.read := asks_question h

theorem asks_write {r : Register} (h : r ≠ capabilities) (value : UInt32) :
    Asks ofDevice (r.write value) :=
  asks_question h

theorem asks_report (m : Log.Message) : Asks ofDevice (report m) := asks_question trivial

theorem asks_modify {r : Register} (v : FieldValue r) (h : r ≠ capabilities) :
    Asks ofDevice (Register.modify v) :=
  asks_bind (asks_read h) fun _ => asks_write h _

/-! ### Starting a command -/

namespace Command

theorem asks_programData (version : SpecVersion) (direction : Direction) (d : DataPhase) :
    Asks ofDevice (programData version direction d) := by
  refine asks_bind (asks_modify _ (by decide)) fun _ => ?_
  refine asks_bind (asks_write (by decide) _) fun _ => ?_
  refine asks_bind (asks_write (by decide) _) fun _ => ?_
  cases d.buffer with
  | dma address =>
    refine asks_bind (asks_write (by decide) _) fun _ => ?_
    exact asks_ite _ (asks_write (by decide) _) (asks_pure _)
  | words id contents => exact asks_ite _ (asks_write (by decide) _) (asks_pure _)

theorem asks_start (platform : Platform) (version : SpecVersion) (c : Command) :
    Asks ofDevice (c.start platform version) := by
  refine asks_bind (asks_question trivial) fun _ => ?_
  refine asks_bind (asks_report _) fun _ => ?_
  refine asks_bind (asks_write (by decide) _) fun _ => ?_
  cases c.data with
  | none => exact asks_write (by decide) _
  | some d => exact asks_bind (asks_programData _ _ d) fun _ => asks_write (by decide) _

/-- **Waiting for the lines** looks at their state only. -/
theorem asks_awaitLines (spinLimit : Nat) (c : Command) :
    Asks ofLines (c.awaitLines spinLimit).run := by
  have hfree : Asks ofLines linesFree :=
    asks_bind (asks_bind (asks_question rfl) fun _ => asks_pure _) fun _ => asks_pure _
  have hquiet : Asks ofLines dataLineQuiet :=
    asks_bind (asks_bind (asks_question rfl) fun _ => asks_pure _) fun _ => asks_pure _
  refine asks_run_bind (asks_run_waitFor _ (asks_run_lift hfree)) fun free => ?_
  refine asks_run_ite _ ?_ (asks_report_throw _ trivial _)
  refine asks_run_bind (asks_run_waitFor _ (asks_run_lift hquiet)) fun quiet => ?_
  exact asks_run_ite _ (asks_run_pure _) (asks_refuse _ trivial _)

theorem asks_issue (platform : Platform) (version : SpecVersion) (spinLimit : Nat) (c : Command) :
    Asks ofDevice (c.issue platform version spinLimit).run := by
  refine asks_run_bind (asks_run_lift (asks_write (by decide) _)) fun _ => ?_
  refine asks_run_bind ((asks_awaitLines spinLimit c).mono fun _ => ofDevice_of_ofLines) fun _ => ?_
  refine asks_run_bind (asks_run_lift (asks_start _ _ c)) fun _ => ?_
  exact asks_run_pure _

theorem asks_response {r : Register} (h : r ∈ responseRegisters) : Asks ofHead r.read :=
  asks_question (.inl h)

theorem asks_captureResponse (c : Command) : Asks ofHead c.captureResponse := by
  have hfirst : ∀ f : UInt32 → Command,
      Asks ofHead (response0.read >>= fun word => pure (f word)) :=
    fun f => asks_bind (asks_response (by decide)) fun _ => asks_pure _
  unfold captureResponse
  cases c.responseKind with
  | none => exact asks_pure _
  | r2 =>
    refine asks_bind (asks_response (by decide)) fun _ => ?_
    refine asks_bind (asks_response (by decide)) fun _ => ?_
    refine asks_bind (asks_response (by decide)) fun _ => ?_
    exact asks_bind (asks_response (by decide)) fun _ => asks_pure _
  | r1b =>
    refine asks_ite _ ?_ (hfirst _)
    exact asks_bind (asks_response (by decide)) fun _ => asks_pure _
  | _ => exact hfirst _

end Command

/-! ### Serving the head -/

theorem asks_readWords (count : Nat) (got : List UInt32) : Asks ofHead (readWords count got) := by
  induction count generalizing got with
  | zero => exact asks_pure _
  | succ count ih => exact asks_bind (asks_question (.inr rfl)) fun w => ih (w :: got)

theorem asks_writeWords (ws : List UInt32) : Asks ofHead (writeWords ws) := by
  induction ws with
  | nil => exact asks_pure _
  | cons w rest ih => exact asks_bind (asks_question rfl) fun _ => ih

namespace Entry

theorem asks_moveBlock (e : Entry) : Asks ofHead e.moveBlock := by
  have hmoved : ∀ (m : Log.Message) (e : Entry), Asks ofHead (report m >>= fun _ => pure e) :=
    fun m e => asks_bind (asks_question trivial) fun _ => asks_pure e
  unfold moveBlock
  split
  · split
    · dsimp only
      split
      · refine asks_bind (asks_readWords _ _) fun _ => ?_
        exact asks_bind (asks_pure _) fun _ => hmoved _ _
      · refine asks_bind (asks_writeWords _) fun _ => ?_
        exact asks_bind (asks_pure _) fun _ => hmoved _ _
    · exact asks_pure _
  · exact asks_pure _

theorem asks_receiveResponse (e : Entry) : Asks ofHead e.receiveResponse :=
  asks_bind e.command.asks_captureResponse fun _ => asks_pure _

theorem asks_serveBuffer (e : Entry) (blocks : Nat) : Asks ofHead (e.serveBuffer blocks) :=
  asks_ite _ (asks_bind e.asks_moveBlock fun _ => asks_pure _)
    (asks_bind (asks_question trivial) fun _ => asks_pure _)

theorem asks_endTransfer (e : Entry) : Asks ofHead e.endTransfer := by
  refine asks_ite _ ?_ (asks_pure _)
  exact asks_ite _ (asks_pure _) (asks_bind (asks_question trivial) fun _ => asks_pure _)

theorem asks_conclude (e : Entry) (blocks : Nat) : Asks ofHead (e.conclude blocks) := by
  refine asks_ite _ ?_ (asks_pure _)
  by_cases hblocks : 0 < blocks
  · simp only [hblocks, if_true]
    exact asks_bind (asks_question trivial) fun _ => asks_pure _
  · simp only [hblocks, if_false]
    exact asks_pure _

theorem asks_proceed (e : Entry) (status : InterruptStatus) (blocks : Nat) :
    Asks ofHead (e.proceed status blocks) := by
  refine asks_ite_bind _ e.asks_receiveResponse (asks_pure _) fun e₁ => ?_
  refine asks_ite _ (asks_pure _) ?_
  refine asks_ite_bind _ (e₁.asks_serveBuffer blocks) (asks_pure _) fun r => ?_
  exact asks_ite_bind _ r.1.asks_endTransfer (asks_pure _) fun e₂ => e₂.asks_conclude _

/-- **Serving the head** asks the device. -/
theorem asks_advance (e : Entry) (status : InterruptStatus) (blocks : Nat) :
    Asks ofHead (e.advance status blocks) := by
  unfold advance
  split
  · refine asks_bind ?_ fun _ => asks_pure _
    refine asks_ite_bind _ (Command.asks_captureResponse _) (asks_pure _) fun _ => ?_
    exact asks_bind (asks_question trivial) fun _ => asks_pure _
  · exact e.asks_proceed status blocks

end Entry

/-! ### Handing back and dispatching -/

/-- **Handing back** asks nothing of the device. -/
theorem asks_announce (e : Entry) (route : Route) : Asks ofAnnouncement (announce e route) := by
  refine asks_bind (asks_question trivial) fun _ => ?_
  split
  · exact asks_question trivial
  · exact asks_pure _

namespace Controller

theorem asks_deliver (c : Controller) (e : Entry) : Asks ofEngine (c.deliver e) := by
  rw [deliver_eq]
  refine asks_bind ?_ fun _ => asks_pure _
  exact (asks_announce e _).mono fun _ => ofEngine_of_ofAnnouncement

theorem asks_issueHead (c : Controller) : Asks ofEngine c.issueHead := by
  unfold issueHead
  split
  · exact asks_pure _
  · split
    · exact asks_pure _
    · refine asks_bind ((Command.asks_issue _ _ _ _).mono fun _ => ofEngine_of_ofDevice) fun r => ?_
      cases r with
      | ok blocks => exact asks_pure _
      | error cause => exact asks_pure _

theorem asks_dispatchUpTo (attempts : Nat) (c : Controller) :
    Asks ofEngine (dispatchUpTo attempts c) := by
  induction attempts generalizing c with
  | zero => exact asks_pure _
  | succ attempts ih =>
    refine asks_bind c.asks_issueHead fun r => ?_
    obtain ⟨failed, c₁⟩ := r
    cases failed with
    | none => exact asks_pure _
    | some f => exact asks_bind (c₁.asks_deliver f) fun c₂ => ih c₂

theorem asks_complete (c : Controller) (e : Entry) : Asks ofEngine (c.complete e) := by
  refine asks_bind (asks_issueHead _) fun r => ?_
  refine asks_bind (asks_deliver _ e) fun c₁ => ?_
  cases r.1 with
  | none => exact asks_bind (asks_pure _) fun c₂ => asks_dispatchUpTo _ c₂
  | some f => exact asks_bind (c₁.asks_deliver f) fun c₂ => asks_dispatchUpTo _ c₂

theorem asks_reportInformational (status : InterruptStatus) :
    Asks ofHead (reportInformational status) := by
  refine asks_ite _ (asks_pure _) (asks_bind (asks_question trivial) fun _ => ?_)
  exact asks_ite _ (asks_question trivial) (asks_pure _)

theorem asks_serve (c : Controller) (status : InterruptStatus) :
    Asks ofEngine (c.serve status) := by
  unfold serve
  split
  · exact asks_ite _ (asks_bind ((asks_report _).mono fun _ => ofEngine_of_ofDevice) fun _ =>
      asks_pure _) (asks_pure _)
  · rename_i head _
    refine asks_bind ((head.asks_advance _ _).mono fun _ => ofEngine_of_ofHead) fun pr => ?_
    exact asks_ite _ (asks_complete _ _) (asks_pure _)

/-- **A pass** asks the device and hands commands back. -/
theorem asks_handleInterrupt (c : Controller) : Asks ofEngine c.handleInterrupt := by
  have hread : Asks ofDevice latchedStatus :=
    asks_bind (asks_read (by decide)) fun _ => asks_pure _
  refine asks_bind (hread.mono fun _ => ofEngine_of_ofDevice) fun status => ?_
  refine asks_ite _ (asks_pure _) ?_
  refine asks_bind ((asks_write (by decide) _).mono fun _ => ofEngine_of_ofDevice) fun _ => ?_
  refine asks_bind ((asks_reportInformational _).mono fun _ => ofEngine_of_ofHead) fun _ => ?_
  exact c.asks_serve status

/-- **A look at a command** asks what the device can do. -/
theorem asks_inspect (command : Command) : Asks ofInspection (inspect command) := by
  have hrefuse : ∀ (m : Log.Message) (err : SubmitError),
      Asks ofInspection (report m >>= fun _ => pure (Except.error (α := Unit) err)) :=
    fun m err => asks_bind (asks_question trivial) fun _ => asks_pure _
  refine asks_ite _ ?_ (hrefuse _ _)
  refine asks_bind (asks_bind (asks_question rfl) fun _ => asks_pure _) fun largest => ?_
  exact asks_ite _ (hrefuse _ _) (asks_pure _)

end Controller

end SdHost
