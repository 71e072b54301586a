import SdHost.Proofs.Controller.Asks
import SdHost.Proofs.Dialogue.Coupling
import SdHost.Proofs.Operation.Call
import SdHost.Proofs.Platform.Asks

/-!
# The engine in two surroundings

Between its questions the command engine looks at the version of its controller only when it starts
a command.  So two engines do alike in two surroundings if the questions that have nothing to do
with the version are answered alike, and if starting a command comes to the same.

* `Request.neutral` — the questions that have nothing to do with the version, nor with the log;
* `Controller.Alike` — controllers that differ in their versions at most;
* `Drives` — surroundings in which two engines do alike;
* `Drives.handleInterrupt`, `Drives.enqueue`, `Drives.pollUpTo` — the parts of the engine;
* `Drives.answer`, `Drives.call`, `Coupling.agree_callAll` — calls, and any calls one after the
  other.
-/

namespace SdHost

open Dialogue Dialogue.Coupling Register Request

/-- The registers in which versions of a controller differ. -/
def Register.versioned : List Register := [hostVersion, mixerControl, transferType]

namespace Request

/-- A question that has nothing to do with the version of the controller, nor with the log's
verbosity. -/
def neutral : Request → Prop
  | read r => r ∉ versioned
  | write r _ => r ∉ versioned
  | keeps _ => False
  | _ => True

theorem neutral_of_ofLines {q : Request} (h : q.ofLines) : q.neutral := by
  have hstate : presentState ∉ versioned := by decide
  cases q with
  | read r => exact (show r = presentState from h) ▸ hstate
  | report m => trivial
  | _ => exact h.elim

theorem neutral_of_ofHead {q : Request} (h : q.ofHead) : q.neutral := by
  have hresponses : ∀ r ∈ responseRegisters, r ∉ versioned := by decide
  have hbuffer : bufferAccess ∉ versioned := by decide
  cases q with
  | read r => exact h.elim (hresponses r) fun hr => hr ▸ hbuffer
  | write r value => exact (show r = bufferAccess from h) ▸ hbuffer
  | report m => trivial
  | _ => exact h.elim

/-- A question about what the hardware can do, about the state of its lines, or about memory. -/
def ofQuery : Request → Prop
  | read r => r ∈ [capabilities, presentState]
  | allocate _ _ => True
  | release _ _ => True
  | report _ => True
  | _ => False

theorem neutral_of_ofQuery {q : Request} (h : q.ofQuery) : q.neutral := by
  have hneutral : ∀ r ∈ [capabilities, presentState], r ∉ versioned := by decide
  cases q with
  | read r => exact hneutral r h
  | allocate size alignment => trivial
  | release region alignment => trivial
  | report m => trivial
  | _ => exact h.elim

theorem neutral_of_ofPower {q : Request} (h : q.ofPower) : q.neutral := by
  cases q with
  | power device on => trivial
  | assertReset line => trivial
  | deassertReset line => trivial
  | report m => trivial
  | _ => exact h.elim

theorem neutral_of_ofAnnouncement {q : Request} (h : q.ofAnnouncement) : q.neutral := by
  cases q with
  | handBack e route => trivial
  | report m => trivial
  | _ => exact h.elim

end Request

/-! ### Calls that have nothing to do with the version -/

/-- The answer has nothing to do with the version, nor is anything asked of the log. -/
def Query.neutral : Query → Prop
  | dumpRegisters => False
  | register r => r ∉ versioned
  | _ => True

/-- A submission, a pass, or a question that has nothing to do with the version. -/
def Operation.neutral : Operation → Prop
  | reset => False
  | setOperational => False
  | query q => q.neutral
  | _ => True

/-- A call that has nothing to do with the version. -/
def Call.neutral : Call → Prop
  | operation op => op.neutral
  | write r _ => r ∉ versioned
  | _ => True

/-- **A question** asks what it is about, unless it is a dump or a look at a register. -/
theorem Query.asks_answer (c : Controller) (q : Query) (hdump : q ≠ .dumpRegisters)
    (hregister : ∀ r, q ≠ .register r) : Asks ofQuery (q.answer c) := by
  have hreads : ∀ {r : Register} (f : Field r), r ∈ [capabilities, presentState] →
      Asks ofQuery (Register.reads f) :=
    fun f hr => asks_bind (asks_question hr) fun _ => asks_pure _
  have hcapabilities : ofQuery (.read capabilities) := .head _
  have hdrives : ∀ millivolts, Asks ofQuery (Capabilities.drives millivolts) :=
    fun _ => asks_bind (asks_question hcapabilities) fun _ => asks_pure _
  cases q with
  | supportsDma => exact asks_bind (hreads _ (by decide)) fun _ => asks_pure _
  | supportsAdma => exact asks_bind (hreads _ (by decide)) fun _ => asks_pure _
  | supportsHighSpeed => exact asks_bind (hreads _ (by decide)) fun _ => asks_pure _
  | largestBlock =>
    exact asks_bind (asks_bind (asks_question hcapabilities) fun _ => asks_pure _)
      fun _ => asks_pure _
  | drives millivolts => exact asks_bind (hdrives millivolts) fun _ => asks_pure _
  | cardPresent => exact asks_bind (hreads _ (by decide)) fun _ => asks_pure _
  | cardWriteProtected => exact asks_bind (hreads _ (by decide)) fun _ => asks_pure _
  | offeredVoltages card =>
    exact asks_bind (asks_bind (hdrives 3300) fun _ => asks_pure _) fun _ => asks_pure _
  | dumpRegisters => exact (hdump rfl).elim
  | allocate size =>
    refine asks_bind ?_ fun _ => asks_pure _
    refine asks_run_bind (asks_run_lift (asks_question trivial)) fun answer => ?_
    cases answer with
    | none => exact asks_refuse _ trivial _
    | some region =>
      refine asks_run_ite region.startsInRange (asks_run_pure _) ?_
      refine asks_run_bind (asks_run_lift (asks_question trivial)) fun _ => ?_
      exact asks_run_bind (asks_run_lift (asks_question trivial)) fun _ => asks_run_throw _
  | release region => exact asks_bind (asks_question trivial) fun _ => asks_pure _
  | register r => exact (hregister r rfl).elim

theorem Query.neutral_answer (c : Controller) (q : Query) (hq : q.neutral) :
    Asks Request.neutral (q.answer c) := by
  have hasks := q.asks_answer c
  cases q with
  | dumpRegisters => exact hq.elim
  | register r => exact asks_bind (asks_question hq) fun _ => asks_pure _
  | _ => exact (hasks nofun nofun).mono fun _ => neutral_of_ofQuery

/-! ### Controllers that are alike -/

namespace Controller

/-- The controller, had it another version. -/
def ofVersion (c : Controller) (v : SpecVersion) : Controller := { c with version := v }

/-- The controllers differ in their versions at most, which are these. -/
structure Alike (v v' : SpecVersion) (c c' : Controller) : Prop where
  version : c.version = v
  other : c' = c.ofVersion v'

variable {v v' : SpecVersion} {c c' : Controller}

/-- Controllers of one version that are alike are the same. -/
theorem Alike.eq (h : Alike v v c c') : c' = c := by
  rw [h.other, ofVersion, ← h.version]

theorem Alike.queue (h : Alike v v' c c') : c'.queue = c.queue := by
  rw [h.other]
  rfl

theorem Alike.config (h : Alike v v' c c') : c'.config = c.config := by
  rw [h.other]
  rfl

/-- The results are the same, and the controllers alike. -/
inductive AlikeWith {α : Type} (v v' : SpecVersion) : α × Controller → α × Controller → Prop where
  | intro (a : α) {c c' : Controller} (h : Alike v v' c c') : AlikeWith v v' (a, c) (a, c')

theorem Alike.takeFinished (h : Alike v v' c c') (ticket : Ticket) :
    (c.takeFinished ticket = none ∧ c'.takeFinished ticket = none) ∨
    ∃ command d d', c.takeFinished ticket = some (command, d) ∧
      c'.takeFinished ticket = some (command, d') ∧ Alike v v' d d' := by
  obtain ⟨rfl, rfl⟩ := h
  unfold Controller.takeFinished
  show _ ∨ _
  cases hfinished : c.finished with
  | none => exact .inl ⟨rfl, by simp only [ofVersion, hfinished]⟩
  | some f =>
    obtain ⟨done, command⟩ := f
    by_cases hdone : done = ticket
    · refine .inr ⟨command, { c with finished := none }, { c.ofVersion v' with finished := none },
        ?_, ?_, rfl, rfl⟩
      · simp only [hdone, if_true]
      · simp only [ofVersion, hfinished, hdone, if_true]
    · refine .inl ⟨?_, ?_⟩
      · simp only [hdone, if_false]
      · simp only [ofVersion, hfinished, hdone, if_false]

end Controller

open Controller

/-- Surroundings in which the engines of two versions do alike. -/
structure Drives {σ σ' : Type} (K : Coupling Answer σ σ') (v v' : SpecVersion) : Prop where
  /-- What has nothing to do with the version is answered alike. -/
  neutral : ∀ q : Request, q.neutral → K.Indifferent q
  /-- Starting a command comes to the same. -/
  start : ∀ (platform : Platform) (command : Command),
    K.Agree Eq (command.start platform v) (command.start platform v')

namespace Drives

variable {σ σ' : Type} {K : Coupling Answer σ σ'} {v v' : SpecVersion} {c c' : Controller}

theorem agree {α : Type} (hK : Drives K v v') {d : Action α} (h : Asks Request.neutral d) :
    K.Agree Eq d d :=
  agree_of_asks (h.mono hK.neutral)

theorem report (hK : Drives K v v') (m : Log.Message) :
    K.Agree Eq (SdHost.report m) (SdHost.report m) :=
  hK.agree (asks_question trivial)

variable (hK : Drives K v v')

include hK

/-! ### Starting, handing back and dispatching -/

theorem issue (platform : Platform) (spinLimit : Nat) (command : Command) :
    K.Agree Eq (command.issue platform v spinLimit).run
      (command.issue platform v' spinLimit).run := by
  have hmask : interruptStatusEnable ∉ versioned := by decide
  have hlines : Asks Request.neutral (command.awaitLines spinLimit).run :=
    (command.asks_awaitLines spinLimit).mono fun _ => neutral_of_ofLines
  refine agree_of_results ?_
  refine agree_run_bind (agree_run_lift (hK.agree (asks_question hmask))) fun _ _ _ => ?_
  refine agree_run_bind (agree_results (hK.agree hlines)) fun _ _ _ => ?_
  refine agree_run_bind (agree_run_lift (hK.start platform command)) fun _ _ _ => ?_
  exact agree_run_pure rfl

theorem announce (e : Entry) (route : Route) :
    K.Agree Eq (SdHost.announce e route) (SdHost.announce e route) :=
  hK.agree ((asks_announce e route).mono fun _ => neutral_of_ofAnnouncement)

theorem deliver (h : Alike v v' c c') (e : Entry) :
    K.Agree (Alike v v') (c.deliver e) (c'.deliver e) := by
  obtain ⟨rfl, rfl⟩ := h
  have hroute : (c.ofVersion v').routeOf e = c.routeOf e := rfl
  rw [deliver_eq, deliver_eq, hroute]
  refine agree_bind_eq (hK.announce e _) fun _ => agree_pure ?_
  unfold settle
  rw [hroute]
  cases c.routeOf e with
  | callback handler => exact ⟨rfl, rfl⟩
  | parked => exact ⟨rfl, rfl⟩
  | abandoned => exact ⟨rfl, rfl⟩

theorem issueHead (h : Alike v v' c c') :
    K.Agree (AlikeWith v v') c.issueHead c'.issueHead := by
  obtain ⟨rfl, rfl⟩ := h
  have hqueue : (c.ofVersion v').queue = c.queue := rfl
  unfold Controller.issueHead
  rw [hqueue]
  cases c.queue.head? with
  | none => exact agree_pure (.intro _ ⟨rfl, rfl⟩)
  | some head =>
    refine agree_ite head.issued (agree_pure (.intro _ ⟨rfl, rfl⟩)) ?_
    refine agree_bind_eq (hK.issue c.platform c.config.spinLimit _) fun result => ?_
    cases result with
    | ok blocks => exact agree_pure (.intro _ ⟨rfl, rfl⟩)
    | error cause => exact agree_pure (.intro _ ⟨rfl, rfl⟩)

theorem dispatchUpTo (attempts : Nat) (h : Alike v v' c c') :
    K.Agree (Alike v v') (Controller.dispatchUpTo attempts c)
      (Controller.dispatchUpTo attempts c') := by
  induction attempts generalizing c c' with
  | zero => exact agree_pure h
  | succ attempts ih =>
    refine agree_bind (hK.issueHead h) ?_
    rintro _ _ ⟨failed, hd⟩
    cases failed with
    | none => exact agree_pure hd
    | some f => exact agree_bind (hK.deliver hd f) fun _ _ => ih

theorem dispatch (h : Alike v v' c c') : K.Agree (Alike v v') c.dispatch c'.dispatch := by
  unfold Controller.dispatch
  rw [h.queue]
  exact hK.dispatchUpTo _ h

/-! ### Serving the controller -/

theorem complete (h : Alike v v' c c') (e : Entry) :
    K.Agree (Alike v v') (c.complete e) (c'.complete e) := by
  have hpopped : Alike v v' c.popped c'.popped := by
    obtain ⟨rfl, rfl⟩ := h
    exact ⟨rfl, rfl⟩
  refine agree_bind (hK.issueHead hpopped) ?_
  rintro _ _ ⟨failed, hd⟩
  refine agree_bind (hK.deliver hd e) fun d₁ d₁' hd₁ => ?_
  cases failed with
  | none => exact hK.dispatch hd₁
  | some f => exact agree_bind (hK.deliver hd₁ f) fun _ _ => hK.dispatch

theorem serve (h : Alike v v' c c') (status : InterruptStatus) :
    K.Agree (Alike v v') (c.serve status) (c'.serve status) := by
  have hblocks : c'.blocksRemaining = c.blocksRemaining := by
    rw [h.other]
    rfl
  unfold Controller.serve
  rw [h.queue, hblocks]
  cases c.queue.head? with
  | none =>
    refine agree_ite _ ?_ (agree_pure h)
    exact agree_bind_eq (hK.report _) fun _ => agree_pure h
  | some head =>
    have hadvance := (head.asks_advance status c.blocksRemaining).mono fun _ => neutral_of_ofHead
    refine agree_bind_eq (hK.agree hadvance) fun progress => ?_
    refine agree_ite progress.ended (hK.complete h _) (agree_pure ?_)
    obtain ⟨rfl, rfl⟩ := h
    exact ⟨rfl, rfl⟩

/-- **Serving the controller** comes to the same. -/
theorem handleInterrupt (h : Alike v v' c c') :
    K.Agree (Alike v v') c.handleInterrupt c'.handleInterrupt := by
  have hstatus : interruptStatus ∉ versioned := by decide
  have hlatched : Asks Request.neutral latchedStatus :=
    asks_bind (asks_question hstatus) fun _ => asks_pure _
  refine agree_bind_eq (hK.agree hlatched) fun status => ?_
  refine agree_ite status.isEmpty (agree_pure h) ?_
  refine agree_bind_eq (hK.agree (asks_question hstatus)) fun _ => ?_
  refine agree_bind_eq ?_ fun _ => hK.serve h status
  exact hK.agree ((asks_reportInformational status).mono fun _ => neutral_of_ofHead)

theorem handleInterruptLine (h : Alike v v' c c') (irq : UInt32) :
    K.Agree (Alike v v') (c.handleInterruptLine irq) (c'.handleInterruptLine irq) := by
  have hirqs : c'.irqs = c.irqs := by
    rw [h.other]
    rfl
  unfold Controller.handleInterruptLine
  rw [hirqs]
  split
  · exact hK.handleInterrupt h
  · exact agree_bind_eq (hK.report _) fun _ => agree_pure h

theorem onInterrupt (h : Alike v v' c c') (irq : UInt32) (inUse : Bool) :
    K.Agree (fun r r' => r.1 = r'.1 ∧ Alike v v' r.2.controller r'.2.controller)
      (SharedController.onInterrupt ⟨c, inUse⟩ irq)
      (SharedController.onInterrupt ⟨c', inUse⟩ irq) := by
  cases inUse with
  | true =>
    refine agree_bind_eq ?_ fun _ => agree_pure ⟨rfl, h⟩
    exact agree_bind_eq (hK.report _) fun _ => agree_pure rfl
  | false => exact agree_bind (hK.handleInterruptLine h irq) fun _ _ hd => agree_pure ⟨rfl, hd⟩

/-! ### Submissions -/

theorem enqueue (h : Alike v v' c c') (command : Command) (callback : Option Callback)
    (token : Nat) :
    K.Agree (Results (AlikeWith v v')) (c.enqueue command callback token).run
      (c'.enqueue command callback token).run := by
  have hcapabilities : capabilities ∉ versioned := by decide
  have hlargest : Asks Request.neutral Capabilities.largestBlock :=
    asks_bind (asks_question hcapabilities) fun _ => asks_pure _
  have hrefuse : ∀ (m : Log.Message) (err : SubmitError),
      K.Agree (Results (AlikeWith (α := Ticket) v v'))
        (SdHost.report m >>= fun _ => pure (.error err))
        (SdHost.report m >>= fun _ => pure (.error err)) :=
    fun m err => agree_bind_eq (hK.report m) fun _ => agree_pure (.error err)
  obtain ⟨rfl, rfl⟩ := h
  unfold Controller.enqueue
  cases command.completion.isPending with
  | false => exact hrefuse _ _
  | true =>
    refine agree_run_bind (agree_run_lift (hK.agree hlargest)) fun largest _ hlargest => ?_
    obtain rfl := hlargest
    refine agree_run_ite _ (hrefuse _ _) ?_
    have hpush : (c.ofVersion v').queue.push command callback token =
      c.queue.push command callback token := rfl
    rw [hpush]
    cases c.queue.push command callback token with
    | none => exact agree_run_throw _
    | some q =>
      have haccepted : Alike c.version v' (c.accepted q callback)
          ((c.ofVersion v').accepted q callback) := ⟨rfl, rfl⟩
      refine agree_run_ite c.queue.isEmpty ?_ (agree_run_pure (.intro _ haccepted))
      refine agree_run_bind (agree_run_lift (hK.dispatch haccepted)) fun _ _ hd => ?_
      exact agree_run_pure (.intro _ hd)

theorem sendAsync (h : Alike v v' c c') (command : Command) (callback : Callback) (token : Nat) :
    K.Agree (AlikeWith v v') (c.sendAsync command callback token)
      (c'.sendAsync command callback token) := by
  refine agree_bind (hK.enqueue h command callback token) fun _ _ hr => ?_
  cases hr with
  | ok hd =>
    obtain ⟨ticket, hd⟩ := hd
    exact agree_pure (.intro _ hd)
  | error err => exact agree_pure (.intro _ h)

theorem pollUpTo (ticket : Ticket) (polls : Nat) (h : Alike v v' c c') :
    K.Agree (AlikeWith v v') (Controller.pollUpTo ticket polls c)
      (Controller.pollUpTo ticket polls c') := by
  induction polls generalizing c c' with
  | zero =>
    unfold Controller.pollUpTo
    rcases h.takeFinished ticket with ⟨hnone, hnone'⟩ | ⟨command, d, d', hsome, hsome', hd⟩
    · rw [hnone, hnone']
      exact agree_pure (.intro _ h)
    · rw [hsome, hsome']
      exact agree_pure (.intro _ hd)
  | succ polls ih =>
    unfold Controller.pollUpTo
    rcases h.takeFinished ticket with ⟨hnone, hnone'⟩ | ⟨command, d, d', hsome, hsome', hd⟩
    · rw [hnone, hnone']
      exact agree_bind (hK.handleInterrupt h) fun _ _ => ih
    · rw [hsome, hsome']
      exact agree_pure (.intro _ hd)

theorem send (budget : Nat) (h : Alike v v' c c') (command : Command) :
    K.Agree (AlikeWith v v') (c.send budget command) (c'.send budget command) := by
  refine agree_bind (hK.enqueue h command none 0) fun _ _ hr => ?_
  cases hr with
  | error err => exact agree_pure (.intro _ h)
  | ok hd =>
    obtain ⟨ticket, hd⟩ := hd
    rename_i d d'
    show K.Agree _ (Controller.pollUpTo ticket (d.config.pollLimit.getD budget) d >>= _)
      (Controller.pollUpTo ticket (d'.config.pollLimit.getD budget) d' >>= _)
    rw [hd.config]
    refine agree_bind (hK.pollUpTo ticket _ hd) ?_
    rintro _ _ ⟨finished, he⟩
    rename_i e e'
    cases finished with
    | some command => exact agree_pure (.intro _ he)
    | none =>
      dsimp only
      rw [he.config]
      cases e.config.pollLimit with
      | none => exact agree_pure (.intro _ he)
      | some polls =>
        refine agree_bind_eq (hK.report _) fun _ => agree_pure (.intro _ ?_)
        obtain ⟨rfl, rfl⟩ := he
        exact ⟨rfl, rfl⟩

theorem submit (budget : Nat) (h : Alike v v' c c') (command : Command)
    (callback : Option Callback) (token : Nat) :
    K.Agree (AlikeWith v v') (c.submit budget command callback token)
      (c'.submit budget command callback token) := by
  cases callback with
  | some handler =>
    refine agree_bind (hK.sendAsync h command handler token) ?_
    rintro _ _ ⟨result, hd⟩
    exact agree_pure (.intro _ hd)
  | none =>
    refine agree_bind (hK.send budget h command) ?_
    rintro _ _ ⟨result, hd⟩
    exact agree_pure (.intro _ hd)

/-! ### Calls -/

theorem answer (budget : Nat) (h : Alike v v' c c') (op : Operation) (hop : op.neutral) :
    K.Agree (AlikeWith v v') (c.answer budget op) (c'.answer budget op) := by
  cases op with
  | send command =>
    refine agree_bind (hK.send budget h command) ?_
    rintro _ _ ⟨result, hd⟩
    exact agree_pure (.intro _ hd)
  | sendAsync command callback token =>
    refine agree_bind (hK.sendAsync h command callback token) ?_
    rintro _ _ ⟨result, hd⟩
    exact agree_pure (.intro _ hd)
  | submit command callback token =>
    refine agree_bind (hK.submit budget h command callback token) ?_
    rintro _ _ ⟨result, hd⟩
    exact agree_pure (.intro _ hd)
  | handleInterrupt =>
    exact agree_bind (hK.handleInterrupt h) fun _ _ hd => agree_pure (.intro _ hd)
  | handleInterruptLine irq =>
    exact agree_bind (hK.handleInterruptLine h irq) fun _ _ hd => agree_pure (.intro _ hd)
  | reset => exact hop.elim
  | setOperational => exact hop.elim
  | query q =>
    have hanswer : q.answer c' = q.answer c := by
      obtain ⟨rfl, rfl⟩ := h
      cases q <;> rfl
    show K.Agree _ (q.answer c >>= _) (q.answer c' >>= _)
    rw [hanswer]
    exact agree_bind_eq (hK.agree (q.neutral_answer c hop)) fun _ => agree_pure (.intro _ h)

/-- **A call** comes to the same. -/
theorem call (budget : Nat) (h : Alike v v' c c') (call : Call) (hcall : call.neutral) :
    K.Agree (AlikeWith v v') (c.call budget call) (c'.call budget call) := by
  cases call with
  | operation op => exact hK.answer budget h op hcall
  | interrupt irq inUse =>
    refine agree_bind (hK.onInterrupt h irq inUse) ?_
    rintro ⟨served, s⟩ ⟨served', s'⟩ ⟨hserved, hs⟩
    obtain rfl : served = served' := hserved
    exact agree_pure (.intro _ hs)
  | powerOn =>
    obtain ⟨rfl, rfl⟩ := h
    have hasks := c.platform.asks_powerOn.mono fun _ => neutral_of_ofPower
    exact agree_bind_eq (hK.agree hasks) fun _ => agree_pure (.intro _ ⟨rfl, rfl⟩)
  | write r value =>
    exact agree_bind_eq (hK.agree (asks_question hcall)) fun _ => agree_pure (.intro _ h)

end Drives

/-- A dump shows what a look at each register shows, and that is all. -/
theorem agree_dumpRegisters {σ σ' : Type} {K : Coupling Answer σ σ'}
    (hkeeps : ∀ level, K.Agree Eq (keeps level) (keeps level))
    (hlook : ∀ r : Register, K.Agree (fun _ _ => True) r.read r.read)
    (hreport : ∀ m m', K.Agree Eq (report m) (report m')) :
    K.Agree Eq dumpRegisters dumpRegisters := by
  unfold dumpRegisters
  generalize Register.diagnostic = registers
  induction registers with
  | nil => exact agree_pure rfl
  | cons entry registers ih =>
    refine agree_bind_eq ?_ fun _ => ih
    refine agree_bind_eq (hkeeps _) fun kept => ?_
    refine agree_ite kept ?_ (agree_pure rfl)
    exact agree_bind (hlook entry.2) fun _ _ _ => hreport _ _

/-- **Calls one after the other** agree if each of them does. -/
theorem agree_callAll {σ σ' : Type} {K : Coupling Answer σ σ'} {v v' : SpecVersion} (budget : Nat)
    {calls : List Call}
    (hcall : ∀ call ∈ calls, ∀ ⦃c c'⦄, Alike v v' c c' →
      K.Agree (AlikeWith v v') (c.call budget call) (c'.call budget call))
    {c c' : Controller} (h : Alike v v' c c') :
    K.Agree (AlikeWith v v') (c.callAll budget calls) (c'.callAll budget calls) := by
  induction calls generalizing c c' with
  | nil => exact agree_pure (.intro _ h)
  | cons call calls ih =>
    refine agree_bind (hcall call List.mem_cons_self h) ?_
    rintro _ _ ⟨reply, hd⟩
    refine agree_bind (ih (fun other hother => hcall other (List.mem_cons_of_mem _ hother)) hd) ?_
    rintro _ _ ⟨replies, he⟩
    exact agree_pure (.intro _ he)

end SdHost
