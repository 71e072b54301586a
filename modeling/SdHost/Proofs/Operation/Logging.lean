import SdHost.Log.Logger
import SdHost.Proofs.Controller.Coupling

/-!
# The log does not influence the driver

Whether a record is kept decides in two places what the driver does next: a dump reads registers
only if it would be kept, and so does the report on the card after a reset.  Such a read is all
there is to it.  On hardware that is not changed by a look at its state, two sessions that differ in
their loggers come to the same, a dump apart.

* `logged` — surroundings with a logger;
* `apart` — the same surroundings with any two loggers;
* `agree_answer_apart` — the calls agree there;
* `session_logged` — so do whole sessions.
-/

namespace SdHost

open Dialogue Dialogue.Coupling Register Request Controller

variable {σ : Type}

/-- Surroundings with a logger.  What is kept is decided by its verbosity; all that has nothing to
do with the log is answered from a state of its own. -/
def logged (reply : Surroundings Answer σ) : Surroundings Answer (σ × Log.Logger)
  | .keeps level, (s, l) => (l.verbosity.admits level, (s, l))
  | .report m, (s, l) => ((), (s, l.log m.record))
  | q, (s, l) => ((reply q s).1, ((reply q s).2, l))

/-- A record does not change what is kept. -/
theorem verbosity_log (l : Log.Logger) (r : Log.Record) : (l.log r).verbosity = l.verbosity := by
  unfold Log.Logger.log
  split <;> rfl

namespace Request

/-- A question that does not ask what the log keeps. -/
def unlogged : Request → Prop
  | keeps _ => False
  | _ => True

theorem unlogged_of_neutral {q : Request} (h : q.neutral) : q.unlogged := by
  cases q with
  | keeps level => exact h
  | _ => trivial

theorem unlogged_of_ofControl {q : Request} (h : q.ofControl) : q.unlogged := by
  cases q with
  | keeps level => exact h
  | _ => trivial

end Request

/-- The same surroundings with any two loggers. -/
def apart (reply : Surroundings Answer σ) :
    Coupling Answer (σ × Log.Logger) (σ × Log.Logger) where
  left := logged reply
  right := logged reply
  States s s' := s.1 = s'.1
  Traces es es' := doings es = doings es'
  nil := rfl
  append h h' := by
    rw [doings_append, doings_append, h, h']

variable {reply : Surroundings Answer σ}

theorem indifferent_apart {q : Request} (hq : q.unlogged) : (apart reply).Indifferent q := by
  rintro ⟨s, l⟩ ⟨s', l'⟩ hs
  obtain rfl : s = s' := hs
  cases q with
  | keeps level => exact hq.elim
  | _ => exact ⟨rfl, rfl, rfl⟩

theorem agree_apart {α : Type} {d : Action α} (h : Asks unlogged d) : (apart reply).Agree Eq d d :=
  agree_of_asks (h.mono fun _ => indifferent_apart)

theorem drives_apart (reply : Surroundings Answer σ) (v : SpecVersion) :
    Drives (apart reply) v v where
  neutral _ hq := indifferent_apart (unlogged_of_neutral hq)
  start platform command := by
    refine agree_apart ((command.asks_start platform v).mono fun q hq => ?_)
    cases q with
    | keeps level => exact hq
    | _ => trivial

/-! ### Resetting -/

section Reset

-- A look at the state of the hardware does not change it.
variable (hlook : ∀ s, (reply (.read presentState) s).2 = s)

include hlook

/-- Whether the card is read-only is looked at or not, without a trace. -/
theorem agree_reportCard : (apart reply).Agree Eq reportCard reportCard := by
  have hpresent : Asks unlogged cardPresent :=
    asks_bind (asks_question trivial) fun _ => asks_pure _
  refine agree_bind_eq (agree_apart hpresent) fun present => ?_
  refine agree_ite present ?_ (agree_apart (asks_question trivial))
  have hsilent : ∀ s l,
      (run (logged reply) (keeps .info >>= fun kept =>
        if kept then cardWriteProtected >>= fun locked => report (.cardPresent locked)
        else pure ()) (s, l)).2.1 = s ∧
      doings (exchanges (logged reply) (keeps .info >>= fun kept =>
        if kept then cardWriteProtected >>= fun locked => report (.cardPresent locked)
        else pure ()) (s, l)) = [] := by
    intro s l
    have hkeeps : run (logged reply) (keeps .info) (s, l) =
        (l.verbosity.admits .info, (s, l)) := rfl
    rw [run_bind, exchanges_bind, hkeeps]
    cases l.verbosity.admits .info with
    | false => exact ⟨rfl, rfl⟩
    | true => exact ⟨hlook s, rfl⟩
  rintro ⟨s, l⟩ ⟨s', l'⟩ hs
  obtain rfl : s = s' := hs
  exact ⟨rfl, (hsilent s l).1.trans (hsilent s l').1.symm,
    (hsilent s l).2.trans (hsilent s l').2.symm⟩

theorem agree_resetSequence (c : Controller) :
    (apart reply).Agree Eq c.resetSequence.run c.resetSequence.run := by
  have hcontrol : ∀ {ε α : Type} {d : ExceptT ε Action α}, Asks ofControl d.run →
      (apart reply).Agree (Results Eq) d.run d.run :=
    fun h => agree_results (agree_apart (h.mono fun _ => unlogged_of_ofControl))
  have hevents : Asks unlogged enableEvents :=
    asks_bind (asks_question trivial) fun _ => asks_question trivial
  have hbus : Asks unlogged (Register.modify ProtocolControl.fourBit) :=
    asks_bind (asks_question trivial) fun _ => asks_question trivial
  refine agree_of_results ?_
  refine agree_run_bind (hcontrol c.asks_resetHardware) fun _ _ _ => ?_
  refine agree_run_bind (agree_run_lift (agree_apart hevents)) fun _ _ _ => ?_
  refine agree_run_bind (hcontrol (Platform.asks_setClock ..)) fun _ _ _ => ?_
  refine agree_run_bind (agree_run_lift (agree_apart hbus)) fun _ _ _ => ?_
  refine agree_run_bind (hcontrol c.asks_wakeCard) fun _ _ _ => ?_
  exact agree_run_lift (agree_reportCard hlook)

theorem agree_reset {v : SpecVersion} {c c' : Controller} (h : Alike v v c c') :
    (apart reply).Agree (AlikeWith v v) c.reset c'.reset := by
  obtain rfl := h.eq
  refine agree_ite c'.queue.isEmpty ?_ ?_
  · refine agree_bind_eq (agree_resetSequence hlook c') fun result => ?_
    cases result with
    | ok u => exact agree_pure (.intro _ ⟨h.version, by rw [← h.version]; rfl⟩)
    | error e => exact agree_pure (.intro _ h)
  · exact agree_bind_eq (agree_apart (asks_question trivial)) fun _ => agree_pure (.intro _ h)

end Reset

/-! ### Calls -/

/-- Any call but a dump. -/
def Call.undumped : Call → Prop
  | operation (.query .dumpRegisters) => False
  | _ => True

theorem Query.unlogged_answer (c : Controller) (q : Query) (hq : q ≠ .dumpRegisters) :
    Asks unlogged (q.answer c) := by
  have hneutral : q.neutral → Asks unlogged (q.answer c) :=
    fun h => (q.neutral_answer c h).mono fun _ => unlogged_of_neutral
  cases q with
  | dumpRegisters => exact (hq rfl).elim
  | register r => exact asks_bind (asks_question trivial) fun _ => asks_pure _
  | _ => exact hneutral trivial

theorem unlogged_takeOver (platform : Platform) (irqs : List UInt32) (config : Config) :
    Asks unlogged (takeOver platform irqs config).run := by
  have hversion : Asks unlogged rawVersion := asks_bind (asks_question trivial) fun _ => asks_pure _
  have hstatus : Asks unlogged latchedStatus :=
    asks_bind (asks_question trivial) fun _ => asks_pure _
  unfold takeOver
  split
  · exact asks_report_throw _ trivial _
  · refine asks_run_bind (asks_run_lift hversion) fun version => ?_
    refine asks_run_bind (asks_run_lift (asks_question trivial)) fun _ => ?_
    refine asks_run_bind (asks_run_lift (asks_question trivial)) fun _ => ?_
    refine asks_run_bind (asks_run_lift hstatus) fun status => ?_
    refine asks_run_bind (asks_run_lift (asks_question trivial)) fun _ => ?_
    exact asks_run_bind (asks_run_lift (asks_question trivial)) fun _ => asks_run_pure _

theorem unlogged_setOperational (c : Controller) : Asks unlogged c.setOperational.run := by
  refine asks_run_ite c.queue.isEmpty ?_ (asks_refuse _ trivial _)
  exact (Platform.asks_setClock ..).mono fun _ => unlogged_of_ofControl

section Calls

-- A look at the state of the hardware does not change it.
variable (hlook : ∀ s, (reply (.read presentState) s).2 = s) (budget : Nat)

include hlook

/-- **A call** comes to the same with any two loggers. -/
theorem agree_call_apart {call : Call} (hcall : call.undumped) {v : SpecVersion}
    {c c' : Controller} (h : Alike v v c c') :
    (apart reply).Agree (AlikeWith v v) (c.call budget call) (c'.call budget call) := by
  have hdrives := drives_apart reply v
  cases call with
  | interrupt irq inUse => exact hdrives.call budget h _ trivial
  | powerOn => exact hdrives.call budget h .powerOn trivial
  | write r value =>
    exact agree_bind_eq (agree_apart (asks_question trivial)) fun _ => agree_pure (.intro _ h)
  | operation op =>
    have hneutral := hdrives.answer budget h op
    cases op with
    | reset =>
      refine agree_bind (agree_reset hlook h) ?_
      rintro _ _ ⟨result, hd⟩
      exact agree_pure (.intro _ hd)
    | setOperational =>
      obtain rfl := h.eq
      exact agree_bind_eq (agree_apart (unlogged_setOperational c')) fun _ =>
        agree_pure (.intro _ h)
    | query q =>
      obtain rfl := h.eq
      have hq : q ≠ .dumpRegisters := by
        rintro rfl
        exact hcall
      exact agree_bind_eq (agree_apart (q.unlogged_answer c' hq)) fun _ =>
        agree_pure (.intro _ h)
    | _ => exact hneutral trivial

theorem agree_session_apart (platform : Platform) (irqs : List UInt32) (config : Config)
    {calls : List Call} (hcalls : ∀ call ∈ calls, call.undumped) :
    (apart reply).Agree Eq (session budget platform irqs config calls)
      (session budget platform irqs config calls) := by
  refine agree_bind_eq (agree_apart (unlogged_takeOver platform irqs config)) fun result => ?_
  cases result with
  | error e => exact agree_pure rfl
  | ok c =>
    have halike : Alike c.version c.version c c := ⟨rfl, rfl⟩
    refine agree_bind (agree_callAll budget (fun call hcall _ _ hc =>
      agree_call_apart hlook budget (hcalls call hcall) hc) halike) ?_
    rintro _ _ ⟨replies, hd⟩
    obtain rfl := hd.eq
    exact agree_pure rfl

end Calls

/-- **The log does not influence the driver.**  On hardware that is not changed by a look at its
state, any calls but dumps come to the same results with any two loggers: the answers, the
controller, the hardware and all that was done to it are the same. -/
theorem session_logged (reply : Surroundings Answer σ)
    (hlook : ∀ s, (reply (.read presentState) s).2 = s) (budget : Nat) (platform : Platform)
    (irqs : List UInt32) (config : Config) (calls : List Call)
    (hcalls : ∀ call ∈ calls, call.undumped) (s : σ) (l l' : Log.Logger) :
    let d := session budget platform irqs config calls
    (run (logged reply) d (s, l)).1 = (run (logged reply) d (s, l')).1 ∧
    (run (logged reply) d (s, l)).2.1 = (run (logged reply) d (s, l')).2.1 ∧
    doings (exchanges (logged reply) d (s, l)) = doings (exchanges (logged reply) d (s, l')) := by
  intro d
  have hstates : (apart reply).States (s, l) (s, l') := rfl
  obtain ⟨hresult, hend, hdoings⟩ :=
    agree_session_apart hlook budget platform irqs config hcalls hstates
  exact ⟨hresult, hend, hdoings⟩

/-! ### A session to look at -/

/-- A reset with a card in the slot and a pass that finds nothing, with no record kept and with all
of them kept: the reset succeeds either way, and what is done is the same. -/
theorem session_logged_reset :
    let calls : List Call := [.operation .reset, .operation .handleInterrupt]
    let d := session 2 .imx6 [86] { spinLimit := 1 } calls
    let f := Bench.RegisterFile.initial
    let silent : Log.Logger := { verbosity := .off }
    let talkative : Log.Logger := { verbosity := .upTo .trace }
    (∀ f, (Bench.RegisterFile.answer (.read presentState) f).2 = f) ∧
    (∀ call ∈ calls, call.undumped) ∧
    (run (logged Bench.RegisterFile.answer) d (f, silent)).1.map (·.1) =
      .ok [.finished (.ok ()), .nothing] ∧
    (run (logged Bench.RegisterFile.answer) d (f, talkative)).1.map (·.1) =
      .ok [.finished (.ok ()), .nothing] ∧
    doings (exchanges (logged Bench.RegisterFile.answer) d (f, silent)) =
      doings (exchanges (logged Bench.RegisterFile.answer) d (f, talkative)) := by
  intro calls d f silent talkative
  have hcalls : ∀ call ∈ calls, call.undumped :=
    List.forall_mem_cons.mpr ⟨trivial, List.forall_mem_cons.mpr ⟨trivial, List.forall_mem_nil _⟩⟩
  obtain ⟨hresult, -, hdoings⟩ :=
    session_logged Bench.RegisterFile.answer Bench.RegisterFile.look_answer 2 .imx6 [86]
      { spinLimit := 1 } calls hcalls f silent talkative
  have hsilent : (run (logged Bench.RegisterFile.answer) d (f, silent)).1.map (·.1) =
      .ok [.finished (.ok ()), .nothing] := by decide +kernel
  exact ⟨Bench.RegisterFile.look_answer, hcalls, hsilent,
    (congrArg (Except.map (·.1)) hresult).symm.trans hsilent, hdoings⟩

end SdHost
