import SdHost.Proofs.Controller.Bearing
import SdHost.Proofs.Controller.Coupling
import SdHost.Proofs.Turn

/-!
# Leftover status bits

Starting a command leaves the status latch as it is, so what was latched before counts for the
command as well.  It matters as far as it bears on the command: two latches that agree on the bits
that bear on the command on the wire make no difference.  One leftover bit that does bear on it can
end it before its data has moved.

* `Board`, `Board.latching` — hardware with a status latch;
* `deeds` — what is done, but for what is acknowledged;
* `Board.still`, `Board.besides` — the same hardware twice, with the same latch or with latches that
  agree on some bits;
* `agree_pass` — after a pass the latches are the same;
* `agree_turn_aside` — any other turn leaves them alone;
* `Forgets.turn`, `Forgets.takeTurns` — one turn, and turns one after the other;
* `leftover_aside` — leftover bits that do not bear on the command make no difference;
* `leftover_ends_transfer` — one that does.
-/

namespace SdHost

open Dialogue Dialogue.Coupling Register Request InterruptStatus

/-! ### Hardware with a status latch -/

namespace Request

/-- Something is done to the surroundings, and it is no acknowledgement. -/
def deed : Request → Bool
  | write r _ => r ≠ interruptStatus
  | q => q.lasting

/-- A question that has nothing to do with the status latch. -/
def unlatched : Request → Prop
  | read r => r ≠ interruptStatus
  | write r _ => r ≠ interruptStatus
  | _ => True

theorem unlatched_of_ofQuery {q : Request} (h : q.ofQuery) : q.unlatched := by
  have hunlatched : ∀ r ∈ [capabilities, presentState], r ≠ interruptStatus := by decide
  cases q with
  | read r => exact hunlatched r h
  | write r value => exact h.elim
  | _ => trivial

theorem unlatched_of_ofInspection {q : Request} (h : q.ofInspection) : q.unlatched := by
  have hcapabilities : capabilities ≠ interruptStatus := by decide
  cases q with
  | read r => exact (show r = capabilities from h) ▸ hcapabilities
  | write r value => exact h.elim
  | _ => trivial

end Request

/-- What is done to the surroundings, but for what is acknowledged.  What is handed back is among
it. -/
def deeds (es : List Exchange) : List Exchange := es.filter (·.question.deed)

theorem deeds_append (first second : List Exchange) :
    deeds (first ++ second) = deeds first ++ deeds second :=
  List.filter_append first second

/-- Hardware apart from its status latch. -/
structure Board (ρ : Type) where
  reply : Surroundings Answer ρ
  /-- The events that have occurred by the time of a question. -/
  raised : Request → ρ → InterruptStatus

variable {ρ : Type}

namespace Board

/-- The hardware with its status latch.  Events stay latched until they are acknowledged; the rest
of the hardware does not see what is, and the log is no part of it. -/
def latching (b : Board ρ) : Surroundings Answer (ρ × InterruptStatus)
  | .read r, (s, latch) =>
    let latch := latch ||| b.raised (.read r) s
    (if r = interruptStatus then latch.bits else (b.reply (.read r) s).1,
      ((b.reply (.read r) s).2, latch))
  | .write r value, (s, latch) =>
    if r = interruptStatus then ((), (s, ⟨latch.bits &&& ~~~value⟩))
    else ((), ((b.reply (.write r value) s).2, latch ||| b.raised (.write r value) s))
  | .report _, x => ((), x)
  | q, (s, latch) => ((b.reply q s).1, ((b.reply q s).2, latch ||| b.raised q s))

/-- The hardware twice, in states that correspond. -/
def coupling (b : Board ρ) (States : ρ × InterruptStatus → ρ × InterruptStatus → Prop) :
    Coupling Answer (ρ × InterruptStatus) (ρ × InterruptStatus) where
  left := b.latching
  right := b.latching
  States := States
  Traces es es' := deeds es = deeds es'
  nil := rfl
  append h h' := by
    rw [deeds_append, deeds_append, h, h']

/-- The hardware in the same state. -/
def still (b : Board ρ) : Coupling Answer (ρ × InterruptStatus) (ρ × InterruptStatus) :=
  b.coupling Eq

/-- The hardware with latches that agree on some bits. -/
def besides (b : Board ρ) (m : InterruptStatus) :
    Coupling Answer (ρ × InterruptStatus) (ρ × InterruptStatus) :=
  b.coupling fun x x' => x.1 = x'.1 ∧ x.2 &&& m = x'.2 &&& m

/-- Reports do not matter to the hardware. -/
theorem deaf_still (b : Board ρ) : Deaf b.still where
  same := by
    rintro α d x _ rfl
    exact ⟨rfl, rfl, rfl⟩
  report := by
    rintro c c' m m' x _ rfl
    cases c <;> cases c' <;> exact ⟨rfl, rfl, rfl⟩

end Board

/-! ### A pass -/

section Pass

variable {b : Board ρ} {c : Controller}

/-- **A pass** acknowledges what it finds latched, and does what serving that does. -/
theorem ends_pass (hempty : c.serve .empty = pure c) (s : ρ) (latch : InterruptStatus) :
    let found := latch ||| b.raised (.read interruptStatus) s
    let later := (b.reply (.read interruptStatus) s).2
    b.still.Ends Eq c.handleInterrupt (c.serve found) (s, latch) (later, .empty) := by
  intro found later
  have hrest : b.still.Ends Eq
      (if found.isEmpty then pure c
        else acknowledge found >>= fun _ => Controller.reportInformational found >>= fun _ =>
          c.serve found)
      (c.serve found) (later, found) (later, .empty) := by
    -- a pass that finds nothing ends early, which is what serving an empty status comes to
    cases hfound : found.isEmpty with
    | true =>
      have hnone : found = .empty := congrArg InterruptStatus.mk (eq_of_beq hfound)
      rw [hnone, hempty]
      exact ⟨rfl, rfl, rfl⟩
    | false =>
      have hcleared : b.latching (.write interruptStatus found.bits) (later, found) =
          ((), (later, .empty)) := by
        show ((), (later, (⟨found.bits &&& ~~~found.bits⟩ : InterruptStatus))) = _
        rw [UInt32.and_not_self]
        rfl
      have hsame : b.still.States (b.latching (.write interruptStatus found.bits) (later, found)).2
          (later, .empty) := congrArg Prod.snd hcleared
      have hserve : b.still.Agree Eq
          (Controller.reportInformational found >>= fun _ => c.serve found) (c.serve found) :=
        agree_bind_eq (b.deaf_still.reportInformational found) fun _ => b.deaf_still.same _
      obtain ⟨hresult, hstates, htraces⟩ := hserve hsame
      exact ⟨hresult, hstates, htraces⟩
  exact ⟨hrest.result, hrest.states, hrest.traces⟩

/-- **Latches that agree** on the bits that bear on the head make no difference to a pass, and none
to what is after it. -/
theorem agree_pass {head : Entry} {rest : List Entry} (hempty : c.serve .empty = pure c)
    (hq : c.queue.entries = head :: rest) {x x' : ρ × InterruptStatus}
    (h : (b.besides head.command.bearing).States x x') :
    b.still.Ends Eq c.handleInterrupt c.handleInterrupt x x' := by
  obtain ⟨s, latch⟩ := x
  obtain ⟨s', latch'⟩ := x'
  obtain ⟨hs, hlatch⟩ := h
  obtain rfl : s = s' := hs
  have hfound := or_congr hlatch (b.raised (.read interruptStatus) s)
  have hserve := b.deaf_still.serve hq hfound
  have hleft := ends_pass (b := b) hempty s latch
  have hright := ends_pass (b := b) hempty s latch'
  have hmiddle := hserve (s := ((b.reply (.read interruptStatus) s).2, .empty)) rfl
  refine ⟨?_, ?_, ?_⟩
  · exact hleft.result.trans (hmiddle.result.trans hright.result.symm)
  · exact Eq.trans hleft.states (Eq.trans hmiddle.states hright.states.symm)
  · exact Eq.trans hleft.traces (Eq.trans hmiddle.traces hright.traces.symm)

end Pass

/-! ### Any other turn -/

section Aside

variable {b : Board ρ} {m : InterruptStatus} {c : Controller}

theorem indifferent_besides {q : Request} (hq : q.unlatched) : (b.besides m).Indifferent q := by
  rintro ⟨s, latch⟩ ⟨s', latch'⟩ ⟨hs, hlatch⟩
  obtain rfl : s = s' := hs
  have hlater : ∀ events : InterruptStatus, (latch ||| events) &&& m = (latch' ||| events) &&& m :=
    or_congr hlatch
  cases q with
  | read r =>
    refine ⟨?_, ⟨rfl, hlater _⟩, rfl⟩
    show (if r = interruptStatus then _ else _) = (if r = interruptStatus then _ else _)
    rw [if_neg hq, if_neg hq]
  | write r value =>
    have hwrite : ∀ latch : InterruptStatus, b.latching (.write r value) (s, latch) =
        ((), ((b.reply (.write r value) s).2, latch ||| b.raised (.write r value) s)) :=
      fun latch => if_neg hq
    refine ⟨rfl, ?_, rfl⟩
    show (b.besides m).States (b.latching (.write r value) (s, latch)).2
      (b.latching (.write r value) (s, latch')).2
    rw [hwrite, hwrite]
    exact ⟨rfl, hlater _⟩
  | report message => exact ⟨rfl, ⟨rfl, hlatch⟩, rfl⟩
  | _ => exact ⟨rfl, ⟨rfl, hlater _⟩, rfl⟩

/-- A look at a register comes to the same, whatever it shows. -/
theorem look_besides (r : Register) : (b.besides m).Agree (fun _ _ => True) r.read r.read := by
  rintro ⟨s, latch⟩ ⟨s', latch'⟩ ⟨hs, hlatch⟩
  obtain rfl : s = s' := hs
  exact ⟨trivial, ⟨rfl, or_congr hlatch _⟩, rfl⟩

theorem agree_besides {α : Type} {d : Action α} (h : Asks unlatched d) :
    (b.besides m).Agree Eq d d :=
  agree_of_asks (h.mono fun _ => indifferent_besides)

theorem agree_ask (q : Query) : (b.besides m).Agree Eq (q.ask c) (q.ask c) := by
  have hreport : ∀ message message' : Log.Message,
      (b.besides m).Agree Eq (report message) (report message') :=
    fun _ _ _ _ hs => ⟨rfl, hs, rfl⟩
  have hanswer := q.asks_answer c
  have hask : q.ask c = q.answer c >>= fun _ => pure () := by
    cases q <;> simp only [Query.ask, Query.answer, bind_assoc, pure_bind, bind_pure_unit]
  cases q with
  | dumpRegisters =>
    exact agree_dumpRegisters (fun _ => agree_besides (asks_question trivial)) look_besides hreport
  | register r => exact agree_bind (look_besides r) fun _ _ _ => agree_pure rfl
  | _ =>
    have hasks := hanswer (fun h => by cases h) fun r h => by cases h
    rw [hask]
    exact agree_bind_eq (agree_besides (hasks.mono fun _ => unlatched_of_ofQuery)) fun _ =>
      agree_pure rfl

/-- Behind a head on the wire a submission asks what the device can do, and that is all. -/
theorem asks_enqueue_behind (hqueue : c.queue.isEmpty = false) (command : Command)
    (callback : Option Callback) (token : Nat) :
    Asks ofInspection (c.enqueue command callback token).run := by
  have hlargest : Asks ofInspection Capabilities.largestBlock :=
    asks_bind (asks_question rfl) fun _ => asks_pure _
  unfold Controller.enqueue
  refine asks_run_ite _ ?_ (asks_report_throw _ trivial _)
  refine asks_run_bind (asks_run_lift hlargest) fun largest => ?_
  refine asks_run_ite _ (asks_report_throw _ trivial _) ?_
  cases c.queue.push command callback token with
  | none => exact asks_run_throw _
  | some q =>
    dsimp only
    rw [hqueue]
    exact asks_run_pure _

/-- **Any other turn** leaves latches alone as they are, as long as a command is on the wire. -/
theorem agree_turn_aside {t : Turn} (hqueue : c.queue.isEmpty = false) (ht : t ≠ .serve) :
    (b.besides m).Agree Eq (c.turn t) (c.turn t) := by
  have hreport : ∀ message : Log.Message,
      (b.besides m).Agree Eq (report message) (report message) :=
    fun message => agree_besides (asks_question trivial)
  cases t with
  | submit command callback token =>
    have hasks := (asks_enqueue_behind hqueue command callback token).mono fun _ =>
      unlatched_of_ofInspection
    refine agree_bind_eq (agree_besides hasks) fun result => ?_
    cases result <;> exact agree_pure rfl
  | serve => exact (ht rfl).elim
  | ignore irq => exact agree_bind_eq (hreport _) fun _ => agree_pure rfl
  | reset =>
    refine agree_bind_eq ?_ fun _ => agree_pure rfl
    unfold Controller.reset
    rw [hqueue]
    exact agree_bind_eq (hreport _) fun _ => agree_pure rfl
  | setOperational =>
    refine agree_bind_eq ?_ fun _ => agree_pure rfl
    unfold Controller.setOperational
    rw [hqueue]
    exact agree_besides (asks_refuse _ trivial _)
  | query q => exact agree_bind_eq (agree_ask q) fun _ => agree_pure rfl
  | pickUp ticket => exact agree_pure rfl
  | giveUp polls => exact agree_bind_eq (hreport _) fun _ => agree_pure rfl

/-- The head stays where it is. -/
theorem head?_turn_aside {t : Turn} {head : Entry} {ticket : Option Ticket} {es : List Exchange}
    {c' : Controller} (hhead : c.queue.head? = some head) (ht : t ≠ .serve)
    (h : Path (c.turn t) es (ticket, c')) : c'.queue.head? = some head := by
  have haside : t.isEngine = false → c'.queue.head? = some head := by
    intro hengine
    rw [(Controller.leads_turn_aside hengine (leads_of_path h)).queue]
    exact hhead
  cases t with
  | submit command callback token =>
    obtain ⟨_, out, _, henqueue, h₁, -⟩ := path_bind.mp h
    cases out with
    | error err =>
      obtain ⟨-, hc⟩ := path_done.mp h₁
      rw [(Prod.mk.inj hc).2]
      exact hhead
    | ok result =>
      obtain ⟨given, c₁⟩ := result
      obtain ⟨-, hc⟩ := path_done.mp h₁
      obtain ⟨-, rfl⟩ := Prod.mk.inj hc
      obtain ⟨rest, hq⟩ := List.head?_eq_some_iff.mp hhead
      rcases Controller.leads_enqueue (leads_of_path henqueue) with
        ⟨_, habs, -⟩ | ⟨q, c₁, hpush, -, -, hok, hdone⟩
      · cases habs
      · obtain ⟨-, rfl⟩ := Prod.mk.inj (Except.ok.inj hok)
        rw [Queue.isEmpty_of_cons hq, if_neg Bool.false_ne_true] at hdone
        rw [hdone.2]
        show q.entries.head? = some head
        rw [(Queue.push_eq_some hpush).1, hq]
        rfl
  | serve => exact (ht rfl).elim
  | _ => exact haside rfl

end Aside

/-! ### Turns one after the other -/

/-- Turns one after the other: the tickets that were given out, and the controller. -/
def Controller.takeTurns (c : Controller) : List Turn → Action (List (Option Ticket) × Controller)
  | [] => return ([], c)
  | t :: ts => do
    let (ticket, c) ← c.turn t
    let (tickets, c) ← c.takeTurns ts
    return (ticket :: tickets, c)

/-- The status without a bit does nothing to a controller between two turns. -/
theorem Reached.serve_empty {ts : List Record} {c : Controller} {head : Entry}
    (hc : Reached ts c) (hhead : c.queue.head? = some head) : c.serve .empty = pure c := by
  have hrests := hc.ledger.rests
  generalize (accepted ts).drop _ = held at hrests
  cases hrests with
  | idle hq hb =>
    rw [Queue.head?_of_nil hq] at hhead
    cases hhead
  | onWire hq hb ha hm =>
    rw [Controller.serve_cons hq, hb, Entry.advance_empty ha, pure_bind]
    exact congrArg pure (Controller.further_eq hq hb)

/-- States of the hardware that come to the same for a controller: they are the same, or apart from
the latch they are, and the latches agree on the bits that bear on the head. -/
inductive SameFor (c : Controller) : ρ × InterruptStatus → ρ × InterruptStatus → Prop where
  | same (x : ρ × InterruptStatus) : SameFor c x x
  | aside {head : Entry} (hhead : c.queue.head? = some head) (s : ρ)
      {latch latch' : InterruptStatus}
      (h : latch &&& head.command.bearing = latch' &&& head.command.bearing) :
      SameFor c (s, latch) (s, latch')

theorem SameFor.of_besides {b : Board ρ} {c : Controller} {head : Entry}
    (hhead : c.queue.head? = some head) {x x' : ρ × InterruptStatus}
    (h : (b.besides head.command.bearing).States x x') : SameFor c x x' := by
  obtain ⟨s, latch⟩ := x
  obtain ⟨s', latch'⟩ := x'
  obtain ⟨hs, hlatch⟩ := h
  obtain rfl : s = s' := hs
  exact .aside hhead s hlatch

/-- From two states of the hardware a dialogue comes to the same: the result, with the controller,
what is done, and what becomes of the controller later. -/
structure Forgets {α : Type} (b : Board ρ) (d : Action (α × Controller))
    (x x' : ρ × InterruptStatus) : Prop where
  result : (run b.latching d x).1 = (run b.latching d x').1
  later : SameFor (run b.latching d x).1.2 (run b.latching d x).2 (run b.latching d x').2
  deeds : deeds (exchanges b.latching d x) = deeds (exchanges b.latching d x')

namespace Forgets

variable {α β : Type} {b : Board ρ} {ts : List Record} {c : Controller} {x x' : ρ × InterruptStatus}

theorem pure (h : SameFor c x x') (a : α) : Forgets b (Pure.pure (a, c)) x x' :=
  ⟨rfl, h, rfl⟩

theorem bind {d : Action (α × Controller)} {f : α × Controller → Action (β × Controller)}
    (hd : Forgets b d x x')
    (hf : Forgets b (f (run b.latching d x).1) (run b.latching d x).2 (run b.latching d x').2) :
    Forgets b (d >>= f) x x' := by
  obtain ⟨hresult, hlater, hdeeds⟩ := hf
  refine ⟨?_, ?_, ?_⟩
  · rw [run_bind, run_bind, ← hd.result]
    exact hresult
  · rw [run_bind, run_bind, ← hd.result]
    exact hlater
  · rw [exchanges_bind, exchanges_bind, deeds_append, deeds_append, ← hd.result, hd.deeds, hdeeds]

/-- A pass comes to the same, and the latches are the same after it. -/
theorem pass {head : Entry} {rest : List Entry} (hempty : c.serve .empty = Pure.pure c)
    (hq : c.queue.entries = head :: rest) (h : (b.besides head.command.bearing).States x x') :
    Forgets b (c.turn .serve) x x' := by
  obtain ⟨hresult, hafter, hdeeds⟩ := agree_pass hempty hq h
  have hlater : (run b.latching c.handleInterrupt x).2 = (run b.latching c.handleInterrupt x').2 :=
    hafter
  have hturn : c.turn .serve = c.handleInterrupt >>= fun c' => Pure.pure (none, c') := rfl
  rw [hturn]
  refine ⟨?_, ?_, ?_⟩
  · rw [run_bind, run_bind]
    exact congrArg (none, ·) hresult
  · rw [run_bind, run_bind, hlater]
    exact .same _
  · rw [exchanges_bind, exchanges_bind, deeds_append, deeds_append]
    exact congrArg (· ++ []) hdeeds

/-- **One turn.** -/
theorem turn (hc : Reached ts c) (h : SameFor c x x') (t : Turn) : Forgets b (c.turn t) x x' := by
  cases h with
  | same => exact ⟨rfl, .same _, rfl⟩
  | @aside head hhead s latch latch' h =>
    obtain ⟨rest, hq⟩ := List.head?_eq_some_iff.mp hhead
    have hstates : (b.besides head.command.bearing).States (s, latch) (s, latch') := ⟨rfl, h⟩
    -- a pass clears both latches; until then they agree on the bits that bear on the same head
    by_cases ht : t = .serve
    · obtain rfl := ht
      exact pass (hc.serve_empty hhead) hq hstates
    · obtain ⟨hresult, hafter, hdeeds⟩ := agree_turn_aside (Queue.isEmpty_of_cons hq) ht hstates
      have hkept := head?_turn_aside hhead ht (path_run b.latching (c.turn t) (s, latch))
      exact ⟨hresult, .of_besides hkept hafter, hdeeds⟩

/-- **Turns one after the other.** -/
theorem takeTurns (hc : Reached ts c) (h : SameFor c x x') (turns : List Turn) :
    Forgets b (c.takeTurns turns) x x' := by
  induction turns generalizing ts c x x' with
  | nil => exact pure h []
  | cons t turns ih =>
    have hturn := turn (b := b) hc h t
    have hnext := hc.append (Turns.one (path_run b.latching (c.turn t) x))
    have hrest := ih hnext hturn.later
    exact hturn.bind (hrest.bind (pure hrest.later _))

end Forgets

/-- **Leftover status bits** that do not bear on the command on the wire make no difference.  From
any controller that is reached, any turns come to the same with two latches that agree on the bits
that bear on the head: the tickets, the controller, the rest of the hardware, and all that is done
but for what is acknowledged, with every command that is handed back. -/
theorem leftover_aside {ts : List Record} {c : Controller} {head : Entry} (hc : Reached ts c)
    (hhead : c.queue.head? = some head) (b : Board ρ) (s : ρ) (latch latch' : InterruptStatus)
    (h : latch &&& head.command.bearing = latch' &&& head.command.bearing) (turns : List Turn) :
    let d := c.takeTurns turns
    (run b.latching d (s, latch)).1 = (run b.latching d (s, latch')).1 ∧
    (run b.latching d (s, latch)).2.1 = (run b.latching d (s, latch')).2.1 ∧
    deeds (exchanges b.latching d (s, latch)) = deeds (exchanges b.latching d (s, latch')) := by
  intro d
  obtain ⟨hresult, hlater, hdeeds⟩ := Forgets.takeTurns (b := b) hc (.aside hhead s h) turns
  refine ⟨hresult, ?_, hdeeds⟩
  generalize (run b.latching d (s, latch)).2 = y at hlater
  generalize (run b.latching d (s, latch')).2 = y' at hlater
  cases hlater with
  | same => rfl
  | aside => rfl

/-! ### Hardware to look at -/

/-- Hardware that raises events one after the other, each when the status is read; every register
reads as zero. -/
def Board.eventful : Board (List InterruptStatus) where
  reply q later :=
    ((scripted q []).1, match q with
      | .read r => if r = interruptStatus then later.tail else later
      | _ => later)
  raised q later :=
    match q with
    | .read r => if r = interruptStatus then later.headD .empty else .empty
    | _ => .empty

/-- The read of two blocks on the wire, with a card and a DMA event left over and with nothing left
over: it ends well either way. -/
theorem leftover_aside_read :
    let d := Controller.reading.takeTurns [.serve, .serve]
    let later := [commandComplete ||| bufferReadReady, transferComplete ||| bufferReadReady]
    let latch := cardInsertion ||| dmaInterrupt
    ∃ head, Controller.reading.queue.head? = some head ∧
      latch &&& head.command.bearing = .empty &&& head.command.bearing ∧
      (run Board.eventful.latching d (later, latch)).1 =
        (run Board.eventful.latching d (later, .empty)).1 ∧
      deeds (exchanges Board.eventful.latching d (later, latch)) =
        deeds (exchanges Board.eventful.latching d (later, .empty)) ∧
      (run Board.eventful.latching d (later, .empty)).1.2.finished.map (·.2.completion) =
        some .succeeded := by
  intro d later latch
  have hhead : Controller.reading.queue.head? =
      some (Entry.inFlight (.submission .twoBlockRead none 0 0) []) := by decide +kernel
  have hlatch : latch &&& (Entry.inFlight (.submission .twoBlockRead none 0 0) []).command.bearing =
      .empty &&& (Entry.inFlight (.submission .twoBlockRead none 0 0) []).command.bearing := by
    decide +kernel
  obtain ⟨hresult, -, hdeeds⟩ :=
    leftover_aside reached_reading hhead .eventful later latch .empty hlatch [.serve, .serve]
  exact ⟨_, hhead, hlatch, hresult, hdeeds, by decide +kernel⟩

/-- **One leftover bit** can end a command.  The end of an earlier transfer is latched while nothing
is queued; then two blocks are to be read, and the card answers.  The read comes back well although
no block has moved; without the leftover bit it is still on the wire. -/
theorem leftover_ends_transfer :
    let d := Controller.rested.takeTurns [.submit .twoBlockRead none 0, .serve]
    Reached [] Controller.rested ∧ Controller.rested.isIdle = true ∧
    (run Board.eventful.latching d ([commandComplete], transferComplete)).1.2.finished.map
      (fun f => (f.2.completion, f.2.words)) = some (.succeeded, Command.twoBlockRead.words) ∧
    (run Board.eventful.latching d ([commandComplete], .empty)).1.2.finished = none ∧
    (run Board.eventful.latching d ([commandComplete], .empty)).1.2.isPending 0 = true := by
  intro d
  exact ⟨reached_rested, rfl, by decide +kernel, by decide +kernel, by decide +kernel⟩

end SdHost
