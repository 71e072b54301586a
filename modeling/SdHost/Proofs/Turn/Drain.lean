import SdHost.Proofs.Controller.Drain
import SdHost.Proofs.Turn.Bounds

/-!
# What follows the end of a head

When the head of a controller that was reached ends in a pass, the same pass hands it back and then
those behind it that cannot be started, in their order, up to the first that can.  What is left
rests: that one is on the wire, or nothing is queued.  A pass that hands nothing back has not ended
the head.

* `Reached.passes` — a pass over the head of a controller that was reached;
* `Reached.landed` — the head that has ended, as a submission after its passes;
* `Controller.Running`, `Reached.running` — the head that has not ended;
* `failures_drain` — the whole of a pass, and of a submission to an idle controller.
-/

namespace SdHost

open Dialogue (Path)
open Register Controller

variable {ts : List Record} {c c' : Controller} {es : List Exchange} {head : Entry}
  {waiting : List Entry}

/-- A controller at which nothing is queued has no block to move. -/
theorem Reached.blocksRemaining_idle (h : Reached ts c) (hqueue : c.queue.entries = []) :
    c.blocksRemaining = 0 := by
  have hrests := h.ledger.rests
  generalize (accepted ts).drop _ = held at hrests
  cases hrests with
  | idle hq hb => exact hb
  | onWire hq hb ha hm => cases hqueue.symm.trans hq

/-- **A pass over the head** of a controller that was reached: the head is a submission after its
passes, and this is one more. -/
theorem Reached.passes (h : Reached ts c) (hqueue : c.queue.entries = head :: waiting)
    (hpass : Path c.handleInterrupt es c') :
    ∃ (s : Entry) (ps : List Pass), head = s.inFlight ps ∧ c.Passes s ps (events es) c' := by
  have hheld := h.ledger.held
  have hrests := h.ledger.rests
  generalize (accepted ts).drop _ = held at hheld hrests
  cases hrests with
  | idle hq hb => cases hqueue.symm.trans hq
  | @onWire s rest hq hb ha hm =>
    obtain ⟨rfl, rfl⟩ := List.cons.inj (hqueue.symm.trans hq)
    have hfresh : ∀ s' ∈ waiting, s'.Fresh :=
      fun s' hs' => (hheld s' (List.mem_cons_of_mem _ hs')).fresh
    exact ⟨s, _, rfl, leads_handleInterrupt_onWire hq hb ha hfresh (leads_of_path hpass)⟩

/-- **A head that has ended** in a pass is a submission that has landed after its passes. -/
theorem Reached.landed (h : Reached ts c) (hqueue : c.queue.entries = head :: waiting)
    (hpass : Path c.handleInterrupt es c') {e : Entry} {later : List (Entry × Route)}
    (hhanded : handed (events es) = (e, c.routeOf e) :: later) :
    ∃ (s : Entry) (ps : List Pass), head = s.inFlight ps ∧
      s.Lands (ps ++ [events es]) e.command.completion e := by
  obtain ⟨s, ps, hs, hpasses⟩ := h.passes hqueue hpass
  cases hpasses with
  | goesOn _ _ hnone _ _ _ => cases hhanded.symm.trans hnone
  | @ends v e' _ hlands _ hsome _ _ _ _ =>
    obtain ⟨hfirst, -⟩ := List.cons.inj (hhanded.symm.trans hsome)
    obtain rfl : e = e' := congrArg Prod.fst hfirst
    have hcompletion : e.command.completion = v := by
      obtain ⟨commandDone, dataDone, rfl⟩ := hlands.entry
      rfl
    rw [hcompletion]
    exact ⟨s, ps, hs, hlands⟩

/-- The submission `s` is on the wire after the passes `ps`, none of which has ended it, and the
others wait behind it. -/
structure Controller.Running (c : Controller) (s : Entry) (ps : List Pass) (waiting : List Entry) :
    Prop where
  running : s.Aloft ps
  queue : c.queue.entries = s.inFlight ps :: waiting
  blocks : c.blocksRemaining = s.blocksLeft ps

/-- **A pass that hands nothing back** has not ended the head, and starts nothing. -/
theorem Reached.running (h : Reached ts c) (hqueue : c.queue.entries = head :: waiting)
    (hpass : Path c.handleInterrupt es c') (hhanded : handed (events es) = []) :
    ∃ (s : Entry) (ps : List Pass), head = s.inFlight ps ∧
      c'.Running s (ps ++ [events es]) waiting ∧ SdHost.starts (events es) = [] := by
  obtain ⟨s, ps, hs, hpasses⟩ := h.passes hqueue hpass
  cases hpasses with
  | goesOn ha hc _ _ hstarts _ =>
    rw [hc]
    refine ⟨s, ps, hs, ⟨ha, ?_, rfl⟩, hstarts⟩
    rw [further, Queue.entries_modifyHead, hqueue]
    rfl
  | ends _ _ hsome _ _ _ _ => cases hhanded.symm.trans hsome

/-- **Failures to start drain in order, up to the first success.**  Whatever the hardware answers, a
pass over a controller that was reached in which something is handed back has ended the head: it is
handed back with its own outcome, and those behind it that cannot be started follow in their order,
each attempted once and failed because the lines are busy.  Either no command is left then, and no
block to move, or the next one is on the wire with its blocks to move.  The same holds for a
submission to an idle controller with the one command submitted.  A pass in which nothing is handed
back has not ended the head, and starts nothing.  An attempt that fails writes the event mask and
nothing else, and the loop over the queue comes to its end, so it is not cut off. -/
theorem failures_drain (h : Reached ts c) :
    (∀ head waiting es c', c.queue.entries = head :: waiting → Path c.handleInterrupt es c' →
      handed (events es) ≠ [] → ∃ (s : Entry) (ps : List Pass) (e : Entry) (gone left : List Entry),
        head = s.inFlight ps ∧ s.Lands (ps ++ [events es]) e.command.completion e ∧
        c.EndsHead head e waiting gone c' es ∧
        (handed (events es)).map Prod.fst = e :: gone.map Entry.refused ∧
        waiting = gone ++ left ∧ c'.Left left) ∧
    (∀ head waiting es c', c.queue.entries = head :: waiting → Path c.handleInterrupt es c' →
      handed (events es) = [] → ∃ (s : Entry) (ps : List Pass), head = s.inFlight ps ∧
        c'.Running s (ps ++ [events es]) waiting ∧ starts (events es) = []) ∧
    (∀ command callback token es ticket c', c.queue.entries = [] →
      Path (c.enqueue command callback token).run es (.ok (ticket, c')) →
      ∃ look drained gone left,
        es = look ++ drained ∧ Path (inspect command) look (.ok ()) ∧
        Drains (c.joined ⟨command, callback, token⟩) drained gone c' ∧
        (handed (events es)).map Prod.fst = gone.map Entry.refused ∧
        [.submission command callback token ticket] = gone ++ left ∧ c'.Left left) ∧
    (∀ (d : Controller) s es cause, Path (d.attempt s) es (.error cause) →
      cause = .controllerBusy ∧
      writes es = [(interruptStatusEnable, s.command.interruptMask.bits)]) ∧
    ∀ d : Controller, d.dispatch = d.issueHead >>= fun r =>
      match r with
      | (none, d) => pure d
      | (some failed, d) => d.deliver failed >>= Controller.dispatch := by
  refine ⟨?_, fun _ _ _ _ hqueue hpass hnone => h.running hqueue hpass hnone, ?_,
    fun _ _ _ _ hattempt => writes_attempt hattempt, dispatch_loop⟩
  · intro head waiting es c' hqueue hpass hhanded
    have hfresh : ∀ s ∈ waiting, s.Fresh := by
      have htail := h.fresh_tail
      rw [hqueue] at htail
      exact htail
    obtain ⟨e, gone, hends⟩ := endsHead_of_path hqueue hfresh hpass hhanded
    obtain ⟨later, hall, hlater⟩ := hends.handed_eq
    obtain ⟨s, ps, hs, hlands⟩ := h.landed hqueue hpass hall
    have hpopped : (c.popped.settle e).queue.entries = waiting := by
      rw [queue_settle, popped, Queue.entries_tail, hqueue]
      rfl
    have hnone : (c.popped.settle e).blocksRemaining = 0 := blocksRemaining_settle
    have hdrains := hends
    obtain ⟨-, -, -, -, hdrains⟩ := hdrains
    obtain ⟨left, hsplit, hleft⟩ := hdrains.left hnone
    refine ⟨s, ps, e, gone, left, hs, hlands, hends, ?_, hpopped.symm.trans hsplit, hleft⟩
    rw [hall, List.map_cons, hlater]
  · intro command callback token es ticket c' hqueue hsubmit
    obtain ⟨look, drained, gone, rfl, hlook, hentries, hdrains⟩ := drains_of_enqueue hqueue hsubmit
    have hnone : (c.joined ⟨command, callback, token⟩).blocksRemaining = 0 :=
      h.blocksRemaining_idle hqueue
    obtain ⟨left, hsplit, hleft⟩ := hdrains.left hnone
    refine ⟨look, drained, gone, left, rfl, hlook, hdrains, ?_, hentries.symm.trans hsplit, hleft⟩
    rw [events_append, handed_append, handed_inspect hlook, List.nil_append, hdrains.handed_eq]

/-- A controller that has just started to read two blocks, with two more commands behind. -/
def Controller.laden : Controller :=
  (Controller.reading.after (.submit (Command.new 13 0 .r1) (some ⟨1⟩) 0) []).after
    (.submit .twoBlockRead (some ⟨2⟩) 0) []

theorem reached_laden : ∃ ts, Reached ts Controller.laden :=
  ⟨_, reached_reading.append
    ((Turns.nil.scripted (.submit (Command.new 13 0 .r1) (some ⟨1⟩) 0) []).scripted
      (.submit .twoBlockRead (some ⟨2⟩) 0) [])⟩

/-- The read fails, and the first command behind it finds the lines busy: both come back in the same
pass, and the second one, a read of two blocks, is on the wire then. -/
theorem failures_drain_busy :
    ∃ ts head waiting es c' e gone left, Reached ts Controller.laden ∧
      Controller.laden.queue.entries = head :: waiting ∧ waiting.length = 2 ∧
      Path Controller.laden.handleInterrupt es c' ∧
      (handed (events es)).map (fun d => d.1.command.completion) =
        [.failed .commandTimeout, .failed .controllerBusy] ∧
      Controller.laden.EndsHead head e waiting gone c' es ∧ waiting = gone ++ left ∧
      gone.length = 1 ∧ c'.Left left ∧ c'.blocksRemaining = 2 := by
  obtain ⟨ts, hreached⟩ := reached_laden
  obtain ⟨hpass, -⟩ := failures_drain hreached
  have hpath : Path Controller.laden.handleInterrupt _ _ :=
    path_scripted [(.interruptStatus, 0x18000), (.presentState, 1)] rfl
  obtain ⟨s, ps, e, gone, left, -, -, hends, hhanded, hsplit, hleft⟩ :=
    hpass _ _ _ _ rfl hpath (by decide +kernel)
  have hcount : (e :: gone.map Entry.refused).length = 2 := by
    rw [← hhanded]
    decide +kernel
  have hgone : gone.length = 1 := by simpa using hcount
  exact ⟨ts, _, _, _, _, e, gone, left, hreached, rfl, rfl, hpath, by decide +kernel, hends,
    hsplit, hgone, hleft, by decide +kernel⟩

end SdHost
