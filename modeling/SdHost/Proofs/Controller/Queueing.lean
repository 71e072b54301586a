import SdHost.Proofs.Controller.Asks
import SdHost.Proofs.Dialogue.Commuting

/-!
# Queueing

A command that waits in the queue is started when its predecessor has ended, before that one is
handed back; a command that is submitted later is started when its predecessor has been handed back.
In surroundings where this makes no difference, it makes no difference to the controller whether a
command is submitted before a pass or after it.

* `Undisturbed` — handing back does not disturb the device, nor does a look at what it can do;
* `Controller.run_complete` — a head that has ended can be handed back first;
* `Controller.dispatch_joined` — dispatching with one more command at the end of the queue;
* `Controller.run_handleInterrupt_joined` — a pass over a queue with one more command;
* `Controller.run_post_swap` — a submission before a pass, and after it.
-/

namespace SdHost

open Dialogue Request

variable {σ : Type}

/-- Surroundings in which handing back does not disturb the device, and looking at what the device
can do disturbs nothing. -/
structure Undisturbed (reply : Surroundings Answer σ) : Prop where
  handBack : ∀ e route q, q.ofDevice → Commutes reply (.handBack e route) q
  capabilities : ∀ q, q.ofEngine → Commutes reply (.read .capabilities) q
  report : ∀ m q, Commutes reply (.report m) q

/-- A command that is submitted with the handler that is told of its end. -/
structure Post where
  command : Command
  handler : Callback
  token : Nat

/-- What is submitted. -/
def Post.submission (p : Post) : Submission := ⟨p.command, some p.handler, p.token⟩

namespace Controller

variable {reply : Surroundings Answer σ} {c : Controller} {e head : Entry} {rest : List Entry}

/-- What is told about a command that is handed back can be told before another is started. -/
theorem run_swap_announce {α β : Type} (h : Undisturbed reply) (e : Entry) (route : Route)
    {d : Action α} (hd : Asks ofDevice d) {k : α → Action β} :
    Dialogue.run reply (d >>= fun a => announce e route >>= fun _ => k a) =
      Dialogue.run reply (announce e route >>= fun _ => d >>= fun a => k a) := by
  refine (run_swap ?_).symm
  refine (asks_announce e route).mono fun q hq => ?_
  refine hd.mono fun q' hq' => ?_
  cases q with
  | handBack e route => exact h.handBack e route q' hq'
  | report m => exact h.report m q'
  | _ => exact hq.elim

/-- A command can be looked at before a pass. -/
theorem run_swap_inspect {α β : Type} (h : Undisturbed reply) (command : Command) {d : Action α}
    (hd : Asks ofEngine d) {k : α → Except SubmitError Unit → Action β} :
    Dialogue.run reply (d >>= fun a => inspect command >>= fun verdict => k a verdict) =
      Dialogue.run reply (inspect command >>= fun verdict => d >>= fun a => k a verdict) := by
  refine (run_swap ?_).symm
  refine (asks_inspect command).mono fun q hq => ?_
  refine hd.mono fun q' hq' => ?_
  cases q with
  | read r =>
    obtain rfl : r = .capabilities := hq
    exact h.capabilities q' hq'
  | report m => exact h.report m q'
  | _ => exact hq.elim

/-- **A head that has ended** can be handed back before the next one is started. -/
theorem run_complete (h : Undisturbed reply) (hfresh : ∀ s ∈ c.queue.entries.tail, s.Fresh) :
    Dialogue.run reply (c.complete e) =
      Dialogue.run reply (announce e (c.routeOf e) >>= fun _ => (c.popped.settle e).dispatch) := by
  cases hs : c.queue.entries.tail with
  | nil => rw [complete_nil hs, dispatch_nil (entries_popped_settle.trans hs)]
  | cons s rest =>
    have hhead : s.Fresh := hfresh s (by rw [hs]; exact List.mem_cons_self)
    rw [complete_cons hs hhead, run_swap_announce h e _ (Command.asks_issue _ _ _ _),
      dispatch_cons (entries_popped_settle.trans hs) hhead, platform_settle, version_settle,
      config_settle]
    rfl

/-! ### One more command -/

/-- Handing back does not depend on what is queued. -/
theorem settle_joined (c : Controller) (e : Entry) (p : Post) :
    (c.joined p.submission).settle e = (c.settle e).joined p.submission := by
  have hroute : (c.joined p.submission).routeOf e = c.routeOf e := rfl
  unfold settle
  rw [hroute]
  cases c.routeOf e <;> rfl

/-- A submission joins behind a head that goes on. -/
theorem withHead_joined (hs : c.queue.entries = head :: rest)
    (hroom : c.queue.entries.length < queueDepth) (p : Post) (e : Entry) (blocks : Nat) :
    (c.joined p.submission).withHead e blocks = (c.withHead e blocks).joined p.submission := by
  have hqueue := Queue.modifyHead_joined hs hroom p.submission fun _ => e
  exact congrArg (fun q => { c with queue := q, blocksRemaining := blocks }) hqueue

/-- A submission joins behind a head that leaves. -/
theorem dropHead_joined (hs : c.queue.entries = head :: rest)
    (hroom : c.queue.entries.length < queueDepth) (p : Post) :
    (c.joined p.submission).dropHead = c.dropHead.joined p.submission := by
  have hqueue := Queue.tail_joined hs hroom p.submission
  exact congrArg (fun q => { c with queue := q }) hqueue

/-- **Dispatching with one more command** dispatches the others first; the last one is then taken
in as if it were submitted now. -/
theorem dispatch_joined (hfresh : ∀ s ∈ c.queue.entries, s.Fresh)
    (hroom : c.queue.entries.length < queueDepth) (p : Post) :
    (c.joined p.submission).dispatch = c.dispatch >>= fun c' => c'.takeIn p.submission := by
  -- on the commands that are queued before it
  induction hs : c.queue.entries generalizing c with
  | nil =>
    rw [dispatch_nil hs]
    exact (takeIn_nil hs p.submission).symm
  | cons s rest ih =>
    have hhead : s.Fresh := hfresh s (by rw [hs]; exact List.mem_cons_self)
    have hentries : (c.joined p.submission).queue.entries = s :: (rest ++ [_]) :=
      (Queue.entries_joined hroom p.submission).1.trans (by rw [hs]; rfl)
    rw [dispatch_cons hentries hhead, dispatch_cons hs hhead, bind_assoc]
    congr 1
    funext out
    cases out with
    | ok blocks =>
      have hlaunched := entries_withHead hs { s with issued := true } blocks
      show pure ((c.joined p.submission).withHead _ blocks) =
        (c.withHead _ blocks).takeIn p.submission
      rw [takeIn_cons hlaunched, withHead_joined hs hroom]
    | error cause =>
      have hrest : (c.dropHead.settle (s.failed cause)).queue.entries = rest := by
        rw [queue_settle, dropHead, Queue.entries_tail, hs]
        rfl
      show (announce (s.failed cause) (c.routeOf (s.failed cause)) >>= fun _ =>
        ((c.joined p.submission).dropHead.settle (s.failed cause)).dispatch) = (_ >>= _) >>= _
      rw [bind_assoc, dropHead_joined hs hroom, settle_joined]
      congr 1
      funext _
      refine ih ?_ ?_ hrest
      · rw [hrest]
        intro s' hs'
        exact hfresh s' (by rw [hs]; exact List.mem_cons_of_mem _ hs')
      · rw [hrest]
        rw [hs, List.length_cons] at hroom
        omega

/-- The end of a head with one more command behind it. -/
theorem run_complete_joined (h : Undisturbed reply) (hs : c.queue.entries = head :: rest)
    (hfresh : ∀ s ∈ rest, s.Fresh) (hroom : c.queue.entries.length < queueDepth) (p : Post) :
    Dialogue.run reply ((c.joined p.submission).complete e) =
      Dialogue.run reply (c.complete e >>= fun c' => c'.takeIn p.submission) := by
  have hentries : (c.joined p.submission).queue.entries = head :: (rest ++ [_]) :=
    (Queue.entries_joined hroom p.submission).1.trans (by rw [hs]; rfl)
  have hlater : ∀ s ∈ (c.joined p.submission).queue.entries.tail, s.Fresh := by
    intro s hmem
    rw [hentries, List.tail_cons] at hmem
    rcases List.mem_append.mp hmem with hmem | hmem
    · exact hfresh s hmem
    · rw [List.mem_singleton.mp hmem]
      exact ⟨rfl, rfl, rfl, rfl⟩
  have htail : c.queue.entries.tail = rest := by rw [hs]; rfl
  have hpopped : (c.popped.settle e).queue.entries = rest := entries_popped_settle.trans htail
  have hjoined : (c.joined p.submission).popped.settle e =
      (c.popped.settle e).joined p.submission := by
    rw [← settle_joined]
    have hqueue := Queue.tail_joined hs hroom p.submission
    exact congrArg (fun q => settle { c with queue := q, blocksRemaining := 0 } e) hqueue
  have hroom' : (c.popped.settle e).queue.entries.length < queueDepth := by
    rw [hpopped]
    rw [hs, List.length_cons] at hroom
    omega
  rw [run_complete h hlater, hjoined, dispatch_joined (by rw [hpopped]; exact hfresh) hroom' p,
    ← bind_assoc]
  exact (run_congr (run_complete h (by rw [htail]; exact hfresh)) fun _ => rfl).symm

/-- A pass over a queue with one more command serves the others first; the last one is then taken
in as if it were submitted now. -/
theorem run_serve_joined (h : Undisturbed reply) (hs : c.queue.entries = head :: rest)
    (hfresh : ∀ s ∈ rest, s.Fresh) (hroom : c.queue.entries.length < queueDepth) (p : Post)
    (status : InterruptStatus) :
    Dialogue.run reply ((c.joined p.submission).serve status) =
      Dialogue.run reply (c.serve status >>= fun c' => c'.takeIn p.submission) := by
  have hentries : (c.joined p.submission).queue.entries = head :: (rest ++ [_]) :=
    (Queue.entries_joined hroom p.submission).1.trans (by rw [hs]; rfl)
  rw [serve_cons hentries, serve_cons hs, bind_assoc]
  refine run_congr_right _ fun progress => ?_
  cases progress.ended with
  | false =>
    have hfurther := entries_withHead hs progress.entry progress.blocks
    show Dialogue.run reply (pure _) = Dialogue.run reply (takeIn _ _)
    rw [takeIn_cons hfurther, withHead_joined hs hroom]
  | true =>
    exact run_complete_joined h hs hfresh hroom p

/-- **A pass over a queue with one more command** serves the others first; the last one is then
taken in as if it were submitted now. -/
theorem run_handleInterrupt_joined (h : Undisturbed reply) (hs : c.queue.entries = head :: rest)
    (hfresh : ∀ s ∈ rest, s.Fresh) (hroom : c.queue.entries.length < queueDepth) (p : Post) :
    Dialogue.run reply (c.joined p.submission).handleInterrupt =
      Dialogue.run reply (c.handleInterrupt >>= fun c' => c'.takeIn p.submission) := by
  unfold handleInterrupt
  rw [bind_assoc]
  refine run_congr_right _ fun status => ?_
  cases status.isEmpty with
  | true =>
    show Dialogue.run reply (pure _) = Dialogue.run reply (takeIn _ _)
    rw [takeIn_cons hs]
  | false =>
    show Dialogue.run reply (acknowledge status >>= fun _ => reportInformational status >>= fun _ =>
      (c.joined p.submission).serve status) = Dialogue.run reply ((acknowledge status >>= fun _ =>
        reportInformational status >>= fun _ => c.serve status) >>= fun c' =>
          c'.takeIn p.submission)
    rw [bind_assoc]
    refine run_congr_right _ fun _ => ?_
    rw [bind_assoc]
    exact run_congr_right _ fun _ => run_serve_joined h hs hfresh hroom p status

/-- Submits a command with its handler. -/
def post (c : Controller) (p : Post) : Action (Except SubmitError Unit × Controller) :=
  c.sendAsync p.command p.handler p.token

/-- **A submission before a pass** does what it does after the pass. -/
theorem run_post_swap (h : Undisturbed reply) (hs : c.queue.entries = head :: rest)
    (hfresh : ∀ s ∈ rest, s.Fresh) (hroom : c.queue.entries.length < queueDepth) (p : Post) {w : σ}
    (hroom' : (Dialogue.run reply c.handleInterrupt w).1.queue.entries.length < queueDepth) :
    Dialogue.run reply ((Dialogue.run reply c.handleInterrupt w).1.post p)
        (Dialogue.run reply c.handleInterrupt w).2 =
      Dialogue.run reply (c.post p >>= fun r => r.2.handleInterrupt >>= fun c' => pure (r.1, c'))
        w := by
  have hlooked : Dialogue.run reply (c.handleInterrupt >>= fun c' =>
      inspect p.command >>= c'.afterLook p.submission) =
      Dialogue.run reply (inspect p.command >>= fun verdict => c.handleInterrupt >>= fun c' =>
        c'.afterLook p.submission verdict) :=
    run_swap_inspect h p.command c.asks_handleInterrupt
  have hfirst := congrFun hlooked w
  rw [run_bind] at hfirst
  rw [post, sendAsync_eq hroom', post, sendAsync_eq hroom, bind_assoc]
  refine hfirst.trans (congrFun (run_congr_right _ fun verdict => ?_) w)
  cases verdict with
  | error err => rfl
  | ok u =>
    show Dialogue.run reply (c.handleInterrupt >>= fun c' => c'.takeIn p.submission >>= fun c'' =>
      pure (Except.ok (), c'')) = Dialogue.run reply ((c.takeIn p.submission >>= _) >>= _)
    rw [takeIn_cons hs, ← bind_assoc]
    exact (run_congr (run_handleInterrupt_joined h hs hfresh hroom p) fun _ => rfl).symm

end Controller

end SdHost
