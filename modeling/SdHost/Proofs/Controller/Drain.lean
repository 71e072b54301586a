import SdHost.Proofs.Command.Start
import SdHost.Proofs.Controller.Interrupt
import SdHost.Proofs.Dialogue.Looking

/-!
# Commands that cannot be started

Whenever no command is on the wire, those that wait are attempted in their order, each once, until
one is started or none is left.  Those that could not be started are handed back.  After the end of
a head the first attempt comes before the head is handed back, and the others after it; what is
attempted and handed back is the same as if the head had been handed back first.

* `Controller.attempt` — an attempt to start a command; `writes_attempt` — one that fails writes the
  event mask and nothing else;
* `Controller.Drains` — attempts, one after the other, up to one that succeeds;
* `Controller.Left`, `Drains.left` — what is left then;
* `drains_of_path` — dispatching does that;
* `Controller.EndsHead`, `endsHead_of_path` — so does a pass in which the head ends.
-/

namespace SdHost

open Dialogue Register Request

variable {es : List Exchange}

/-! ### Attempts -/

/-- A question that does not hand a command back. -/
def Request.keepsBack : Request → Prop
  | handBack _ _ => False
  | _ => True

/-- Without such a question nothing is handed back. -/
theorem handed_events_eq_nil (h : ∀ x ∈ es, x.question.keepsBack) : handed (events es) = [] := by
  unfold handed events
  rw [List.filterMap_filterMap]
  refine List.filterMap_eq_nil_iff.mpr fun x hx => ?_
  have hq := h x hx
  obtain ⟨question, answer⟩ := x
  cases question with
  | handBack entry route => exact hq.elim
  | read r =>
    show (readEvent? r answer).bind Event.handedBack? = none
    unfold readEvent?
    split_ifs <;> rfl
  | write r w =>
    show (writeEvent? r w).bind Event.handedBack? = none
    unfold writeEvent?
    split_ifs <;> rfl
  | _ => rfl

/-- Nothing is handed back by an action that does not ask for it. -/
theorem handed_of_asks {α : Type} {P : Request → Prop} {d : Action α} {a : α} (hasks : Asks P d)
    (hkeeps : ∀ e route, ¬P (.handBack e route)) (h : Path d es a) : handed (events es) = [] := by
  refine handed_events_eq_nil fun x hx => ?_
  have hq : P x.question := hasks h x hx
  cases hquestion : x.question with
  | handBack entry route =>
    rw [hquestion] at hq
    exact hkeeps entry route hq
  | _ => trivial

/-- An attempt that fails does so because the lines are busy; it writes the event mask and nothing
else. -/
theorem Command.writes_issue_failed {command : Command} {platform : Platform} {v : SpecVersion}
    {spinLimit : Nat} {cause : CommandError}
    (h : Path (command.issue platform v spinLimit).run es (.error cause)) :
    cause = .controllerBusy ∧
      writes es = [(interruptStatusEnable, command.interruptMask.bits)] := by
  have hcause : cause = .controllerBusy := by
    rcases Command.leads_issue (leads_of_path h) with ⟨habs, -⟩ | ⟨hbusy, -⟩
    · cases habs
    · exact Except.error.inj hbusy
  refine ⟨hcause, ?_⟩
  obtain ⟨first, _, more, hmask, hrest, rfl⟩ := path_run_lift_bind.mp h
  obtain rfl := Command.path_write hmask
  rcases path_run_bind.mp hrest with ⟨looks, _, later, -, hstart, -⟩ | ⟨e, hlooks, -⟩
  · obtain ⟨_, _, _, -, hend, -⟩ := path_run_lift_bind.mp hstart
    cases (path_run_pure.mp hend).2
  · have hunwritten : Asks unwritten (command.awaitLines spinLimit).run :=
      (command.asks_awaitLines spinLimit).mono fun q hq => by
        cases q with
        | write r w => exact hq
        | _ => trivial
    rw [writes_append, writes_of_asks hunwritten hlooks]
    rfl

namespace Controller

variable {c c' : Controller} {head e s : Entry} {rest waiting gone : List Entry}
  {out : Except CommandError Nat}

/-- An attempt to start a command. -/
def attempt (c : Controller) (s : Entry) : Action (Except CommandError Nat) :=
  (s.command.issue c.platform c.version c.config.spinLimit).run

/-- An attempt starts the command, or fails because the lines are busy. -/
theorem path_attempt (h : Path (c.attempt s) es out) :
    out = .ok s.command.blocksToMove ∨ out = .error .controllerBusy := by
  rcases Command.leads_issue (leads_of_path h) with ⟨hok, -⟩ | ⟨herror, -⟩
  · exact .inl hok
  · exact .inr herror

/-- Nothing is handed back in an attempt. -/
theorem handed_attempt (h : Path (c.attempt s) es out) : handed (events es) = [] := by
  rcases Command.leads_issue (leads_of_path h) with ⟨-, hevs⟩ | ⟨-, hevs⟩
  · rw [hevs]
    rfl
  · rw [hevs]
    rfl

/-- **An attempt that fails** writes the event mask and nothing else. -/
theorem writes_attempt {cause : CommandError} (h : Path (c.attempt s) es (.error cause)) :
    cause = .controllerBusy ∧
      writes es = [(interruptStatusEnable, s.command.interruptMask.bits)] :=
  Command.writes_issue_failed h

/-- What is told about a command that is handed back. -/
theorem handed_announce {route : Route} {u : Unit} (h : Path (announce e route) es u) :
    handed (events es) = [(e, route)] := by
  obtain ⟨first, _, second, hback, hreport, rfl⟩ := path_bind.mp h
  obtain rfl := path_question.mp hback
  have hquiet : events second = [] := by
    cases route with
    | abandoned => exact quiet_report _ (leads_of_path hreport)
    | _ =>
      obtain ⟨rfl, -⟩ := path_done.mp hreport
      rfl
  rw [events_append, hquiet]
  rfl

/-! ### Attempts one after the other -/

/-- The commands that wait are attempted in their order, each once, until one is started or none is
left.  Those that could not be started, `gone`, are handed back as failed. -/
inductive Drains : Controller → List Exchange → List Entry → Controller → Prop where
  /-- None is left. -/
  | empty {c : Controller} (hqueue : c.queue.entries = []) : Drains c [] [] c
  /-- The first is started. -/
  | started {c : Controller} {s : Entry} {rest : List Entry} {tries : List Exchange}
      (hqueue : c.queue.entries = s :: rest)
      (htries : Path (c.attempt s) tries (.ok s.command.blocksToMove)) :
      Drains c tries [] (c.launched s s.command.blocksToMove)
  /-- The first cannot be started; it is handed back, and the others are attempted. -/
  | failed {c c' : Controller} {s : Entry} {rest gone : List Entry}
      {tries told later : List Exchange} (hqueue : c.queue.entries = s :: rest)
      (htries : Path (c.attempt s) tries (.error .controllerBusy))
      (htold : Path (announce s.refused (c.routeOf s.refused)) told ())
      (hlater : Drains (c.dropHead.settle s.refused) later gone c') :
      Drains c (tries ++ (told ++ later)) (s :: gone) c'

/-- What is left of the commands that waited: none, and no block to move; or the first of them is on
the wire with all its blocks to move, and the others wait. -/
inductive Left (c : Controller) : List Entry → Prop where
  | empty (hqueue : c.queue.entries = []) (hblocks : c.blocksRemaining = 0) : Left c []
  | started {s : Entry} {rest : List Entry}
      (hqueue : c.queue.entries = { s with issued := true } :: rest)
      (hblocks : c.blocksRemaining = s.command.blocksToMove) : Left c (s :: rest)

theorem entries_dropHead_settle (hqueue : c.queue.entries = s :: rest) :
    (c.dropHead.settle e).queue.entries = rest := by
  rw [queue_settle, dropHead, Queue.entries_tail, hqueue]
  rfl

/-- **What is left** of the commands that waited is what follows those that could not be started. -/
theorem Drains.left (h : Drains c es gone c') (hblocks : c.blocksRemaining = 0) :
    ∃ left, c.queue.entries = gone ++ left ∧ c'.Left left := by
  induction h with
  | empty hqueue => exact ⟨[], hqueue, .empty hqueue hblocks⟩
  | @started c s rest tries hqueue htries =>
    exact ⟨s :: rest, hqueue, .started (entries_withHead hqueue _ _) rfl⟩
  | failed hqueue htries htold hlater ih =>
    obtain ⟨left, hentries, hleft⟩ := ih (blocksRemaining_settle.trans hblocks)
    rw [entries_dropHead_settle hqueue] at hentries
    rw [hqueue, hentries]
    exact ⟨left, rfl, hleft⟩

/-- Those that could not be started are handed back in their order, and nothing else is. -/
theorem Drains.handed_eq (h : Drains c es gone c') :
    (handed (events es)).map Prod.fst = gone.map Entry.refused := by
  induction h with
  | empty hqueue => rfl
  | started hqueue htries =>
    rw [handed_attempt htries]
    rfl
  | failed hqueue htries htold hlater ih =>
    rw [events_append, handed_append, handed_attempt htries, events_append, handed_append,
      handed_announce htold, List.nil_append, List.map_append, ih]
    rfl

/-- No ticket is given out. -/
theorem Drains.nextTicket (h : Drains c es gone c') : c'.queue.nextTicket = c.queue.nextTicket := by
  induction h with
  | empty hqueue => rfl
  | started hqueue htries => rfl
  | failed hqueue htries htold hlater ih =>
    rw [ih, queue_settle]
    rfl

/-- A command that waits alone is on the wire afterwards, or nothing is queued. -/
theorem Drains.alone (h : Drains c es gone c') (hqueue : c.queue.entries = [s]) :
    (gone = [] ∧ c'.queue.entries = [{ s with issued := true }]) ∨
      (gone = [s] ∧ c'.queue.entries = []) := by
  cases h with
  | empty hempty => cases hempty.symm.trans hqueue
  | started hstarted htries =>
    obtain ⟨rfl, rfl⟩ := List.cons.inj (hstarted.symm.trans hqueue)
    exact .inl ⟨rfl, entries_withHead hqueue _ _⟩
  | failed hfailed htries htold hlater =>
    obtain ⟨rfl, rfl⟩ := List.cons.inj (hfailed.symm.trans hqueue)
    have hnone : ∀ e, (c.dropHead.settle e).queue.entries = [] :=
      fun _ => entries_dropHead_settle hqueue
    cases hlater with
    | empty hempty => exact .inr ⟨rfl, hempty⟩
    | started habs _ => cases habs.symm.trans (hnone _)
    | failed habs _ _ _ => cases habs.symm.trans (hnone _)

/-- **Dispatching** attempts the commands that wait. -/
theorem drains_of_path (hfresh : ∀ s ∈ c.queue.entries, s.Fresh) (h : Path c.dispatch es c') :
    ∃ gone, Drains c es gone c' := by
  -- a command that cannot be started leaves the queue
  generalize hqueue : c.queue.entries = entries at hfresh
  induction entries generalizing c es with
  | nil =>
    rw [dispatch_nil hqueue] at h
    obtain ⟨rfl, rfl⟩ := path_done.mp h
    exact ⟨[], .empty hqueue⟩
  | cons s rest ih =>
    rw [dispatch_cons hqueue (hfresh s List.mem_cons_self)] at h
    obtain ⟨tries, out, more, htries, hmore, rfl⟩ := path_bind.mp h
    rcases path_attempt htries with rfl | rfl
    · obtain ⟨rfl, rfl⟩ := path_done.mp hmore
      rw [List.append_nil]
      exact ⟨[], .started hqueue htries⟩
    · obtain ⟨told, _, later, htold, hlater, rfl⟩ := path_bind.mp hmore
      obtain ⟨gone, hdrains⟩ := ih hlater (entries_dropHead_settle hqueue)
        fun s' hs' => hfresh s' (List.mem_cons_of_mem _ hs')
      exact ⟨s :: gone, .failed hqueue htries htold hdrains⟩

/-! ### After the end of a head -/

/-- The command behind a head that has ended is attempted, if there is one. -/
def FirstAttempt (c : Controller) (waiting : List Entry) (tries : List Exchange) : Prop :=
  match waiting with
  | [] => tries = []
  | s :: _ => ∃ out, Path (c.attempt s) tries out

/-- Neither does a command that could not be started change how others are attempted. -/
theorem attempt_dropHead_settle : (c.dropHead.settle e).attempt s = c.attempt s := by
  unfold attempt
  rw [platform_settle, version_settle, config_settle]
  rfl

/-- The end of a head does not change how others are attempted. -/
theorem attempt_popped_settle : (c.popped.settle e).attempt s = c.attempt s := by
  unfold attempt
  rw [platform_settle, version_settle, config_settle]
  rfl

/-- **The end of a head**: the command behind it is attempted, the head is handed back, and then it
goes on as dispatching does. -/
theorem path_complete (hqueue : c.queue.entries.tail = waiting) (hfresh : ∀ s ∈ waiting, s.Fresh)
    (h : Path (c.complete e) es c') :
    ∃ tries told later gone, es = tries ++ (told ++ later) ∧ c.FirstAttempt waiting tries ∧
      Path (announce e (c.routeOf e)) told () ∧
      Drains (c.popped.settle e) (tries ++ later) gone c' := by
  have hentries : (c.popped.settle e).queue.entries = waiting :=
    entries_popped_settle.trans hqueue
  cases waiting with
  | nil =>
    rw [complete_nil hqueue] at h
    obtain ⟨u, htold, rfl⟩ := path_bind_pure.mp h
    exact ⟨[], es, [], [], (List.append_nil es).symm, rfl, htold, .empty hentries⟩
  | cons s rest =>
    rw [complete_cons hqueue (hfresh s List.mem_cons_self)] at h
    obtain ⟨tries, out, more, htries, hmore, rfl⟩ := path_bind.mp h
    obtain ⟨told, _, later, htold, hlater, rfl⟩ := path_bind.mp hmore
    have htries' : Path ((c.popped.settle e).attempt s) tries out := by
      rw [attempt_popped_settle]
      exact htries
    rcases path_attempt htries with rfl | rfl
    · obtain ⟨rfl, rfl⟩ := path_done.mp hlater
      refine ⟨tries, told, [], [], rfl, ⟨_, htries⟩, htold, ?_⟩
      rw [List.append_nil]
      exact .started hentries htries'
    · obtain ⟨told', _, later, htold', hrest, rfl⟩ := path_bind.mp hlater
      have hlast : ∀ s' ∈ ((c.popped.settle e).dropHead.settle s.refused).queue.entries,
          s'.Fresh := by
        rw [entries_dropHead_settle hentries]
        exact fun s' hs' => hfresh s' (List.mem_cons_of_mem _ hs')
      obtain ⟨gone, hdrains⟩ := drains_of_path hlast hrest
      exact ⟨tries, told, told' ++ later, s :: gone, rfl, ⟨_, htries⟩, htold,
        .failed hentries htries' htold' hdrains⟩

/-- The head has ended in a pass as `e`, which is what the status of the pass has made of it, and
what waited behind it was attempted.  The first attempt comes before the head is handed back; `gone`
could not be started and follows it. -/
inductive EndsHead (c : Controller) (head e : Entry) (waiting gone : List Entry) (c' : Controller) :
    List Exchange → Prop where
  | intro {word : UInt32} {notes moves tries told later : List Exchange} {blocks : Nat}
      (hnotes : Path (reportInformational ⟨word⟩) notes ())
      (hmoves : Path (head.advance ⟨word⟩ c.blocksRemaining) moves ⟨e, blocks, true⟩)
      (hfirst : c.FirstAttempt waiting tries)
      (htold : Path (announce e (c.routeOf e)) told ())
      (hdrains : Drains (c.popped.settle e) (tries ++ later) gone c') :
      EndsHead c head e waiting gone c' (⟨.read interruptStatus, word⟩ ::
        ⟨.write interruptStatus word, ()⟩ :: (notes ++ (moves ++ (tries ++ (told ++ later)))))

/-- Serving the head hands nothing back before it has ended. -/
theorem handed_advance {status : InterruptStatus} {blocks : Nat} {progress : Progress}
    (h : Path (head.advance status blocks) es progress) : handed (events es) = [] :=
  handed_of_asks (head.asks_advance status blocks) (fun _ _ hback => hback) h

/-- What is handed back in a pass in which the head has ended: the head, then those that could not
be started. -/
theorem EndsHead.handed_eq (h : c.EndsHead head e waiting gone c' es) :
    ∃ later, handed (events es) = (e, c.routeOf e) :: later ∧
      later.map Prod.fst = gone.map Entry.refused := by
  obtain @⟨word, notes, moves, tries, told, later, blocks, hnotes, hmoves, hfirst, htold,
    hdrains⟩ := h
  have htries : handed (events tries) = [] := by
    cases waiting with
    | nil =>
      obtain rfl : tries = [] := hfirst
      rfl
    | cons s rest =>
      obtain ⟨out, hout⟩ := hfirst
      exact handed_attempt hout
  have hgone := hdrains.handed_eq
  rw [events_append, handed_append, htries, List.nil_append] at hgone
  refine ⟨handed (events later), ?_, hgone⟩
  have hstart : handed (events (⟨.read interruptStatus, word⟩ ::
      ⟨.write interruptStatus word, ()⟩ :: (notes ++ (moves ++ (tries ++ (told ++ later)))))) =
      handed (events (notes ++ (moves ++ (tries ++ (told ++ later))))) := rfl
  rw [hstart, events_append, quiet_reportInformational _ (leads_of_path hnotes), List.nil_append,
    events_append, handed_append, handed_advance hmoves, List.nil_append, events_append,
    handed_append, htries, List.nil_append, events_append, handed_append, handed_announce htold]
  rfl

/-- **A pass that hands something back** has ended the head, and attempts what waits behind it. -/
theorem endsHead_of_path (hqueue : c.queue.entries = head :: waiting)
    (hfresh : ∀ s ∈ waiting, s.Fresh) (h : Path c.handleInterrupt es c')
    (hhanded : handed (events es) ≠ []) : ∃ e gone, c.EndsHead head e waiting gone c' es := by
  obtain ⟨first, status, more, hstatus, hmore, rfl⟩ := path_bind.mp h
  obtain ⟨word, hread, rfl⟩ := path_bind_pure.mp hstatus
  obtain rfl := path_question.mp hread
  cases hempty : (⟨word⟩ : InterruptStatus).isEmpty with
  | true =>
    rw [hempty, if_pos rfl] at hmore
    obtain ⟨rfl, rfl⟩ := path_done.mp hmore
    exact absurd rfl hhanded
  | false =>
    rw [hempty, if_neg Bool.false_ne_true] at hmore
    obtain ⟨_, _, _, hack, hrest, rfl⟩ := path_bind.mp hmore
    obtain rfl := Command.path_write hack
    obtain ⟨notes, _, served, hnotes, hserve, rfl⟩ := path_bind.mp hrest
    rw [serve_cons hqueue] at hserve
    obtain ⟨moves, ⟨e, blocks, ended⟩, last, hmoves, hlast, rfl⟩ := path_bind.mp hserve
    cases ended with
    | true =>
      have htail : c.queue.entries.tail = waiting := by rw [hqueue, List.tail_cons]
      obtain ⟨tries, told, later, gone, rfl, hfirst, htold, hdrains⟩ :=
        path_complete htail hfresh hlast
      refine ⟨e, gone, ?_⟩
      show c.EndsHead head e waiting gone c' (⟨.read interruptStatus, word⟩ ::
        ⟨.write interruptStatus word, ()⟩ :: (notes ++ (moves ++ (tries ++ (told ++ later)))))
      exact .intro hnotes hmoves hfirst htold hdrains
    | false =>
      obtain ⟨rfl, -⟩ := path_done.mp hlast
      refine absurd ?_ hhanded
      show handed (events (notes ++ (moves ++ []))) = []
      rw [events_append, quiet_reportInformational _ (leads_of_path hnotes), List.nil_append,
        List.append_nil, handed_advance hmoves]

/-! ### After a submission -/

/-- Nothing is handed back by the look at a command. -/
theorem handed_inspect {command : Command} {verdict : Except SubmitError Unit}
    (h : Path (inspect command) es verdict) : handed (events es) = [] :=
  handed_of_asks (asks_inspect command) (fun _ _ hback => hback) h

/-- **A submission to an idle controller** is looked at and then attempted. -/
theorem drains_of_enqueue {command : Command} {callback : Option Callback} {token : Nat}
    {ticket : Ticket} (hqueue : c.queue.entries = [])
    (h : Path (c.enqueue command callback token).run es (.ok (ticket, c'))) :
    ∃ look drained gone, es = look ++ drained ∧ Path (inspect command) look (.ok ()) ∧
      (c.joined ⟨command, callback, token⟩).queue.entries =
        [.submission command callback token ticket] ∧
      Drains (c.joined ⟨command, callback, token⟩) drained gone c' := by
  have hroom : c.queue.entries.length < queueDepth := by
    rw [hqueue]
    decide
  have henqueue := enqueue_eq hroom ⟨command, callback, token⟩
  dsimp only at henqueue
  rw [henqueue] at h
  obtain ⟨look, verdict, more, hlook, hmore, rfl⟩ := path_bind.mp h
  cases verdict with
  | error err => cases (path_done.mp hmore).2
  | ok u =>
    obtain ⟨c₁, hjoin, hr⟩ := path_bind_pure.mp hmore
    obtain ⟨rfl, rfl⟩ := Prod.mk.inj (Except.ok.inj hr)
    rw [takeIn_nil hqueue] at hjoin
    have hentries : (c.joined ⟨command, callback, token⟩).queue.entries =
        [.submission command callback token c.queue.nextTicket] := by
      have hjoined := (Queue.entries_joined hroom ⟨command, callback, token⟩).1
      rw [hqueue] at hjoined
      exact hjoined
    have hfresh : ∀ s ∈ (c.joined ⟨command, callback, token⟩).queue.entries, s.Fresh := by
      rw [hentries]
      intro s hs
      rw [List.mem_singleton.mp hs]
      exact ⟨rfl, rfl, rfl, rfl⟩
    obtain ⟨gone, hdrains⟩ := drains_of_path hfresh hjoin
    exact ⟨look, more, gone, rfl, hlook, hentries, hdrains⟩

end Controller

end SdHost
