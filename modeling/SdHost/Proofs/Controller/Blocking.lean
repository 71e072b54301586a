import SdHost.Proofs.Command.Label
import SdHost.Proofs.Controller.Desk
import SdHost.Proofs.Controller.Queueing

/-!
# Blocking or with a handler

A blocking submission and one with a handler put the same command into the queue, under another
label.  The engine does not look at labels until it hands a command back.  So the two go on alike,
question by question, until that one command is handed back, to the handler or to the submitter that
polls for it; and as it was submitted last, nothing is queued then.

* `Post.label`, `Label.blocking` — whose command it is, in the one case and in the other;
* `Controller.disowned`, `Controller.awaiting` — a controller that holds the command of a blocking
  submission instead of one with a handler, and waits for it;
* `Diverts` — going on alike, until the command is handed back;
* `Controller.diverts_takeIn`, `Controller.diverts_handleInterrupt` — accepting the command, and a
  pass;
* `Diverts.run` — what happens in surroundings that the handler leaves alone.
-/

namespace SdHost

open Dialogue Request

/-! ### Whose command it is -/

/-- The label of a command with a handler. -/
def Post.label (p : Post) (ticket : Ticket) : Label := ⟨some p.handler, p.token, ticket⟩

/-- The label of the command of a blocking submission. -/
def Label.blocking (ticket : Ticket) : Label := ⟨none, 0, ticket⟩

namespace Entry

/-- The command of `ticket` is that of a blocking submission. -/
def disownedAt (ticket : Ticket) (e : Entry) : Entry :=
  e.withLabel (if e.ticket = ticket then .blocking ticket else e.label)

variable {ticket : Ticket} {e : Entry}

theorem disownedAt_of_eq (h : e.ticket = ticket) :
    e.disownedAt ticket = e.withLabel (.blocking ticket) := by
  rw [disownedAt, if_pos h]

theorem disownedAt_of_ne (h : e.ticket ≠ ticket) : e.disownedAt ticket = e := by
  rw [disownedAt, if_neg h, withLabel_label]

theorem Fresh.disownedAt (h : e.Fresh) : (e.disownedAt ticket).Fresh :=
  ⟨h.issued, h.commandDone, h.dataDone, h.wordOffset⟩

/-- Nothing else in the queue changes. -/
theorem map_disownedAt {others : List Entry} (hothers : ∀ e ∈ others, e.ticket ≠ ticket)
    (hown : e.ticket = ticket) : (others ++ [e]).map (disownedAt ticket) =
      others ++ [e.withLabel (.blocking ticket)] := by
  have hsame : others.map (disownedAt ticket) = others :=
    (List.map_congr_left fun e he => disownedAt_of_ne (hothers e he)).trans (List.map_id _)
  rw [List.map_append, hsame, List.map_singleton, disownedAt_of_eq hown]

end Entry

/-- The queue with the command of `ticket` as that of a blocking submission. -/
def Queue.disowned {n : Nat} (ticket : Ticket) (q : Queue n) : Queue n :=
  { q with
    entries := q.entries.map (Entry.disownedAt ticket)
    size_le := by rw [List.length_map]; exact q.size_le }

namespace Controller

/-- The controller with the command of `ticket` as that of a blocking submission. -/
def disowned (ticket : Ticket) (c : Controller) : Controller :=
  { c with queue := c.queue.disowned ticket }

/-- The same, and that submission is waited for. -/
def awaiting (ticket : Ticket) (c : Controller) : Controller :=
  { c.disowned ticket with waiting := some ticket }

/-- Nobody waits at the desk. -/
structure Unattended (config : Config) (c : Controller) : Prop where
  waiting : c.waiting = none
  finished : c.finished = none
  config : c.config = config

end Controller

/-- The command with the handler is the last one, and no other has its ticket. -/
inductive Last (p : Post) (ticket : Ticket) : List Entry → Prop where
  | own {e : Entry} (h : e.label = p.label ticket) : Last p ticket [e]
  | behind {e : Entry} {rest : List Entry} (h : e.ticket ≠ ticket) (hrest : Last p ticket rest) :
      Last p ticket (e :: rest)

/-- Nobody waits at the desk, the command with the handler is the last in the queue, and only the
head may be on the wire. -/
structure Controller.Awaited (p : Post) (ticket : Ticket) (config : Config) (c : Controller) :
    Prop where
  unattended : c.Unattended config
  last : Last p ticket c.queue.entries
  later : ∀ s ∈ c.queue.entries.tail, s.Fresh

/-- The dialogues go on alike, until the command is handed back: to its handler in the first, to the
submitter in the second. -/
inductive Diverts (p : Post) (ticket : Ticket) (config : Config) :
    Action Controller → Action Controller → Prop where
  | awaited {c : Controller} (h : c.Awaited p ticket config) :
      Diverts p ticket config (pure c) (pure (c.awaiting ticket))
  | ask {q : Request} {k k' : q.Answer → Action Controller}
      (h : ∀ x, Diverts p ticket config (k x) (k' x)) :
      Diverts p ticket config (.ask q k) (.ask q k')
  | back {c : Controller} {e : Entry} (h : c.Unattended config) (hown : e.label = p.label ticket)
      (hempty : c.queue.entries = []) :
      Diverts p ticket config
        (handBack e (.callback p.handler) >>= fun _ => pure c)
        (handBack (e.withLabel (.blocking ticket)) .parked >>= fun _ =>
          pure { c with finished := some (ticket, e.command) })

section Engine

variable {p : Post} {ticket : Ticket} {config : Config} {c : Controller} {s e head : Entry}
  {rest : List Entry}

/-- What follows on the same dialogue. -/
theorem diverts_after {α : Type} (d : Action α) {k k' : α → Action Controller}
    (h : ∀ a, Diverts p ticket config (k a) (k' a)) :
    Diverts p ticket config (d >>= k) (d >>= k') := by
  induction d with
  | done a => exact h a
  | ask q next ih => exact .ask ih

theorem Last.tail (h : Last p ticket (e :: rest)) (hne : e.ticket ≠ ticket) :
    Last p ticket rest := by
  cases h with
  | own hown => exact absurd (congrArg Label.ticket hown) hne
  | behind _ hrest => exact hrest

/-- The head goes on, and is still the same one's command. -/
theorem Last.replace (h : Last p ticket (head :: rest)) (hlabel : e.label = head.label) :
    Last p ticket (e :: rest) := by
  cases h with
  | own hown => exact .own (hlabel.trans hown)
  | behind hne hrest =>
    have hticket : e.ticket = head.ticket := congrArg Label.ticket hlabel
    exact .behind (fun habs => hne (hticket.symm.trans habs)) hrest

/-- The command is the last one. -/
theorem Last.split {es : List Entry} (h : Last p ticket es) :
    ∃ others own, es = others ++ [own] ∧ own.label = p.label ticket ∧
      ∀ e ∈ others, e.ticket ≠ ticket := by
  induction h with
  | @own e hown => exact ⟨[], e, rfl, hown, List.forall_mem_nil _⟩
  | @behind e rest hne _ ih =>
    obtain ⟨others, own, rfl, hown, hothers⟩ := ih
    exact ⟨e :: others, own, rfl, hown, List.forall_mem_cons.mpr ⟨hne, hothers⟩⟩

/-! ### Handing back -/

namespace Controller

/-- A command goes away if it is not the one that is waited for. -/
theorem routeOf_of_not_waiting (h : c.waiting ≠ some e.ticket) : c.routeOf e = e.away := by
  unfold routeOf
  rw [if_neg h]
  rfl

/-- Nothing is put on the desk if it is not what is waited for. -/
theorem settle_of_not_waiting (h : c.waiting ≠ some e.ticket) : c.settle e = c := by
  unfold settle
  rw [routeOf_of_not_waiting h, Entry.away]
  cases e.callback <;> rfl

theorem Unattended.not_waiting (h : c.Unattended config) (e : Entry) :
    c.waiting ≠ some e.ticket := by
  rw [h.waiting]
  exact (Option.some_ne_none _).symm

theorem awaiting_not_waiting (c : Controller) (hne : e.ticket ≠ ticket) :
    (c.awaiting ticket).waiting ≠ some e.ticket :=
  fun habs => hne (Option.some.inj habs).symm

/-- Nothing is on the desk yet. -/
theorem Unattended.takeFinished_awaiting (h : c.Unattended config) :
    (c.awaiting ticket).takeFinished ticket = none := by
  have hfinished : (c.awaiting ticket).finished = none := h.finished
  rw [takeFinished, hfinished]

/-- Other commands go the same way. -/
theorem routeOf_awaiting (h : c.Unattended config) (hne : e.ticket ≠ ticket) :
    (c.awaiting ticket).routeOf e = c.routeOf e := by
  rw [routeOf_of_not_waiting (h.not_waiting e),
    routeOf_of_not_waiting (c.awaiting_not_waiting hne)]

theorem settle_awaiting (c : Controller) (hne : e.ticket ≠ ticket) :
    (c.awaiting ticket).settle e = c.awaiting ticket :=
  settle_of_not_waiting (c.awaiting_not_waiting hne)

theorem Unattended.settle (h : c.Unattended config) (e : Entry) : c.settle e = c :=
  settle_of_not_waiting (h.not_waiting e)

/-- What is queued for a blocking submission. -/
theorem entries_awaiting (hs : c.queue.entries = head :: rest) (ticket : Ticket) :
    (c.awaiting ticket).queue.entries =
      head.disownedAt ticket :: rest.map (Entry.disownedAt ticket) :=
  congrArg (List.map _) hs

/-- The command itself is handed to its handler, or put on the desk. -/
theorem diverts_back (h : c.Unattended config) (hown : e.label = p.label ticket)
    (hempty : c.queue.entries = []) :
    Diverts p ticket config (announce e (c.routeOf e) >>= fun _ => pure (c.settle e))
      (announce (e.disownedAt ticket) ((c.awaiting ticket).routeOf (e.disownedAt ticket)) >>=
        fun _ => pure ((c.awaiting ticket).settle (e.disownedAt ticket))) := by
  have hticket : e.ticket = ticket := congrArg Label.ticket hown
  have hcallback : e.callback = some p.handler := congrArg Label.callback hown
  have hroute : c.routeOf e = .callback p.handler := by
    unfold routeOf
    rw [hcallback]
  have hparked : (c.awaiting ticket).routeOf (e.withLabel (.blocking ticket)) = .parked :=
    if_pos rfl
  have hqueue : c.queue.disowned ticket = c.queue := by
    refine Queue.eq_of_entries ?_ rfl
    show c.queue.entries.map _ = _
    rw [hempty]
    rfl
  have hsettled : (c.awaiting ticket).settle (e.withLabel (.blocking ticket)) =
      { c with finished := some (ticket, e.command) } := by
    unfold settle
    rw [hparked]
    show ({ c with
      queue := c.queue.disowned ticket
      waiting := none
      finished := some (ticket, e.command) } : Controller) = _
    rw [hqueue, ← h.waiting]
  rw [Entry.disownedAt_of_eq hticket, hsettled, hparked, hroute, h.settle]
  exact .back h hown hempty

/-! ### Dispatching -/

/-- A head that goes on, and stays in the queue. -/
theorem diverts_goesOn (h : c.Unattended config) (hs : c.queue.entries = head :: rest)
    (hlast : Last p ticket (head :: rest)) (hfresh : ∀ s ∈ rest, s.Fresh)
    (hlabel : e.label = head.label) (blocks : Nat) :
    Diverts p ticket config (pure (c.withHead e blocks))
      (pure ((c.awaiting ticket).withHead (e.disownedAt ticket) blocks)) := by
  have hqueue : (c.queue.disowned ticket).modifyHead (fun _ => e.disownedAt ticket) =
      (c.queue.modifyHead fun _ => e).disowned ticket := by
    refine Queue.eq_of_entries ?_ rfl
    show (c.queue.entries.map _).modifyHead _ = (c.queue.entries.modifyHead _).map _
    rw [hs]
    rfl
  have hawaiting : (c.awaiting ticket).withHead (e.disownedAt ticket) blocks =
      (c.withHead e blocks).awaiting ticket :=
    congrArg (fun q => { c with queue := q, blocksRemaining := blocks, waiting := some ticket })
      hqueue
  have hentries := entries_withHead hs e blocks
  rw [hawaiting]
  refine .awaited ⟨⟨h.waiting, h.finished, h.config⟩, ?_, ?_⟩
  · rw [hentries]
    exact hlast.replace hlabel
  · rw [hentries]
    exact hfresh

/-- A head that leaves the queue. -/
theorem disowned_tail (q : Queue queueDepth) :
    (q.disowned ticket).tail = q.tail.disowned ticket := by
  refine Queue.eq_of_entries ?_ rfl
  show (q.entries.map _).tail = q.entries.tail.map _
  exact List.map_tail.symm

theorem dropHead_awaiting : (c.awaiting ticket).dropHead = c.dropHead.awaiting ticket :=
  congrArg (fun q => { c with queue := q, waiting := some ticket }) (disowned_tail c.queue)

theorem popped_awaiting : (c.awaiting ticket).popped = c.popped.awaiting ticket :=
  congrArg (fun q => { c with queue := q, blocksRemaining := 0, waiting := some ticket })
    (disowned_tail c.queue)

/-- What follows when the head was to be started. -/
theorem diverts_attempted (h : c.Unattended config) (hs : c.queue.entries = s :: rest)
    (hlast : Last p ticket (s :: rest)) (hfresh : ∀ s ∈ rest, s.Fresh)
    (hlater : ∀ c' : Controller, c'.Unattended config → c'.queue.entries = rest →
      Last p ticket rest → Diverts p ticket config c'.dispatch (c'.awaiting ticket).dispatch)
    (out : Except CommandError Nat) :
    Diverts p ticket config (c.attempted s out)
      ((c.awaiting ticket).attempted (s.disownedAt ticket) out) := by
  cases out with
  | ok blocks =>
    exact diverts_goesOn (e := { s with issued := true }) h hs hlast hfresh rfl blocks
  | error cause =>
    have hdropped : c.dropHead.Unattended config := ⟨h.waiting, h.finished, h.config⟩
    have hentries : c.dropHead.queue.entries = rest := by
      rw [dropHead, Queue.entries_tail, hs]
      rfl
    by_cases hticket : s.ticket = ticket
    · -- the command itself is refused, and nothing is behind it
      cases hlast with
      | behind hne _ => exact absurd hticket hne
      | own hown =>
        have hback := diverts_back (e := s.failed cause) hdropped hown hentries
        have hnil : (c.dropHead.settle (s.failed cause)).queue.entries = [] := by
          rw [queue_settle, hentries]
        have hnil' : ((c.awaiting ticket).dropHead.settle
            ((s.disownedAt ticket).failed cause)).queue.entries = [] := by
          rw [queue_settle, dropHead_awaiting]
          show c.dropHead.queue.entries.map _ = _
          rw [hentries]
          rfl
        simp only [attempted]
        rw [dispatch_nil hnil, dispatch_nil hnil', dropHead_awaiting]
        exact hback
    · have hother : (s.failed cause).ticket ≠ ticket := hticket
      simp only [attempted]
      rw [Entry.disownedAt_of_ne hticket, routeOf_awaiting h hother, dropHead_awaiting,
        settle_awaiting _ hother, hdropped.settle]
      exact diverts_after _ fun _ => hlater _ hdropped hentries (hlast.tail hticket)

/-- **Dispatching.** -/
theorem diverts_dispatch (h : c.Unattended config) (hlast : Last p ticket c.queue.entries)
    (hfresh : ∀ s ∈ c.queue.entries, s.Fresh) :
    Diverts p ticket config c.dispatch (c.awaiting ticket).dispatch := by
  induction hs : c.queue.entries generalizing c with
  | nil =>
    rw [hs] at hlast
    cases hlast
  | cons s rest ih =>
    rw [hs] at hlast hfresh
    obtain ⟨hhead, hrest⟩ := List.forall_mem_cons.mp hfresh
    rw [dispatch_cons hs hhead, dispatch_cons (entries_awaiting hs ticket) hhead.disownedAt]
    refine diverts_after _ fun out => diverts_attempted h hs hlast hrest ?_ out
    intro c' h' hentries hlast'
    rw [← hentries] at hlast' hrest
    exact ih h' hlast' hrest hentries

/-- **The end of the head.** -/
theorem diverts_complete (h : c.Awaited p ticket config) (hs : c.queue.entries = head :: rest)
    (hlabel : e.label = head.label) :
    Diverts p ticket config (c.complete e)
      ((c.awaiting ticket).complete (e.disownedAt ticket)) := by
  have hlast := h.last
  have hlater := h.later
  rw [hs] at hlast hlater
  have hticket : e.ticket = head.ticket := congrArg Label.ticket hlabel
  have hpopped : c.popped.Unattended config :=
    ⟨h.unattended.waiting, h.unattended.finished, h.unattended.config⟩
  have htail : c.queue.entries.tail = rest := by
    rw [hs]
    rfl
  have htail' := congrArg List.tail (entries_awaiting hs ticket)
  cases hlast with
  | own hown =>
    have hback := diverts_back (e := e) hpopped (hlabel.trans hown) htail
    rw [complete_nil htail, complete_nil htail', popped_awaiting]
    exact hback
  | behind hne hlast =>
    cases rest with
    | nil => cases hlast
    | cons s rest =>
      rw [← hticket] at hne
      obtain ⟨hfresh, hrest⟩ := List.forall_mem_cons.mp hlater
      rw [complete_cons htail hfresh, complete_cons htail' hfresh.disownedAt,
        Entry.disownedAt_of_ne hne,
        routeOf_awaiting h.unattended hne, popped_awaiting, settle_awaiting _ hne, hpopped.settle]
      refine diverts_after _ fun out => diverts_after _ fun _ => ?_
      refine diverts_attempted hpopped htail hlast hrest ?_ out
      intro c' h' hentries hlast'
      rw [← hentries] at hlast' hrest
      exact diverts_dispatch h' hlast' hrest

/-! ### A pass -/

theorem diverts_serve (h : c.Awaited p ticket config) (status : InterruptStatus) :
    Diverts p ticket config (c.serve status) ((c.awaiting ticket).serve status) := by
  cases hs : c.queue.entries with
  | nil =>
    have hlast := h.last
    rw [hs] at hlast
    cases hlast
  | cons head rest =>
    -- the head goes on in the same way, and keeps its label
    have hown : head.advance status c.blocksRemaining =
        Progress.withLabel head.label <$> head.advance status c.blocksRemaining :=
      head.natural_advance head.label status c.blocksRemaining
    have hother : (head.disownedAt ticket).advance status c.blocksRemaining = _ <$> _ :=
      head.natural_advance _ status c.blocksRemaining
    have hserve := serve_cons hs status
    rw [hown, bind_map_left] at hserve
    have hserve' := serve_cons (entries_awaiting hs ticket) status
    change _ = (head.disownedAt ticket).advance status c.blocksRemaining >>= _ at hserve'
    rw [hother, bind_map_left] at hserve'
    rw [hserve, hserve']
    refine diverts_after _ fun progress => ?_
    obtain ⟨e, blocks, ended⟩ := progress
    cases ended with
    | true => exact diverts_complete (e := e.withLabel head.label) h hs rfl
    | false =>
      have hlast := h.last
      have hlater := h.later
      rw [hs] at hlast hlater
      exact diverts_goesOn (e := e.withLabel head.label) h.unattended hs hlast hlater rfl blocks

/-- **A pass.** -/
theorem diverts_handleInterrupt (h : c.Awaited p ticket config) :
    Diverts p ticket config c.handleInterrupt (c.awaiting ticket).handleInterrupt := by
  unfold handleInterrupt
  refine diverts_after _ fun status => ?_
  cases status.isEmpty with
  | true => exact .awaited h
  | false =>
    exact diverts_after _ fun _ => diverts_after _ fun _ => diverts_serve h status

/-! ### Accepting the command -/

/-- The blocking submission of the same command. -/
def blocking (p : Post) : Submission := ⟨p.command, none, 0⟩

/-- The two submissions put the same command into the queue. -/
theorem joined_blocking (hroom : c.queue.entries.length < queueDepth)
    (hothers : ∀ e ∈ c.queue.entries, e.ticket ≠ c.queue.nextTicket) :
    c.joined (blocking p) = (c.joined p.submission).awaiting c.queue.nextTicket := by
  obtain ⟨hentries, hnext⟩ := Queue.entries_joined hroom (blocking p)
  obtain ⟨hentries', hnext'⟩ := Queue.entries_joined hroom p.submission
  have hqueue : c.queue.joined (blocking p) =
      (c.queue.joined p.submission).disowned c.queue.nextTicket := by
    refine Queue.eq_of_entries ?_ (hnext.trans hnext'.symm)
    show _ = (c.queue.joined p.submission).entries.map _
    rw [hentries, hentries', Entry.map_disownedAt hothers]
    · rfl
    · rfl
  exact congrArg (fun q => { c with queue := q, waiting := some c.queue.nextTicket }) hqueue

theorem last_concat {es : List Entry} (hothers : ∀ e ∈ es, e.ticket ≠ ticket)
    (hown : e.label = p.label ticket) : Last p ticket (es ++ [e]) := by
  induction es with
  | nil => exact .own hown
  | cons e' es ih =>
    obtain ⟨hne, hothers⟩ := List.forall_mem_cons.mp hothers
    exact .behind hne (ih hothers)

/-- **Accepting the command.** -/
theorem diverts_takeIn (h : c.Unattended config) (hroom : c.queue.entries.length < queueDepth)
    (hothers : ∀ e ∈ c.queue.entries, e.ticket ≠ c.queue.nextTicket)
    (hfresh : ∀ s ∈ c.queue.entries.tail, s.Fresh) :
    Diverts p c.queue.nextTicket config (c.takeIn p.submission) (c.takeIn (blocking p)) := by
  have hjoined : (c.joined p.submission).Unattended config := ⟨h.waiting, h.finished, h.config⟩
  have hentries : (c.joined p.submission).queue.entries = c.queue.entries ++ [_] :=
    (Queue.entries_joined hroom p.submission).1
  have hlast : Last p c.queue.nextTicket (c.joined p.submission).queue.entries := by
    rw [hentries]
    exact last_concat hothers rfl
  have hnew : (Entry.submission p.command (some p.handler) p.token c.queue.nextTicket).Fresh :=
    ⟨rfl, rfl, rfl, rfl⟩
  cases hs : c.queue.entries with
  | nil =>
    rw [takeIn_nil hs, takeIn_nil hs, joined_blocking hroom hothers]
    refine diverts_dispatch hjoined hlast ?_
    rw [hentries, hs]
    exact List.forall_mem_singleton.mpr hnew
  | cons e rest =>
    rw [hs] at hfresh
    rw [takeIn_cons hs, takeIn_cons hs, joined_blocking hroom hothers]
    refine .awaited ⟨hjoined, hlast, ?_⟩
    rw [hentries, hs]
    intro s hmem
    rcases List.mem_append.mp hmem with hmem | hmem
    · exact hfresh s hmem
    · rw [List.mem_singleton.mp hmem]
      exact hnew

end Controller

end Engine

/-! ### In given surroundings -/

/-- What has happened, and the controllers: the command is still queued and all was alike, or it was
handed back last, to its handler or to the submitter. -/
inductive Parallel (p : Post) (ticket : Ticket) (config : Config) :
    List Exchange → List Exchange → Controller → Controller → Prop where
  | awaited {es : List Exchange} {c : Controller} (h : c.Awaited p ticket config) :
      Parallel p ticket config es es c (c.awaiting ticket)
  | back {before : List Exchange} {c : Controller} {e : Entry} (h : c.Unattended config)
      (hown : e.label = p.label ticket) (hempty : c.queue.entries = []) :
      Parallel p ticket config
        (before ++ [⟨.handBack e (.callback p.handler), ()⟩])
        (before ++ [⟨.handBack (e.withLabel (.blocking ticket)) .parked, ()⟩])
        c { c with finished := some (ticket, e.command) }

section Surroundings

variable {σ : Type} {reply : Surroundings Answer σ} {p : Post} {ticket : Ticket} {config : Config}
  {c d : Controller} {es es' : List Exchange}

theorem Parallel.after (first : List Exchange) (h : Parallel p ticket config es es' c d) :
    Parallel p ticket config (first ++ es) (first ++ es') c d := by
  cases h with
  | awaited h => exact .awaited h
  | back h hown hempty =>
    rw [← List.append_assoc, ← List.append_assoc]
    exact .back h hown hempty

/-- The second controller is configured like the first. -/
theorem Parallel.config_eq (h : Parallel p ticket config es es' c d) : d.config = config := by
  cases h with
  | awaited h => exact h.unattended.config
  | back h _ _ => exact h.config

/-- As long as the command is queued, all is alike. -/
theorem Parallel.of_pending (h : Parallel p ticket config es es' c d)
    (hpending : c.isPending ticket = true) :
    c.Awaited p ticket config ∧ es' = es ∧ d = c.awaiting ticket := by
  cases h with
  | awaited h => exact ⟨h, rfl, rfl⟩
  | back _ _ hempty =>
    rw [Controller.isPending, Queue.contains, hempty] at hpending
    cases hpending

/-- When the command is no longer queued, it was handed back last. -/
theorem Parallel.of_returned (h : Parallel p ticket config es es' c d)
    (hpending : c.isPending ticket = false) :
    ∃ before e, e.label = p.label ticket ∧
      es = before ++ [⟨.handBack e (.callback p.handler), ()⟩] ∧
      es' = before ++ [⟨.handBack (e.withLabel (.blocking ticket)) .parked, ()⟩] ∧
      d.takeFinished ticket = some (e.command, c) := by
  cases h with
  | awaited h =>
    obtain ⟨others, own, hsplit, hown, -⟩ := h.last.split
    have hmem : own ∈ c.queue.entries := by
      rw [hsplit]
      exact List.mem_append_right _ List.mem_cons_self
    have hqueued : c.isPending ticket = true :=
      List.any_eq_true.mpr ⟨own, hmem, beq_iff_eq.mpr (congrArg Label.ticket hown)⟩
    cases hqueued.symm.trans hpending
  | @back before c e h hown hempty =>
    refine ⟨before, e, hown, rfl, rfl, ?_⟩
    have hfound : ({ c with finished := some (ticket, e.command) } : Controller).takeFinished
        ticket = some (e.command, { c with finished := none }) := if_pos rfl
    rw [hfound, ← h.finished]

/-- Neither the handler nor putting a command on the desk does anything to the surroundings. -/
structure HandsOff (reply : Surroundings Answer σ) (handler : Callback) : Prop where
  callback : ∀ e w, (reply (.handBack e (.callback handler)) w).2 = w
  parked : ∀ e w, (reply (.handBack e .parked) w).2 = w

/-- **Dialogues that go on alike** leave surroundings in the same state that the handler leaves
alone. -/
theorem Diverts.run {d d' : Action Controller} (h : Diverts p ticket config d d')
    (hoff : HandsOff reply p.handler) (w : σ) :
    (Dialogue.run reply d' w).2 = (Dialogue.run reply d w).2 ∧
      Parallel p ticket config (exchanges reply d w) (exchanges reply d' w)
        (Dialogue.run reply d w).1 (Dialogue.run reply d' w).1 := by
  induction h generalizing w with
  | awaited h => exact ⟨rfl, .awaited h⟩
  | @ask q k k' _ ih =>
    obtain ⟨hstate, hparallel⟩ := ih (reply q w).1 (reply q w).2
    exact ⟨hstate, hparallel.after [⟨q, (reply q w).1⟩]⟩
  | @back c e h hown hempty =>
    have hback : Parallel p ticket config ([] ++ [_]) ([] ++ [_]) c _ := .back h hown hempty
    refine ⟨?_, hback⟩
    show (reply (.handBack _ .parked) w).2 = (reply (.handBack e (.callback p.handler)) w).2
    rw [hoff.callback, hoff.parked]

end Surroundings

end SdHost
