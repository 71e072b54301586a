import SdHost.Proofs.Controller.Submission

/-!
# The engine as equations

What is asked and in which order matters when two controllers are compared.  Here the parts of the
command engine are taken apart as dialogues, question by question, with what is told about a command
that is handed back (`announce`) apart from what becomes of the controller (`Controller.settle`).

* `Controller.dispatch_nil`, `dispatch_issued`, `dispatch_cons` — dispatching, head by head, with
  what follows on each (`Controller.attempted`);
* `Controller.complete_nil`, `complete_cons`, `serve_cons` — the end of a head, and what a status
  does to it;
* `Controller.enqueue_eq`, `Controller.sendAsync_eq` — a submission is looked at (`inspect`), then
  it joins the queue (`Controller.takeIn`).
-/

namespace SdHost

/-- What is told about a command that is handed back. -/
def announce (e : Entry) (route : Route) : Action Unit := do
  handBack e route
  match route with
  | .abandoned => report (.abandoned e.command.index e.command.completion.verdict)
  | _ => return ()

/-- A submission that could not be started. -/
def Entry.failed (s : Entry) (cause : CommandError) : Entry :=
  { s with command := s.command.fail cause }

theorem Queue.eq_of_entries {n : Nat} {q q' : Queue n} (hentries : q.entries = q'.entries)
    (hnext : q.nextTicket = q'.nextTicket) : q = q' := by
  obtain ⟨entries, nextTicket, hsize⟩ := q
  obtain rfl : entries = q'.entries := hentries
  obtain rfl : nextTicket = q'.nextTicket := hnext
  rfl

/-! ### The queue -/

namespace Queue

variable {n : Nat} {q : Queue n}

theorem push_of_room (hroom : q.entries.length < n) (command : Command)
    (callback : Option Callback) (token : Nat) : ∃ q', q.push command callback token = some q' := by
  cases hpush : q.push command callback token with
  | some q' => exact ⟨q', rfl⟩
  | none =>
    have hfull := (q.push_eq_none_iff command callback token).mp hpush
    have hlength : q.entries.length = n := beq_iff_eq.mp hfull
    omega

/-- The queue with one more submission, if there is room for it. -/
def joined (q : Queue n) (s : Submission) : Queue n :=
  (q.push s.command s.callback s.token).getD q

/-- A submission joins the queue at its end, under the next ticket. -/
theorem entries_joined (hroom : q.entries.length < n) (s : Submission) :
    (q.joined s).entries = q.entries ++
        [.submission s.command s.callback s.token q.nextTicket] ∧
      (q.joined s).nextTicket = q.nextTicket + 1 := by
  obtain ⟨q', hpush⟩ := push_of_room hroom s.command s.callback s.token
  rw [joined, hpush]
  exact push_eq_some hpush

/-- A submission joins behind the head, whatever becomes of it. -/
theorem modifyHead_joined {head : Entry} {rest : List Entry} (hs : q.entries = head :: rest)
    (hroom : q.entries.length < n) (s : Submission) (f : Entry → Entry) :
    (q.joined s).modifyHead f = (q.modifyHead f).joined s := by
  have hroom' : (q.modifyHead f).entries.length < n := by
    rw [entries_modifyHead, List.length_modifyHead]
    exact hroom
  obtain ⟨hentries, hnext⟩ := entries_joined hroom s
  obtain ⟨hentries', hnext'⟩ := entries_joined hroom' s
  apply eq_of_entries
  · rw [hentries', entries_modifyHead, hentries, entries_modifyHead, hs]
    rfl
  · exact hnext.trans hnext'.symm

/-- A submission joins behind the head, also if the head leaves. -/
theorem tail_joined {head : Entry} {rest : List Entry} (hs : q.entries = head :: rest)
    (hroom : q.entries.length < n) (s : Submission) : (q.joined s).tail = q.tail.joined s := by
  have hroom' : q.tail.entries.length < n := by
    rw [entries_tail, List.length_tail]
    omega
  obtain ⟨hentries, hnext⟩ := entries_joined hroom s
  obtain ⟨hentries', hnext'⟩ := entries_joined hroom' s
  apply eq_of_entries
  · rw [hentries', entries_tail, hentries, entries_tail, hs]
    rfl
  · exact hnext.trans hnext'.symm

end Queue

namespace Controller

variable {c : Controller} {s e : Entry} {rest : List Entry}

/-- The controller after its head went on. -/
def withHead (c : Controller) (e : Entry) (blocks : Nat) : Controller :=
  { c with queue := c.queue.modifyHead fun _ => e, blocksRemaining := blocks }

/-- The controller after its head was started. -/
def launched (c : Controller) (s : Entry) (blocks : Nat) : Controller :=
  c.withHead { s with issued := true } blocks

theorem entries_withHead (hs : c.queue.entries = s :: rest) (e : Entry) (blocks : Nat) :
    (c.withHead e blocks).queue.entries = e :: rest := by
  rw [withHead, Queue.entries_modifyHead, hs]
  rfl

/-! ### Handing back and dispatching -/

theorem deliver_eq (c : Controller) (e : Entry) :
    c.deliver e = announce e (c.routeOf e) >>= fun _ => pure (c.settle e) := by
  unfold deliver announce settle
  cases c.routeOf e <;> rfl

/-- Starting the head of a queue. -/
theorem issueHead_cons (hs : c.queue.entries = s :: rest) (hfresh : s.Fresh) :
    c.issueHead = (s.command.issue c.platform c.version c.config.spinLimit).run >>= fun out =>
      match out with
      | .ok blocks => pure (none, c.launched s blocks)
      | .error cause => pure (some (s.failed cause), c.dropHead) := by
  have hhead := Queue.head?_of_cons hs
  obtain ⟨command, callback, token, ticket, issued, commandDone, dataDone, wordOffset⟩ := s
  obtain ⟨rfl, rfl, rfl, rfl⟩ := hfresh
  unfold issueHead
  simp only [hhead]
  rfl

theorem issueHead_nil (hs : c.queue.entries = []) : c.issueHead = pure (none, c) := by
  unfold issueHead
  simp only [Queue.head?_of_nil hs]

theorem issueHead_issued (hs : c.queue.entries = s :: rest) (hissued : s.issued = true) :
    c.issueHead = pure (none, c) := by
  unfold issueHead
  simp only [Queue.head?_of_cons hs, hissued, if_true]

/-- Nothing is dispatched from an empty queue. -/
theorem dispatch_nil (hs : c.queue.entries = []) : c.dispatch = pure c := by
  have hsize : c.queue.size = 0 := by
    rw [Queue.size, hs]
    rfl
  unfold dispatch
  rw [hsize]
  rfl

/-- A head on the wire stays there. -/
theorem dispatch_issued (hs : c.queue.entries = s :: rest) (hissued : s.issued = true) :
    c.dispatch = pure c := by
  have hsize : c.queue.size = rest.length + 1 := by
    rw [Queue.size, hs]
    rfl
  unfold dispatch
  rw [hsize, dispatchUpTo, issueHead_issued hs hissued]
  rfl

/-- What follows when the head of a queue was to be started. -/
def attempted (c : Controller) (s : Entry) : Except CommandError Nat → Action Controller
  | .ok blocks => pure (c.launched s blocks)
  | .error cause => do
    announce (s.failed cause) (c.routeOf (s.failed cause))
    (c.dropHead.settle (s.failed cause)).dispatch

/-- **Dispatching, head by head.** -/
theorem dispatch_cons (hs : c.queue.entries = s :: rest) (hfresh : s.Fresh) :
    c.dispatch =
      (s.command.issue c.platform c.version c.config.spinLimit).run >>= c.attempted s := by
  have hsize : c.queue.size = rest.length + 1 := by
    rw [Queue.size, hs]
    rfl
  rw [dispatch, hsize, dispatchUpTo, issueHead_cons hs hfresh, bind_assoc]
  congr 1
  funext out
  cases out with
  | ok blocks => rfl
  | error cause =>
    have hrest : (c.dropHead.settle (s.failed cause)).queue.size = rest.length := by
      rw [queue_settle, dropHead, Queue.size, Queue.entries_tail, hs]
      rfl
    show c.dropHead.deliver (s.failed cause) >>= dispatchUpTo rest.length = _
    rw [deliver_eq, bind_assoc, ← hrest]
    rfl

/-! ### The end of a head -/

theorem settle_launched (s : Entry) (blocks : Nat) :
    (c.launched s blocks).settle e = (c.settle e).launched s blocks := by
  unfold launched withHead
  rw [settle_congr, queue_settle]

theorem settle_dropHead : c.dropHead.settle e = (c.settle e).dropHead := by
  unfold dropHead
  rw [queue_settle, ← blocksRemaining_settle]
  exact settle_congr

/-- The end of a head with nothing behind it. -/
theorem complete_nil (hs : c.queue.entries.tail = []) :
    c.complete e = announce e (c.routeOf e) >>= fun _ => pure (c.popped.settle e) := by
  have hentries : (c.popped.settle e).queue.entries = [] := entries_popped_settle.trans hs
  have hissue : c.popped.issueHead = pure (none, c.popped) := issueHead_nil hs
  show (c.popped.issueHead >>= fun r => r.2.deliver e >>= _) = _
  rw [hissue]
  show (c.popped.deliver e >>= fun c => pure c >>= dispatch) = _
  rw [deliver_eq, bind_assoc]
  congr 1
  funext _
  exact dispatch_nil hentries

/-- **The end of a head** with another command behind it, which is attempted first. -/
theorem complete_cons (hs : c.queue.entries.tail = s :: rest) (hfresh : s.Fresh) :
    c.complete e = (s.command.issue c.platform c.version c.config.spinLimit).run >>= fun out =>
      announce e (c.routeOf e) >>= fun _ => (c.popped.settle e).attempted s out := by
  have hissue := issueHead_cons (c := c.popped) hs hfresh
  show (c.popped.issueHead >>= fun r => r.2.deliver e >>= _) = _
  rw [hissue, bind_assoc]
  congr 1
  funext out
  cases out with
  | ok blocks =>
    have hpopped : (c.popped.settle e).queue.entries = s :: rest := entries_popped_settle.trans hs
    have hentries := entries_withHead hpopped { s with issued := true } blocks
    show ((c.popped.launched s blocks).deliver e >>= fun c => pure c >>= dispatch) = _
    rw [deliver_eq, bind_assoc, settle_launched]
    congr 1
    funext _
    exact dispatch_issued hentries rfl
  | error cause =>
    show (c.popped.dropHead.deliver e >>= fun c => c.deliver (s.failed cause) >>= dispatch) = _
    rw [deliver_eq, bind_assoc, settle_dropHead]
    congr 1
    funext _
    show ((c.popped.settle e).dropHead.deliver (s.failed cause) >>= dispatch) = _
    rw [deliver_eq, bind_assoc]
    rfl

/-- **Serving the head** of a queue: it goes on, or it ends. -/
theorem serve_cons (hs : c.queue.entries = s :: rest) (status : InterruptStatus) :
    c.serve status = s.advance status c.blocksRemaining >>= fun progress =>
      if progress.ended then c.complete progress.entry
      else pure (c.withHead progress.entry progress.blocks) := by
  unfold serve
  simp only [Queue.head?_of_cons hs]
  rfl

/-! ### Submissions -/

/-- Looks at a command that is to be submitted. -/
def inspect (command : Command) : Action (Except SubmitError Unit) :=
  if command.completion.isPending then do
    let largest ← Capabilities.largestBlock
    if command.data.any fun d => (d.validate largest).toOption.isNone then
      report (.invalidData command.index)
      return .error (.invalidData command)
    else return .ok ()
  else do
    report (.resubmitted command.index)
    return .error (.notReset command)

/-- The controller with one more submission in its queue. -/
def joined (c : Controller) (s : Submission) : Controller :=
  c.accepted (c.queue.joined s) s.callback

/-- Takes a submission into the queue, and starts it at once if it is alone there. -/
def takeIn (c : Controller) (s : Submission) : Action Controller :=
  if c.queue.isEmpty then (c.joined s).dispatch else pure (c.joined s)

theorem takeIn_nil (hs : c.queue.entries = []) (s : Submission) :
    c.takeIn s = (c.joined s).dispatch := by
  have hempty : c.queue.isEmpty = true := List.isEmpty_iff.mpr hs
  rw [takeIn, hempty, if_pos rfl]

theorem takeIn_cons (hs : c.queue.entries = e :: rest) (s : Submission) :
    c.takeIn s = pure (c.joined s) := by
  have hempty : c.queue.isEmpty = false := Queue.isEmpty_of_cons hs
  rw [takeIn, hempty, if_neg Bool.false_ne_true]

/-- **A submission**, where there is room for it. -/
theorem enqueue_eq (hroom : c.queue.entries.length < queueDepth) (s : Submission) :
    (c.enqueue s.command s.callback s.token).run = inspect s.command >>= fun verdict =>
      match verdict with
      | .ok () => c.takeIn s >>= fun c' => pure (.ok (c.queue.nextTicket, c'))
      | .error err => pure (.error err) := by
  obtain ⟨q, hpush⟩ := Queue.push_of_room hroom s.command s.callback s.token
  have hjoined : c.joined s = c.accepted q s.callback := by
    rw [joined, Queue.joined, hpush]
    rfl
  unfold enqueue inspect takeIn
  rw [hjoined]
  cases hpending : s.command.completion.isPending with
  | false => rfl
  | true =>
    simp only [if_true, hpush]
    refine (ExceptT.run_bind_lift _ _).trans ?_
    rw [bind_assoc]
    congr 1
    funext largest
    cases s.command.data.any fun d => (d.validate largest).toOption.isNone with
    | true => rfl
    | false =>
      cases c.queue.isEmpty with
      | false => rfl
      | true => exact ExceptT.run_bind_lift _ _

/-- What a submission with a handler does after the look at its command. -/
def afterLook (c : Controller) (s : Submission) :
    Except SubmitError Unit → Action (Except SubmitError Unit × Controller)
  | .ok () => do return (.ok (), ← c.takeIn s)
  | .error err => return (.error err, c)

/-- **A submission with a handler**, where there is room for it. -/
theorem sendAsync_eq (hroom : c.queue.entries.length < queueDepth) (command : Command)
    (handler : Callback) (token : Nat) :
    c.sendAsync command handler token =
      inspect command >>= c.afterLook ⟨command, some handler, token⟩ := by
  have henqueue := enqueue_eq hroom ⟨command, some handler, token⟩
  unfold sendAsync
  rw [henqueue, bind_assoc]
  congr 1
  funext verdict
  cases verdict with
  | error err => rfl
  | ok u =>
    show (c.takeIn ⟨command, some handler, token⟩ >>= _) >>= _ = _
    rw [bind_assoc]
    rfl

end Controller

end SdHost
