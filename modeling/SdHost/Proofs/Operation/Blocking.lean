import SdHost.Proofs.Controller.Blocking
import SdHost.Proofs.Operation.Queueing

/-!
# Blocking submissions and submissions with a handler

A blocking submission polls.  What does it do that a submission with a handler, and as many passes,
would not do?  Nothing but where its command goes: it is put on the desk when the other one is
handed to its handler, and a submission that gives up leaves the command without a handler behind.

* `Controller.posted` — a submission with a handler, and some passes;
* `Controller.Meets` — a head of the poll loop, and the controller after as many passes;
* `Controller.ReturnsAfter`, `Controller.GivesUpAfter` — the two ends of a blocking submission, told
  by what the submission with a handler does;
* `blocking_agrees` — every blocking submission that is accepted has one of these ends.
-/

namespace SdHost

open Dialogue (Surroundings exchanges exchanges_bind path_bind path_of_run path_run)

variable {σ : Type}

/-- A command is submitted with its handler, and then the controller is served so many times. -/
def Controller.posted (c : Controller) (p : Post) : Nat → Action Controller
  | 0 => return (← c.post p).2
  | k + 1 => do (← c.posted p k).handleInterrupt

/-! ### The poll loop -/

namespace Controller

variable {c c' : Controller} {ticket : Ticket} {command : Command}

/-- What a blocking submission makes of the end of its poll loop. -/
def concluded (ticket : Ticket) :
    Option Command × Controller → Action (Option (Except SubmitError Command) × Controller)
  | (some command, c) => return (some (resultOf command), c)
  | (none, c) =>
    match c.config.pollLimit with
    | some polls => do
      report (.gaveUp polls)
      return (some (.error (.timeout ticket)), { c with waiting := none })
    | none => return (none, c)

/-- The same command as a blocking submission. -/
theorem send_eq (hroom : c.queue.entries.length < queueDepth) (budget : Nat) (command : Command) :
    c.send budget command = inspect command >>= fun verdict =>
      match verdict with
      | .ok () => c.takeIn ⟨command, none, 0⟩ >>= fun d =>
          pollUpTo c.queue.nextTicket (d.config.pollLimit.getD budget) d >>=
            concluded c.queue.nextTicket
      | .error err => pure (some (.error err), c) := by
  have henqueue := enqueue_eq hroom ⟨command, none, 0⟩
  unfold send
  rw [henqueue, bind_assoc]
  congr 1
  funext verdict
  cases verdict with
  | error err => rfl
  | ok u =>
    show (c.takeIn _ >>= fun d => pure _) >>= _ = _
    rw [bind_assoc]
    rfl

theorem pollUpTo_found (h : c.takeFinished ticket = some (command, c')) (polls : Nat) :
    pollUpTo ticket polls c = pure (some command, c') := by
  unfold pollUpTo
  simp only [h]

theorem pollUpTo_zero (h : c.takeFinished ticket = none) :
    pollUpTo ticket 0 c = pure (none, c) := by
  unfold pollUpTo
  simp only [h]

theorem pollUpTo_succ (h : c.takeFinished ticket = none) (polls : Nat) :
    pollUpTo ticket (polls + 1) c = c.handleInterrupt >>= pollUpTo ticket polls := by
  conv_lhs => unfold pollUpTo
  simp only [h]

/-- The result of a blocking submission whose command has ended. -/
theorem resultOf_eq (command : Command) : resultOf command =
    if command.completion = .succeeded then .ok command else .error (.failed command) := by
  unfold resultOf
  cases command.completion with
  | succeeded => rfl
  | pending => rfl
  | failed cause => rfl

end Controller

/-! ### Head by head -/

section Alike

variable {reply : Surroundings Request.Answer σ} {p : Post} {c d : Controller} {w : σ}
  {budget k : Nat} {es : List Exchange}

namespace Controller

/-- A full queue accepts nothing. -/
theorem room_of_accepted (h : (Dialogue.run reply (c.post p) w).1.1 = .ok ()) :
    c.queue.entries.length < queueDepth := by
  obtain ⟨first, out, second, henqueue, hrest, -⟩ := path_bind.mp (path_run reply (c.post p) w)
  cases out with
  | error err =>
    obtain ⟨-, hresult⟩ := Dialogue.path_done.mp hrest
    rw [hresult] at h
    cases h
  | ok found =>
    rcases leads_enqueue (leads_of_path henqueue) with ⟨err, habs, -⟩ | ⟨q, c₁, hpush, -⟩
    · cases habs
    · by_contra hfull
      unfold Queue.push at hpush
      rw [dif_neg hfull] at hpush
      cases hpush

/-- An accepted command has passed the look at it. -/
theorem inspected_of_accepted (h : (Dialogue.run reply (c.post p) w).1.1 = .ok ()) :
    (Dialogue.run reply (inspect p.command) w).1 = .ok () := by
  rw [post, sendAsync_eq (room_of_accepted h), Dialogue.run_bind] at h
  cases hlooked : (Dialogue.run reply (inspect p.command) w).1 with
  | ok u => rfl
  | error err =>
    rw [hlooked] at h
    cases h

/-- A submission with a handler, after the look at its command. -/
theorem posted_zero (hroom : c.queue.entries.length < queueDepth) :
    c.posted p 0 = inspect p.command >>= fun verdict =>
      match verdict with
      | .ok () => c.takeIn p.submission
      | .error _ => pure c := by
  rw [posted, post, sendAsync_eq hroom, bind_assoc]
  congr 1
  funext verdict
  cases verdict with
  | error err => rfl
  | ok u =>
    show (c.takeIn p.submission >>= _) >>= _ = c.takeIn p.submission
    rw [bind_assoc]
    exact bind_pure _

/-- A head of the poll loop of a blocking submission, and the controller after a submission with a
handler and as many passes. -/
structure Meets (reply : Surroundings Request.Answer σ) (c : Controller) (p : Post) (budget : Nat)
    (w : σ) (k : Nat) (es : List Exchange) (d : Controller) : Prop where
  polls : c.Polls p.command c.queue.nextTicket k es d
  parallel : Parallel p c.queue.nextTicket c.config (exchanges reply (c.posted p k) w) es
    (Dialogue.run reply (c.posted p k) w).1 d
  /-- What the blocking submission does from there, if it polls so many times more. -/
  goesOn : ∀ m, c.config.pollLimit.getD budget = k + m →
    Dialogue.run reply (c.send budget p.command) w =
      Dialogue.run reply (pollUpTo c.queue.nextTicket m d >>= concluded c.queue.nextTicket)
        (Dialogue.run reply (c.posted p k) w).2 ∧
    exchanges reply (c.send budget p.command) w =
      es ++ exchanges reply (pollUpTo c.queue.nextTicket m d >>= concluded c.queue.nextTicket)
        (Dialogue.run reply (c.posted p k) w).2

/-- **The first head** of the poll loop. -/
theorem meets_zero (h : c.Unattended c.config)
    (hothers : ∀ e ∈ c.queue.entries, e.ticket ≠ c.queue.nextTicket)
    (hfresh : ∀ s ∈ c.queue.entries.tail, s.Fresh) (hoff : HandsOff reply p.handler)
    (haccept : (Dialogue.run reply (c.post p) w).1.1 = .ok ()) (budget : Nat) :
    ∃ es d, c.Meets reply p budget w 0 es d := by
  have hroom := room_of_accepted haccept
  have hlooked := inspected_of_accepted haccept
  have henqueue := enqueue_eq hroom (blocking p)
  change (c.enqueue p.command none 0).run = inspect p.command >>= _ at henqueue
  cases hrun : Dialogue.run reply (inspect p.command) w with | mk verdict w₁ =>
  rw [hrun] at hlooked
  obtain rfl : verdict = .ok () := hlooked
  obtain ⟨hstate, hparallel⟩ := (diverts_takeIn (p := p) h hroom hothers hfresh).run hoff w₁
  cases htaken : Dialogue.run reply (c.takeIn (blocking p)) w₁ with | mk d w₂ =>
  rw [htaken] at hstate hparallel
  obtain rfl : w₂ = _ := hstate
  have hconfig : d.config = c.config := hparallel.config_eq
  have hposted : Dialogue.run reply (c.posted p 0) w =
      Dialogue.run reply (c.takeIn p.submission) w₁ := by
    rw [posted_zero hroom, Dialogue.run_bind, hrun]
  refine ⟨exchanges reply (inspect p.command) w ++ exchanges reply (c.takeIn (blocking p)) w₁, d,
    .accepted ?_, ?_, ?_⟩
  · rw [henqueue]
    exact path_bind.mpr ⟨_, _, _, path_of_run hrun,
      Dialogue.path_bind_pure.mpr ⟨_, path_of_run htaken, rfl⟩, rfl⟩
  · rw [hposted, posted_zero hroom, exchanges_bind, hrun]
    exact hparallel.after _
  · intro m hm
    rw [Nat.zero_add, ← hconfig] at hm
    have hsend := send_eq hroom budget p.command
    rw [hsend, hposted, Dialogue.run_bind, exchanges_bind, hrun, List.append_assoc]
    change Dialogue.run reply (c.takeIn (blocking p) >>= _) w₁ = _ ∧
      _ ++ exchanges reply (c.takeIn (blocking p) >>= _) w₁ = _
    rw [Dialogue.run_bind, exchanges_bind, htaken, ← hm]
    exact ⟨rfl, rfl⟩

/-- **The next head** of the poll loop. -/
theorem Meets.succ (h : c.Meets reply p budget w k es d) (hoff : HandsOff reply p.handler)
    (hpending : (Dialogue.run reply (c.posted p k) w).1.isPending c.queue.nextTicket = true) :
    ∃ es d, c.Meets reply p budget w (k + 1) es d := by
  obtain ⟨hawaited, hes, hd⟩ := h.parallel.of_pending hpending
  have hgoesOn := h.goesOn
  have hpolls := h.polls
  have hposted : c.posted p (k + 1) = c.posted p k >>= handleInterrupt := rfl
  cases hrun : Dialogue.run reply (c.posted p k) w with | mk c₁ w₁ =>
  rw [hrun] at hawaited hd hgoesOn
  have htake : d.takeFinished c.queue.nextTicket = none := by
    rw [hd]
    exact hawaited.unattended.takeFinished_awaiting
  obtain ⟨hstate, hparallel⟩ := (diverts_handleInterrupt hawaited).run hoff w₁
  rw [← hd] at hstate hparallel
  cases hserved : Dialogue.run reply d.handleInterrupt w₁ with | mk d₁ w₂ =>
  rw [hserved] at hstate hparallel
  obtain rfl : w₂ = _ := hstate
  have hnext : Dialogue.run reply (c.posted p (k + 1)) w =
      Dialogue.run reply c₁.handleInterrupt w₁ := by
    rw [hposted, Dialogue.run_bind, hrun]
  refine ⟨es ++ exchanges reply d.handleInterrupt w₁, d₁,
    hpolls.polled htake (path_of_run hserved), ?_, ?_⟩
  · rw [hnext, hposted, exchanges_bind, hrun, ← hes]
    exact hparallel.after _
  · intro m hm
    obtain ⟨hsend, hsent⟩ := hgoesOn (m + 1) (by omega)
    rw [hsend, hsent, hnext, pollUpTo_succ htake, bind_assoc, Dialogue.run_bind, exchanges_bind,
      hserved, List.append_assoc]
    exact ⟨rfl, rfl⟩

/-- **Every head** of the poll loop, as long as the command is queued. -/
theorem meets (h : c.Unattended c.config)
    (hothers : ∀ e ∈ c.queue.entries, e.ticket ≠ c.queue.nextTicket)
    (hfresh : ∀ s ∈ c.queue.entries.tail, s.Fresh) (hoff : HandsOff reply p.handler)
    (haccept : (Dialogue.run reply (c.post p) w).1.1 = .ok ()) (budget k : Nat)
    (hpending : ∀ j < k,
      (Dialogue.run reply (c.posted p j) w).1.isPending c.queue.nextTicket = true) :
    ∃ es d, c.Meets reply p budget w k es d := by
  induction k with
  | zero => exact meets_zero h hothers hfresh hoff haccept budget
  | succ k ih =>
    obtain ⟨es, d, hmeets⟩ := ih fun j hj => hpending j (Nat.lt_succ_of_lt hj)
    exact hmeets.succ hoff (hpending k (Nat.lt_succ_self k))

/-! ### The two ends -/

/-- The blocking submission comes back with its command after so many polls.  Both submissions have
made the same exchanges up to the last, which hands the command back: here to its handler, there to
the submitter.  They leave the controller and the surroundings in the same state. -/
structure ReturnsAfter (reply : Surroundings Request.Answer σ) (c : Controller) (p : Post)
    (budget : Nat) (w : σ) (k : Nat) (before : List Exchange) (e : Entry) : Prop where
  own : e.label = p.label c.queue.nextTicket
  posted : exchanges reply (c.posted p k) w =
    before ++ [⟨.handBack e (.callback p.handler), ()⟩]
  sent : exchanges reply (c.send budget p.command) w =
    before ++ [⟨.handBack (e.withLabel (.blocking c.queue.nextTicket)) .parked, ()⟩]
  /-- The submission polls `k` times, and then finds its command. -/
  polls : ∃ head, c.Polls p.command c.queue.nextTicket k
      (exchanges reply (c.send budget p.command) w) head ∧
    head.takeFinished c.queue.nextTicket =
      some (e.command, (Dialogue.run reply (c.posted p k) w).1)
  result : Dialogue.run reply (c.send budget p.command) w =
    ((some (if e.command.completion = .succeeded then .ok e.command
        else .error (.failed e.command)),
      (Dialogue.run reply (c.posted p k) w).1), (Dialogue.run reply (c.posted p k) w).2)

/-- The blocking submission gives up after so many polls.  Both submissions have made the same
exchanges, apart from the report of it.  The command stays in the queue, and the controllers differ
in that it has no handler there and the token 0. -/
structure GivesUpAfter (reply : Surroundings Request.Answer σ) (c : Controller) (p : Post)
    (budget : Nat) (w : σ) (n : Nat) : Prop where
  sent : exchanges reply (c.send budget p.command) w =
    exchanges reply (c.posted p n) w ++ [⟨.report (.gaveUp n), ()⟩]
  /-- The submission polls `n` times, and does not find its command. -/
  polls : ∃ head, c.Polls p.command c.queue.nextTicket n (exchanges reply (c.posted p n) w) head ∧
    head.takeFinished c.queue.nextTicket = none
  result : Dialogue.run reply (c.send budget p.command) w =
    ((some (.error (.timeout c.queue.nextTicket)),
      (Dialogue.run reply (c.posted p n) w).1.disowned c.queue.nextTicket),
      (reply (.report (.gaveUp n)) (Dialogue.run reply (c.posted p n) w).2).2)
  queued : ∃ others e, e.label = p.label c.queue.nextTicket ∧
    (Dialogue.run reply (c.posted p n) w).1.queue.entries = others ++ [e] ∧
    ((Dialogue.run reply (c.posted p n) w).1.disowned c.queue.nextTicket).queue.entries =
      others ++ [e.withLabel (.blocking c.queue.nextTicket)]

theorem Meets.returns (h : c.Meets reply p budget w k es d)
    (hlimit : k ≤ c.config.pollLimit.getD budget)
    (hpending : (Dialogue.run reply (c.posted p k) w).1.isPending c.queue.nextTicket = false) :
    ∃ before e, c.ReturnsAfter reply p budget w k before e := by
  obtain ⟨before, e, hown, hposted, hes, htake⟩ := h.parallel.of_returned hpending
  obtain ⟨m, hm⟩ := Nat.exists_eq_add_of_le hlimit
  obtain ⟨hsend, hsent⟩ := h.goesOn m hm
  rw [pollUpTo_found htake] at hsend hsent
  have hall : exchanges reply (c.send budget p.command) w = es :=
    hsent.trans (List.append_nil es)
  have hpolls := h.polls
  refine ⟨before, e, hown, hposted, hall.trans hes, ⟨d, ?_, htake⟩, ?_⟩
  · rw [hall]
    exact hpolls
  · rw [hsend, ← resultOf_eq]
    rfl

theorem Meets.givesUp (h : c.Meets reply p budget w k es d) (hlimit : c.config.pollLimit = some k)
    (hpending : (Dialogue.run reply (c.posted p k) w).1.isPending c.queue.nextTicket = true) :
    c.GivesUpAfter reply p budget w k := by
  obtain ⟨hawaited, hes, hd⟩ := h.parallel.of_pending hpending
  have hpolls := h.polls
  have hzero : c.config.pollLimit.getD budget = k + 0 := by
    rw [hlimit]
    rfl
  obtain ⟨hsend, hsent⟩ := h.goesOn 0 hzero
  have htake : d.takeFinished c.queue.nextTicket = none := by
    rw [hd]
    exact hawaited.unattended.takeFinished_awaiting
  have hdlimit : d.config.pollLimit = some k := by
    rw [h.parallel.config_eq]
    exact hlimit
  -- the submitter reports that it gave up, and nobody is waited for any more
  have hgone : pollUpTo c.queue.nextTicket 0 d >>= concluded c.queue.nextTicket =
      report (.gaveUp k) >>= fun _ =>
        pure (some (.error (.timeout c.queue.nextTicket)), { d with waiting := none }) := by
    rw [pollUpTo_zero htake]
    show concluded c.queue.nextTicket (none, d) = _
    unfold concluded
    simp only [hdlimit]
  have hleft : ({ d with waiting := none } : Controller) =
      (Dialogue.run reply (c.posted p k) w).1.disowned c.queue.nextTicket := by
    rw [hd, ← hawaited.unattended.waiting]
    rfl
  rw [hgone, hleft] at hsend hsent
  rw [hes] at hsent hpolls
  obtain ⟨others, e, hsplit, hown, hothers⟩ := hawaited.last.split
  refine ⟨hsent, ⟨d, hpolls, htake⟩, hsend, others, e, hown, hsplit, ?_⟩
  show (Dialogue.run reply (c.posted p k) w).1.queue.entries.map _ = _
  rw [hsplit]
  exact Entry.map_disownedAt hothers (congrArg Label.ticket hown)

end Controller

end Alike

/-- **A blocking submission agrees with one that has a handler.**  Let the handler keep its hands
off the surroundings, and let the command be accepted.  If the command comes back to its handler
after `k` passes, and the submitter may poll that often, then the blocking submission comes back
with the same command after `k` polls.  If it does not come back within the polls that are allowed,
then the blocking submission gives up after these. -/
theorem blocking_agrees {steps : List Step} {c : Controller} (h : Run steps c)
    {reply : Surroundings Request.Answer σ} {p : Post} (hoff : HandsOff reply p.handler) {w : σ}
    (haccept : (Dialogue.run reply (c.post p) w).1.1 = .ok ()) (budget : Nat) :
    (∀ k, k ≤ c.config.pollLimit.getD budget →
      (∀ j < k, (Dialogue.run reply (c.posted p j) w).1.isPending c.queue.nextTicket = true) →
      (Dialogue.run reply (c.posted p k) w).1.isPending c.queue.nextTicket = false →
      ∃ before e, c.ReturnsAfter reply p budget w k before e) ∧
    (∀ n, c.config.pollLimit = some n →
      (∀ j ≤ n, (Dialogue.run reply (c.posted p j) w).1.isPending c.queue.nextTicket = true) →
      c.GivesUpAfter reply p budget w n) := by
  obtain ⟨hwaiting, hfinished⟩ := h.desk
  obtain ⟨ts, htraced⟩ := h.trace
  have hclear : c.Unattended c.config := ⟨hwaiting, hfinished, rfl⟩
  have hothers := htraced.reached.ticket_ne
  have hfresh : ∀ s ∈ c.queue.entries.tail, s.Fresh := by
    rcases htraced.reached.fresh with hs | ⟨head, rest, hs, hfresh⟩
    · rw [hs]
      exact List.forall_mem_nil _
    · rw [hs]
      exact hfresh
  constructor
  · intro k hlimit hpending hreturned
    obtain ⟨es, d, hmeets⟩ := Controller.meets hclear hothers hfresh hoff haccept budget k hpending
    exact hmeets.returns hlimit hreturned
  · intro n hlimit hpending
    obtain ⟨es, d, hmeets⟩ := Controller.meets hclear hothers hfresh hoff haccept budget n
      fun j hj => hpending j (Nat.le_of_lt hj)
    exact hmeets.givesUp hlimit (hpending n (Nat.le_refl n))

/-- Behind one other command, a submission that comes back with the last poll, and one that gives
up. -/
theorem blocking_agrees_second : ∃ steps c, Run steps c ∧ c.pending = 1 ∧
    c.config.pollLimit = some 2 ∧
    (∃ before e, c.ReturnsAfter scripted ⟨.new 0 0 .none, ⟨3⟩, 5⟩ 0
      [(.interruptStatus, 1), (.interruptStatus, 1)] 2 before e) ∧
    c.GivesUpAfter scripted ⟨.new 0 0 .none, ⟨3⟩, 5⟩ 0 [(.interruptStatus, 1)] 2 := by
  have hqueued := run_rested.scripted (.sendAsync (Command.new 0 0 .none) ⟨4⟩ 6) []
    (fun s hs => by obtain rfl := Option.some.inj hs; exact .new 0 0 .none) rfl
  have hoff : HandsOff scripted ⟨3⟩ := ⟨fun _ _ => rfl, fun _ _ => rfl⟩
  refine ⟨_, _, hqueued, rfl, rfl, ?_, ?_⟩
  · exact (blocking_agrees hqueued hoff rfl 0).1 2 (by decide) (by decide +kernel) rfl
  · exact (blocking_agrees hqueued hoff rfl 0).2 2 rfl (by decide +kernel)

end SdHost
