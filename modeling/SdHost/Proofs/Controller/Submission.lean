import SdHost.Controller.Submission
import SdHost.Proofs.Controller.Dispatch

/-!
# The events of a submission

A submission is refused without an event, or its command joins the queue; in an empty queue it is
dispatched at once.

* `Submission` — a command as its submitter knows it;
* `Controller.leads_enqueue` — the two ways in which a submission ends;
* `Entry.Submitted` — what holds of every accepted submission.
-/

namespace SdHost

open Register

/-- The submission was not accepted, and the command comes back. -/
def SubmitError.isRefusal : SubmitError → Bool
  | .queueFull _ | .notReset _ | .invalidData _ => true
  | .failed _ | .timeout _ => false

/-- A submission as its submitter knows it. -/
structure Submission where
  command : Command
  /-- Who is told of the end; a blocking submission has no handler. -/
  callback : Option Callback
  token : Nat

/-- A submission as it joins the queue. -/
def Entry.submission (command : Command) (callback : Option Callback) (token : Nat)
    (ticket : Ticket) : Entry :=
  { command := command, callback := callback, token := token, ticket := ticket }

theorem Queue.push_eq_some {n : Nat} {q q' : Queue n} {command : Command}
    {callback : Option Callback} {token : Nat} (h : q.push command callback token = some q') :
    q'.entries = q.entries ++ [.submission command callback token q.nextTicket] ∧
      q'.nextTicket = q.nextTicket + 1 := by
  unfold Queue.push at h
  split at h
  · obtain rfl := Option.some.inj h
    exact ⟨rfl, rfl⟩
  · cases h

/-- What holds of every accepted submission. -/
structure Entry.Submitted (s : Entry) : Prop where
  fresh : s.Fresh
  pending : s.command.completion = .pending
  fits : s.command.Fits

theorem DataPhase.bufferSuffices_of_validate {d : DataPhase} {largest : UInt32}
    (h : (d.validate largest).toOption.isNone = false) : d.bufferSuffices = true := by
  by_contra hroom
  rw [Bool.not_eq_true] at hroom
  unfold DataPhase.validate at h
  rw [hroom] at h
  split at h
  · cases h
  · split at h
    · cases h
    · cases h

/-- A command whose data phase passed the checks has a word for every word that will move. -/
theorem Command.fits_of_validate {c : Command} {largest : UInt32}
    (h : (c.data.any fun d => (d.validate largest).toOption.isNone) = false) : c.Fits := by
  obtain ⟨index, argument, kind, data, response, completion, errors⟩ := c
  rcases data with _ | ⟨size, blocks, address | ⟨id, contents⟩⟩
  · show 0 * _ ≤ _
    rw [Nat.zero_mul]
    exact Nat.zero_le _
  · show 0 * _ ≤ _
    rw [Nat.zero_mul]
    exact Nat.zero_le _
  · have hsuffices := DataPhase.bufferSuffices_of_validate h
    show blocks.toNat * (size / 4).toNat ≤ contents.length
    rw [Nat.mul_comm]
    exact of_decide_eq_true hsuffices

namespace Controller

variable {c c' : Controller} {command : Command} {callback : Option Callback} {token : Nat}
  {evs : List Event}

theorem quiet_largestBlock : Quiet Capabilities.largestBlock :=
  quiet_bind (quiet_read fun _ => rfl) fun _ => quiet_pure _

/-- The controller with a command accepted into its queue. -/
def accepted (c : Controller) (q : Queue queueDepth) (callback : Option Callback) : Controller :=
  { c with
    queue := q
    waiting := if callback.isNone then some c.queue.nextTicket else c.waiting }

/-- **The two ways in which a submission ends.** -/
theorem leads_enqueue {r : Except SubmitError (Ticket × Controller)}
    (h : Leads (c.enqueue command callback token).run evs r) :
    (∃ err, r = .error err ∧ evs = [] ∧ err.isRefusal = true ∧ err.command? = some command) ∨
    ∃ q c', c.queue.push command callback token = some q ∧ command.completion = .pending ∧
      command.Fits ∧ r = .ok (c.queue.nextTicket, c') ∧
      if c.queue.isEmpty then Leads (c.accepted q callback).dispatch evs c'
      else evs = [] ∧ c' = c.accepted q callback := by
  unfold enqueue at h
  cases hpending : command.completion.isPending with
  | false =>
    simp only [hpending] at h
    obtain ⟨rfl, rfl⟩ := leads_report_throw h
    exact .inl ⟨_, rfl, rfl, rfl, rfl⟩
  | true =>
    simp only [hpending, if_true] at h
    obtain ⟨_, largest, _, hl, h₁, rfl⟩ := leads_run_lift_bind.mp h
    rw [quiet_largestBlock hl]
    rcases leads_ite.mp h₁ with ⟨hinvalid, h₂⟩ | ⟨hvalid, h₂⟩
    · obtain ⟨rfl, rfl⟩ := leads_report_throw h₂
      exact .inl ⟨_, rfl, rfl, rfl, rfl⟩
    · cases hpush : c.queue.push command callback token with
      | none =>
        simp only [hpush] at h₂
        obtain ⟨rfl, rfl⟩ := leads_run_throw.mp h₂
        exact .inl ⟨_, rfl, rfl, rfl, rfl⟩
      | some q =>
        simp only [hpush] at h₂
        have hcompletion : command.completion = .pending := by
          cases hc : command.completion with
          | pending => rfl
          | succeeded =>
            rw [hc] at hpending
            cases hpending
          | failed cause =>
            rw [hc] at hpending
            cases hpending
        have hfits := Command.fits_of_validate hvalid
        rcases leads_ite.mp h₂ with ⟨hempty, h₃⟩ | ⟨hempty, h₃⟩
        · obtain ⟨first, c', _, hd, h₄, rfl⟩ := leads_run_lift_bind.mp h₃
          obtain ⟨rfl, rfl⟩ := leads_run_pure.mp h₄
          refine .inr ⟨q, c', rfl, hcompletion, hfits, rfl, ?_⟩
          rw [hempty, List.append_nil]
          exact hd
        · obtain ⟨rfl, rfl⟩ := leads_run_pure.mp h₃
          refine .inr ⟨q, _, rfl, hcompletion, hfits, rfl, ?_⟩
          rw [hempty]
          exact ⟨rfl, rfl⟩

/-- A submission into an empty queue is alone there. -/
theorem entries_accepted {q : Queue queueDepth} (hempty : c.queue.isEmpty = true)
    (hpush : c.queue.push command callback token = some q) :
    (c.accepted q callback).queue.entries =
      [.submission command callback token c.queue.nextTicket] := by
  have hentries := (Queue.push_eq_some hpush).1
  rw [List.isEmpty_iff.mp hempty, List.nil_append] at hentries
  exact hentries

theorem dispatches_accepted {q : Queue queueDepth} (hempty : c.queue.isEmpty = true)
    (hpush : c.queue.push command callback token = some q)
    (h : Leads (c.accepted q callback).dispatch evs c') :
    Dispatches (c.accepted q callback) evs c' := by
  refine leads_dispatch ?_ h
  intro s hmem
  rw [entries_accepted hempty hpush, List.mem_singleton] at hmem
  rw [hmem]
  exact ⟨rfl, rfl, rfl, rfl⟩

/-- A submission does nothing but dispatch. -/
theorem only_of_enqueue {r : Except SubmitError (Ticket × Controller)}
    (h : Leads (c.enqueue command callback token).run evs r) : OnlyDispatch evs := by
  rcases leads_enqueue h with ⟨_, _, rfl, -⟩ | ⟨q, c₁, hpush, _, _, _, hdone⟩
  · exact List.forall_mem_nil _
  · cases hempty : c.queue.isEmpty with
    | true =>
      rw [hempty, if_pos rfl] at hdone
      exact (dispatches_accepted hempty hpush hdone).only
    | false =>
      rw [hempty, if_neg Bool.false_ne_true] at hdone
      rw [hdone.1]
      exact List.forall_mem_nil _

end Controller

end SdHost
