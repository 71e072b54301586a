import SdHost.Proofs.Operation.Coherence
import SdHost.Proofs.Queue.Tickets

/-!
# Tickets and submissions

The ticket of a submission is its number among those that were accepted.  As long as there are
numbers enough, a ticket is pending just if the submission with that number was accepted and has not
come back; so its submitter can tell by the ticket when the buffer of the command is free again.

* `Ticket.mem_numbers`, `Ticket.nodup_numbers` — tickets as numbers that are counted from zero;
* `Reached.inRow` — the queue of every controller that was reached;
* `Reached.isPending_iff`, `Run.isPending_iff_polled` — which tickets are pending;
* `Run.named` — every command belongs to the submission that its ticket names;
* `ticket_discipline` — the whole of it, for every queue and every run.
-/

namespace SdHost

open Dialogue (Path)

/-! ### Numbers from zero -/

namespace Ticket

variable {t : Ticket} {count : Nat}

theorem mem_numbers (h : count < 2 ^ 32) :
    t ∈ (List.range count).map UInt32.ofNat ↔ t.toNat < count := by
  rw [List.mem_map]
  constructor
  · rintro ⟨i, hi, rfl⟩
    have hlt := List.mem_range.mp hi
    rw [UInt32.toNat_ofNat_of_lt' (Nat.lt_trans hlt h)]
    exact hlt
  · intro hlt
    exact ⟨t.toNat, List.mem_range.mpr hlt, UInt32.ofNat_toNat⟩

theorem nodup_numbers (h : count < 2 ^ 32) : ((List.range count).map UInt32.ofNat).Nodup := by
  rw [List.range_eq_range', ← before_ofNat]
  exact nodup_before (Nat.le_of_lt h)

end Ticket

theorem Queue.contains_iff {n : Nat} {q : Queue n} {t : Ticket} :
    q.contains t = true ↔ t ∈ q.tickets := by
  unfold contains tickets
  rw [List.any_eq_true, List.mem_map]
  exact exists_congr fun e => and_congr_right' beq_iff_eq

/-! ### Runs -/

/-- A call whose submission is refused leaves the controller as it is. -/
theorem Controller.eq_of_refused {c c' : Controller} {budget : Nat} {op : Operation}
    {es : List Exchange} {err : SubmitError} (hrefusal : err.isRefusal = true)
    (hstep : Path (c.operate budget op) es (some (.submitted (.error err)), c')) : c' = c := by
  cases hs : op.submission? with
  | none => cases (path_operate_other hs hstep).1
  | some s =>
    obtain ⟨result, hresult, hsubmits⟩ := path_operate_submission hs hstep
    obtain rfl := Outcome.submitted.inj hresult
    cases hsubmits with
    | refused _ _ hc => exact hc
    | queued _ _ habs => cases habs
    | returned _ _ _ _ _ _ hdone =>
      cases hrefusal.symm.trans (resultOf_ne_refusal hdone.symm)
    | gaveUp _ _ _ _ _ _ _ habs =>
      obtain rfl := Except.error.inj habs
      cases hrefusal

namespace Reached

variable {ts : List Record} {c : Controller}

/-- **The tickets in the queue** of a controller are the last ones that were given out. -/
theorem inRow (h : Reached ts c) : c.queue.InRow := by
  have htickets := h.tickets
  rw [h.length_accepted, List.range_eq_range', ← List.range'_append_1, List.map_append] at htickets
  have hback : ((returned ts).map fun d => d.1.ticket).length =
      ((List.range' 0 (returned ts).length).map UInt32.ofNat).length := by
    rw [List.length_map, List.length_map, List.length_range']
  have hqueue : c.queue.tickets =
      (List.range' (0 + (returned ts).length) c.queue.entries.length).map UInt32.ofNat :=
    (List.append_inj htickets hback).2
  rw [Queue.InRow, h.ledger.next, h.length_accepted, hqueue, Nat.zero_add]
  exact (Ticket.before_ofNat _ _).symm

/-- **A ticket is pending** just if it was given out and its command has not come back. -/
theorem isPending_iff (h : Reached ts c) (hroom : (accepted ts).length < 2 ^ 32) (t : Ticket) :
    c.isPending t = true ↔
      t.toNat < (accepted ts).length ∧ ∀ d ∈ returned ts, d.1.ticket ≠ t := by
  have hgiven := Ticket.mem_numbers (t := t) hroom
  have hdistinct := Ticket.nodup_numbers hroom
  rw [← h.tickets] at hgiven hdistinct
  have hpending : c.isPending t = true ↔ t ∈ c.queue.tickets := Queue.contains_iff
  rw [hpending]
  constructor
  · intro hqueued
    refine ⟨hgiven.mp (List.mem_append_right _ hqueued), fun d hd => ?_⟩
    exact (List.nodup_append.mp hdistinct).2.2 _ (List.mem_map_of_mem hd) t hqueued
  · rintro ⟨hlt, hnot⟩
    refine (List.mem_append.mp (hgiven.mpr hlt)).resolve_left fun hback => ?_
    obtain ⟨d, hd, hticket⟩ := List.mem_map.mp hback
    exact hnot d hd hticket

end Reached

namespace Run

variable {steps : List Step} {c c' head : Controller}

/-- The submission that is accepted next gets its number as its ticket. -/
theorem given (h : Run steps c) {s : Submission} {es : List Exchange} {ticket : Ticket}
    (henqueue : Path (c.enqueue s.command s.callback s.token).run es (.ok (ticket, c'))) :
    ticket = UInt32.ofNat (submissions steps).length := by
  obtain ⟨ts, htraced⟩ := h.trace
  rw [← htraced.accepted, List.length_map]
  exact (htraced.reached.enqueue htraced.desk henqueue).1

theorem inRow (h : Run steps c) : c.queue.InRow := by
  obtain ⟨ts, htraced⟩ := h.trace
  exact htraced.reached.inRow

theorem isPending_iff (h : Run steps c) (hroom : (submissions steps).length < 2 ^ 32)
    (t : Ticket) : c.isPending t = true ↔
      t.toNat < (submissions steps).length ∧ ∀ d ∈ deliveries steps, d.1.ticket ≠ t := by
  obtain ⟨ts, htraced⟩ := h.trace
  rw [← htraced.accepted, List.length_map] at hroom ⊢
  rw [← htraced.returned]
  exact htraced.reached.isPending_iff hroom t

/-- **While a blocking submission polls**, it counts as the last that was accepted. -/
theorem isPending_iff_polled (h : Run steps c) (hroom : (submissions steps).length + 1 < 2 ^ 32)
    {command : Command} {ticket : Ticket} {polls : Nat} {es : List Exchange}
    (hpolls : c.Polls command ticket polls es head) (t : Ticket) :
    head.isPending t = true ↔ t.toNat < (submissions steps).length + 1 ∧
      ∀ d ∈ deliveries steps ++ handed (events es), d.1.ticket ≠ t := by
  obtain ⟨ts, htraced⟩ := h.trace
  obtain ⟨us, hturns, hlater, haccepted⟩ := hpolls.record
  have hreached := htraced.reached.append hturns
  have hnumber : (accepted (ts ++ us)).length = (submissions steps).length + 1 := by
    rw [accepted_append, haccepted, List.length_append, ← htraced.accepted, List.length_map]
    rfl
  have hback : returned (ts ++ us) = deliveries steps ++ handed (events es) := by
    rw [returned_append, htraced.returned, returned_eq us, ← hlater]
    rfl
  rw [← hnumber] at hroom ⊢
  rw [← hback]
  exact hreached.isPending_iff hroom t

/-- **Every command** that came back or is queued is, but for what came of it, the submission that
its ticket names. -/
theorem named (h : Run steps c) (hroom : (submissions steps).length < 2 ^ 32) {e : Entry}
    (he : e ∈ (deliveries steps).map Prod.fst ++ c.queue.entries) :
    (submissions steps)[e.ticket.toNat]?.map Submission.order = some e.order := by
  obtain ⟨i, hi⟩ := List.mem_iff_getElem?.mp he
  have htickets : ((deliveries steps).map Prod.fst ++ c.queue.entries).map Entry.ticket =
      (List.range (submissions steps).length).map UInt32.ofNat := by
    rw [List.map_append, List.map_map]
    exact h.tickets
  have horders : (submissions steps).map Submission.order =
      ((deliveries steps).map Prod.fst ++ c.queue.entries).map Entry.order := by
    rw [List.map_append, List.map_map]
    exact h.orders
  -- the place of the command is its ticket
  have hticket := congrArg (·[i]?) htickets
  simp only [List.getElem?_map, hi, Option.map_some] at hticket
  obtain ⟨j, hj, hnumber⟩ := Option.map_eq_some_iff.mp hticket.symm
  obtain ⟨hlt, hplace⟩ := List.getElem?_eq_some_iff.mp hj
  rw [List.length_range] at hlt
  rw [List.getElem_range] at hplace
  have horder := congrArg (·[i]?) horders
  simp only [List.getElem?_map, hi, Option.map_some] at horder
  rw [← hnumber, ← hplace, UInt32.toNat_ofNat_of_lt' (Nat.lt_trans hlt hroom)]
  exact horder

end Run

/-- How the tickets of a controller tell its submissions apart, after some calls. -/
structure Run.Ticketed (steps : List Step) (c : Controller) : Prop where
  /-- The tickets in the queue are the last ones that were given out. -/
  row : c.queue.InRow
  /-- No two of them are the same. -/
  distinct : c.queue.tickets.Nodup
  /-- The submission that is accepted next gets its number as its ticket. -/
  given : ∀ (s : Submission) es ticket c',
    Path (c.enqueue s.command s.callback s.token).run es (.ok (ticket, c')) →
      ticket = UInt32.ofNat (submissions steps).length
  /-- A submission that is refused changes neither the queue nor the next ticket, nor anything
  else. -/
  refused : ∀ budget op es err c', err.isRefusal = true →
    Path (c.operate budget op) es (some (.submitted (.error err)), c') → c' = c
  /-- Every command that came back or is queued is, but for what came of it, the submission that its
  ticket names. -/
  named : (submissions steps).length < 2 ^ 32 →
    ∀ e ∈ (deliveries steps).map Prod.fst ++ c.queue.entries,
      (submissions steps)[e.ticket.toNat]?.map Submission.order = some e.order
  /-- A ticket is pending just if it was given out and its command has not come back. -/
  pending : (submissions steps).length < 2 ^ 32 → ∀ t : Ticket, c.isPending t = true ↔
    t.toNat < (submissions steps).length ∧ ∀ d ∈ deliveries steps, d.1.ticket ≠ t
  /-- So it is while a blocking submission polls, which then counts as the last. -/
  polled : (submissions steps).length + 1 < 2 ^ 32 →
    ∀ command ticket polls es head, c.Polls command ticket polls es head →
      ∀ t : Ticket, head.isPending t = true ↔ t.toNat < (submissions steps).length + 1 ∧
        ∀ d ∈ deliveries steps ++ handed (events es), d.1.ticket ≠ t

/-- **Tickets are in order**, in every queue and in every run.  Whatever happens to a queue that was
empty, its tickets are the last ones that were given out, in their order and around the end of the
numbers; no two of them are the same if its room is less than there are numbers; and a command for
which there is no room changes nothing.  In every run the tickets tell the submissions apart. -/
theorem ticket_discipline :
    (∀ (n : Nat) (calls : List Queue.Call),
      let q : Queue n := calls.foldl Queue.call Queue.empty
      q.tickets = q.nextTicket.before q.size ∧ (n < 2 ^ 32 → q.tickets.Nodup) ∧
      (q.isFull = true → ∀ command callback token, q.push command callback token = none ∧
        q.call (.push command callback token) = q)) ∧
    ∀ steps c, Run steps c → Run.Ticketed steps c := by
  refine ⟨fun n calls => ?_, fun steps c h => ?_⟩
  · intro q
    have hrow : q.InRow := Queue.inRow_foldl calls
    exact ⟨hrow, fun hn => hrow.nodup (Nat.le_of_lt hn), Queue.call_push_of_full⟩
  · have hrow := h.inRow
    exact
      { row := hrow
        distinct := hrow.nodup (by decide)
        given := fun _ _ _ _ henqueue => h.given henqueue
        refused := fun _ _ _ _ _ hrefusal hstep => Controller.eq_of_refused hrefusal hstep
        named := fun hroom _ he => h.named hroom he
        pending := h.isPending_iff
        polled := fun hroom _ _ _ _ _ hpolls => h.isPending_iff_polled hroom hpolls }

/-- A queue for two commands, into which a third one does not fit before the first is taken off; and
a controller at which a command came back because it could not be started, and a read is on the
wire. -/
theorem ticket_discipline_two :
    let goIdle := Queue.Call.push (Command.new 0 0 .none) none 0
    let full : Queue 2 := [goIdle, goIdle].foldl Queue.call Queue.empty
    let refilled : Queue 2 := [goIdle, goIdle, goIdle, .pop, goIdle].foldl Queue.call Queue.empty
    full.call goIdle = full ∧ refilled.tickets = [1, 2] ∧ refilled.tickets.Nodup ∧
    ∃ steps c, Run steps c ∧ (deliveries steps).map (fun d => d.1.ticket) = [0] ∧
      c.queue.tickets = [1] ∧ c.isPending 0 = false ∧ c.isPending 1 = true := by
  intro goIdle full refilled
  obtain ⟨hqueues, hruns⟩ := ticket_discipline
  obtain ⟨-, -, hfull⟩ := hqueues 2 [goIdle, goIdle]
  obtain ⟨hrow, hdistinct, -⟩ := hqueues 2 [goIdle, goIdle, goIdle, .pop, goIdle]
  have hrefused := run_rested.scripted
    (.sendAsync (Command.new 0 0 .none) ⟨3⟩ 5) [(.presentState, 1)]
    (fun s hs => by obtain rfl := Option.some.inj hs; exact .new 0 0 .none) rfl
  have hread := hrefused.scripted (.sendAsync .twoBlockRead ⟨3⟩ 6) []
    (fun s hs => by obtain rfl := Option.some.inj hs; exact obtainable_twoBlockRead _) rfl
  have hticketed := hruns _ _ hread
  have hpending := hticketed.pending (by decide)
  have hlast : Ticket.before 3 2 = [1, 2] := by decide
  refine ⟨(hfull rfl _ _ _).2, hrow.trans hlast, hdistinct (by decide), _, _, hread, rfl,
    hticketed.row, ?_, ?_⟩
  · refine Bool.eq_false_iff.mpr fun habs => ?_
    exact ((hpending 0).mp habs).2 _ List.mem_cons_self rfl
  · refine (hpending 1).mpr ⟨by decide, fun d hd => ?_⟩
    obtain rfl := List.mem_singleton.mp hd
    decide

end SdHost
