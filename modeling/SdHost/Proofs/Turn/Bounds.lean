import SdHost.Proofs.Command.Encoding
import SdHost.Proofs.Controller.Bounds
import SdHost.Proofs.Turn.Outcome

/-!
# The bounds of a pass

However the hardware answers, a pass over a controller that was reached does a bounded amount of
work.

* `statuses` — the latched statuses that were read;
* `Dispatches.attempts`, `Dispatches.unissued` — each command that waits is attempted once, and what
  comes back of it was not on the wire;
* `Entry.leads_advance_bounded` — a status moves one block at most;
* `Controller.Bounded`, `Reached.bounded` — what a pass does at most;
* `Reached.takes_handleInterrupt` — how long it takes.
-/

namespace SdHost

open Register InterruptStatus
open Dialogue (Path path_bind path_bind_pure path_done)

/-- The latched statuses that were read. -/
def statuses (evs : List Event) : List UInt32 := evs.filterMap Event.status?

@[simp] theorem statuses_append (first second : List Event) :
    statuses (first ++ second) = statuses first ++ statuses second :=
  List.filterMap_append

theorem OnlyTransfers.statuses {evs : List Event} (h : OnlyTransfers evs) : statuses evs = [] :=
  filterMap_eq_nil_of_all (fun ev => by cases ev <;> simp [Event.isTransfer, Event.status?]) h

theorem OnlyDispatch.statuses {evs : List Event} (h : OnlyDispatch evs) : statuses evs = [] :=
  filterMap_eq_nil_of_all (fun ev => by cases ev <;> simp [Event.isDispatch, Event.status?]) h

/-! ### Attempts -/

namespace Controller

variable {c c' : Controller} {evs : List Event}

/-- The commands are attempted in their order, each once, up to one that is started. -/
theorem Dispatches.attempts (h : Dispatches c evs c') :
    ∃ k, latched evs = (c.queue.entries.take k).map fun e => e.command.interruptMask.bits := by
  induction h with
  | rest hs => exact ⟨0, rfl⟩
  | launch hs =>
    refine ⟨1, ?_⟩
    rw [hs]
    rfl
  | @refuse c c' s rest evs hs hrest ih =>
    obtain ⟨k, hk⟩ := ih
    rw [queue_settle, dropHead, Queue.entries_tail, hs, List.tail_cons] at hk
    refine ⟨k + 1, ?_⟩
    show _ :: latched evs = _
    rw [hs, hk]
    rfl

/-- What comes back of an attempt was not on the wire. -/
theorem Dispatches.unissued (h : Dispatches c evs c')
    (hfresh : ∀ s ∈ c.queue.entries, s.Fresh) : ∀ d ∈ handed evs, d.1.issued = false := by
  induction h with
  | rest hs => exact List.forall_mem_nil _
  | launch hs => exact List.forall_mem_nil _
  | @refuse c c' s rest evs hs hrest ih =>
    have hlater : ∀ s' ∈ (c.dropHead.settle s.refused).queue.entries, s'.Fresh := by
      intro s' hmem
      rw [queue_settle, dropHead, Queue.entries_tail, hs] at hmem
      exact hfresh s' (by rw [hs]; exact List.mem_cons_of_mem _ hmem)
    intro d hd
    rcases List.mem_cons.mp hd with rfl | hd
    · exact (hfresh s (by rw [hs]; exact List.mem_cons_self)).issued
    · exact ih hlater d hd

theorem Dispatches.config_eq (h : Dispatches c evs c') : c'.config = c.config := by
  induction h with
  | rest hs => rfl
  | launch hs => rfl
  | refuse hs hrest ih =>
    rw [ih, config_settle]
    rfl

end Controller

/-! ### One block -/

namespace Entry

variable {e e' : Entry} {evs : List Event} {status : InterruptStatus} {blocks : Nat}

/-- Words of a response and of one block were moved, and nothing else happened. -/
def Moving (e : Entry) (evs : List Event) : Prop :=
  OnlyTransfers evs ∧ (received evs).length + (sent evs).length ≤ e.command.blockWords

theorem moving_nil (e : Entry) : e.Moving [] := ⟨List.forall_mem_nil _, Nat.zero_le _⟩

theorem leads_moveBlock_bounded (h : Leads e.moveBlock evs e') : e.Moving evs := by
  unfold moveBlock at h
  unfold Moving Command.blockWords
  cases hdata : e.command.data with
  | none =>
    simp only [hdata] at h
    obtain ⟨rfl, -⟩ := leads_done.mp h
    exact ⟨List.forall_mem_nil _, Nat.zero_le _⟩
  | some d =>
    simp only [hdata] at h
    cases hbuffer : d.buffer with
    | dma address =>
      simp only [hbuffer] at h
      obtain ⟨rfl, -⟩ := leads_done.mp h
      exact ⟨List.forall_mem_nil _, Nat.zero_le _⟩
    | words id contents =>
      simp only [hbuffer] at h
      have hcount : min (e.wordOffset + d.blockWords) contents.length - e.wordOffset ≤
          d.blockWords := by omega
      split at h
      · obtain ⟨_, _, _, hread, h₁, rfl⟩ := leads_bind.mp h
        obtain ⟨_, _, _, hpure, h₂, rfl⟩ := leads_bind.mp h₁
        obtain ⟨rfl, -⟩ := leads_done.mp hpure
        obtain ⟨rfl, -⟩ := leads_report_pure h₂
        obtain ⟨more, hlength, rfl, -⟩ := leads_readWords hread
        simp only [List.append_nil]
        refine ⟨onlyTransfers_map_received _, ?_⟩
        rw [received_map_received, sent_map_received, hlength]
        exact hcount
      · obtain ⟨_, _, _, hwrite, h₁, rfl⟩ := leads_bind.mp h
        obtain ⟨_, _, _, hpure, h₂, rfl⟩ := leads_bind.mp h₁
        obtain ⟨rfl, -⟩ := leads_done.mp hpure
        obtain ⟨rfl, -⟩ := leads_report_pure h₂
        rw [leads_writeWords hwrite]
        simp only [List.append_nil]
        refine ⟨onlyTransfers_map_sent _, ?_⟩
        rw [received_map_sent, sent_map_sent, List.length_take]
        simp only [List.length_nil, Option.map_some, Option.getD_some]
        omega

/-- Words of the response are not words of the block. -/
theorem moving_of_response (e : Entry) {c c' : Command} (h : Leads c.captureResponse evs c') :
    e.Moving evs := by
  obtain ⟨-, -, honly, hreceived, hsent⟩ := Command.leads_captureResponse h
  refine ⟨honly, ?_⟩
  rw [hreceived, hsent]
  exact Nat.zero_le _

theorem leads_serveBuffer_bounded {r : Entry × Nat} (h : Leads (e.serveBuffer blocks) evs r) :
    e.Moving evs := by
  rcases leads_ite.mp h with ⟨-, hmove⟩ | ⟨-, hreport⟩
  · obtain ⟨e', hblock, -⟩ := leads_bind_pure.mp hmove
    exact leads_moveBlock_bounded hblock
  · obtain ⟨rfl, -⟩ := leads_report_pure hreport
    exact e.moving_nil

theorem quiet_endTransfer (e : Entry) : Quiet e.endTransfer := by
  refine quiet_ite _ ?_ (quiet_pure _)
  exact quiet_ite _ (quiet_pure _) (quiet_bind (quiet_report _) fun _ => quiet_pure _)

theorem leads_proceed_bounded {pr : Progress} (h : Leads (e.proceed status blocks) evs pr) :
    e.Moving evs := by
  obtain ⟨first, e₁, _, hfirst, h₁, rfl⟩ := leads_ite_bind.mp h
  -- what comes with the response is not of the data, and does not change how much there is
  have hresponse : e.Moving first ∧ received first = [] ∧ sent first = [] ∧
      e₁.command.blockWords = e.command.blockWords := by
    rcases leads_ite.mp hfirst with ⟨-, hreceive⟩ | ⟨-, hsame⟩
    · obtain ⟨c, hcapture, rfl⟩ := leads_bind_pure.mp hreceive
      obtain ⟨hc, -, -, hreceived, hsent⟩ := Command.leads_captureResponse hcapture
      exact ⟨e.moving_of_response hcapture, hreceived, hsent, by rw [hc]; rfl⟩
    · obtain ⟨rfl, rfl⟩ := leads_done.mp hsame
      exact ⟨e₁.moving_nil, rfl, rfl, rfl⟩
  obtain ⟨hmoving, hreceived, hsent, hwords⟩ := hresponse
  rcases leads_ite.mp h₁ with ⟨-, hlast⟩ | ⟨-, hdata⟩
  · obtain ⟨rfl, -⟩ := leads_done.mp hlast
    rw [List.append_nil]
    exact hmoving
  · obtain ⟨second, ⟨e₂, left⟩, _, hblock, h₂, rfl⟩ := leads_ite_bind.mp hdata
    obtain ⟨_, e₃, _, hend, hconclude, rfl⟩ := leads_ite_bind.mp h₂
    have hquiet : ∀ b : Bool, Quiet (if b then e₂.endTransfer else pure e₂) :=
      fun b => quiet_ite b e₂.quiet_endTransfer (quiet_pure e₂)
    rw [hquiet _ hend, (leads_conclude hconclude).1]
    have hsecond : e₁.Moving second := by
      rcases leads_ite.mp hblock with ⟨-, hserve⟩ | ⟨-, hsame⟩
      · exact leads_serveBuffer_bounded hserve
      · obtain ⟨rfl, -⟩ := leads_done.mp hsame
        exact e₁.moving_nil
    simp only [List.append_nil]
    refine ⟨?_, ?_⟩
    · intro ev hev
      exact (List.mem_append.mp hev).elim (hmoving.1 ev) (hsecond.1 ev)
    · rw [received_append, sent_append, hreceived, hsent, ← hwords]
      exact hsecond.2

/-- **A status** moves one block at most. -/
theorem leads_advance_bounded {pr : Progress} (h : Leads (e.advance status blocks) evs pr) :
    e.Moving evs := by
  unfold advance at h
  split at h
  · obtain ⟨e₁, hfail, -⟩ := leads_bind_pure.mp h
    obtain ⟨first, c, _, hfirst, h₁, rfl⟩ := leads_ite_bind.mp hfail
    obtain ⟨rfl, -⟩ := leads_report_pure h₁
    rw [List.append_nil]
    rcases leads_ite.mp hfirst with ⟨-, hcapture⟩ | ⟨-, hsame⟩
    · exact e.moving_of_response hcapture
    · obtain ⟨rfl, -⟩ := leads_done.mp hsame
      exact e.moving_nil
  · exact leads_proceed_bounded h

end Entry

/-! ### A pass -/

namespace Controller

variable {c c' : Controller} {evs : List Event}

/-- What a pass does at most: one status is read, and acknowledged as it was read unless it is
empty; at most one command that was on the wire comes back; of the commands that wait each is
attempted once at most; and the data buffer is accessed once for each word of a block of the
head. -/
structure Bounded (c : Controller) (evs : List Event) : Prop where
  status : ∃ word, statuses evs = [word] ∧
    acknowledgements evs = if word = 0 then [] else [⟨word⟩]
  finished : (handed evs).countP (fun d => d.1.issued) ≤ 1
  attempts : ∃ k,
    latched evs = (c.queue.entries.tail.take k).map fun e => e.command.interruptMask.bits
  accesses : (received evs).length + (sent evs).length ≤ c.headWords

/-- A command that has ended comes back, and of those that wait each is attempted once at most. -/
theorem Completes.bounded {e : Entry} (h : c.Completes e evs c')
    (hfresh : ∀ s ∈ c.queue.entries.tail, s.Fresh) :
    (handed evs).countP (fun d => d.1.issued) ≤ 1 ∧
      (∃ k, latched evs =
        (c.queue.entries.tail.take k).map fun e => e.command.interruptMask.bits) ∧
      c'.config = c.config := by
  obtain @⟨attempt, later, _, hdispatches, hattempt, hlater⟩ := h
  have hunissued := hdispatches.unissued (by rw [entries_popped_settle]; exact hfresh)
  obtain ⟨k, hk⟩ := hdispatches.attempts
  rw [entries_popped_settle] at hk
  rw [handed_append, hattempt, List.nil_append] at hunissued
  have hlater : (handed later).countP (fun d => d.1.issued) = 0 := by
    rw [List.countP_eq_zero]
    intro d hd
    rw [hunissued d hd]
    exact Bool.false_ne_true
  refine ⟨?_, ⟨k, ?_⟩, ?_⟩
  · rw [handed_append, hattempt]
    show List.countP _ ((e, _) :: handed later) ≤ 1
    rw [List.countP_cons, hlater]
    split <;> omega
  · rw [← hk, latched_append, latched_append]
    rfl
  · rw [hdispatches.config_eq, config_settle]
    rfl

/-- Serving moves words of the head, and hands back what has ended. -/
theorem leads_serve_bounded {status : InterruptStatus}
    (hfresh : ∀ s ∈ c.queue.entries.tail, s.Fresh) (h : Leads (c.serve status) evs c') :
    statuses evs = [] ∧ acknowledgements evs = [] ∧
      (handed evs).countP (fun d => d.1.issued) ≤ 1 ∧
      (∃ k, latched evs = (c.queue.entries.tail.take k).map fun e => e.command.interruptMask.bits) ∧
      (received evs).length + (sent evs).length ≤ c.headWords ∧ c'.config = c.config := by
  cases hs : c.queue.entries with
  | nil =>
    obtain ⟨rfl, rfl⟩ := leads_serve_idle hs h
    exact ⟨rfl, rfl, Nat.zero_le _, ⟨0, rfl⟩, Nat.zero_le _, rfl⟩
  | cons s rest =>
    have hwords : c.headWords = s.command.blockWords := by
      rw [headWords, Queue.head?_of_cons hs]
      rfl
    rw [serve_cons hs] at h
    obtain ⟨first, pr, second, hadvance, h₁, rfl⟩ := leads_bind.mp h
    obtain ⟨honly, haccesses⟩ := Entry.leads_advance_bounded hadvance
    rw [← hwords] at haccesses
    rcases leads_ite.mp h₁ with ⟨-, h₂⟩ | ⟨-, h₂⟩
    · have hcomplete := leads_complete hfresh h₂
      have hdone := hcomplete.only
      obtain ⟨hfinished, hattempts, hconfig⟩ := hcomplete.bounded hfresh
      rw [hs] at hattempts
      rw [statuses_append, acknowledgements_append, handed_append, latched_append,
        received_append, sent_append, honly.statuses, honly.acknowledgements, honly.handed,
        honly.latched, hdone.statuses, hdone.acknowledgements, hdone.received, hdone.sent,
        List.append_nil, List.append_nil, List.append_nil, List.append_nil]
      exact ⟨rfl, rfl, hfinished, hattempts, haccesses, hconfig⟩
    · obtain ⟨rfl, rfl⟩ := leads_done.mp h₂
      rw [List.append_nil, honly.statuses, honly.acknowledgements, honly.handed, honly.latched]
      exact ⟨rfl, rfl, Nat.zero_le _, ⟨0, rfl⟩, haccesses, rfl⟩

/-- **A pass is bounded**, if what waits is as it was submitted. -/
theorem leads_handleInterrupt_bounded (hfresh : ∀ s ∈ c.queue.entries.tail, s.Fresh)
    (h : Leads c.handleInterrupt evs c') : c.Bounded evs ∧ c'.config = c.config := by
  rcases leads_handleInterrupt h with ⟨rfl, rfl⟩ | ⟨word, served, hword, rfl, hserve⟩
  · exact ⟨⟨⟨0, rfl, rfl⟩, Nat.zero_le _, ⟨0, rfl⟩, Nat.zero_le _⟩, rfl⟩
  · obtain ⟨hstatuses, hacknowledged, hfinished, hattempts, haccesses, hconfig⟩ :=
      leads_serve_bounded hfresh hserve
    refine ⟨⟨⟨word, ?_, ?_⟩, hfinished, hattempts, haccesses⟩, hconfig⟩
    · show word :: statuses served = _
      rw [hstatuses]
    · show _ :: acknowledgements served = _
      rw [hacknowledged, if_neg hword]

end Controller

/-! ### Controllers that were reached -/

section Reached

variable {ts : List Record} {c c' : Controller} {es : List Exchange}

/-- What waits in a controller that was reached is as it was submitted. -/
theorem Reached.fresh_tail (h : Reached ts c) : ∀ s ∈ c.queue.entries.tail, s.Fresh := by
  have hledger := h.ledger
  have hheld := hledger.held
  have hrests := hledger.rests
  generalize (accepted ts).drop _ = held at hheld hrests
  cases hrests with
  | idle hq hb =>
    rw [hq]
    exact List.forall_mem_nil _
  | onWire hq hb ha hm =>
    rw [hq]
    exact fun s hs => (hheld s (List.mem_cons_of_mem _ hs)).fresh

/-- **A pass** over a controller that was reached is bounded. -/
theorem Reached.bounded (h : Reached ts c) (hpass : Path c.handleInterrupt es c') :
    c.Bounded (events es) ∧ c'.config = c.config :=
  Controller.leads_handleInterrupt_bounded h.fresh_tail (leads_of_path hpass)

/-- An accepted submission does not change the configuration. -/
theorem Controller.config_enqueue {command : Command} {callback : Option Callback} {token : Nat}
    {ticket : Ticket} (h : Path (c.enqueue command callback token).run es (.ok (ticket, c'))) :
    c'.config = c.config := by
  rcases Controller.leads_enqueue (leads_of_path h) with ⟨err, habs, -⟩ |
    ⟨q, c₁, hpush, -, -, hok, hdone⟩
  · cases habs
  · obtain ⟨-, rfl⟩ := Prod.mk.inj (Except.ok.inj hok)
    cases hempty : c.queue.isEmpty with
    | true =>
      rw [hempty, if_pos rfl] at hdone
      rw [(Controller.dispatches_accepted hempty hpush hdone).config_eq]
      rfl
    | false =>
      rw [hempty, if_neg Bool.false_ne_true] at hdone
      rw [hdone.2]
      rfl

end Reached

end SdHost
