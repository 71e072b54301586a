import SdHost.Proofs.Controller.Interrupt
import SdHost.Proofs.Controller.Submission

/-!
# The ledger

The accepted submissions, in their order, are those that were handed back followed by those that are
queued.  The first of these is on the wire, the others wait as they were submitted.

* `Entry.Ends` — what becomes of a submission: it is refused, or it lands after some passes;
* `Controller.Rests` — a controller between two actions holds the submissions `rest`;
* `Controller.Dispatches.rests`, `Controller.Rests.handleInterrupt`, `Controller.Rests.enqueue` —
  what the actions take from these submissions and add to them.
-/

namespace SdHost

/-- What becomes of a submission. -/
inductive Entry.Ends (s : Entry) : Entry → Prop where
  /-- It could not be started. -/
  | refused : Ends s s.refused
  /-- It ended on the wire. -/
  | landed {e : Entry} {ps : List Pass} {v : Completion} (h : s.Lands ps v e) : Ends s e

namespace Controller

variable {c c' : Controller} {s : Entry} {rest : List Entry} {ps : List Pass} {evs : List Event}
  {masks : List UInt32}

/-- Between two actions the controller holds the submissions: there is none, or the first is on the
wire after the passes `ps`, the others are as they were submitted, and what is latched is what the
first asks for. -/
inductive Rests (c : Controller) (ps : List Pass) (masks : List UInt32) : List Entry → Prop where
  | idle (hq : c.queue.entries = []) (hb : c.blocksRemaining = 0) : Rests c ps masks []
  | onWire {s : Entry} {rest : List Entry} (hq : c.queue.entries = s.inFlight ps :: rest)
      (hb : c.blocksRemaining = s.blocksLeft ps) (ha : s.Aloft ps)
      (hm : masks.getLast? = some s.command.interruptMask.bits) : Rests c ps masks (s :: rest)

/-- The queue has an entry for each submission that is held. -/
theorem Rests.length_entries (hr : Rests c ps masks rest) :
    c.queue.entries.length = rest.length := by
  cases hr with
  | idle hq hb => rw [hq]
  | onWire hq hb ha hm =>
    rw [hq]
    rfl

theorem Aloft_nil (hs : s.Submitted) : s.Aloft [] := by
  refine ⟨hs.pending, hs.fits, rfl, List.forall_mem_nil _, ?_⟩
  unfold Entry.Moved
  rw [Command.wordsMoved_nil]
  exact Command.moves_zero rfl rfl

/-- Dispatching from rest takes the heads that are refused; the next one is on the wire. -/
theorem Dispatches.rests (h : Dispatches c evs c') (hsub : ∀ s ∈ c.queue.entries, s.Submitted)
    (hb : c.blocksRemaining = 0) (hps : starts evs ≠ [] → ps = []) (masks : List UInt32) :
    ∃ gone left, c.queue.entries = gone ++ left ∧
      (handed evs).map Prod.fst = gone.map Entry.refused ∧
      c'.queue.nextTicket = c.queue.nextTicket ∧ Rests c' ps (masks ++ latched evs) left := by
  induction h generalizing masks with
  | rest hs => exact ⟨[], [], hs, rfl, rfl, .idle hs hb⟩
  | @launch c s rest hs =>
    -- a command that was just started has no pass behind it
    obtain rfl := hps (by simp [starts, Event.started?])
    have hhead : s.Submitted := hsub s (by rw [hs]; exact List.mem_cons_self)
    refine ⟨[], s :: rest, hs, rfl, rfl, .onWire ?_ rfl (Aloft_nil hhead) ?_⟩
    · rw [Controller.launch, Queue.entries_modifyHead, hs]
      rfl
    · exact List.getLast?_concat
  | @refuse c c' s rest evs hs hrest ih =>
    have hentries : (c.dropHead.settle s.refused).queue.entries = rest := by
      rw [queue_settle, dropHead, Queue.entries_tail, hs]
      rfl
    have hlater : ∀ s' ∈ (c.dropHead.settle s.refused).queue.entries, s'.Submitted := by
      intro s' hmem
      rw [hentries] at hmem
      exact hsub s' (by rw [hs]; exact List.mem_cons_of_mem _ hmem)
    have hblocks : (c.dropHead.settle s.refused).blocksRemaining = 0 := by
      rw [blocksRemaining_settle]
      exact hb
    obtain ⟨gone, left, hsplit, hhanded, hnext, hrests⟩ :=
      ih hlater hblocks hps (masks ++ [s.command.interruptMask.bits])
    refine ⟨s :: gone, left, ?_, ?_, ?_, ?_⟩
    · rw [hs, ← hentries, hsplit]
      rfl
    · show s.refused :: (handed evs).map Prod.fst = _
      rw [hhanded]
      rfl
    · rw [hnext, queue_settle]
      rfl
    · have hmasks : masks ++ latched (.latching s.command.interruptMask.bits ::
          .handedBack s.refused (c.routeOf s.refused) :: evs) =
          (masks ++ [s.command.interruptMask.bits]) ++ latched evs := by
        rw [List.append_assoc]
        rfl
      rw [hmasks]
      exact hrests

/-- Submissions that are refused have ended. -/
theorem forall₂_refused (gone : List Entry) :
    List.Forall₂ Entry.Ends gone (gone.map Entry.refused) := by
  induction gone with
  | nil => exact .nil
  | cons s gone ih => exact .cons .refused ih

/-- **A pass** takes the submissions that end in it. -/
theorem Rests.handleInterrupt (hr : Rests c ps masks rest) (hsub : ∀ s ∈ rest, s.Submitted)
    (h : Leads c.handleInterrupt evs c') :
    ∃ gone left, rest = gone ++ left ∧
      List.Forall₂ Entry.Ends gone ((handed evs).map Prod.fst) ∧
      c'.queue.nextTicket = c.queue.nextTicket ∧
      Rests c' (if starts evs = [] then ps ++ [evs] else []) (masks ++ latched evs) left := by
  cases hr with
  | idle hq hb =>
    obtain ⟨rfl, word, rfl⟩ := leads_handleInterrupt_idle hq h
    rw [handed_idle]
    exact ⟨[], [], rfl, .nil, rfl, .idle hq hb⟩
  | @onWire s rest hq hb ha hm =>
    have hfresh : ∀ e ∈ rest, e.Fresh := fun e he => (hsub e (List.mem_cons_of_mem _ he)).fresh
    cases leads_handleInterrupt_onWire hq hb ha hfresh h with
    | goesOn hup hc hhanded hlatched hstarts hserves =>
      rw [hc, hhanded, hlatched, hstarts, List.append_nil, if_pos rfl]
      refine ⟨[], s :: rest, rfl, .nil, rfl, .onWire ?_ rfl hup hm⟩
      rw [further, Queue.entries_modifyHead, hq]
      rfl
    | @ends v e later hlands hdispatch hhanded hlatched hstarts hserves hnext =>
      have hpopped : (c.popped.settle e).queue.entries = rest :=
        entries_popped_settle.trans (congrArg List.tail hq)
      have hlater : ∀ s' ∈ (c.popped.settle e).queue.entries, s'.Submitted := by
        intro s' hmem
        rw [hpopped] at hmem
        exact hsub s' (List.mem_cons_of_mem _ hmem)
      have hblocks : (c.popped.settle e).blocksRemaining = 0 := by
        rw [blocksRemaining_settle]
        rfl
      -- what is started now has no pass behind it, or else this one does not count for it
      have hps : starts later ≠ [] →
          (if starts evs = [] then ps ++ [evs] else []) = [] := by
        intro hstarted
        rw [hstarts, if_neg hstarted]
      obtain ⟨gone, left, hsplit, hgone, hnext, hrests⟩ :=
        hdispatch.rests hlater hblocks hps masks
      refine ⟨s :: gone, left, ?_, ?_, ?_, ?_⟩
      · rw [← hpopped, hsplit]
        rfl
      · rw [hhanded, List.map_cons, hgone]
        exact .cons (.landed hlands) (forall₂_refused gone)
      · rw [hnext, queue_settle]
        rfl
      · rw [hlatched]
        exact hrests

/-- Every pass services one status. -/
theorem Rests.services (hr : Rests c ps masks rest) (hsub : ∀ s ∈ rest, s.Submitted)
    (h : Leads c.handleInterrupt evs c') : Services evs := by
  cases hr with
  | idle hq hb =>
    obtain ⟨-, word, rfl⟩ := leads_handleInterrupt_idle hq h
    exact services_idle word
  | onWire hq hb ha hm =>
    cases leads_handleInterrupt_onWire hq hb ha
      (fun e he => (hsub e (List.mem_cons_of_mem _ he)).fresh) h with
    | goesOn hup hc hhanded hlatched hstarts hserves => exact hserves
    | ends hlands hdispatch hhanded hlatched hstarts hserves hnext => exact hserves

/-- **An accepted submission** joins the queue, and is dispatched if it is alone. -/
theorem Rests.enqueue {command : Command} {callback : Option Callback} {token : Nat}
    {ticket : Ticket} (hr : Rests c ps masks rest) (hsub : ∀ s ∈ rest, s.Submitted)
    (h : Leads (c.enqueue command callback token).run evs (.ok (ticket, c'))) :
    ticket = c.queue.nextTicket ∧ (Entry.submission command callback token ticket).Submitted ∧
      ∃ gone left, rest ++ [.submission command callback token ticket] = gone ++ left ∧
        List.Forall₂ Entry.Ends gone ((handed evs).map Prod.fst) ∧
        c'.queue.nextTicket = c.queue.nextTicket + 1 ∧
        Rests c' (if starts evs = [] then ps else []) (masks ++ latched evs) left := by
  rcases leads_enqueue h with ⟨err, habs, -⟩ | ⟨q, c₁, hpush, hpending, hfits, hok, h₁⟩
  · cases habs
  · obtain ⟨rfl, rfl⟩ := Prod.mk.inj (Except.ok.inj hok)
    have hs : (Entry.submission command callback token c.queue.nextTicket).Submitted :=
      ⟨⟨rfl, rfl, rfl, rfl⟩, hpending, hfits⟩
    obtain ⟨hentries, hticket⟩ := Queue.push_eq_some hpush
    refine ⟨rfl, hs, ?_⟩
    cases hr with
    | idle hq hb =>
      have hempty : c.queue.isEmpty = true := by
        rw [Queue.isEmpty, hq]
        rfl
      rw [hempty, if_pos rfl] at h₁
      have halone := entries_accepted hempty hpush
      have hall : ∀ s ∈ (c.accepted q callback).queue.entries, s.Submitted := by
        intro s hmem
        rw [halone, List.mem_singleton] at hmem
        rw [hmem]
        exact hs
      have hdispatch := dispatches_accepted hempty hpush h₁
      have hps : starts evs ≠ [] → (if starts evs = [] then ps else []) = [] := by
        intro hstarted
        rw [if_neg hstarted]
      obtain ⟨gone, left, hsplit, hgone, hnext, hrests⟩ := hdispatch.rests hall hb hps masks
      refine ⟨gone, left, ?_, ?_, ?_, hrests⟩
      · rw [List.nil_append, ← halone]
        exact hsplit
      · rw [hgone]
        exact forall₂_refused gone
      · rw [hnext]
        exact hticket
    | @onWire s rest hq hb ha hm =>
      have hempty : c.queue.isEmpty = false := Queue.isEmpty_of_cons hq
      rw [hempty, if_neg Bool.false_ne_true] at h₁
      obtain ⟨rfl, rfl⟩ := h₁
      refine ⟨[], _, rfl, .nil, hticket, ?_⟩
      show Rests _ ps (masks ++ []) _
      rw [List.append_nil]
      refine .onWire ?_ hb ha hm
      show q.entries = _
      rw [hentries, hq]
      rfl

end Controller

end SdHost
