import Mathlib.Logic.Basic
import SdHost.Proofs.Operation.Order

/-!
# Parking

A blocking submitter finds its command parked at the desk.  The desk is clear between two calls.
While a submission polls, either it is waited for and its command is queued, or its own command is
parked and nobody is waited for; so a parked command is never overwritten, and a command that was
given up is not taken for that of a later submitter.

* `Controller.Polls` — the heads of the poll loop;
* `Reached.ticket_of_queued`, `Run.isPending` — which tickets are queued;
* `Run.polled` — the desk at every head of the poll loop;
* `Run.parked`, `Run.returns` — what a call parks, and what it comes back with;
* `parking_of_run` — the whole of it, for every run.
-/

namespace SdHost

open Dialogue (Path)

/-- The heads of the poll loop of a blocking submission, with the number of polls and all that has
happened since it was submitted: the controller right after it was accepted, and after every
poll. -/
inductive Controller.Polls (c : Controller) (command : Command) (ticket : Ticket) :
    Nat → List Exchange → Controller → Prop where
  | accepted {es : List Exchange} {c₁ : Controller}
      (h : Path (c.enqueue command none 0).run es (.ok (ticket, c₁))) :
      Polls c command ticket 0 es c₁
  | polled {polls : Nat} {es more : List Exchange} {c₁ c₂ : Controller}
      (h : Polls c command ticket polls es c₁) (htake : c₁.takeFinished ticket = none)
      (hserve : Path c₁.handleInterrupt more c₂) :
      Polls c command ticket (polls + 1) (es ++ more) c₂

/-- The head of a poll loop is reached by the submission and some passes. -/
theorem Controller.Polls.turns {c head : Controller} {command : Command} {ticket : Ticket}
    {polls : Nat} {es : List Exchange} (h : c.Polls command ticket polls es head) :
    ∃ first c₁ us, Path (c.enqueue command none 0).run first (.ok (ticket, c₁)) ∧
      Turns c₁ us head ∧ OnlyServes us ∧
      handed (events es) = handed (events first) ++ returned us := by
  induction h with
  | @accepted es c₁ henqueue =>
    exact ⟨es, c₁, [], henqueue, .nil, List.forall_mem_nil _, (List.append_nil _).symm⟩
  | @polled polls es more c₁ c₂ _ _ hserve ih =>
    obtain ⟨first, c₀, us, henqueue, hturns, honly, hhanded⟩ := ih
    refine ⟨first, c₀, us ++ [⟨.serve, none, more⟩], henqueue,
      hturns.snoc (path_turn_serve hserve), ?_, ?_⟩
    · intro r hr
      rcases List.mem_append.mp hr with hr | hr
      · exact honly r hr
      · rw [List.mem_singleton.mp hr]
    · rw [events_append, handed_append, hhanded, returned_concat, List.append_assoc]
      rfl

/-- **The poll loop** goes from head to head, and comes back with what it finds at the last, if not
before then at the limit. -/
theorem Controller.Polls.pollUpTo {c head : Controller} {command : Command} {ticket : Ticket}
    {es more : List Exchange} {polls limit : Nat} {r : Option Command × Controller}
    (h : c.Polls command ticket polls es head)
    (hloop : Path (Controller.pollUpTo ticket limit head) more r) :
    ∃ n last, n ≤ limit ∧ c.Polls command ticket (polls + n) (es ++ more) last ∧
      ((∃ done c', last.takeFinished ticket = some (done, c') ∧ r = (some done, c')) ∨
        n = limit ∧ last.takeFinished ticket = none ∧ r = (none, last)) := by
  induction limit generalizing polls head es more with
  | zero =>
    cases htake : head.takeFinished ticket with
    | some found =>
      obtain ⟨rfl, rfl⟩ := path_pollUpTo_found htake hloop
      rw [List.append_nil]
      exact ⟨0, head, Nat.le_refl 0, h, .inl ⟨_, _, htake, rfl⟩⟩
    | none =>
      unfold Controller.pollUpTo at hloop
      simp only [htake] at hloop
      obtain ⟨rfl, rfl⟩ := Dialogue.path_done.mp hloop
      rw [List.append_nil]
      exact ⟨0, head, Nat.le_refl 0, h, .inr ⟨rfl, htake, rfl⟩⟩
  | succ limit ih =>
    cases htake : head.takeFinished ticket with
    | some found =>
      obtain ⟨rfl, rfl⟩ := path_pollUpTo_found htake hloop
      rw [List.append_nil]
      exact ⟨0, head, Nat.zero_le _, h, .inl ⟨_, _, htake, rfl⟩⟩
    | none =>
      unfold Controller.pollUpTo at hloop
      simp only [htake] at hloop
      obtain ⟨first, c₁, second, hserve, hpolls, rfl⟩ := Dialogue.path_bind.mp hloop
      obtain ⟨n, last, hle, hlast, hend⟩ := ih (h.polled htake hserve) hpolls
      rw [← List.append_assoc]
      refine ⟨n + 1, last, Nat.succ_le_succ hle, ?_, ?_⟩
      · rw [Nat.add_comm n 1, ← Nat.add_assoc]
        exact hlast
      · exact hend.imp_right fun hlimit => ⟨congrArg (· + 1) hlimit.1, hlimit.2⟩

/-! ### Which tickets are queued -/

/-- **The tickets in the queue** are numbers in a row. -/
theorem Reached.ticket_of_queued {ts : List Record} {c : Controller} {j : Nat} {e : Entry}
    (h : Reached ts c) (hj : c.queue.entries[j]? = some e) :
    e.ticket = UInt32.ofNat ((returned ts).length + j) := by
  have hlength := h.length_accepted
  have hlt : j < c.queue.entries.length := (List.getElem?_eq_some_iff.mp hj).1
  have hback : ((returned ts).map fun d => d.1.ticket).length = (returned ts).length :=
    List.length_map _
  -- its place among the submissions
  have hplace := congrArg (·[(returned ts).length + j]?) h.tickets
  rw [List.getElem?_append_right (by omega), hback, Nat.add_sub_cancel_left, List.getElem?_map,
    List.getElem?_map, hj, List.getElem?_range (by omega), Option.map_some,
    Option.map_some] at hplace
  exact Option.some.inj hplace

/-- **What was accepted and has not come back** is queued under its ticket. -/
theorem Reached.isPending {ts : List Record} {c : Controller} {i : Nat} (h : Reached ts c)
    (hback : (returned ts).length ≤ i) (hi : i < (accepted ts).length) :
    c.isPending (UInt32.ofNat i) = true := by
  obtain ⟨j, rfl⟩ := Nat.exists_eq_add_of_le hback
  have hlength := h.length_accepted
  have hget := List.getElem?_eq_getElem (show j < c.queue.entries.length by omega)
  have hticket := h.ticket_of_queued hget
  exact List.any_eq_true.mpr ⟨_, List.mem_of_getElem? hget, beq_iff_eq.mpr hticket⟩

/-- **No queued command** has the ticket of the next submission. -/
theorem Reached.ticket_ne {ts : List Record} {c : Controller} (h : Reached ts c) :
    ∀ e ∈ c.queue.entries, e.ticket ≠ c.queue.nextTicket := by
  intro e he habs
  obtain ⟨j, hj⟩ := List.mem_iff_getElem?.mp he
  have hlt : j < c.queue.entries.length := (List.getElem?_eq_some_iff.mp hj).1
  have hlength := h.length_accepted
  have hroom := h.accepted_le
  rw [h.ticket_of_queued hj, h.ledger.next] at habs
  have hnumber := congrArg UInt32.toNat habs
  rw [UInt32.toNat_ofNat', UInt32.toNat_ofNat'] at hnumber
  -- tickets wrap around, but no nine numbers in a row have two of the same
  have hdepth : queueDepth = 8 := rfl
  omega

namespace Run

variable {steps before after : List Step} {st : Step} {c head : Controller} {s : Submission}
  {command : Command} {ticket : Ticket} {polls : Nat} {es : List Exchange}

theorem isPending {i : Nat} (h : Run steps c) (hback : (deliveries steps).length ≤ i)
    (hi : i < (submissions steps).length) : c.isPending (UInt32.ofNat i) = true := by
  obtain ⟨ts, htraced⟩ := h.trace
  rw [← htraced.returned] at hback
  rw [← htraced.accepted, List.length_map] at hi
  exact htraced.reached.isPending hback hi

/-- **Between two calls** the desk is clear. -/
theorem desk (h : Run steps c) : c.waiting = none ∧ c.finished = none := by
  obtain ⟨ts, htraced⟩ := h.trace
  exact ⟨congrArg Desk.waiting htraced.desk, congrArg Desk.finished htraced.desk⟩

/-- **At every head of the poll loop** the submission is waited for and queued, or its own command
is parked. -/
theorem polled (h : Run steps c) (hpolls : c.Polls command ticket polls es head) :
    ticket = UInt32.ofNat (submissions steps).length ∧
      ((head.waiting = some ticket ∧ head.finished = none ∧ head.isPending ticket = true) ∨
        (head.waiting = none ∧ ∃ e, head.finished = some (ticket, e.command) ∧
          (e, .parked) ∈ handed (events es) ∧
          (Entry.submission command none 0 ticket).Ends e)) := by
  obtain ⟨ts, htraced⟩ := h.trace
  obtain ⟨first, c₁, us, henqueue, hturns, honly, hhanded⟩ := hpolls.turns
  have hsubmit : Path (c.enqueue command none 0).run first (.ok (ticket, c₁)) := henqueue
  have hat := htraced.reached.atDesk_polled (s := ⟨command, none, 0⟩) htraced.desk rfl hsubmit
    hturns honly
  obtain ⟨rfl, -⟩ := htraced.reached.enqueue (s := ⟨command, none, 0⟩) htraced.desk hsubmit
  have hnumber : (submissions steps).length = (accepted ts).length := by
    rw [← htraced.accepted, List.length_map]
  rw [hnumber]
  refine ⟨rfl, ?_⟩
  -- the head of the loop, as a controller that is reached
  have hafter := (htraced.reached.append
    (Controller.turns_accepted (s := ⟨command, none, 0⟩) hsubmit)).append hturns
  have haccepted : accepted (ts ++ [Submission.record ⟨command, none, 0⟩
      (some (UInt32.ofNat (accepted ts).length)) first] ++ us) =
      accepted ts ++ [Entry.submission command none 0 (UInt32.ofNat (accepted ts).length)] := by
    rw [accepted_append, honly.accepted, List.append_nil, accepted_concat]
    rfl
  have hreturned : returned (ts ++ [Submission.record ⟨command, none, 0⟩
      (some (UInt32.ofNat (accepted ts).length)) first] ++ us) =
      returned ts ++ handed (events es) := by
    rw [returned_append, returned_concat, hhanded, List.append_assoc]
    rfl
  rw [← hhanded] at hat
  generalize hd : head.desk = d at hat
  cases hat with
  | waits haway hqueued =>
    refine .inl ⟨congrArg Desk.waiting hd, congrArg Desk.finished hd, hafter.isPending ?_ ?_⟩
    · rw [hreturned, List.length_append]
      exact hqueued
    · rw [haccepted, List.length_append, List.length_singleton]
      omega
  | @found before e hsplit haway hown hblocking =>
    have hget : (returned ts ++ handed (events es))[(accepted ts).length]? = some (e, .parked) := by
      rw [hsplit, ← List.append_assoc, ← hown, ← List.length_append,
        List.getElem?_concat_length]
    rw [← hreturned] at hget
    obtain ⟨-, s, hs, -, hends⟩ := hafter.came hget
    rw [haccepted, List.getElem?_concat_length] at hs
    obtain rfl := Option.some.inj hs
    refine .inr ⟨congrArg Desk.waiting hd, e, congrArg Desk.finished hd, ?_, hends⟩
    rw [hsplit]
    exact List.mem_append_right _ List.mem_cons_self

/-! ### Calls -/

/-- What goes to a handler or to nobody is not parked. -/
theorem away_ne_parked (e : Entry) : e.away ≠ .parked := by
  unfold Entry.away
  cases e.callback with
  | none => exact fun habs => by cases habs
  | some handler => exact fun habs => by cases habs

/-- **What a call parks** is its own command, the last that it hands back, and it comes back with
it. -/
theorem parked (h : Run (before ++ st :: after) c) {first later : List (Entry × Route)} {e : Entry}
    (hsplit : st.deliveries = first ++ (e, .parked) :: later) :
    later = [] ∧ (∀ d ∈ first, d.2 ≠ .parked) ∧
      (deliveries before).length + first.length = (submissions before).length ∧
      st.outcome = .submitted ((Controller.resultOf e.command).map some) := by
  have hmem : (e, Route.parked) ∈ st.deliveries := by
    rw [hsplit]
    exact List.mem_append_right _ List.mem_cons_self
  have hnot : ∀ hs : List (Entry × Route), Away hs → ∀ d ∈ hs, d.2 ≠ .parked := by
    intro hs haway d hd habs
    exact away_ne_parked d.1 ((haway d hd).symm.trans habs)
  cases h.handsBack with
  | away _ haway => exact absurd rfl (hnot _ haway _ hmem)
  | gaveUp haway _ _ => exact absurd rfl (hnot _ haway _ hmem)
  | @returned first' e' hown' haway hown hblocking houtcome =>
    rw [hown'] at hsplit
    rcases List.eq_nil_or_concat' later with rfl | ⟨later, last, rfl⟩
    · obtain ⟨rfl, hlast⟩ := List.append_inj' hsplit rfl
      obtain ⟨rfl, -⟩ := Prod.mk.inj (List.singleton_inj.mp hlast)
      exact ⟨rfl, hnot _ haway, hown, houtcome⟩
    · -- then it would be one of those that went elsewhere
      rw [← List.cons_append, ← List.append_assoc] at hsplit
      have hfirst := (List.append_inj' hsplit rfl).1
      have hearlier : (e, Route.parked) ∈ first' := by
        rw [hfirst]
        exact List.mem_append_right _ List.mem_cons_self
      exact absurd rfl (hnot _ haway _ hearlier)

/-- **A blocking submission** comes back with its own command, which was parked, or gives up. -/
theorem returns (h : Run (before ++ st :: after) c) (hs : st.submission? = some s)
    (hblocking : s.callback = none) :
    let i := (submissions before).length
    (∃ e, (deliveries (before ++ [st]))[i]? = some (e, .parked) ∧ e.order = s.order ∧
      st.outcome = .submitted ((Controller.resultOf e.command).map some)) ∨
    st.outcome = .submitted (.error (.timeout (UInt32.ofNat i))) := by
  intro i
  have hserves := h.serves hs
  unfold Serves at hserves
  rw [hblocking] at hserves
  rcases hserves with ⟨e, hget, houtcome⟩ | ⟨-, houtcome, -⟩
  · have hall := h
    rw [List.append_cons] at hall
    obtain ⟨c₁, h₁⟩ := hall.beginning
    exact .inl ⟨e, hget, h₁.order_of_delivery hget (submissions_getElem? before [] hs), houtcome⟩
  · exact .inr houtcome

/-- Only a blocking submission gives up. -/
theorem blocking_of_timeout (h : Run (before ++ st :: after) c)
    (hout : st.outcome = .submitted (.error (.timeout ticket))) :
    ∃ s, st.submission? = some s ∧ s.callback = none := by
  rw [List.append_cons] at h
  obtain ⟨c₁, h₁⟩ := h.beginning
  obtain ⟨c₀, budget, -, -, hstep⟩ := h₁.last
  obtain ⟨op, out, es⟩ := st
  obtain rfl : out = _ := hout
  cases hs : op.submission? with
  | none => cases (Controller.path_operate_other hs hstep).1
  | some s =>
    refine ⟨s, hs, ?_⟩
    obtain ⟨result, hresult, hsubmits⟩ := Controller.path_operate_submission hs hstep
    obtain rfl := Outcome.submitted.inj hresult
    cases hsubmits with
    | refused henqueue herr hc =>
      obtain rfl := Except.error.inj herr
      rcases Controller.leads_enqueue (leads_of_path henqueue) with
        ⟨_, habs, -, hrefusal, -⟩ | ⟨_, _, -, -, -, habs, -⟩
      · obtain rfl := Except.error.inj habs
        cases hrefusal
      · cases habs
    | queued hasync henqueue habs => cases habs
    | returned hblocking henqueue hpolls honly hes htake hdone => exact hblocking
    | gaveUp hblocking henqueue hpolls honly hes htake hlast hgone => exact hblocking

/-- **A submission that gave up** leaves its command queued under the ticket, and whenever that
command ends it is dropped. -/
theorem gaveUp (h : Run (before ++ st :: after) c)
    (hout : st.outcome = .submitted (.error (.timeout ticket))) :
    ticket = UInt32.ofNat (submissions before).length ∧ (after = [] → c.isPending ticket = true) ∧
      ∀ d, (deliveries (before ++ st :: after))[(submissions before).length]? = some d →
        d.2 = .abandoned := by
  obtain ⟨s, hs, hblocking⟩ := h.blocking_of_timeout hout
  have hserves := h.serves hs
  unfold Serves at hserves
  rw [hblocking] at hserves
  rcases hserves with ⟨e, -, habs⟩ | ⟨hqueued, hown, hdropped⟩
  · have hresult := Outcome.submitted.inj (hout.symm.trans habs)
    unfold Controller.resultOf at hresult
    split at hresult
    · cases hresult
    · cases hresult
  · have hresult := Outcome.submitted.inj (hout.symm.trans hown)
    obtain rfl := SubmitError.timeout.inj (Except.error.inj hresult)
    refine ⟨rfl, ?_, hdropped⟩
    rintro rfl
    exact h.isPending hqueued (List.getElem?_eq_some_iff.mp (submissions_getElem? before [] hs)).1

end Run

/-- What is parked after some calls, and was parked in them. -/
structure Run.Parking (steps : List Step) (c : Controller) : Prop where
  /-- Between two calls the desk is clear. -/
  clear : c.waiting = none ∧ c.finished = none
  /-- At every head of the poll loop exactly one of two things holds: the submission is waited for,
  nothing is parked and its ticket is queued; or nobody is waited for and its own command is
  parked. -/
  head : ∀ command ticket polls es head, c.Polls command ticket polls es head →
    ticket = UInt32.ofNat (submissions steps).length ∧
    Xor (head.waiting = some ticket ∧ head.finished = none ∧ head.isPending ticket = true)
      (head.waiting = none ∧ ∃ e, head.finished = some (ticket, e.command) ∧
        (e, .parked) ∈ handed (events es) ∧ (Entry.submission command none 0 ticket).Ends e)
  /-- A call parks at most one command, its own and as the last, and comes back with it. -/
  own : ∀ before st after first e later, steps = before ++ st :: after →
    st.deliveries = first ++ (e, .parked) :: later →
    later = [] ∧ (∀ d ∈ first, d.2 ≠ .parked) ∧
      (deliveries before).length + first.length = (submissions before).length ∧
      st.outcome = .submitted ((Controller.resultOf e.command).map some)
  /-- A blocking submission comes back with its own command, or gives up. -/
  returns : ∀ before st after s, steps = before ++ st :: after → st.submission? = some s →
    s.callback = none →
    (∃ e, (deliveries (before ++ [st]))[(submissions before).length]? = some (e, .parked) ∧
      e.order = s.order ∧
      st.outcome = .submitted ((Controller.resultOf e.command).map some)) ∨
    st.outcome = .submitted (.error (.timeout (UInt32.ofNat (submissions before).length)))
  /-- When a submission gives up, its command is queued under the ticket; and whenever that command
  ends, it is dropped. -/
  gaveUp : ∀ before st after ticket, steps = before ++ st :: after →
    st.outcome = .submitted (.error (.timeout ticket)) →
    ticket = UInt32.ofNat (submissions before).length ∧
      (after = [] → c.isPending ticket = true) ∧
      ∀ d, (deliveries steps)[(submissions before).length]? = some d → d.2 = .abandoned

/-- **Parking is safe** in every run. -/
theorem parking_of_run {steps : List Step} {c : Controller} (h : Run steps c) :
    Run.Parking steps c := by
  refine ⟨h.desk, ?_, ?_, ?_, ?_⟩
  · intro command ticket polls es head hpolls
    obtain ⟨hticket, hwaits | hparked⟩ := h.polled hpolls
    · refine ⟨hticket, .inl ⟨hwaits, ?_⟩⟩
      rintro ⟨habs, -⟩
      cases hwaits.1.symm.trans habs
    · refine ⟨hticket, .inr ⟨hparked, ?_⟩⟩
      rintro ⟨habs, -⟩
      cases hparked.1.symm.trans habs
  · rintro before st after first e later rfl hsplit
    exact h.parked hsplit
  · rintro before st after s rfl hs hblocking
    exact h.returns hs hblocking
  · rintro before st after ticket rfl hout
    exact h.gaveUp hout

/-- A read that was given up, and a command behind it that comes back from its own call while the
read is dropped. -/
theorem parking_of_run_two :
    ∃ first second c₁ c e, Run [first] c₁ ∧ Run [first, second] c ∧
      first.outcome = .submitted (.error (.timeout 0)) ∧ c₁.isPending 0 = true ∧
      (deliveries [first, second]).map Prod.snd = [.abandoned, .parked] ∧
      second.outcome = .submitted ((Controller.resultOf e).map some) ∧
      e.completion = .succeeded ∧ c.waiting = none ∧ c.finished = none := by
  have hfirst := run_rested.scripted (.send .twoBlockRead) []
    (fun s hs => by obtain rfl := Option.some.inj hs; exact obtainable_twoBlockRead _) rfl
  have hsecond := hfirst.scripted (.send (Command.new 0 0 .none))
    [(.interruptStatus, 0x18000), (.interruptStatus, 0x1)]
    (fun s hs => by obtain rfl := Option.some.inj hs; exact .new 0 0 .none) rfl
  obtain ⟨-, hpending, -⟩ := (parking_of_run hfirst).gaveUp [] _ [] 0 rfl rfl
  have hboth := parking_of_run hsecond
  obtain ⟨-, -, -, houtcome⟩ := hboth.own [_] _ [] [(_, .abandoned)] _ [] rfl rfl
  exact ⟨_, _, _, _, _, hfirst, hsecond, rfl, hpending rfl, rfl, houtcome, rfl, hboth.clear⟩

end SdHost
