import SdHost.Proofs.Controller.Desk
import SdHost.Proofs.Operation.Turns

/-!
# The deliveries of a call

Between two calls nobody waits at the desk.  While a blocking submission polls, the desk waits for
the command with its number, and no other command is mistaken for it: tickets are numbers that wrap
around, but no two of the queued commands have the same.

* `AtDesk` — the desk while a submission is waited for;
* `Reached.misses` — the commands before it are not taken for it;
* `Turns.atDesk` — it is waited for, over any number of polls;
* `HandsBack`, `Reached.operate` — the deliveries of a call.
-/

namespace SdHost

open Dialogue (Path path_bind_pure)

/-- Every command went to its handler, or to nobody. -/
def Away (hs : List (Entry × Route)) : Prop := ∀ h ∈ hs, h.2 = h.1.away

theorem away_map (es : List Entry) : Away (es.map fun e => (e, e.away)) := by
  intro h hmem
  obtain ⟨e, -, rfl⟩ := List.mem_map.mp hmem
  rfl

theorem Away.append {first second : List (Entry × Route)} (h : Away first) (h' : Away second) :
    Away (first ++ second) := by
  intro x hx
  exact (List.mem_append.mp hx).elim (h x) (h' x)

/-! ### What a reached controller has handed back -/

namespace Reached

variable {ts : List Record} {c : Controller}

theorem returned_le (h : Reached ts c) : (returned ts).length ≤ (accepted ts).length := by
  have hlength := h.ledger.ends.length_eq
  rw [List.length_take, List.length_map] at hlength
  omega

/-- What was accepted has come back or is queued. -/
theorem length_accepted (h : Reached ts c) :
    (accepted ts).length = (returned ts).length + c.queue.entries.length := by
  have hle := h.returned_le
  have hheld := h.ledger.rests.length_entries
  rw [List.length_drop, List.length_map] at hheld
  omega

/-- No more are held than there is room for. -/
theorem accepted_le (h : Reached ts c) :
    (accepted ts).length ≤ (returned ts).length + queueDepth := by
  have hlength := h.length_accepted
  have hsize := c.queue.size_le
  omega

/-- Each command that was handed back has the number and the handler of its submission. -/
theorem came (h : Reached ts c) {i : Nat} {d : Entry × Route} (hget : (returned ts)[i]? = some d) :
    d.1.ticket = UInt32.ofNat i ∧
      ∃ s, (accepted ts)[i]? = some s ∧ d.1.callback = s.callback ∧ s.Ends d.1 := by
  have hfst : ((returned ts).map Prod.fst)[i]? = some d.1 := by
    rw [List.getElem?_map, hget]
    rfl
  obtain ⟨s, hs, hends⟩ := h.ledger.came hfst
  exact ⟨hends.ticket.trans (h.ledger.ticket i s hs), s, hs, hends.callback, hends⟩

/-- **No command before it** is taken for the one that is waited for: its ticket is another. -/
theorem misses (h : Reached ts c) {i : Nat} {earlier before more : List (Entry × Route)}
    (hsplit : returned ts = earlier ++ (before ++ more))
    (hbefore : earlier.length + before.length ≤ i) (hroom : i ≤ earlier.length + queueDepth) :
    (Desk.awaiting (UInt32.ofNat i)).Misses (before.map Prod.fst) := by
  intro e he _ hown
  obtain ⟨k, hk⟩ := List.mem_iff_getElem?.mp he
  rw [List.getElem?_map, Option.map_eq_some_iff] at hk
  obtain ⟨d, hd, rfl⟩ := hk
  have hlt : k < before.length := (List.getElem?_eq_some_iff.mp hd).1
  have hget : (returned ts)[earlier.length + k]? = some d := by
    rw [hsplit, List.getElem?_append_right (Nat.le_add_right _ _), Nat.add_sub_cancel_left,
      List.getElem?_append_left hlt]
    exact hd
  have hticket : UInt32.ofNat i = UInt32.ofNat (earlier.length + k) :=
    (Option.some.inj hown).trans (h.came hget).1
  have hnumber := congrArg UInt32.toNat hticket
  rw [UInt32.toNat_ofNat', UInt32.toNat_ofNat'] at hnumber
  -- tickets wrap around, but no eight numbers in a row have two of the same
  have hdepth : queueDepth = 8 := rfl
  omega

end Reached

/-! ### The desk of a blocking submission -/

/-- The desk while the submission with the number `i` is waited for.  Before it was accepted `n`
commands were handed back, and `hs` since. -/
inductive AtDesk (i n : Nat) (hs : List (Entry × Route)) : Desk → Prop where
  /-- Its command is queued. -/
  | waits (haway : Away hs) (hqueued : n + hs.length ≤ i) :
      AtDesk i n hs (.awaiting (UInt32.ofNat i))
  /-- Its command is there. -/
  | found {before : List (Entry × Route)} {e : Entry} (hsplit : hs = before ++ [(e, .parked)])
      (haway : Away before) (hown : n + before.length = i) (hblocking : e.callback = none) :
      AtDesk i n hs ⟨none, some (UInt32.ofNat i, e.command)⟩

variable {ts us : List Record} {c c' : Controller} {es : List Exchange}

/-- Commands that are handed back while the last submission is waited for. -/
theorem Reached.atDesk (h : Reached ts c) {i : Nat} {s : Entry} {d : Desk}
    {earlier new : List (Entry × Route)} (hlast : (accepted ts).length = i + 1)
    (hs : (accepted ts)[i]? = some s) (hblocking : s.callback = none)
    (hsplit : returned ts = earlier ++ new) (hqueued : earlier.length ≤ i)
    (hroom : i ≤ earlier.length + queueDepth)
    (hout : (Desk.awaiting (UInt32.ofNat i)).handOut (new.map Prod.fst) = (new, d)) :
    AtDesk i earlier.length new d := by
  have hle := h.returned_le
  rw [hlast, hsplit, List.length_append] at hle
  -- if the last submission came back at all, then as the last command
  rcases Nat.lt_or_ge i (earlier.length + new.length) with hall | hlt
  · rcases List.eq_nil_or_concat' new with rfl | ⟨before, last, rfl⟩
    · rw [List.length_nil] at hall
      omega
    · rw [List.length_append, List.length_singleton] at hle hall
      have hown : earlier.length + before.length = i := by omega
      have hget : (returned ts)[i]? = some last := by
        rw [hsplit, ← List.append_assoc, ← hown, ← List.length_append, List.getElem?_concat_length]
      obtain ⟨hticket, s', hs', hcallback, -⟩ := h.came hget
      obtain rfl := Option.some.inj (hs.symm.trans hs')
      have hmisses := h.misses hsplit (Nat.le_of_eq hown) hroom
      rw [List.map_append, List.map_singleton, Desk.handOut_parked hmisses
        (hcallback.trans hblocking) (congrArg some hticket.symm), hticket] at hout
      obtain ⟨hnew, rfl⟩ := Prod.mk.inj hout
      obtain ⟨hbefore, hparked⟩ := List.append_inj' hnew rfl
      refine .found (e := last.1) ?_ ?_ hown (hcallback.trans hblocking)
      · rw [← List.singleton_inj.mp hparked]
      · rw [← hbefore]
        exact away_map _
  · have hnothing : returned ts = earlier ++ (new ++ []) := by rw [List.append_nil, hsplit]
    have hmisses := h.misses hnothing hlt hroom
    rw [Desk.handOut_away hmisses] at hout
    obtain ⟨hnew, rfl⟩ := Prod.mk.inj hout
    refine .waits ?_ hlt
    rw [← hnew]
    exact away_map _

/-- What was handed back before can be counted along. -/
theorem AtDesk.append {i n : Nat} {hs new : List (Entry × Route)} {d : Desk} (haway : Away hs)
    (h : AtDesk i (n + hs.length) new d) : AtDesk i n (hs ++ new) d := by
  cases h with
  | waits hnew hqueued =>
    refine .waits (haway.append hnew) ?_
    rw [List.length_append]
    omega
  | @found before e hsplit hbefore hown hblocking =>
    have hall : hs ++ new = (hs ++ before) ++ [(e, .parked)] := by rw [hsplit, List.append_assoc]
    refine .found hall (haway.append hbefore) ?_ hblocking
    rw [List.length_append]
    omega

theorem leads_of_path_serve {ticket : Option Ticket} (h : Path (c.turn .serve) es (ticket, c')) :
    Leads c.handleInterrupt (events es) c' := by
  obtain ⟨c₁, hserve, hr⟩ := path_bind_pure.mp h
  obtain ⟨-, rfl⟩ := Prod.mk.inj hr
  exact leads_of_path hserve

/-- One poll. -/
theorem AtDesk.serve {i n : Nat} {s : Entry} {hs : List (Entry × Route)} {ticket : Option Ticket}
    (h : Reached ts c) (hlast : (accepted ts).length = i + 1) (hs' : (accepted ts)[i]? = some s)
    (hblocking : s.callback = none) (hn : (returned ts).length = n + hs.length)
    (ha : AtDesk i n hs c.desk) (hturn : Path (c.turn .serve) es (ticket, c')) :
    AtDesk i n (hs ++ handed (events es)) c'.desk := by
  have hafter : Reached (ts ++ [⟨.serve, ticket, es⟩]) c' := h.append (Turns.one hturn)
  have haccepted : accepted (ts ++ [⟨.serve, ticket, es⟩]) = accepted ts := by
    rw [accepted_concat]
    exact List.append_nil _
  have hreturned : returned (ts ++ [⟨.serve, ticket, es⟩]) = returned ts ++ handed (events es) :=
    returned_concat _ _
  have hout := h.ledger.rests.handOut_handleInterrupt h.ledger.held (leads_of_path_serve hturn)
  generalize c.desk = d at ha hout
  cases ha with
  | waits haway hqueued =>
    have hroom := h.accepted_le
    rw [← haccepted] at hlast hs'
    refine .append haway ?_
    rw [← hn] at hqueued ⊢
    refine hafter.atDesk hlast hs' hblocking hreturned hqueued ?_ hout
    rw [haccepted] at hlast
    omega
  | @found before e hsplit haway hown hblocking' =>
    -- all that was accepted has come back already
    have hle := hafter.returned_le
    rw [haccepted, hlast, hreturned, List.length_append, hn, hsplit, List.length_append,
      List.length_singleton] at hle
    have hnil : handed (events es) = [] := List.length_eq_zero_iff.mp (by omega)
    rw [hnil] at hout ⊢
    rw [List.append_nil, ← (Prod.mk.inj hout).2]
    exact .found hsplit haway hown hblocking'

theorem OnlyServes.accepted (h : OnlyServes us) : accepted us = [] := by
  apply List.flatMap_eq_nil_iff.mpr
  intro r hr
  unfold Record.accepted
  rw [h r hr]

/-- **Any number of polls.** -/
theorem Turns.atDesk {i n : Nat} {s : Entry} {hs : List (Entry × Route)} (hu : Turns c us c')
    (honly : OnlyServes us) (h : Reached ts c) (hlast : (accepted ts).length = i + 1)
    (hs' : (accepted ts)[i]? = some s) (hblocking : s.callback = none)
    (hn : (returned ts).length = n + hs.length) (ha : AtDesk i n hs c.desk) :
    AtDesk i n (hs ++ returned us) c'.desk := by
  induction hu with
  | nil =>
    show AtDesk i n (hs ++ []) c.desk
    rw [List.append_nil]
    exact ha
  | @snoc us c₁ c₂ t ticket es hturns hturn ih =>
    have hbefore : OnlyServes us := fun r hr => honly r (List.mem_append_left _ hr)
    have hserve : t = .serve := honly ⟨t, ticket, es⟩ (List.mem_append_right _ List.mem_cons_self)
    subst hserve
    have hreached := h.append hturns
    have haccepted : SdHost.accepted (ts ++ us) = SdHost.accepted ts := by
      rw [accepted_append, hbefore.accepted, List.append_nil]
    rw [← haccepted] at hlast hs'
    rw [returned_concat, ← List.append_assoc]
    refine AtDesk.serve hreached hlast hs' hblocking ?_ (ih hbefore) hturn
    rw [returned_append, List.length_append, List.length_append, hn]
    omega

/-! ### Whole calls -/

/-- How a call hands commands back, if `i` were accepted and `n` handed back before it. -/
inductive HandsBack (i n : Nat) (st : Step) : Prop where
  /-- Nobody waits for a command. -/
  | away (hnone : ∀ s, st.submission? = some s → s.callback ≠ none) (haway : Away st.deliveries)
  /-- The blocking submission comes back with its command. -/
  | returned {before : List (Entry × Route)} {e : Entry}
      (hsplit : st.deliveries = before ++ [(e, .parked)]) (haway : Away before)
      (hown : n + before.length = i) (hblocking : e.callback = none)
      (houtcome : st.outcome = .submitted ((Controller.resultOf e.command).map some))
  /-- The blocking submission comes back without its command, which stays queued. -/
  | gaveUp (haway : Away st.deliveries) (hqueued : n + st.deliveries.length ≤ i)
      (houtcome : st.outcome = .submitted (.error (.timeout (UInt32.ofNat i))))

/-- What a call does to a controller at whose desk nobody waits. -/
structure Operates (ts : List Record) (c : Controller) (st : Step) (us : List Record)
    (c' : Controller) : Prop where
  turns : Turns c us c'
  events : us.flatMap Record.events = st.events
  accepted : (accepted us).map Entry.submitted = st.submission?.toList
  desk : c'.desk = .clear
  handsBack : HandsBack (SdHost.accepted ts).length (returned ts).length st

theorem flatMap_events (us : List Record) :
    us.flatMap Record.events = events (us.flatMap Record.exchanges) := by
  unfold events
  rw [List.filterMap_flatMap]
  rfl

theorem returned_eq (us : List Record) : returned us = handed (us.flatMap Record.events) := by
  unfold returned handed
  rw [List.filterMap_flatMap]

theorem masks_eq (us : List Record) : masks us = latched (us.flatMap Record.events) := by
  unfold masks latched
  rw [List.filterMap_flatMap]

theorem Operates.returned {st : Step} (h : Operates ts c st us c') :
    returned us = st.deliveries := by
  rw [returned_eq, h.events]
  rfl

/-- At a desk where nobody waits, commands go to their handlers or to nobody. -/
theorem away_of_clear {d : Desk} {hs : List (Entry × Route)}
    (hout : Desk.clear.handOut (hs.map Prod.fst) = (hs, d)) : Away hs ∧ d = .clear := by
  rw [Desk.handOut_away (Desk.misses_clear _)] at hout
  obtain ⟨hnew, rfl⟩ := Prod.mk.inj hout
  refine ⟨?_, rfl⟩
  rw [← hnew]
  exact away_map _

/-- A reset leaves the desk alone. -/
theorem Controller.desk_reset {evs : List Event} {r : Except ControllerError Unit × Controller}
    (h : Leads c.reset evs r) : r.2.desk = c.desk := by
  rcases leads_reset h with ⟨-, -, hc⟩ | ⟨-, -, hc | hc⟩
  · rw [hc]
  · rw [hc]
  · rw [hc]
    rfl

/-- A call that comes back with nothing but a controller, against the turn that does the same. -/
theorem path_finished {α : Type} {d : Action α} {g : α → Controller} {out : Outcome}
    (h : Path (d >>= fun r => pure (some Outcome.finished, g r)) es (some out, c')) :
    out = .finished ∧ (∃ r, Path d es r ∧ c' = g r) ∧
      Path (d >>= fun r => pure ((none : Option Ticket), g r)) es (none, c') := by
  obtain ⟨r, hd, hr⟩ := path_bind_pure.mp h
  obtain ⟨hout, rfl⟩ := Prod.mk.inj hr
  exact ⟨Option.some.inj hout, ⟨r, hd, rfl⟩, path_bind_pure.mpr ⟨r, hd, rfl⟩⟩

/-- A call that submits nothing is one turn. -/
theorem Controller.path_operate_other {budget : Nat} {op : Operation} {out : Outcome}
    (hnone : op.submission? = none) (h : Path (c.operate budget op) es (some out, c')) :
    out = .finished ∧ ∃ t, Path (c.turn t) es (none, c') ∧
      (t = .serve ∨ t.isEngine = false ∧ c'.desk = c.desk) := by
  cases op with
  | send command => cases hnone
  | sendAsync command callback token => cases hnone
  | submit command callback token => cases callback <;> cases hnone
  | handleInterrupt =>
    obtain ⟨rfl, -, hturn⟩ := path_finished h
    exact ⟨rfl, .serve, hturn, .inl rfl⟩
  | handleInterruptLine irq =>
    obtain ⟨rfl, ⟨c₁, hline, rfl⟩, -⟩ := path_finished h
    unfold handleInterruptLine at hline
    split at hline
    · exact ⟨rfl, .serve, path_turn_serve hline, .inl rfl⟩
    · obtain ⟨u, hreport, rfl⟩ := path_bind_pure.mp hline
      have hturn : Path (c'.turn (.ignore irq)) es (none, c') :=
        path_bind_pure.mpr ⟨u, hreport, rfl⟩
      exact ⟨rfl, .ignore irq, hturn, .inr ⟨rfl, rfl⟩⟩
  | reset =>
    obtain ⟨rfl, ⟨r, hreset, rfl⟩, hturn⟩ := path_finished h
    exact ⟨rfl, .reset, hturn, .inr ⟨rfl, desk_reset (leads_of_path hreset)⟩⟩
  | setOperational =>
    obtain ⟨rfl, ⟨_, -, rfl⟩, hturn⟩ := path_finished h
    exact ⟨rfl, .setOperational, hturn, .inr ⟨rfl, rfl⟩⟩
  | query q =>
    obtain ⟨rfl, ⟨_, -, rfl⟩, hturn⟩ := path_finished h
    exact ⟨rfl, .query q, hturn, .inr ⟨rfl, rfl⟩⟩

/-- What a call does that submits nothing. -/
theorem Reached.operate_other {budget : Nat} {op : Operation} {out : Outcome} (h : Reached ts c)
    (hdesk : c.desk = .clear) (hnone : op.submission? = none)
    (hop : Path (c.operate budget op) es (some out, c')) :
    ∃ us, Operates ts c ⟨op, out, es⟩ us c' := by
  obtain ⟨rfl, t, hturn, hkind⟩ := Controller.path_operate_other hnone hop
  have haway : Away (Step.deliveries ⟨op, .finished, es⟩) ∧ c'.desk = .clear := by
    rcases hkind with rfl | ⟨haside, hsame⟩
    · have hout := h.ledger.rests.handOut_handleInterrupt h.ledger.held (leads_of_path_serve hturn)
      rw [hdesk] at hout
      exact away_of_clear hout
    · have hhanded := (Controller.leads_turn_aside haside (leads_of_path hturn)).handed
      refine ⟨?_, hsame.trans hdesk⟩
      show Away (handed (events es))
      rw [hhanded]
      exact List.forall_mem_nil _
  have hsubmission : Step.submission? ⟨op, .finished, es⟩ = none := hnone
  refine ⟨[⟨t, none, es⟩], Turns.one hturn, List.append_nil _, ?_, haway.2, .away ?_ haway.1⟩
  · rw [hsubmission]
    cases t <;> rfl
  · intro s hs
    cases hsubmission.symm.trans hs

/-- An accepted submission gets the next number, and is waited for if it is blocking. -/
theorem Reached.enqueue {s : Submission} {ticket : Ticket} (h : Reached ts c)
    (hdesk : c.desk = .clear)
    (henqueue : Path (c.enqueue s.command s.callback s.token).run es (.ok (ticket, c'))) :
    ticket = UInt32.ofNat (accepted ts).length ∧
      (Desk.clear.accept s.callback ticket).handOut ((handed (events es)).map Prod.fst) =
        (handed (events es), c'.desk) := by
  have hleads := leads_of_path henqueue
  obtain ⟨hticket, -⟩ := h.ledger.rests.enqueue h.ledger.held hleads
  have hout := Controller.handOut_enqueue hleads
  rw [hdesk, ← hticket] at hout
  exact ⟨hticket.trans h.ledger.next, hout⟩

/-- The desk of a blocking submission after its polls. -/
theorem Reached.atDesk_polled {s : Submission} {ticket : Ticket} {c₁ c₂ : Controller}
    {first : List Exchange} (h : Reached ts c) (hdesk : c.desk = .clear)
    (hblocking : s.callback = none)
    (henqueue : Path (c.enqueue s.command s.callback s.token).run first (.ok (ticket, c₁)))
    (hpolls : Turns c₁ us c₂) (honly : OnlyServes us) :
    AtDesk (accepted ts).length (returned ts).length (handed (events first) ++ returned us)
      c₂.desk := by
  obtain ⟨rfl, hout⟩ := h.enqueue hdesk henqueue
  have hafter := h.append (Controller.turns_accepted henqueue)
  have haccepted := accepted_concat ts (s.record (some (UInt32.ofNat (accepted ts).length)) first)
  have hreturned := returned_concat ts (s.record (some (UInt32.ofNat (accepted ts).length)) first)
  have hlast := congrArg List.length haccepted
  rw [List.length_append] at hlast
  have hs := congrArg (·[(accepted ts).length]?) haccepted
  have haccept : Desk.clear.accept s.callback (UInt32.ofNat (accepted ts).length) =
      .awaiting (UInt32.ofNat (accepted ts).length) := by
    rw [hblocking]
    rfl
  rw [haccept] at hout
  have hstart := hafter.atDesk hlast (hs.trans List.getElem?_concat_length) hblocking hreturned
    h.returned_le h.accepted_le hout
  refine hpolls.atDesk honly hafter hlast (hs.trans List.getElem?_concat_length) hblocking ?_ hstart
  rw [hreturned, List.length_append]
  rfl

theorem Controller.resultOf_ne_refusal {done : Command} {err : SubmitError}
    (h : (resultOf done).map some = .error err) : err.isRefusal = false := by
  unfold resultOf at h
  split at h
  · cases h
  · obtain rfl := Except.error.inj h
    rfl

theorem Step.submission?_eq {op : Operation} {result : Except SubmitError (Option Command)}
    (h : ∀ err, result = .error err → err.isRefusal = false) :
    Step.submission? ⟨op, .submitted result, es⟩ = op.submission? := by
  cases result with
  | ok command => rfl
  | error err =>
    unfold submission?
    simp only [h err rfl]
    rfl

theorem Controller.takeFinished_awaiting {ticket t : Ticket} (hd : c.desk = .awaiting ticket) :
    c.takeFinished t = none := by
  have hfinished : c.finished = none := congrArg Desk.finished hd
  unfold takeFinished
  rw [hfinished]

theorem Controller.takeFinished_found {ticket : Ticket} {command : Command}
    (hd : c.desk = ⟨none, some (ticket, command)⟩) :
    c.takeFinished ticket = some (command, { c with finished := none }) := by
  have hfinished : c.finished = some (ticket, command) := congrArg Desk.finished hd
  unfold takeFinished
  rw [hfinished]
  exact if_pos rfl

section Polls

variable {s : Submission} {ticket : Ticket} {c₁ c₂ : Controller} {first last : List Exchange}
  {st : Step} {t : Turn}

/-- A blocking submission hands back what its turns hand back. -/
theorem handed_of_polls (hes : es = first ++ (us.flatMap Record.exchanges ++ last))
    (hquiet : events last = []) : handed (events es) = handed (events first) ++ returned us := by
  rw [hes, events_append, events_append, hquiet, List.append_nil, handed_append, returned_eq,
    flatMap_events]

/-- A blocking submission is the sequence of its turns. -/
theorem operates_of_polls
    (henqueue : Path (c.enqueue s.command s.callback s.token).run first (.ok (ticket, c₁)))
    (hpolls : Turns c₁ us c₂) (honly : OnlyServes us) (hlast : Path (c₂.turn t) last (none, c'))
    (hes : st.exchanges = first ++ (us.flatMap Record.exchanges ++ last))
    (hsubmission : st.submission? = some s) (hdesk : c'.desk = .clear)
    (hhands : HandsBack (accepted ts).length (returned ts).length st) :
    ∃ us, Operates ts c st us c' := by
  refine ⟨_, (Controller.turns_accepted henqueue).append (hpolls.append (Turns.one hlast)),
    ?_, ?_, hdesk, hhands⟩
  · rw [Step.events, hes, flatMap_events, List.flatMap_append, List.flatMap_append,
      List.flatMap_singleton, List.flatMap_singleton]
    rfl
  · have hnone : accepted [⟨t, none, last⟩] = [] := by cases t <;> rfl
    rw [accepted_append, accepted_append, honly.accepted, hnone, hsubmission]
    rfl

end Polls

/-- What a submission does. -/
theorem Reached.operate_submission {s : Submission} {op : Operation}
    {result : Except SubmitError (Option Command)} (h : Reached ts c) (hdesk : c.desk = .clear)
    (hs : op.submission? = some s) (hsubmits : c.Submits s es result c') :
    ∃ us, Operates ts c ⟨op, .submitted result, es⟩ us c' := by
  cases hsubmits with
  | @refused err henqueue hresult hc =>
    subst hresult
    subst hc
    rcases Controller.leads_enqueue (leads_of_path henqueue) with
      ⟨_, herr, hnil, hrefusal, -⟩ | ⟨_, _, -, -, -, habs, -⟩
    · obtain rfl := Except.error.inj herr
      have hsubmission : Step.submission? ⟨op, .submitted (.error err), es⟩ = none :=
        if_pos hrefusal
      refine ⟨_, Controller.turns_refused henqueue, List.append_nil _, ?_, hdesk,
        .away ?_ ?_⟩
      · rw [hsubmission]
        rfl
      · intro s' habs
        cases hsubmission.symm.trans habs
      · show Away (handed (events es))
        rw [hnil]
        exact List.forall_mem_nil _
    · cases habs
  | @queued ticket hasync henqueue hresult =>
    subst hresult
    obtain ⟨-, hout⟩ := h.enqueue hdesk henqueue
    have haccept : Desk.clear.accept s.callback ticket = .clear := by
      cases hc : s.callback with
      | none => exact absurd hc hasync
      | some handler => rfl
    rw [haccept] at hout
    obtain ⟨haway, hclear⟩ := away_of_clear hout
    have hsubmission : Step.submission? ⟨op, .submitted (.ok none), es⟩ = some s := hs
    refine ⟨_, Controller.turns_accepted henqueue, List.append_nil _, ?_, hclear,
      .away ?_ haway⟩
    · rw [hsubmission]
      rfl
    · intro s' hs'
      obtain rfl := Option.some.inj (hsubmission.symm.trans hs')
      exact hasync
  | @returned ticket c₁ c₂ first us done hblocking henqueue hpolls honly hes htake hresult =>
    subst hresult
    have hat := h.atDesk_polled hdesk hblocking henqueue hpolls honly
    obtain ⟨rfl, -⟩ := h.enqueue hdesk henqueue
    have hsubmission : Step.submission? ⟨op, .submitted ((Controller.resultOf done).map some), es⟩ =
        some s :=
      (Step.submission?_eq fun _ => Controller.resultOf_ne_refusal).trans hs
    have hlast := Controller.path_turn_pickUp htake
    generalize hd : c₂.desk = d at hat
    cases hat with
    | waits haway hqueued => cases (Controller.takeFinished_awaiting hd).symm.trans htake
    | @found before e hsplit haway hown hblocking' =>
      obtain ⟨rfl, rfl⟩ :=
        Prod.mk.inj (Option.some.inj ((Controller.takeFinished_found hd).symm.trans htake))
      refine operates_of_polls henqueue hpolls honly hlast hes hsubmission ?_ ?_
      · have hwaiting : c₂.waiting = none := congrArg Desk.waiting hd
        show (⟨c₂.waiting, none⟩ : Desk) = .clear
        rw [hwaiting]
        rfl
      · exact .returned ((handed_of_polls hes rfl).trans hsplit) haway hown hblocking' rfl
  | @gaveUp ticket c₁ c₂ first last us polls hblocking henqueue hpolls honly hes htake hlast
      hresult =>
    subst hresult
    have hat := h.atDesk_polled hdesk hblocking henqueue hpolls honly
    obtain ⟨rfl, -⟩ := h.enqueue hdesk henqueue
    obtain ⟨hquiet, hc⟩ := leads_report_pure (leads_of_path hlast)
    obtain ⟨-, rfl⟩ := Prod.mk.inj hc
    generalize hd : c₂.desk = d at hat
    cases hat with
    | @found before e hsplit haway hown hblocking' =>
      cases (Controller.takeFinished_found hd).symm.trans htake
    | waits haway hqueued =>
      refine operates_of_polls henqueue hpolls honly hlast hes hs ?_ ?_
      · have hfinished : c₂.finished = none := congrArg Desk.finished hd
        show (⟨none, c₂.finished⟩ : Desk) = .clear
        rw [hfinished]
        rfl
      · rw [← handed_of_polls hes hquiet] at haway hqueued
        exact .gaveUp haway hqueued rfl

/-- **Every call** leaves a desk at which nobody waits, and hands back as it must. -/
theorem Reached.operate {budget : Nat} {op : Operation} {out : Outcome} (h : Reached ts c)
    (hdesk : c.desk = .clear) (hop : Path (c.operate budget op) es (some out, c')) :
    ∃ us, Operates ts c ⟨op, out, es⟩ us c' := by
  cases hs : op.submission? with
  | none => exact h.operate_other hdesk hs hop
  | some s =>
    obtain ⟨result, rfl, hsubmits⟩ := Controller.path_operate_submission hs hop
    exact h.operate_submission hdesk hs hsubmits

end SdHost
