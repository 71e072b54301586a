import SdHost.Proofs.Controller.Ledger

/-!
# The desk

A blocking submitter waits at the *desk*.  Its command is put there when it has ended, and stays
until it is picked up; every other command goes to its completion handler, or to nobody.

* `Desk`, `Controller.desk` — who waits, and what was put there;
* `Desk.handOut` — where some commands go that are handed back one after the other;
* `Desk.handOut_away`, `Desk.handOut_parked` — without the one that is waited for, and with it;
* `Controller.handOut_handleInterrupt`, `Controller.handOut_enqueue` — every pass and every
  submission hands commands back in this way.
-/

namespace SdHost

/-- Where a blocking submitter finds its command. -/
structure Desk where
  /-- The submission that is waited for. -/
  waiting : Option Ticket
  /-- The finished command of that submission. -/
  finished : Option (Ticket × Command)

/-- The desk of a controller. -/
def Controller.desk (c : Controller) : Desk := ⟨c.waiting, c.finished⟩

/-- Where a command goes that nobody waits for. -/
def Entry.away (e : Entry) : Route :=
  match e.callback with
  | some handler => .callback handler
  | none => .abandoned

namespace Desk

/-- A desk at which nobody waits. -/
def clear : Desk := ⟨none, none⟩

/-- A desk at which the submission of `ticket` is waited for. -/
def awaiting (ticket : Ticket) : Desk := ⟨some ticket, none⟩

/-- The desk after a submission was accepted. -/
def accept (d : Desk) (callback : Option Callback) (ticket : Ticket) : Desk :=
  { d with waiting := if callback.isNone then some ticket else d.waiting }

/-- Where a command goes. -/
def routeOf (d : Desk) (e : Entry) : Route :=
  match e.callback with
  | some handler => .callback handler
  | none => if d.waiting = some e.ticket then .parked else .abandoned

/-- The desk after a command was handed back. -/
def settle (d : Desk) (e : Entry) : Desk :=
  match d.routeOf e with
  | .parked => ⟨none, some (e.ticket, e.command)⟩
  | _ => d

/-- Where some commands go that are handed back one after the other, and the desk afterwards. -/
def handOut : Desk → List Entry → List (Entry × Route) × Desk
  | d, [] => ([], d)
  | d, e :: es => ((e, d.routeOf e) :: (handOut (d.settle e) es).1, (handOut (d.settle e) es).2)

/-- No command is the one that is waited for. -/
def Misses (d : Desk) (es : List Entry) : Prop :=
  ∀ e ∈ es, e.callback = none → d.waiting ≠ some e.ticket

variable {d : Desk} {e : Entry} {es : List Entry}

theorem routeOf_of_ne (h : e.callback = none → d.waiting ≠ some e.ticket) :
    d.routeOf e = e.away := by
  unfold routeOf Entry.away
  cases hc : e.callback with
  | some handler => rfl
  | none => exact if_neg (h hc)

theorem settle_of_ne (h : e.callback = none → d.waiting ≠ some e.ticket) : d.settle e = d := by
  unfold settle
  rw [routeOf_of_ne h, Entry.away]
  cases e.callback <;> rfl

theorem misses_clear (es : List Entry) : clear.Misses es := by
  intro e _ _ hown
  cases hown

/-- **Without the command that is waited for**, the desk stays as it is. -/
theorem handOut_away (h : d.Misses es) : d.handOut es = (es.map fun e => (e, e.away), d) := by
  induction es with
  | nil => rfl
  | cons e es ih =>
    have hhead : e.callback = none → d.waiting ≠ some e.ticket := h e List.mem_cons_self
    have htail : d.Misses es := fun e' he' => h e' (List.mem_cons_of_mem _ he')
    rw [handOut, routeOf_of_ne hhead, settle_of_ne hhead, ih htail]
    rfl

/-- **With the command that is waited for** at the end, it is put on the desk. -/
theorem handOut_parked (h : d.Misses es) (hblocking : e.callback = none)
    (hown : d.waiting = some e.ticket) :
    d.handOut (es ++ [e]) =
      ((es.map fun e => (e, e.away)) ++ [(e, .parked)], ⟨none, some (e.ticket, e.command)⟩) := by
  induction es with
  | nil =>
    have hroute : d.routeOf e = .parked := by
      unfold routeOf
      rw [hblocking]
      exact if_pos hown
    rw [List.nil_append, handOut, handOut, settle, hroute]
    rfl
  | cons e' es ih =>
    have hhead : e'.callback = none → d.waiting ≠ some e'.ticket := h e' List.mem_cons_self
    have htail : d.Misses es := fun x hx => h x (List.mem_cons_of_mem _ hx)
    rw [List.cons_append, handOut, routeOf_of_ne hhead, settle_of_ne hhead, ih htail]
    rfl

end Desk

namespace Controller

variable {c c' : Controller} {e : Entry} {rest : List Entry} {ps : List Pass} {evs : List Event}
  {masks : List UInt32}

theorem desk_settle : (c.settle e).desk = c.desk.settle e := by
  have hroute : c.routeOf e = c.desk.routeOf e := rfl
  unfold settle Desk.settle
  rw [← hroute]
  cases c.routeOf e <;> rfl

/-- Dispatching hands its commands out from the desk. -/
theorem Dispatches.handOut (h : Dispatches c evs c') :
    c.desk.handOut ((handed evs).map Prod.fst) = (handed evs, c'.desk) := by
  induction h with
  | rest hs => rfl
  | launch hs => rfl
  | @refuse c c' s rest evs hs hrest ih =>
    have hdesk : (c.dropHead.settle s.refused).desk = c.desk.settle s.refused := desk_settle
    show c.desk.handOut (s.refused :: (handed evs).map Prod.fst) =
      ((s.refused, c.routeOf s.refused) :: handed evs, _)
    rw [Desk.handOut, ← hdesk, ih]
    rfl

/-- **A pass** hands its commands out from the desk. -/
theorem Rests.handOut_handleInterrupt (hr : Rests c ps masks rest)
    (hsub : ∀ s ∈ rest, s.Submitted) (h : Leads c.handleInterrupt evs c') :
    c.desk.handOut ((handed evs).map Prod.fst) = (handed evs, c'.desk) := by
  cases hr with
  | idle hq hb =>
    obtain ⟨rfl, word, rfl⟩ := leads_handleInterrupt_idle hq h
    rw [handed_idle]
    rfl
  | @onWire s rest hq hb ha hm =>
    have hfresh : ∀ e ∈ rest, e.Fresh := fun e he => (hsub e (List.mem_cons_of_mem _ he)).fresh
    cases leads_handleInterrupt_onWire hq hb ha hfresh h with
    | goesOn hup hc hhanded hlatched hstarts hserves =>
      rw [hc, hhanded]
      rfl
    | @ends v e later hlands hdispatch hhanded hlatched hstarts hserves hnext =>
      have hdesk : (c.popped.settle e).desk = c.desk.settle e := desk_settle
      have hroute : c.routeOf e = c.desk.routeOf e := rfl
      rw [hhanded, List.map_cons, Desk.handOut, ← hdesk, hdispatch.handOut, hroute]

/-- **An accepted submission** hands its commands out from the desk that it was accepted at. -/
theorem handOut_enqueue {command : Command} {callback : Option Callback} {token : Nat}
    {ticket : Ticket} (h : Leads (c.enqueue command callback token).run evs (.ok (ticket, c'))) :
    (c.desk.accept callback c.queue.nextTicket).handOut ((handed evs).map Prod.fst) =
      (handed evs, c'.desk) := by
  rcases leads_enqueue h with ⟨err, habs, -⟩ | ⟨q, c₁, hpush, hpending, hfits, hok, h₁⟩
  · cases habs
  · obtain ⟨rfl, rfl⟩ := Prod.mk.inj (Except.ok.inj hok)
    have hdesk : (c.accepted q callback).desk = c.desk.accept callback c.queue.nextTicket := rfl
    rw [← hdesk]
    cases hempty : c.queue.isEmpty with
    | true =>
      rw [hempty, if_pos rfl] at h₁
      exact (dispatches_accepted hempty hpush h₁).handOut
    | false =>
      rw [hempty, if_neg Bool.false_ne_true] at h₁
      obtain ⟨rfl, rfl⟩ := h₁
      rfl

end Controller

end SdHost
