import Mathlib.Data.List.Forall2
import SdHost.Proofs.Controller.Ledger
import SdHost.Proofs.Controller.Reset
import SdHost.Proofs.Query

/-!
# Turns

A *turn* is the least that happens to a controller at once: a submission joins the queue, the
controller is served, the polling submitter looks for its command or gives up.  Every use of a
controller is a sequence of turns; between two of them the controller rests.

* `Turn`, `Controller.turn` — the turns, and what they do;
* `Turns` — a sequence of turns from a controller to a controller;
* `accepted`, `returned`, `masks`, `passes`, `flight` — what the record of some turns tells;
* `Reached` — the controllers that are reached after taking over;
* `Reached.ledger` — the ledger of every reached controller.
-/

namespace SdHost

/-- What happens to a controller at once. -/
inductive Turn where
  /-- A command is submitted. -/
  | submit (command : Command) (callback : Option Callback) (token : Nat)
  /-- The controller is served, by an interrupt or by a poll. -/
  | serve
  /-- An interrupt on a line of another device. -/
  | ignore (irq : UInt32)
  | reset
  | setOperational
  | query (q : Query)
  /-- The polling submitter picks its command up, if it is there. -/
  | pickUp (ticket : Ticket)
  /-- The polling submitter gives up. -/
  | giveUp (polls : Nat)

/-- A turn.  The result is the ticket of a submission that was accepted, and the controller. -/
def Controller.turn (c : Controller) : Turn → Action (Option Ticket × Controller)
  | .submit command callback token => do
    match ← (c.enqueue command callback token).run with
    | .ok (ticket, c) => return (some ticket, c)
    | .error _ => return (none, c)
  | .serve => return (none, ← c.handleInterrupt)
  | .ignore irq => do
    report (.foreignInterrupt irq)
    return (none, c)
  | .reset => return (none, (← c.reset).2)
  | .setOperational => do
    let _ ← c.setOperational.run
    return (none, c)
  | .query q => do
    q.ask c
    return (none, c)
  | .pickUp ticket => return (none, ((c.takeFinished ticket).map Prod.snd).getD c)
  | .giveUp polls => do
    report (.gaveUp polls)
    return (none, { c with waiting := none })

/-- What is known of a turn afterwards. -/
structure Record where
  turn : Turn
  /-- The ticket of a submission that was accepted. -/
  ticket : Option Ticket
  exchanges : List Exchange

namespace Record

/-- The events of a turn. -/
def events (r : Record) : List Event := SdHost.events r.exchanges

/-- The submission that was accepted. -/
def accepted (r : Record) : List Entry :=
  match r.turn, r.ticket with
  | .submit command callback token, some ticket => [.submission command callback token ticket]
  | _, _ => []

/-- The pass over the controller. -/
def passes (r : Record) : List Pass :=
  match r.turn with
  | .serve => [r.events]
  | _ => []

end Record

/-- The accepted submissions. -/
def accepted (ts : List Record) : List Entry := ts.flatMap Record.accepted

/-- The commands handed back, with their routes. -/
def returned (ts : List Record) : List (Entry × Route) := ts.flatMap fun r => handed r.events

/-- What was to be latched, one after the other. -/
def masks (ts : List Record) : List UInt32 := ts.flatMap fun r => latched r.events

/-- The passes over the controller. -/
def passes (ts : List Record) : List Pass := ts.flatMap Record.passes

/-- The passes since a command was started last. -/
def flight (ts : List Record) : List Pass :=
  ts.foldl (fun ps r => if starts r.events = [] then ps ++ r.passes else []) []

section Views

variable (ts us : List Record) (r : Record)

@[simp] theorem accepted_append : accepted (ts ++ us) = accepted ts ++ accepted us :=
  List.flatMap_append

@[simp] theorem returned_append : returned (ts ++ us) = returned ts ++ returned us :=
  List.flatMap_append

@[simp] theorem masks_append : masks (ts ++ us) = masks ts ++ masks us := List.flatMap_append

@[simp] theorem passes_append : passes (ts ++ us) = passes ts ++ passes us := List.flatMap_append

theorem accepted_concat : accepted (ts ++ [r]) = accepted ts ++ r.accepted := by
  rw [accepted_append]
  exact congrArg _ (List.append_nil _)

theorem returned_concat : returned (ts ++ [r]) = returned ts ++ handed r.events := by
  rw [returned_append]
  exact congrArg _ (List.append_nil _)

theorem masks_concat : masks (ts ++ [r]) = masks ts ++ latched r.events := by
  rw [masks_append]
  exact congrArg _ (List.append_nil _)

theorem passes_concat : passes (ts ++ [r]) = passes ts ++ r.passes := by
  rw [passes_append]
  exact congrArg _ (List.append_nil _)

theorem flight_concat :
    flight (ts ++ [r]) = if starts r.events = [] then flight ts ++ r.passes else [] := by
  rw [flight, List.foldl_append]
  rfl

end Views

/-- The turns lead from the controller to the controller. -/
inductive Turns (c : Controller) : List Record → Controller → Prop where
  | nil : Turns c [] c
  | snoc {ts : List Record} {c₁ c₂ : Controller} {turn : Turn} {ticket : Option Ticket}
      {es : List Exchange} (h : Turns c ts c₁)
      (hturn : Dialogue.Path (c₁.turn turn) es (ticket, c₂)) :
      Turns c (ts ++ [⟨turn, ticket, es⟩]) c₂

theorem Turns.append {c c₁ c₂ : Controller} {ts us : List Record} (h : Turns c ts c₁)
    (hu : Turns c₁ us c₂) : Turns c (ts ++ us) c₂ := by
  induction hu with
  | nil =>
    rw [List.append_nil]
    exact h
  | snoc _ hturn ih =>
    rw [← List.append_assoc]
    exact ih.snoc hturn

theorem Turns.one {c c' : Controller} {t : Turn} {ticket : Option Ticket} {es : List Exchange}
    (h : Dialogue.Path (c.turn t) es (ticket, c')) : Turns c [⟨t, ticket, es⟩] c' :=
  Turns.nil.snoc h

/-- The controller is reached by the turns from its beginning. -/
def Reached (ts : List Record) (c : Controller) : Prop :=
  ∃ platform irqs config es c₀,
    Dialogue.Path (Controller.takeOver platform irqs config).run es (.ok c₀) ∧ Turns c₀ ts c

theorem Reached.append {ts us : List Record} {c c' : Controller} (h : Reached ts c)
    (hu : Turns c us c') : Reached (ts ++ us) c' := by
  obtain ⟨platform, irqs, config, es, c₀, hopen, hturns⟩ := h
  exact ⟨platform, irqs, config, es, c₀, hopen, hturns.append hu⟩

/-- What holds of every controller that was just taken over, and is kept by every turn. -/
@[elab_as_elim]
theorem Reached.induct {motive : (ts : List Record) → (c : Controller) → Reached ts c → Prop}
    (opened : ∀ {platform irqs config es c}
      (h : Dialogue.Path (Controller.takeOver platform irqs config).run es (.ok c)),
      motive [] c ⟨platform, irqs, config, es, c, h, .nil⟩)
    (turn : ∀ {ts c c' t ticket es} (h : Reached ts c)
      (hturn : Dialogue.Path (c.turn t) es (ticket, c')), motive ts c h →
      motive (ts ++ [⟨t, ticket, es⟩]) c' (h.append (Turns.one hturn)))
    {ts : List Record} {c : Controller} (h : Reached ts c) : motive ts c h := by
  obtain ⟨platform, irqs, config, es, c₀, hopen, hturns⟩ := h
  induction hturns with
  | nil => exact opened hopen
  | snoc hturns hturn ih => exact turn ⟨platform, irqs, config, es, c₀, hopen, hturns⟩ hturn ih

/-! ### One turn -/

/-- Whether the turn is one of the command engine. -/
def Turn.isEngine : Turn → Bool
  | .submit _ _ _ => true
  | .serve => true
  | _ => false

namespace Controller

variable {c c' : Controller} {t : Turn} {ticket : Option Ticket} {rest : List Entry}
  {ps : List Pass} {evs : List Event}

/-- What every other turn leaves alone. -/
structure Aside (c : Controller) (t : Turn) (evs : List Event) (ticket : Option Ticket)
    (c' : Controller) : Prop where
  ticket : ticket = none
  queue : c'.queue = c.queue
  version : c'.version = c.version
  handed : handed evs = []
  starts : starts evs = []
  acknowledgements : acknowledgements evs = []
  sent : sent evs = []
  received : received evs = [] ∨ ∃ r, t = .query (.register r)
  latched : latched evs = [] ∨ c.queue.isEmpty = true
  blocksRemaining : c'.blocksRemaining = c.blocksRemaining ∨
    c.queue.isEmpty = true ∧ c'.blocksRemaining = 0

theorem aside_of_nil (hq : c'.queue = c.queue) (hv : c'.version = c.version)
    (hb : c'.blocksRemaining = c.blocksRemaining) : Aside c t [] none c' :=
  ⟨rfl, hq, hv, rfl, rfl, rfl, rfl, .inl rfl, .inl rfl, .inl hb⟩

theorem leads_turn_aside (ht : t.isEngine = false)
    (h : Leads (c.turn t) evs (ticket, c')) : Aside c t evs ticket c' := by
  cases t with
  | submit command callback token => cases ht
  | serve => cases ht
  | ignore irq =>
    obtain ⟨rfl, hr⟩ := leads_report_pure h
    obtain ⟨rfl, rfl⟩ := Prod.mk.inj hr
    exact aside_of_nil rfl rfl rfl
  | reset =>
    obtain ⟨r, hreset, hr⟩ := leads_bind_pure.mp h
    obtain ⟨rfl, rfl⟩ := Prod.mk.inj hr
    rcases leads_reset hreset with ⟨_, rfl, hc⟩ | ⟨hempty, hevs, hc⟩
    · rw [hc]
      exact aside_of_nil rfl rfl rfl
    · have hqueue : r.2.queue = c.queue := by
        rcases hc with hc | hc
        · rw [hc]
        · rw [hc]
      have hversion : r.2.version = c.version := by
        rcases hc with hc | hc
        · rw [hc]
        · rw [hc]
      have hblocks : r.2.blocksRemaining = c.blocksRemaining ∨
          c.queue.isEmpty = true ∧ r.2.blocksRemaining = 0 := by
        rcases hc with hc | hc
        · exact .inl (by rw [hc])
        · exact .inr ⟨hempty, by rw [hc]⟩
      rcases hevs with rfl | rfl
      · exact ⟨rfl, hqueue, hversion, rfl, rfl, rfl, rfl, .inl rfl, .inr hempty, hblocks⟩
      · exact ⟨rfl, hqueue, hversion, rfl, rfl, rfl, rfl, .inl rfl, .inr hempty, hblocks⟩
  | setOperational =>
    obtain ⟨_, hs, hr⟩ := leads_bind_pure.mp h
    obtain ⟨rfl, rfl⟩ := Prod.mk.inj hr
    rw [quiet_setOperational _ hs]
    exact aside_of_nil rfl rfl rfl
  | query q =>
    obtain ⟨_, hq, hr⟩ := leads_bind_pure.mp h
    obtain ⟨rfl, rfl⟩ := Prod.mk.inj hr
    obtain ⟨honly, hrecv⟩ := Query.leads_ask hq
    refine ⟨rfl, rfl, rfl, honly.handed, honly.starts, honly.acknowledgements, honly.sent, ?_,
      .inl honly.latched, .inl rfl⟩
    rcases hrecv with hrecv | ⟨r, rfl⟩
    · exact .inl hrecv
    · exact .inr ⟨r, rfl⟩
  | pickUp ticket =>
    obtain ⟨rfl, hr⟩ := leads_done.mp h
    obtain ⟨rfl, rfl⟩ := Prod.mk.inj hr
    unfold takeFinished
    split
    · split
      · exact aside_of_nil rfl rfl rfl
      · exact aside_of_nil rfl rfl rfl
    · exact aside_of_nil rfl rfl rfl
  | giveUp polls =>
    obtain ⟨rfl, hr⟩ := leads_report_pure h
    obtain ⟨rfl, rfl⟩ := Prod.mk.inj hr
    exact aside_of_nil rfl rfl rfl

theorem Rests.aside {masks : List UInt32} (hr : Rests c ps masks rest)
    (ha : Aside c t evs ticket c') : Rests c' ps (masks ++ latched evs) rest := by
  have hempty : c.queue.isEmpty = true → c.queue.entries = [] := List.isEmpty_iff.mp
  cases hr with
  | idle hq hb =>
    refine .idle ?_ ?_
    · rw [ha.queue, hq]
    · rcases ha.blocksRemaining with hsame | ⟨_, hzero⟩
      · rw [hsame, hb]
      · exact hzero
  | onWire hq hb hup hm =>
    refine .onWire ?_ ?_ hup ?_
    · rw [ha.queue, hq]
    · rcases ha.blocksRemaining with hsame | ⟨hidle, _⟩
      · rw [hsame, hb]
      · rw [hempty hidle] at hq
        cases hq
    · rcases ha.latched with hnone | hidle
      · rw [hnone, List.append_nil]
        exact hm
      · rw [hempty hidle] at hq
        cases hq

/-- **One turn** adds the submission that was accepted and takes those that have ended. -/
theorem Rests.turn {masks : List UInt32} {es : List Exchange} (hr : Rests c ps masks rest)
    (hsub : ∀ s ∈ rest, s.Submitted) (h : Dialogue.Path (c.turn t) es (ticket, c')) :
    let r : Record := ⟨t, ticket, es⟩
    (∀ s ∈ r.accepted, s.Submitted ∧ s.ticket = c.queue.nextTicket) ∧
      c'.queue.nextTicket = c.queue.nextTicket + UInt32.ofNat r.accepted.length ∧
      ∃ gone left, rest ++ r.accepted = gone ++ left ∧
        List.Forall₂ Entry.Ends gone ((handed r.events).map Prod.fst) ∧
        Rests c' (if starts r.events = [] then ps ++ r.passes else []) (masks ++ latched r.events)
          left := by
  intro r
  have hleads := leads_of_path h
  -- only submissions and services touch the queue
  cases hturn : t.isEngine with
  | false =>
    have haside := leads_turn_aside hturn hleads
    obtain rfl := haside.ticket
    have haccepted : r.accepted = [] := by
      cases t <;> rfl
    have hpasses : r.passes = [] := by
      cases t with
      | serve => cases hturn
      | _ => rfl
    rw [haccepted, hpasses, haside.queue, show handed r.events = [] from haside.handed,
      show starts r.events = [] from haside.starts, if_pos rfl, List.append_nil, List.append_nil]
    refine ⟨List.forall_mem_nil _, ?_, [], rest, rfl, .nil, hr.aside haside⟩
    exact (UInt32.add_zero _).symm
  | true =>
    cases t with
    | submit command callback token =>
      obtain ⟨_, out, _, henqueue, h₁, hevs⟩ := leads_bind.mp hleads
      cases out with
      | error err =>
        obtain ⟨rfl, hr'⟩ := leads_done.mp h₁
        obtain ⟨rfl, rfl⟩ := Prod.mk.inj hr'
        rcases leads_enqueue henqueue with ⟨_, _, rfl, -⟩ | ⟨_, _, _, _, _, habs, _⟩
        · have hnil : r.events = [] := hevs
          have haccepted : r.accepted = [] := rfl
          have hpasses : r.passes = [] := rfl
          rw [hnil, haccepted, hpasses]
          refine ⟨List.forall_mem_nil _, (UInt32.add_zero _).symm, [], rest, ?_, .nil, ?_⟩
          · rw [List.append_nil]
            rfl
          · show Rests _ (ps ++ []) (masks ++ []) rest
            rw [List.append_nil, List.append_nil]
            exact hr
        · cases habs
      | ok result =>
        obtain ⟨given, c₁⟩ := result
        obtain ⟨rfl, hr'⟩ := leads_done.mp h₁
        obtain ⟨rfl, rfl⟩ := Prod.mk.inj hr'
        rw [List.append_nil] at hevs
        subst hevs
        obtain ⟨rfl, hs, gone, left, hsplit, hends, hnext, hrests⟩ := hr.enqueue hsub henqueue
        have hpasses : r.passes = [] := rfl
        have haccepted : r.accepted = [.submission command callback token c.queue.nextTicket] := rfl
        rw [hpasses, haccepted, List.append_nil]
        refine ⟨?_, hnext, gone, left, hsplit, hends, hrests⟩
        intro s hmem
        obtain rfl := List.mem_singleton.mp hmem
        exact ⟨hs, rfl⟩
    | serve =>
      obtain ⟨c₁, hserve, hr'⟩ := leads_bind_pure.mp hleads
      obtain ⟨rfl, rfl⟩ := Prod.mk.inj hr'
      obtain ⟨gone, left, hsplit, hends, hnext, hrests⟩ := hr.handleInterrupt hsub hserve
      have hpasses : r.passes = [r.events] := rfl
      have haccepted : r.accepted = [] := rfl
      rw [hpasses, haccepted, List.append_nil]
      refine ⟨List.forall_mem_nil _, ?_, gone, left, hsplit, hends, hrests⟩
      rw [hnext]
      exact (UInt32.add_zero _).symm
    | _ => cases hturn

end Controller

/-! ### All turns -/

/-- The books of a controller: the submissions `A` were accepted and the commands `D` handed back,
the passes `ps` were made since a command was started last, and `masks` was to be latched. -/
structure Ledger (A D : List Entry) (ps : List Pass) (masks : List UInt32) (c : Controller) :
    Prop where
  submitted : ∀ s ∈ A, s.Submitted
  ticket : ∀ i s, A[i]? = some s → s.ticket = UInt32.ofNat i
  next : c.queue.nextTicket = UInt32.ofNat A.length
  /-- Those that were accepted first have ended, and the controller holds the others. -/
  split : ∃ gone rest, A = gone ++ rest ∧ List.Forall₂ Entry.Ends gone D ∧ c.Rests ps masks rest

namespace Ledger

variable {A D : List Entry} {ps : List Pass} {masks : List UInt32} {c c' : Controller}

/-- What is not handed back is held. -/
theorem rests (h : Ledger A D ps masks c) : c.Rests ps masks (A.drop D.length) := by
  obtain ⟨gone, rest, rfl, hends, hrests⟩ := h.split
  rw [← hends.length_eq, List.drop_left]
  exact hrests

theorem held (h : Ledger A D ps masks c) : ∀ s ∈ A.drop D.length, s.Submitted :=
  fun s hs => h.submitted s (List.mem_of_mem_drop hs)

/-- What was handed back came of what was accepted, in this order. -/
theorem ends (h : Ledger A D ps masks c) : List.Forall₂ Entry.Ends (A.take D.length) D := by
  obtain ⟨gone, rest, rfl, hends, hrests⟩ := h.split
  rw [← hends.length_eq, List.take_left]
  exact hends

/-- Each command that was handed back came of the submission with its number. -/
theorem came (h : Ledger A D ps masks c) {i : Nat} {e : Entry} (hget : D[i]? = some e) :
    ∃ s, A[i]? = some s ∧ s.Ends e := by
  have hends := h.ends
  obtain ⟨hi, rfl⟩ := List.getElem?_eq_some_iff.mp hget
  have hlength : i < (A.take D.length).length := by
    rw [hends.length_eq]
    exact hi
  refine ⟨(A.take D.length)[i], ?_, hends.get hlength hi⟩
  rw [← List.getElem?_eq_getElem hlength, List.getElem?_take_of_lt hi]

theorem turn {t : Turn} {ticket : Option Ticket} {es : List Exchange} (h : Ledger A D ps masks c)
    (hturn : Dialogue.Path (c.turn t) es (ticket, c')) :
    let r : Record := ⟨t, ticket, es⟩
    Ledger (A ++ r.accepted) (D ++ (handed r.events).map Prod.fst)
      (if starts r.events = [] then ps ++ r.passes else []) (masks ++ latched r.events) c' := by
  intro r
  obtain ⟨gone, rest, rfl, hends, hrests⟩ := h.split
  have hsub : ∀ s ∈ rest, s.Submitted := fun s hs => h.submitted s (List.mem_append_right _ hs)
  obtain ⟨hnew, hnext, gone', left, hsplit, hends', hrests'⟩ := hrests.turn hsub hturn
  refine ⟨?_, ?_, ?_, gone ++ gone', left, ?_, ?_, hrests'⟩
  · intro s hs
    rcases List.mem_append.mp hs with hs | hs
    · exact h.submitted s hs
    · exact (hnew s hs).1
  · intro i s hs
    -- an older submission, or the one that this turn has accepted
    rcases Nat.lt_or_ge i (gone ++ rest).length with hi | hi
    · rw [List.getElem?_append_left hi] at hs
      exact h.ticket i s hs
    · rw [List.getElem?_append_right hi] at hs
      have hone : r.accepted.length ≤ 1 := by
        unfold Record.accepted
        split <;> simp
      have hlast : i - (gone ++ rest).length < r.accepted.length :=
        (List.getElem?_eq_some_iff.mp hs).1
      have hi' : i = (gone ++ rest).length := by omega
      rw [(hnew s (List.mem_of_getElem? hs)).2, h.next, ← hi']
  · rw [hnext, h.next, show (gone ++ rest ++ r.accepted).length =
      (gone ++ rest).length + r.accepted.length from List.length_append]
    exact (UInt32.ofNat_add ..).symm
  · rw [List.append_assoc, hsplit, List.append_assoc]
  · exact List.rel_append hends hends'

end Ledger

theorem Turns.ledger {c c' : Controller} {ts : List Record} (h : Turns c ts c')
    (h₀ : Ledger [] [] [] [] c) :
    Ledger (accepted ts) ((returned ts).map Prod.fst) (flight ts) (masks ts) c' := by
  induction h with
  | nil => exact h₀
  | @snoc ts c₁ c₂ t ticket es _ hturn ih =>
    have hstep := ih.turn hturn
    rw [accepted_concat, returned_concat, masks_concat, flight_concat, List.map_append]
    exact hstep

/-- A controller that was just taken over has nothing on its books. -/
theorem Controller.leads_takeOver {platform : Platform} {irqs : List UInt32} {config : Config}
    {evs : List Event} {c : Controller}
    (h : Leads (Controller.takeOver platform irqs config).run evs (.ok c)) :
    c.queue = Queue.empty ∧ c.blocksRemaining = 0 ∧ c.waiting = none ∧ c.finished = none := by
  unfold Controller.takeOver at h
  by_cases hirqs : irqs.length > maxIrqs
  · simp only [hirqs, if_true] at h
    obtain ⟨_, habs⟩ := leads_report_throw h
    cases habs
  · simp only [hirqs, if_false] at h
    obtain ⟨_, raw, _, _, h₁, _⟩ := leads_run_lift_bind.mp h
    obtain ⟨_, _, _, _, h₂, _⟩ := leads_run_lift_bind.mp h₁
    obtain ⟨_, _, _, _, h₃, _⟩ := leads_run_lift_bind.mp h₂
    obtain ⟨_, _, _, _, h₄, _⟩ := leads_run_lift_bind.mp h₃
    obtain ⟨_, _, _, _, h₅, _⟩ := leads_run_lift_bind.mp h₄
    obtain ⟨_, _, _, _, h₆, _⟩ := leads_run_lift_bind.mp h₅
    obtain ⟨_, hc⟩ := leads_run_pure.mp h₆
    obtain rfl := Except.ok.inj hc
    exact ⟨rfl, rfl, rfl, rfl⟩

/-- **The books of every controller that is reached** balance. -/
theorem Reached.ledger {ts : List Record} {c : Controller} (h : Reached ts c) :
    Ledger (accepted ts) ((returned ts).map Prod.fst) (flight ts) (masks ts) c := by
  obtain ⟨platform, irqs, config, es, c₀, hopen, hturns⟩ := h
  obtain ⟨hqueue, hblocks, -, -⟩ := Controller.leads_takeOver (leads_of_path hopen)
  refine hturns.ledger ⟨List.forall_mem_nil _, ?_, ?_, [], [], rfl, .nil, ?_⟩
  · intro i s hs
    cases hs
  · rw [hqueue]
    rfl
  · exact .idle (by rw [hqueue]; rfl) hblocks

/-! ### A command to look at -/

/-- A controller that was just taken over. -/
def Controller.rested : Controller :=
  { platform := .imx6, version := .v1, irqs := []
    config := { spinLimit := 1, pollLimit := some 2 } }

/-- Reads two blocks of a word each. -/
def Command.twoBlockRead : Command :=
  (Command.new CommandIndex.readMultipleBlock 0 .r1).withData ⟨4, 2, .words 0 [1, 2, 3]⟩

/-- A turn by a script. -/
def Controller.recorded (c : Controller) (t : Turn) (script : List (Register × UInt32)) : Record :=
  ⟨t, (Dialogue.run scripted (c.turn t) script).1.1,
    Dialogue.exchanges scripted (c.turn t) script⟩

/-- The controller after a turn by a script. -/
def Controller.after (c : Controller) (t : Turn) (script : List (Register × UInt32)) : Controller :=
  (Dialogue.run scripted (c.turn t) script).1.2

theorem Turns.scripted {c c' : Controller} {ts : List Record} (h : Turns c ts c') (t : Turn)
    (script : List (Register × UInt32)) :
    Turns c (ts ++ [c'.recorded t script]) (c'.after t script) :=
  h.snoc (path_scripted script rfl)

theorem reached_rested : Reached [] Controller.rested :=
  ⟨.imx6, [], Controller.rested.config, _, _, path_scripted [] rfl, .nil⟩

/-- A controller that has just started to read two blocks. -/
def Controller.reading : Controller := Controller.rested.after (.submit .twoBlockRead none 0) []

/-- The response comes with the first block. -/
def firstPass : List (Register × UInt32) :=
  [(.interruptStatus, 0x21), (.response0, 0x900), (.bufferAccess, 5)]

/-- The end of the data comes with the second block. -/
def secondPass : List (Register × UInt32) := [(.interruptStatus, 0x22), (.bufferAccess, 6)]

theorem reached_reading :
    Reached [Controller.rested.recorded (.submit .twoBlockRead none 0) []] Controller.reading :=
  reached_rested.append (Turns.nil.scripted _ [])

theorem turns_reading :
    Turns Controller.reading
      [Controller.reading.recorded .serve firstPass,
        (Controller.reading.after .serve firstPass).recorded .serve secondPass]
      ((Controller.reading.after .serve firstPass).after .serve secondPass) :=
  (Turns.nil.scripted .serve firstPass).scripted .serve secondPass

end SdHost
