import SdHost.Proofs.Interrupt.Severity
import SdHost.Proofs.Turn.Flight

/-!
# The wire

One command is on the wire at a time.  A command is put there by the write of its transfer type, and
nothing else is started until the statuses serviced since then have ended it.

* `wired` — of some submissions, those that were put on the wire;
* `Controller.Rests.starts_turn` — one turn starts at most one command, on a free wire;
* `Reached.starts` — what was started are the transfer types of these submissions;
* `Reached.finished_between` — between two starts the first command has ended.
-/

namespace SdHost

open InterruptStatus
open Dialogue (Path)

/-! ### Which submissions were put on the wire -/

/-- The command came back because the lines were busy. -/
def Entry.isBusy (e : Entry) : Bool := decide (e.command.completion = .failed .controllerBusy)

section Wired

variable {α β : Type}

/-- Of some submissions, in their order, those that were put on the wire, if these came back: the
ones that came back otherwise than busy, and the first that has not come back. -/
def wired : List α → List Entry → List α
  | [], _ => []
  | s :: _, [] => [s]
  | s :: submissions, e :: back =>
    if e.isBusy then wired submissions back else s :: wired submissions back

theorem wired_nil (submissions : List α) : wired submissions [] = submissions.head?.toList := by
  cases submissions <;> rfl

theorem wired_map (f : α → β) (submissions : List α) (back : List Entry) :
    wired (submissions.map f) back = (wired submissions back).map f := by
  induction submissions generalizing back with
  | nil => rfl
  | cons s submissions ih =>
    cases back with
    | nil => rfl
    | cons e back =>
      simp only [List.map_cons, wired, ih]
      split <;> rfl

/-- What has come back decides for itself. -/
theorem wired_append {gone rest : List α} {back more : List Entry}
    (h : gone.length = back.length) :
    wired (gone ++ rest) (back ++ more) = wired gone back ++ wired rest more := by
  induction gone generalizing back with
  | nil =>
    obtain rfl := List.length_eq_zero_iff.mp h.symm
    rfl
  | cons s gone ih =>
    cases back with
    | nil => cases h
    | cons e back =>
      have hlength : gone.length = back.length := Nat.succ.inj h
      simp only [List.cons_append, wired, ih hlength]
      split <;> rfl

/-- Commands that are refused do not come to the wire. -/
theorem wired_refused (gone : List Entry) : wired gone (gone.map Entry.refused) = [] := by
  induction gone with
  | nil => rfl
  | cons s gone ih => exact ih

/-- There are as many as came back otherwise than busy, and one more while some have not come
back. -/
theorem length_wired {submissions : List α} {back : List Entry}
    (h : back.length ≤ submissions.length) : (wired submissions back).length =
      back.countP (fun e => !e.isBusy) + if back.length < submissions.length then 1 else 0 := by
  induction submissions generalizing back with
  | nil =>
    obtain rfl := List.length_eq_zero_iff.mp (Nat.le_zero.mp h)
    rfl
  | cons s submissions ih =>
    cases back with
    | nil => rfl
    | cons e back =>
      have hrest := ih (Nat.le_of_succ_le_succ h)
      simp only [wired, List.length_cons, Nat.add_lt_add_iff_right, List.countP_cons]
      cases e.isBusy with
      | true => simpa using hrest
      | false =>
        simp only [Bool.not_false, if_true, if_false, List.length_cons, hrest,
          Bool.false_eq_true]
        omega

/-- A busy command and its return can be left out of the account of the wire. -/
theorem wired_eraseIdx {submissions : List α} {back : List Entry} {i : Nat} {e : Entry}
    (hget : back[i]? = some e) (hbusy : e.isBusy = true) :
    wired (submissions.eraseIdx i) (back.eraseIdx i) = wired submissions back := by
  induction submissions generalizing back i with
  | nil => rfl
  | cons s submissions ih =>
    cases back with
    | nil => cases hget
    | cons first back =>
      cases i with
      | zero =>
        obtain rfl := Option.some.inj hget
        rw [wired, if_pos hbusy]
        rfl
      | succ i =>
        have hrest := ih (i := i) hget
        simp only [List.eraseIdx_cons_succ, wired, hrest]

end Wired

/-! ### The transfer type -/

/-- The transfer type that starts the command of an entry. -/
def Entry.word (version : SpecVersion) (e : Entry) : UInt32 := e.command.transferWord version

/-- A command that ended on the wire does not come back busy. -/
theorem Entry.Lands.isBusy {s e : Entry} {ps : List Pass} {v : Completion} (h : s.Lands ps v e) :
    e.isBusy = false := by
  have hv : v ≠ .failed .controllerBusy := by
    rcases outcome_cases h.outcome with rfl | ⟨status, cause, -, hclass, rfl⟩
    · intro habs
      cases habs
    · intro habs
      obtain rfl := Completion.failed.inj habs
      exact status.classify_ne_controllerBusy hclass
  obtain ⟨commandDone, dataDone, rfl⟩ := h.entry
  exact decide_eq_false hv

namespace Controller

variable {c c' : Controller} {s : Entry} {rest : List Entry} {ps : List Pass} {evs : List Event}
  {masks : List UInt32} {t : Turn} {ticket : Option Ticket} {es : List Exchange}

/-! ### One turn -/

/-- Dispatching starts the first head that is not refused. -/
theorem Dispatches.starts_eq (h : Dispatches c evs c') :
    ∃ gone left, c.queue.entries = gone ++ left ∧
      (handed evs).map Prod.fst = gone.map Entry.refused ∧
      starts evs = left.head?.toList.map (Entry.word c.version) ∧ c'.version = c.version ∧
      (left = [] ↔ c'.isIdle = true) := by
  induction h with
  | @rest c hs =>
    refine ⟨[], [], hs, rfl, rfl, rfl, ?_⟩
    rw [isIdle, Queue.isEmpty, hs]
    exact ⟨fun _ => rfl, fun _ => rfl⟩
  | @launch c s rest hs =>
    refine ⟨[], s :: rest, hs, rfl, rfl, rfl, ?_⟩
    rw [isIdle, Queue.isEmpty, Controller.launch, Queue.entries_modifyHead, hs]
    exact ⟨fun habs => (List.cons_ne_nil _ _ habs).elim, fun habs => by cases habs⟩
  | @refuse c c' s rest evs hs hrest ih =>
    have hentries : (c.dropHead.settle s.refused).queue.entries = rest := by
      rw [queue_settle, dropHead, Queue.entries_tail, hs]
      rfl
    have hversion : (c.dropHead.settle s.refused).version = c.version := by
      rw [version_settle]
      rfl
    obtain ⟨gone, left, hsplit, hhanded, hstarts, hlater, hidle⟩ := ih
    rw [hentries] at hsplit
    rw [hversion] at hstarts hlater
    refine ⟨s :: gone, left, ?_, ?_, hstarts, hlater, hidle⟩
    · rw [hs, hsplit]
      rfl
    · show s.refused :: (handed evs).map Prod.fst = _
      rw [hhanded]
      rfl

theorem Rests.isIdle_eq (hr : Rests c ps masks rest) : c.isIdle = rest.isEmpty := by
  cases hr with
  | idle hq hb => rw [isIdle, Queue.isEmpty, hq, List.isEmpty_nil]
  | onWire hq hb ha hm => exact Queue.isEmpty_of_cons hq

/-- What one turn does to the wire: it starts `fresh`, if anything.  By then, or when nothing is
queued any more, the command that was on the wire has ended. -/
structure Wires (c : Controller) (ps : List Pass) (rest : List Entry) (r : Record)
    (c' : Controller) (fresh : Option Entry) : Prop where
  wired : wired (rest ++ r.accepted) ((handed r.events).map Prod.fst) =
    rest.head?.toList ++ fresh.toList
  starts : starts r.events = fresh.toList.map (Entry.word c.version)
  version : c'.version = c.version
  busy : fresh ≠ none → c'.isIdle = false
  free : fresh ≠ none ∨ c'.isIdle = true → ∀ s ∈ rest.head?,
    s.command.outcome (ps ++ r.passes) ≠ none

/-- A turn that hands nothing back and starts nothing leaves the wire as it is. -/
theorem wires_none {r : Record} (hhanded : handed r.events = [])
    (hstarts : SdHost.starts r.events = []) (hversion : c'.version = c.version)
    (haccepted : rest = [] → r.accepted = []) (hidle : c'.isIdle = true → rest = []) :
    Wires c ps rest r c' none := by
  refine ⟨?_, hstarts, hversion, fun habs => absurd rfl habs, ?_⟩
  · rw [hhanded, List.map_nil, wired_nil]
    cases rest with
    | nil => rw [haccepted rfl]; rfl
    | cons s rest => rfl
  · rintro (habs | hend) s hs
    · exact absurd rfl habs
    · rw [hidle hend] at hs
      cases hs

/-- A pass may end the command on the wire, and then the next one is started. -/
theorem Rests.wires_serve (hr : Rests c ps masks rest) (hsub : ∀ s ∈ rest, s.Submitted)
    (h : Path (c.turn .serve) es (ticket, c')) :
    ∃ fresh, Wires c ps rest ⟨.serve, ticket, es⟩ c' fresh := by
  obtain ⟨c₁, hserve, hout⟩ := leads_bind_pure.mp (leads_of_path h)
  obtain ⟨rfl, rfl⟩ := Prod.mk.inj hout
  have hback := hr.isIdle_eq
  cases hr with
  | idle hq hb =>
    obtain ⟨rfl, word, hevs⟩ := leads_handleInterrupt_idle hq hserve
    refine ⟨none, wires_none ?_ ?_ rfl (fun _ => rfl) fun _ => rfl⟩
    · show handed (events es) = []
      rw [hevs, handed_idle]
    · show SdHost.starts (events es) = []
      rw [hevs]
      split <;> rfl
  | @onWire s rest hq hb ha hm =>
    have hfresh : ∀ e ∈ rest, e.Fresh := fun e he => (hsub e (List.mem_cons_of_mem _ he)).fresh
    cases leads_handleInterrupt_onWire hq hb ha hfresh hserve with
    | goesOn hup hc hhanded hlatched hstarts hserves =>
      refine ⟨none, wires_none hhanded hstarts (by rw [hc]; rfl)
        (fun habs => (List.cons_ne_nil _ _ habs).elim) ?_⟩
      intro hidle
      rw [hc, isIdle, Queue.isEmpty, further, Queue.entries_modifyHead, hq] at hidle
      cases hidle
    | @ends v e later hlands hdispatch hhanded hlatched hstarts hserves hnext =>
      obtain ⟨gone, left, hsplit, hgone, hfirst, hversion, hidle⟩ := hdispatch.starts_eq
      have hpopped : (c.popped.settle e).queue.entries = rest :=
        entries_popped_settle.trans (congrArg List.tail hq)
      have hsame : (c.popped.settle e).version = c.version := by
        rw [version_settle]
        rfl
      rw [hpopped] at hsplit
      rw [hsame] at hfirst hversion
      subst hsplit
      refine ⟨left.head?, ?_, hstarts.trans hfirst, hversion, ?_, ?_⟩
      · show wired (s :: (gone ++ left) ++ []) ((handed (events es)).map Prod.fst) = _
        rw [hhanded, List.map_cons, hgone, List.append_nil, wired, hlands.isBusy,
          if_neg Bool.false_ne_true, ← List.append_nil (gone.map Entry.refused),
          wired_append (List.length_map _).symm, wired_refused, wired_nil]
        rfl
      · intro hsome
        cases hend : c'.isIdle with
        | false => rfl
        | true =>
          rw [hidle.mpr hend] at hsome
          exact absurd rfl hsome
      · rintro - s' hs'
        obtain rfl := Option.some.inj hs'
        intro habs
        cases habs.symm.trans hlands.outcome

/-- A submission is started at once if the wire is free and the lines are. -/
theorem Rests.wires_submit {command : Command} {callback : Option Callback} {token : Nat}
    (hr : Rests c ps masks rest) (hsub : ∀ s ∈ rest, s.Submitted)
    (h : Path (c.turn (.submit command callback token)) es (ticket, c')) :
    ∃ fresh, Wires c ps rest ⟨.submit command callback token, ticket, es⟩ c' fresh := by
  have hback := hr.isIdle_eq
  obtain ⟨_, out, _, henqueue, h₁, hevs⟩ := leads_bind.mp (leads_of_path h)
  rcases leads_enqueue henqueue with ⟨err, rfl, rfl, -, -⟩ | ⟨q, c₁, hpush, -, -, rfl, hdone⟩
  · obtain ⟨rfl, hout⟩ := leads_done.mp h₁
    obtain ⟨rfl, rfl⟩ := Prod.mk.inj hout
    refine ⟨none, wires_none ?_ ?_ rfl (fun _ => rfl) ?_⟩
    · show handed (events es) = []
      rw [hevs]
      rfl
    · show SdHost.starts (events es) = []
      rw [hevs]
      rfl
    · intro hidle
      rw [hidle] at hback
      exact List.isEmpty_iff.mp hback.symm
  · obtain ⟨rfl, hout⟩ := leads_done.mp h₁
    obtain ⟨rfl, rfl⟩ := Prod.mk.inj hout
    rw [List.append_nil] at hevs
    cases hempty : c.queue.isEmpty with
    | true =>
      rw [hempty, if_pos rfl, ← hevs] at hdone
      have hrest : rest = [] := List.isEmpty_iff.mp (hback.symm.trans hempty)
      obtain ⟨gone, left, hsplit, hgone, hfirst, hversion, hidle⟩ :=
        (dispatches_accepted hempty hpush hdone).starts_eq
      rw [entries_accepted hempty hpush] at hsplit
      refine ⟨left.head?, ?_, hfirst, hversion, ?_, ?_⟩
      · show wired (rest ++ [Entry.submission command callback token c.queue.nextTicket])
          ((handed (events es)).map Prod.fst) = _
        rw [hrest, List.nil_append, hsplit, hgone, ← List.append_nil (gone.map Entry.refused),
          wired_append (List.length_map _).symm, wired_refused, wired_nil]
        rfl
      · intro hsome
        cases hend : c'.isIdle with
        | false => rfl
        | true =>
          rw [hidle.mpr hend] at hsome
          exact absurd rfl hsome
      · rw [hrest]
        rintro - s' hs'
        cases hs'
    | false =>
      rw [hempty, if_neg Bool.false_ne_true] at hdone
      obtain ⟨hnil, rfl⟩ := hdone
      have hrest : rest ≠ [] := by
        rintro rfl
        cases hempty.symm.trans hback
      refine ⟨none, wires_none ?_ ?_ rfl (fun habs => absurd habs hrest) ?_⟩
      · show handed (events es) = []
        rw [hevs, hnil]
        rfl
      · show SdHost.starts (events es) = []
        rw [hevs, hnil]
        rfl
      · intro hidle
        have hentries := (Queue.push_eq_some hpush).1
        have hnone : q.entries = [] := List.isEmpty_iff.mp hidle
        rw [hnone] at hentries
        cases (List.append_eq_nil_iff.mp hentries.symm).2

/-- **One turn** starts at most one command, and only on a free wire. -/
theorem Rests.wires (hr : Rests c ps masks rest) (hsub : ∀ s ∈ rest, s.Submitted)
    (h : Path (c.turn t) es (ticket, c')) : ∃ fresh, Wires c ps rest ⟨t, ticket, es⟩ c' fresh := by
  cases hturn : t.isEngine with
  | false =>
    have haside := leads_turn_aside hturn (leads_of_path h)
    refine ⟨none, wires_none haside.handed haside.starts haside.version (fun _ => ?_) ?_⟩
    · obtain rfl := haside.ticket
      cases t <;> rfl
    · intro hidle
      rw [isIdle, haside.queue] at hidle
      exact List.isEmpty_iff.mp (hr.isIdle_eq.symm.trans hidle)
  | true =>
    cases t with
    | submit command callback token => exact hr.wires_submit hsub h
    | serve => exact hr.wires_serve hsub h
    | _ => cases hturn

end Controller

/-! ### All turns -/

/-- All that has happened, turn after turn. -/
def history (ts : List Record) : List Event := ts.flatMap Record.events

theorem history_concat (ts : List Record) (r : Record) :
    history (ts ++ [r]) = history ts ++ r.events := by
  unfold history
  rw [List.flatMap_append, List.flatMap_singleton]

/-- The submissions that some turns have put on the wire. -/
def onWire (ts : List Record) : List Entry := wired (accepted ts) ((returned ts).map Prod.fst)

namespace Reached

variable {ts : List Record} {c c' : Controller} {t : Turn} {ticket : Option Ticket}
  {es : List Exchange}

/-- What a reached controller holds, against what has come back. -/
theorem onWire_eq (h : Reached ts c) : ∃ gone rest,
    accepted ts = gone ++ rest ∧ gone.length = (returned ts).length ∧
      onWire ts = wired gone ((returned ts).map Prod.fst) ++ rest.head?.toList ∧
      c.Rests (flight ts) (masks ts) rest ∧ ∀ s ∈ rest, s.Submitted := by
  obtain ⟨gone, rest, hsplit, hends, hrests⟩ := h.ledger.split
  have hlength : gone.length = ((returned ts).map Prod.fst).length := hends.length_eq
  refine ⟨gone, rest, hsplit, hlength.trans (List.length_map _), ?_, hrests, ?_⟩
  · rw [onWire, hsplit, ← List.append_nil ((returned ts).map Prod.fst), wired_append hlength,
      wired_nil, List.append_nil]
  · intro s hs
    exact h.ledger.submitted s (by rw [hsplit]; exact List.mem_append_right _ hs)

/-- **One turn** starts at most one command, and only when the last one has ended. -/
theorem wires (h : Reached ts c) (hturn : Path (c.turn t) es (ticket, c')) :
    ∃ (fresh : Option Entry) (rest : List Entry),
      c.Rests (flight ts) (masks ts) rest ∧
      c.Wires (flight ts) rest ⟨t, ticket, es⟩ c' fresh ∧
      onWire (ts ++ [⟨t, ticket, es⟩]) = onWire ts ++ fresh.toList ∧
      ∀ s, rest.head? = some s → (onWire ts).getLast? = some s := by
  obtain ⟨gone, rest, hsplit, hlength, hwire, hrests, hsub⟩ := h.onWire_eq
  obtain ⟨fresh, hfresh⟩ := hrests.wires hsub hturn
  refine ⟨fresh, rest, hrests, hfresh, ?_, ?_⟩
  · have hgone : gone.length = ((returned ts).map Prod.fst).length := by
      rw [List.length_map, hlength]
    rw [hwire, onWire, accepted_concat, returned_concat, hsplit, List.append_assoc, List.map_append,
      wired_append hgone, hfresh.wired, List.append_assoc]
  · intro s hs
    rw [hwire, hs]
    exact List.getLast?_concat

/-- **What was started** are the transfer types of the submissions that were put on the wire. -/
theorem starts (h : Reached ts c) :
    SdHost.starts (history ts) = (onWire ts).map (Entry.word c.version) := by
  induction h using Reached.induct with
  | opened hopen => rfl
  | @turn ts c c' t ticket es h hturn ih =>
    obtain ⟨fresh, rest, -, hfresh, hwire, -⟩ := h.wires hturn
    rw [history_concat, starts_append, ih, hfresh.starts, hfresh.version, hwire, List.map_append]

/-- Between two starts, and while nothing is queued, the command that was started last has ended. -/
theorem free (h : Reached ts c)
    (hidle : c.isIdle = true → ∀ s, (onWire ts).getLast? = some s →
      s.command.outcome (flight ts) ≠ none)
    (hturn : Path (c.turn t) es (ticket, c'))
    (hnext : SdHost.starts (events es) ≠ [] ∨ c'.isIdle = true) {s : Entry}
    (hs : (onWire ts).getLast? = some s) :
    s.command.outcome (flight ts ++ Record.passes ⟨t, ticket, es⟩) ≠ none := by
  obtain ⟨fresh, rest, hrests, hfresh, -, hlast⟩ := h.wires hturn
  have hfree : fresh ≠ none ∨ c'.isIdle = true := by
    rcases hnext with hstarts | hend
    · refine .inl ?_
      rintro rfl
      exact hstarts hfresh.starts
    · exact .inr hend
  cases rest with
  | nil => exact Command.outcome_append_ne_none (hidle hrests.isIdle_eq s hs) _
  | cons head rest =>
    obtain rfl := Option.some.inj ((hlast head rfl).symm.trans hs)
    exact hfresh.free hfree head rfl

/-- **While nothing is queued** the command that was started last has ended. -/
theorem ended (h : Reached ts c) : c.isIdle = true → ∀ s, (onWire ts).getLast? = some s →
    s.command.outcome (flight ts) ≠ none := by
  induction h using Reached.induct with
  | opened hopen =>
    intro _ s hs
    cases hs
  | @turn ts c c' t ticket es h hturn ih =>
    intro hidle s hs
    obtain ⟨fresh, rest, -, hfresh, hwire, -⟩ := h.wires hturn
    -- a command that was started just now would be queued
    cases fresh with
    | some started =>
      have hbusy := hfresh.busy (Option.some_ne_none started)
      rw [hidle] at hbusy
      cases hbusy
    | none =>
      have hquiet : SdHost.starts (Record.events ⟨t, ticket, es⟩) = [] := hfresh.starts
      rw [hwire, Option.toList_none, List.append_nil] at hs
      rw [flight_concat, if_pos hquiet]
      exact h.free ih hturn (.inr hidle) hs

/-! ### Between two starts -/

/-- The statuses of a turn are acknowledged before anything is started. -/
theorem acknowledgements_turn (h : Reached ts c) (hturn : Path (c.turn t) es (ticket, c')) :
    acknowledgements (events es) =
        ((Record.passes ⟨t, ticket, es⟩).map serviced).filter (fun s => !s.isEmpty) ∧
      ∀ before word after, events es = before ++ .started word :: after →
        acknowledgements after = [] := by
  have hnone : acknowledgements (events es) = [] → ∀ before word after,
      events es = before ++ .started word :: after → acknowledgements after = [] := by
    intro hnil before word after hsplit
    rw [hsplit, acknowledgements_append] at hnil
    exact (List.append_eq_nil_iff.mp hnil).2
  cases t with
  | serve =>
    obtain ⟨c₁, hserve, -⟩ := leads_bind_pure.mp (leads_of_path hturn)
    have hserves := h.ledger.rests.services h.ledger.held hserve
    show acknowledgements (events es) = ([events es].map serviced).filter _ ∧ _
    generalize events es = evs at hserves
    cases hserves with
    | empty =>
      refine ⟨rfl, ?_⟩
      intro before word after hsplit
      cases before with
      | nil => cases hsplit
      | cons ev before => cases (List.append_eq_nil_iff.mp (List.cons.inj hsplit).2.symm).2
    | @status word later hword hlater =>
      have hserviced : serviced (.status word :: .acknowledged word :: later) = ⟨word⟩ := rfl
      have hfull : (InterruptStatus.mk word).isEmpty = false := beq_eq_false_iff_ne.mpr hword
      refine ⟨?_, ?_⟩
      · show ⟨word⟩ :: acknowledgements later = _
        rw [hlater, List.map_singleton, hserviced, List.filter_singleton, hfull]
        rfl
      · intro before started after hsplit
        -- the first two events are no start
        rcases before with _ | ⟨_, _ | ⟨_, before⟩⟩
        · cases hsplit
        · cases hsplit
        · have hrest : later = before ++ .started started :: after :=
            (List.cons.inj (List.cons.inj hsplit).2).2
          rw [hrest, acknowledgements_append] at hlater
          exact (List.append_eq_nil_iff.mp hlater).2
  | submit command callback token =>
    obtain ⟨_, out, _, henqueue, h₁, hevs⟩ := leads_bind.mp (leads_of_path hturn)
    have hnil : acknowledgements (events es) = [] := by
      have hlast : acknowledgements _ = [] := (Controller.only_of_enqueue henqueue).acknowledgements
      cases out with
      | ok result =>
        obtain ⟨rfl, -⟩ := leads_done.mp h₁
        rw [hevs, List.append_nil, hlast]
      | error err =>
        obtain ⟨rfl, -⟩ := leads_done.mp h₁
        rw [hevs, List.append_nil, hlast]
    exact ⟨hnil, hnone hnil⟩
  | _ =>
    have hnil := (Controller.leads_turn_aside rfl (leads_of_path hturn)).acknowledgements
    exact ⟨hnil, hnone hnil⟩

end Reached

section Splits

variable {first second before after : List Event} {word word' : UInt32}

/-- A start is found in the part that has starts. -/
theorem started_left (hnone : starts second = [])
    (h : first ++ second = before ++ .started word :: after) :
    ∃ after', first = before ++ .started word :: after' ∧ after = after' ++ second := by
  rcases List.append_eq_append_iff.mp h with ⟨gap, -, hsecond⟩ | ⟨gap, hfirst, hafter⟩
  · rw [hsecond, starts_append] at hnone
    cases (List.append_eq_nil_iff.mp hnone).2
  · cases gap with
    | nil =>
      rw [List.nil_append] at hafter
      rw [← hafter] at hnone
      cases hnone
    | cons ev gap =>
      obtain ⟨rfl, hrest⟩ := List.cons.inj hafter
      exact ⟨gap, hfirst, hrest⟩

/-- A start is the last one, or it is found before the last one. -/
theorem started_last (hnone : starts second = [])
    (h : first ++ .started word :: second = before ++ .started word' :: after) :
    (first = before ∧ word = word' ∧ second = after) ∨
      ∃ after', first = before ++ .started word' :: after' ∧
        after = after' ++ .started word :: second := by
  rcases List.append_eq_append_iff.mp h with ⟨gap, hbefore, hsecond⟩ | ⟨gap, hfirst, hafter⟩
  · cases gap with
    | nil =>
      obtain ⟨hword, hrest⟩ := List.cons.inj hsecond
      rw [List.append_nil] at hbefore
      exact .inl ⟨hbefore.symm, Event.started.inj hword, hrest⟩
    | cons ev gap =>
      have hrest : second = gap ++ .started word' :: after := (List.cons.inj hsecond).2
      rw [hrest, starts_append] at hnone
      cases (List.append_eq_nil_iff.mp hnone).2
  · cases gap with
    | nil =>
      obtain ⟨hword, hrest⟩ := List.cons.inj hafter
      rw [List.append_nil] at hfirst
      exact .inl ⟨hfirst, (Event.started.inj hword).symm, hrest.symm⟩
    | cons ev gap =>
      obtain ⟨rfl, hrest⟩ := List.cons.inj hafter
      exact .inr ⟨gap, hfirst, hrest⟩

/-- The place of an only start. -/
theorem exists_started {evs : List Event} (h : starts evs = [word]) :
    ∃ before after, evs = before ++ .started word :: after ∧ starts before = [] ∧
      starts after = [] := by
  obtain ⟨before, ev, after, hsplit, hbefore, hev, hafter⟩ := List.filterMap_eq_cons_iff.mp h
  have hstarted : ev = .started word := by
    cases ev with
    | started word' => rw [Option.some.inj hev]
    | _ => cases hev
  subst hstarted
  exact ⟨before, after, hsplit, List.filterMap_eq_nil_iff.mpr hbefore, hafter⟩

end Splits

namespace Reached

variable {ts : List Record} {c c' : Controller} {t : Turn} {ticket : Option Ticket}
  {es : List Exchange}

/-- A turn without a start, or the start of a turn. -/
theorem starts_turn (h : Reached ts c) (hturn : Path (c.turn t) es (ticket, c')) :
    SdHost.starts (events es) = [] ∨ ∃ before word after,
      events es = before ++ .started word :: after ∧ SdHost.starts before = [] ∧
        SdHost.starts after = [] := by
  obtain ⟨fresh, rest, -, hfresh, -⟩ := h.wires hturn
  cases fresh with
  | none => exact .inl hfresh.starts
  | some s =>
    obtain ⟨before, after, hsplit⟩ := exists_started hfresh.starts
    exact .inr ⟨before, _, after, hsplit⟩

/-- The statuses since the last start are those of the flight. -/
theorem acknowledgements_flight (h : Reached ts c) : ∀ before word after,
    history ts = before ++ .started word :: after → SdHost.starts after = [] →
      acknowledgements after = ((flight ts).map serviced).filter (fun s => !s.isEmpty) := by
  induction h using Reached.induct with
  | opened hopen =>
    intro before word after hsplit
    cases (List.append_eq_nil_iff.mp hsplit.symm).2
  | @turn ts c c' t ticket es h hturn ih =>
    intro before word after hsplit hafter
    obtain ⟨hacks, hlast⟩ := h.acknowledgements_turn hturn
    rw [history_concat] at hsplit
    rw [flight_concat]
    show _ = (List.map _ (if SdHost.starts (events es) = [] then _ else _)).filter _
    rcases h.starts_turn hturn with hnone | ⟨first, started, second, hevents, hfirst, hsecond⟩
    · obtain ⟨after', hhistory, rfl⟩ := started_left hnone hsplit
      rw [starts_append] at hafter
      rw [if_pos hnone, acknowledgements_append,
        ih before word after' hhistory (List.append_eq_nil_iff.mp hafter).1, List.map_append,
        List.filter_append, ← hacks]
    · have hsome : SdHost.starts (events es) ≠ [] := by
        rw [hevents, starts_append]
        exact fun habs => by cases (List.append_eq_nil_iff.mp habs).2
      rw [if_neg hsome]
      rw [show Record.events ⟨t, ticket, es⟩ = events es from rfl, hevents,
        ← List.append_assoc] at hsplit
      rcases started_last hsecond hsplit with ⟨-, -, rfl⟩ | ⟨after', -, rfl⟩
      · rw [hlast first started second hevents]
        rfl
      · rw [starts_append] at hafter
        cases (List.append_eq_nil_iff.mp hafter).2

/-- The submission that was put on the wire by the last start. -/
theorem getLast?_onWire (h : Reached ts c) {before after : List Event} {word : UInt32}
    (hsplit : history ts = before ++ .started word :: after) (hafter : SdHost.starts after = []) :
    ∃ s, (onWire ts).getLast? = some s ∧ (onWire ts)[(SdHost.starts before).length]? = some s := by
  have hstarts := congrArg List.length h.starts
  rw [hsplit, starts_append, List.length_append, List.length_map] at hstarts
  have hone : SdHost.starts (.started word :: after) = [word] := by
    show word :: SdHost.starts after = _
    rw [hafter]
  rw [hone, List.length_singleton] at hstarts
  have hplace : (onWire ts).length - 1 = (SdHost.starts before).length := by omega
  have hlt : (SdHost.starts before).length < (onWire ts).length := by omega
  refine ⟨(onWire ts)[(SdHost.starts before).length], ?_, List.getElem?_eq_getElem hlt⟩
  rw [List.getLast?_eq_getElem?, hplace, List.getElem?_eq_getElem hlt]

/-- **Between two starts** the command of the first has ended by a status serviced in between. -/
theorem finished_between (h : Reached ts c) : ∀ before first between second after,
    history ts = before ++ .started first :: (between ++ .started second :: after) →
      SdHost.starts between = [] →
      ∃ s, (onWire ts)[(SdHost.starts before).length]? = some s ∧
        outcome s.command.data.isSome (acknowledgements between) ≠ none := by
  induction h using Reached.induct with
  | opened hopen =>
    intro before first between second after hsplit
    cases (List.append_eq_nil_iff.mp hsplit.symm).2
  | @turn ts c c' t ticket es h hturn ih =>
    intro before first between second after hsplit hbetween
    obtain ⟨hacks, hlast⟩ := h.acknowledgements_turn hturn
    obtain ⟨fresh, -, -, -, hwire, -⟩ := h.wires hturn
    rw [history_concat, show Record.events ⟨t, ticket, es⟩ = events es from rfl,
      show before ++ .started first :: (between ++ .started second :: after) =
        (before ++ .started first :: between) ++ .started second :: after by simp] at hsplit
    -- a pair that was there before the turn
    have hold : ∀ after', history ts =
        (before ++ .started first :: between) ++ .started second :: after' →
        ∃ s, (onWire (ts ++ [⟨t, ticket, es⟩]))[(SdHost.starts before).length]? = some s ∧
          outcome s.command.data.isSome (acknowledgements between) ≠ none := by
      intro after' hhistory
      obtain ⟨s, hs, hended⟩ := ih before first between second after' (by simpa using hhistory)
        hbetween
      refine ⟨s, ?_, hended⟩
      rw [hwire, List.getElem?_append_left (List.getElem?_eq_some_iff.mp hs).1, hs]
    rcases h.starts_turn hturn with hnone | ⟨left, started, right, hevents, hleft, hright⟩
    · obtain ⟨after', hhistory, -⟩ := started_left hnone hsplit
      exact hold after' hhistory
    · rw [hevents, ← List.append_assoc] at hsplit
      rcases started_last hright hsplit with ⟨hbefore, -, -⟩ | ⟨after', hbefore, -⟩
      · -- the second start is that of the turn
        obtain ⟨between', hhistory, rfl⟩ := started_left hleft hbefore
        rw [starts_append] at hbetween
        have hquiet := (List.append_eq_nil_iff.mp hbetween).1
        obtain ⟨s, hs, hget⟩ := h.getLast?_onWire hhistory hquiet
        refine ⟨s, ?_, ?_⟩
        · rw [hwire, List.getElem?_append_left (List.getElem?_eq_some_iff.mp hget).1, hget]
        · have hleftacks : acknowledgements left = acknowledgements (events es) := by
            rw [hevents, acknowledgements_append]
            show _ = _ ++ acknowledgements right
            rw [hlast left started right hevents, List.append_nil]
          have hsome : SdHost.starts (events es) ≠ [] := by
            rw [hevents, starts_append]
            exact fun habs => by cases (List.append_eq_nil_iff.mp habs).2
          rw [acknowledgements_append, h.acknowledgements_flight _ _ _ hhistory hquiet, hleftacks,
            hacks, ← List.filter_append, ← List.map_append]
          intro habs
          exact h.free h.ended hturn (.inl hsome) hs (outcome_filter_eq_none.mp habs)
      · obtain ⟨after'', hhistory, -⟩ := started_left hleft hbefore
        exact hold after'' hhistory

end Reached

end SdHost
