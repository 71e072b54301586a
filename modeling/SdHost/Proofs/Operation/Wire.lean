import SdHost.Proofs.Operation.Order
import SdHost.Proofs.Turn.Wire

/-!
# One command on the wire

What is started over a run are, in their order, the accepted commands that did not come back busy,
each once; and one is started only after the one before it has ended.

* `Run.starts`, `Run.length_starts` — what was started, and how much of it;
* `Run.finished_between` — between two starts the first command has ended;
* `Reached.next_first` — the next command is started before the one that has ended is handed back;
* `one_on_wire` — the whole of it, for every run.
-/

namespace SdHost

open Dialogue (Path)

variable {steps : List Step} {c : Controller}

/-- All that has happened, call after call. -/
def chronicle (steps : List Step) : List Event := steps.flatMap Step.events

/-- The submissions that some calls have put on the wire. -/
def started (steps : List Step) : List Submission :=
  wired (submissions steps) ((deliveries steps).map Prod.fst)

namespace Run

theorem Traced.started {ts : List Record} (h : Traced steps c ts) :
    started steps = (onWire ts).map Entry.submitted := by
  rw [SdHost.started, onWire, ← wired_map, h.accepted, h.returned]

/-- **What was started** are the transfer types of the submissions that were put on the wire. -/
theorem starts (h : Run steps c) : SdHost.starts (chronicle steps) =
    (started steps).map fun s => s.command.transferWord c.version := by
  obtain ⟨ts, htraced⟩ := h.trace
  have hstarts := htraced.reached.starts
  rw [history, htraced.events] at hstarts
  rw [chronicle, hstarts, htraced.started, List.map_map]
  rfl

/-- What was accepted is handed back or queued. -/
theorem length_submissions (h : Run steps c) :
    (submissions steps).length = (deliveries steps).length + c.queue.entries.length := by
  have horders := congrArg List.length h.orders
  rwa [List.length_map, List.length_append, List.length_map, List.length_map] at horders

/-- **As many commands were started** as came back otherwise than busy, and one more while any is
queued. -/
theorem length_starts (h : Run steps c) : (SdHost.starts (chronicle steps)).length =
    (deliveries steps).countP (fun d => !d.1.isBusy) + if c.isIdle then 0 else 1 := by
  have hlength := h.length_submissions
  have hback : ((deliveries steps).map Prod.fst).length ≤ (submissions steps).length := by
    rw [List.length_map]
    omega
  rw [h.starts, List.length_map, SdHost.started, length_wired hback, List.countP_map,
    List.length_map, hlength]
  congr 1
  cases hentries : c.queue.entries with
  | nil =>
    rw [Controller.isIdle, Queue.isEmpty, hentries]
    simp
  | cons e rest =>
    rw [Controller.isIdle, Queue.isEmpty, hentries]
    simp

/-- **Between two starts** the command of the first has ended. -/
theorem finished_between (h : Run steps c) {before between after : List Event}
    {first second : UInt32}
    (hsplit : chronicle steps = before ++ .started first :: (between ++ .started second :: after))
    (hbetween : SdHost.starts between = []) :
    ∃ s, (started steps)[(SdHost.starts before).length]? = some s ∧
      outcome s.command.data.isSome (acknowledgements between) ≠ none := by
  obtain ⟨ts, htraced⟩ := h.trace
  have hhistory : history ts = chronicle steps := htraced.events
  rw [hsplit] at hhistory
  obtain ⟨s, hs, hended⟩ :=
    htraced.reached.finished_between before first between second after hhistory hbetween
  refine ⟨s.submitted, ?_, hended⟩
  rw [htraced.started, List.getElem?_map, hs]
  rfl

end Run

/-! ### The next command -/

/-- If only one command was handed back, none was after it. -/
theorem handed_after_eq_nil {before after : List Event} {e e' : Entry} {route route' : Route}
    (hone : handed (before ++ .handedBack e route :: after) = [(e', route')]) :
    handed after = [] := by
  have hlength := congrArg List.length hone
  rw [handed_append, List.length_append] at hlength
  change _ + ((handed after).length + 1) = 1 at hlength
  exact List.length_eq_zero_iff.mp (by omega)

/-- **The next command comes first.**  A pass that ends a command attempts the one behind it.
Either that one is started before the one that has ended is handed back, or it comes back as well,
because the lines were busy. -/
theorem Reached.next_first {ts : List Record} {c' : Controller} {es : List Exchange}
    {e next : Entry} {route : Route} {more : List (Entry × Route)} (h : Reached ts c)
    (hpass : Path c.handleInterrupt es c') (hhanded : handed (events es) = (e, route) :: more)
    (hnext : c.queue.entries[1]? = some next) :
    (∃ before, events es = before ++ [.handedBack e route] ∧
        SdHost.starts before = [next.command.transferWord c.version]) ∨
      ∃ route' more', more = (next.refused, route') :: more' := by
  have hheld := h.ledger.held
  have hrests := h.ledger.rests
  generalize (accepted ts).drop ((returned ts).map Prod.fst).length = rest at hheld hrests
  cases hrests with
  | idle hq hb =>
    rw [hq] at hnext
    cases hnext
  | @onWire s rest hq hb ha hm =>
    have hfresh : ∀ e ∈ rest, e.Fresh := fun e he => (hheld e (List.mem_cons_of_mem _ he)).fresh
    cases Controller.leads_handleInterrupt_onWire hq hb ha hfresh (leads_of_path hpass) with
    | goesOn hup hc hnone hlatched hstarts hserves => cases hnone.symm.trans hhanded
    | @ends v e' later hlands hdispatches hhanded' hlatched hstarts hserves hfirst =>
      obtain ⟨he, rfl⟩ := List.cons.inj (hhanded'.symm.trans hhanded)
      obtain ⟨rfl, rfl⟩ := Prod.mk.inj he
      have hpopped : (c.popped.settle e').queue.entries = rest :=
        Controller.entries_popped_settle.trans (congrArg List.tail hq)
      have hhead : rest.head? = some next := by
        rw [hq] at hnext
        rw [List.head?_eq_getElem?]
        exact hnext
      cases hdispatches with
      | rest hs =>
        rw [hpopped.symm.trans hs] at hhead
        cases hhead
      | @launch _ s' rest' hs =>
        obtain rfl : s' = next := by
          rw [hpopped.symm.trans hs] at hhead
          exact Option.some.inj hhead
        obtain ⟨before, after, hsplit, -, hlast⟩ := hfirst
        have hback : handed (events es) = [(e', c.routeOf e')] := hhanded'
        have hword : SdHost.starts (events es) = [s'.command.transferWord c.version] := by
          rw [hstarts, Controller.version_settle]
          rfl
        rw [hsplit] at hback hword
        obtain rfl := hlast (handed_after_eq_nil hback)
        rw [starts_append] at hword
        refine .inl ⟨before, hsplit, ?_⟩
        rw [← hword]
        exact (List.append_nil _).symm
      | @refuse _ _ s' rest' evs hs hrest =>
        obtain rfl : s' = next := by
          rw [hpopped.symm.trans hs] at hhead
          exact Option.some.inj hhead
        exact .inr ⟨_, _, rfl⟩

/-- **One command on the wire.**  What was started over a run are, in their order, the accepted
commands that did not come back busy.  Between two starts the command of the first has ended by the
statuses serviced in between.  As many commands were started as came back otherwise than busy, and
one more while any is queued.  And a pass that ends a command, whether it is an interrupt's or a
poll's, starts the one behind it before handing the first back, unless the lines are busy. -/
theorem one_on_wire (h : Run steps c) :
    starts (chronicle steps) = (started steps).map (fun s => s.command.transferWord c.version) ∧
    (∀ before first between second after,
      chronicle steps = before ++ .started first :: (between ++ .started second :: after) →
      starts between = [] →
      ∃ s, (started steps)[(starts before).length]? = some s ∧
        outcome s.command.data.isSome (acknowledgements between) ≠ none) ∧
    (starts (chronicle steps)).length =
      (deliveries steps).countP (fun d => !d.1.isBusy) + (if c.isIdle then 0 else 1) ∧
    ∀ ts c₁ c₂ es, Reached ts c₁ → Path c₁.handleInterrupt es c₂ →
      ∀ e route more next, handed (events es) = (e, route) :: more →
      c₁.queue.entries[1]? = some next →
      (∃ before, events es = before ++ [.handedBack e route] ∧
        starts before = [next.command.transferWord c₁.version]) ∨
      ∃ route' more', more = (next.refused, route') :: more' := by
  refine ⟨h.starts, ?_, h.length_starts, ?_⟩
  · intro before first between second after hsplit hbetween
    exact h.finished_between hsplit hbetween
  · intro ts c₁ c₂ es hreached hpass e route more next hhanded hnext
    exact hreached.next_first hpass hhanded hnext

/-- A read of two blocks, and a command behind it that is started when the read has ended. -/
theorem one_on_wire_two :
    ∃ steps c, Run steps c ∧ (started steps).length = 2 ∧ c.isIdle = false ∧
      (starts (chronicle steps)).length = 2 ∧
      (∃ before first between second after,
        chronicle steps = before ++ .started first :: (between ++ .started second :: after) ∧
        starts between = [] ∧ ∃ s, (started steps)[(starts before).length]? = some s ∧
          outcome s.command.data.isSome (acknowledgements between) ≠ none) ∧
      ∃ (c₁ c₂ : Controller) (es : List Exchange) (e next : Entry) (route : Route)
        (before : List Event),
        Path c₁.handleInterrupt es c₂ ∧
        c₁.queue.entries[1]? = some next ∧ handed (events es) = [(e, route)] ∧
        events es = before ++ [.handedBack e route] ∧
        starts before = [next.command.transferWord c₁.version] := by
  have hread := run_rested.scripted (.sendAsync .twoBlockRead ⟨3⟩ 5) []
    (fun s hs => by obtain rfl := Option.some.inj hs; exact obtainable_twoBlockRead _) rfl
  have hidle := hread.scripted (.sendAsync (Command.new 0 0 .none) ⟨4⟩ 6) []
    (fun s hs => by obtain rfl := Option.some.inj hs; exact .new 0 0 .none) rfl
  have hfirst := hidle.scripted .handleInterrupt firstPass (fun _ hs => by cases hs) rfl
  have hsecond := hfirst.scripted .handleInterrupt secondPass (fun _ hs => by cases hs) rfl
  obtain ⟨-, hbetween, -, hnext⟩ := one_on_wire hsecond
  obtain ⟨ts, htraced⟩ := hfirst.trace
  refine ⟨_, _, hsecond, by decide +kernel, by decide +kernel, by decide +kernel, ?_, ?_⟩
  · refine ⟨[.latching _], _, [.status _, .acknowledged _, .response _ _, .received _, .status _,
      .acknowledged _, .received _, .latching _], _, [.handedBack _ _], rfl, rfl, ?_⟩
    exact hbetween _ _ _ _ _ rfl rfl
  · rcases hnext ts _ _ _ htraced.reached (path_scripted secondPass rfl) _ _ [] _ rfl rfl with
      ⟨before, hsplit, hword⟩ | ⟨_, _, habs⟩
    · exact ⟨_, _, _, _, _, _, before, path_scripted secondPass rfl, rfl, rfl, hsplit, hword⟩
    · cases habs

end SdHost
