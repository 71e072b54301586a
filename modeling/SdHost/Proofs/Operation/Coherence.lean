import SdHost.Proofs.Operation.Parking
import SdHost.Proofs.Operation.Wire
import SdHost.Proofs.Turn.Coherence

/-!
# Coherent outcomes

Whatever is said about how a command ended is said of one ending: by its completion handler's
verdict, by the command, by its number and by what a blocking submission comes back with; and the
errors a command carries are those that made it fail.

* `Run.coherent`, `Controller.Polls.coherent` — every command that a run hands back, also while its
  last call is still polling;
* `Run.outcome_of_parked` — what a blocking submission comes back with;
* `Run.starts_of_busy` — nothing was started for a command that came back busy;
* `outcome_coherent` — the whole of it, for every run.
-/

namespace SdHost

open Dialogue (Path)

variable {steps : List Step} {c : Controller}

namespace Run

/-- No submission carries errors. -/
theorem Traced.errors {ts : List Record} (htraced : Traced steps c ts) (h : Run steps c) :
    ∀ s ∈ SdHost.accepted ts, s.command.errors = .empty := by
  intro s hs
  have hmem : s.submitted ∈ submissions steps := by
    rw [← htraced.accepted]
    exact List.mem_map_of_mem hs
  exact h.errors s.submitted hmem (htraced.reached.ledger.submitted s hs).pending

/-- **Every command that a run hands back** is coherent. -/
theorem coherent (h : Run steps c) {before after : List Event} {e : Entry} {route : Route}
    (hsplit : chronicle steps = before ++ .handedBack e route :: after) :
    e.command.Coherent (acknowledgements before).getLast? := by
  obtain ⟨ts, htraced⟩ := h.trace
  have hhistory : history ts = chronicle steps := htraced.events
  exact htraced.reached.coherent (htraced.errors h) (hhistory.trans hsplit)

/-- **What a blocking submission comes back with** is its own command, as the ending says. -/
theorem outcome_of_parked {before after : List Step} {st : Step} {e : Entry}
    (h : Run (before ++ st :: after) c) (hmem : (e, Route.parked) ∈ st.deliveries) :
    st.outcome = .submitted ((Controller.resultOf e.command).map some) := by
  obtain ⟨first, later, hsplit⟩ := List.append_of_mem hmem
  exact (h.parked hsplit).2.2.2

/-- A blocking submission comes back in no other way, unless it gives up. -/
theorem parked_or_gaveUp {before after : List Step} {st : Step} {s : Submission}
    (h : Run (before ++ st :: after) c) (hs : st.submission? = some s)
    (hblocking : s.callback = none) :
    (∃ e, (e, Route.parked) ∈ st.deliveries) ∨
      ∃ ticket, st.outcome = .submitted (.error (.timeout ticket)) := by
  cases h.handsBack with
  | away hnone _ => exact absurd hblocking (hnone s hs)
  | @returned first e hsplit _ _ _ _ =>
    refine .inl ⟨e, ?_⟩
    rw [hsplit]
    exact List.mem_append_right _ List.mem_cons_self
  | gaveUp _ _ houtcome => exact .inr ⟨_, houtcome⟩

/-- **For a command that came back busy** nothing was started. -/
theorem starts_of_busy (h : Run steps c) {i : Nat} {d : Entry × Route}
    (hget : (deliveries steps)[i]? = some d) (hbusy : d.1.isBusy = true) :
    SdHost.starts (chronicle steps) =
      (wired ((submissions steps).eraseIdx i) (((deliveries steps).map Prod.fst).eraseIdx i)).map
        fun s => s.command.transferWord c.version := by
  have hback : ((deliveries steps).map Prod.fst)[i]? = some d.1 := by
    rw [List.getElem?_map, hget]
    rfl
  rw [wired_eraseIdx hback hbusy]
  exact h.starts

end Run

/-! ### While a call is polling -/

/-- The poll loop of a blocking submission, as turns. -/
theorem Controller.Polls.record {c head : Controller} {command : Command} {ticket : Ticket}
    {polls : Nat} {es : List Exchange} (h : c.Polls command ticket polls es head) :
    ∃ us, Turns c us head ∧ history us = events es ∧
      SdHost.accepted us = [.submission command none 0 ticket] := by
  induction h with
  | @accepted es c₁ henqueue =>
    exact ⟨_, turns_accepted (s := ⟨command, none, 0⟩) henqueue, List.append_nil _, rfl⟩
  | @polled polls es more c₁ c₂ _ _ hserve ih =>
    obtain ⟨us, hturns, hhistory, haccepted⟩ := ih
    refine ⟨us ++ [⟨.serve, none, more⟩], hturns.snoc (path_turn_serve hserve), ?_, ?_⟩
    · rw [history_concat, hhistory, events_append]
      rfl
    · rw [accepted_concat, haccepted]
      rfl

/-- **Every command that is handed back while a call is polling** is coherent. -/
theorem Run.coherent_polls (h : Run steps c) {head : Controller} {command : Command}
    {ticket : Ticket} {polls : Nat} {es : List Exchange}
    (hcommand : command.Obtainable ((deliveries steps).map fun d => d.1.command))
    (hpolls : c.Polls command ticket polls es head) {before after : List Event} {e : Entry}
    {route : Route}
    (hsplit : chronicle steps ++ events es = before ++ .handedBack e route :: after) :
    e.command.Coherent (acknowledgements before).getLast? := by
  obtain ⟨ts, htraced⟩ := h.trace
  obtain ⟨us, hturns, hlater, haccepted⟩ := hpolls.record
  have hreached := htraced.reached.append hturns
  have hhistory : history (ts ++ us) = chronicle steps ++ events es := by
    have hevents : history ts = chronicle steps := htraced.events
    rw [← hevents, ← hlater]
    exact List.flatMap_append
  refine hreached.coherent ?_ (hhistory.trans hsplit)
  intro s hs
  rw [accepted_append, haccepted] at hs
  rcases List.mem_append.mp hs with hs | hs
  · exact htraced.errors h s hs
  · obtain rfl := List.mem_singleton.mp hs
    have hsubmitted := hreached.ledger.submitted (.submission command none 0 ticket) (by
      rw [accepted_append, haccepted]
      exact List.mem_append_right _ List.mem_cons_self)
    exact h.errors_next hcommand hsubmitted.pending

/-! ### The whole of it -/

/-- **Outcomes are coherent** in every run.  Every command that is handed back has ended, everyone
is told the same, and its errors are those that made it fail; so it is while the last call is still
polling.  A call that parks a command comes back with it as its ending says, and a blocking call
comes back in no other way, unless it gives up.  And for a command that came back busy nothing was
started: what was started are the transfer types of the others. -/
theorem outcome_coherent (h : Run steps c) :
    (∀ before e route after, chronicle steps = before ++ .handedBack e route :: after →
      e.command.Coherent (acknowledgements before).getLast?) ∧
    (∀ command ticket polls es head,
      command.Obtainable ((deliveries steps).map fun d => d.1.command) →
      c.Polls command ticket polls es head →
      ∀ before e route after,
        chronicle steps ++ events es = before ++ .handedBack e route :: after →
        e.command.Coherent (acknowledgements before).getLast?) ∧
    (∀ before st after, steps = before ++ st :: after →
      (∀ e, (e, .parked) ∈ st.deliveries →
        st.outcome = .submitted ((Controller.resultOf e.command).map some)) ∧
      ∀ s, st.submission? = some s → s.callback = none →
        (∃ e, (e, .parked) ∈ st.deliveries) ∨
        ∃ ticket, st.outcome = .submitted (.error (.timeout ticket))) ∧
    ∀ i d, (deliveries steps)[i]? = some d → d.1.isBusy = true →
      starts (chronicle steps) =
        (wired ((submissions steps).eraseIdx i) (((deliveries steps).map Prod.fst).eraseIdx i)).map
          fun s => s.command.transferWord c.version := by
  refine ⟨?_, ?_, ?_, ?_⟩
  · intro before e route after hsplit
    exact h.coherent hsplit
  · intro command ticket polls es head hcommand hpolls before e route after hsplit
    exact h.coherent_polls hcommand hpolls hsplit
  · rintro before st after rfl
    exact ⟨fun e hmem => h.outcome_of_parked hmem, fun s hs => h.parked_or_gaveUp hs⟩
  · intro i d hget hbusy
    exact h.starts_of_busy hget hbusy

/-- Of three commands the first finds the lines busy, the second fails with a wrong checksum, and
the third, a blocking one, succeeds. -/
theorem outcome_coherent_three :
    ∃ steps c, Run steps c ∧
      (deliveries steps).map (fun d => (d.1.command.completion, d.1.command.errors, d.2)) =
        [(.failed .controllerBusy, .empty, .callback ⟨3⟩),
          (.failed .commandCrc, ⟨0x28000⟩, .callback ⟨4⟩), (.succeeded, .empty, .parked)] ∧
      (∀ before e route after, chronicle steps = before ++ .handedBack e route :: after →
        e.command.Coherent (acknowledgements before).getLast?) ∧
      (starts (chronicle steps)).length = 2 ∧
      starts (chronicle steps) =
        (wired ((submissions steps).eraseIdx 0) (((deliveries steps).map Prod.fst).eraseIdx 0)).map
          fun s => s.command.transferWord c.version := by
  have hbusy := run_rested.scripted (.sendAsync (Command.new 0 0 .none) ⟨3⟩ 5) [(.presentState, 1)]
    (fun s hs => by obtain rfl := Option.some.inj hs; exact .new 0 0 .none) rfl
  have hread := hbusy.scripted (.sendAsync .twoBlockRead ⟨4⟩ 6) []
    (fun s hs => by obtain rfl := Option.some.inj hs; exact obtainable_twoBlockRead _) rfl
  have hfailed := hread.scripted .handleInterrupt [(.interruptStatus, 0x28001)]
    (fun _ hs => by cases hs) rfl
  have hsent := hfailed.scripted (.send (Command.new 13 0 .r1)) [(.interruptStatus, 0x1)]
    (fun s hs => by obtain rfl := Option.some.inj hs; exact .new 13 0 .r1) rfl
  obtain ⟨hcoherent, -, -, hwire⟩ := outcome_coherent hsent
  refine ⟨_, _, hsent, by decide +kernel, hcoherent, by decide +kernel, ?_⟩
  exact hwire 0 _ rfl (by decide +kernel)

end SdHost
