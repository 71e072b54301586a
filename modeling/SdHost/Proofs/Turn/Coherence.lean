import SdHost.Proofs.Dialogue.Looking
import SdHost.Proofs.Turn.Wire

/-!
# Endings and errors

A command that comes back has ended, and everyone who is told how is told the same.  If it failed on
the wire, the errors it carries are those of the status that was acknowledged last, and they name
the same failure as that status.

* `Command.Tells` — one ending, as it is told to a completion handler, by the command itself, as a
  number and to a blocking submitter;
* `Command.Coherent` — the ending and the errors of a command, against the status that ended it;
* `Controller.Rests.finishes` — how one turn ends what it hands back;
* `Reached.coherent` — every command that came back, over any turns.
-/

namespace SdHost

open InterruptStatus
open Dialogue (Path)

/-- A status that reports a failure has a bit. -/
theorem InterruptStatus.ne_empty_of_classify {s : InterruptStatus} {cause : CommandError}
    (h : s.classify = some cause) : s ≠ .empty := by
  have hempty : InterruptStatus.empty.classify = none := by decide
  rintro rfl
  cases hempty.symm.trans h

/-! ### How an ending is told -/

/-- The number of an ending: one for success, else that of the cause. -/
def verdictNumber : Except CommandError Unit → Int
  | .ok () => 1
  | .error cause => cause.code

namespace Command

/-- An ending, as it is told to everyone who is told of it. -/
structure Tells (c : Command) (verdict : Except CommandError Unit) : Prop where
  /-- A completion handler is given it. -/
  handler : c.completion.verdict = verdict
  /-- The command carries it. -/
  result : c.completion.result = some verdict
  /-- It has a number. -/
  code : c.completion.code = verdictNumber verdict
  /-- A blocking submitter gets its command back, as a failed one if it failed. -/
  submitter : Controller.resultOf c = (verdict.map fun _ => c).mapError fun _ => .failed c

theorem tells_succeeded {c : Command} (h : c.completion = .succeeded) : c.Tells (.ok ()) := by
  refine ⟨?_, ?_, ?_, ?_⟩
  · rw [h]
    rfl
  · rw [h]
    rfl
  · rw [h]
    rfl
  · rw [Controller.resultOf, h]
    rfl

theorem tells_failed {c : Command} {cause : CommandError} (h : c.completion = .failed cause) :
    c.Tells (.error cause) := by
  refine ⟨?_, ?_, ?_, ?_⟩
  · rw [h]
    rfl
  · rw [h]
    rfl
  · rw [h]
    rfl
  · rw [Controller.resultOf, h]
    rfl

/-- The ending of a command that came back and the errors it carries.  `last` is the status that was
acknowledged last by then, if any was. -/
structure Coherent (c : Command) (last : Option InterruptStatus) : Prop where
  /-- It has ended. -/
  ended : c.completion ≠ .pending
  /-- Everyone is told the same. -/
  told : ∃ verdict, c.Tells verdict
  /-- Success leaves no errors. -/
  succeeded : c.completion = .succeeded → c.errors = .empty
  /-- Nor do busy lines. -/
  busy : c.completion = .failed .controllerBusy → c.errors = .empty
  /-- Any other failure leaves the errors of the status that ended it, which name the failure. -/
  failed : ∀ cause, c.completion = .failed cause → cause ≠ .controllerBusy →
    ∃ status, last = some status ∧ c.errors = status &&& (InterruptStatus.errors ||| cardRemoval) ∧
      c.errors ≠ .empty ∧ c.errors.classify = some cause

/-- A command that was refused. -/
theorem coherent_refused {c : Command} (h : c.errors = .empty) (last : Option InterruptStatus) :
    (c.fail .controllerBusy).Coherent last := by
  refine ⟨?_, ⟨_, tells_failed rfl⟩, ?_, fun _ => h, ?_⟩
  · intro habs
    cases habs
  · intro habs
    cases habs
  · intro cause hcause hbusy
    obtain rfl := Completion.failed.inj hcause
    exact absurd rfl hbusy

/-- A command that ended on the wire. -/
theorem coherent_landed {c : Command} {ps : List Pass} {p : Pass} {v : Completion}
    (herrors : c.errors = .empty) (hbefore : c.outcome ps = none)
    (hended : c.outcome (ps ++ [p]) = some ((ps ++ [p]).length, v)) :
    (c.landed (ps ++ [p]) v).Coherent (some (serviced p)) := by
  have hcompletion : (c.landed (ps ++ [p]) v).completion = v := rfl
  have hlast : SdHost.endsAt c.data.isSome (ps.map serviced ++ [serviced p]) = some v := by
    unfold Command.outcome at hbefore hended
    rw [List.map_append, List.map_singleton, outcome_concat_of_none hbefore] at hended
    obtain ⟨v', hv', hpair⟩ := Option.map_eq_some_iff.mp hended
    rw [hv', (Prod.mk.inj hpair).2]
  cases hclass : (serviced p).classify with
  | none =>
    rw [endsAt_concat_of_clean hclass] at hlast
    obtain rfl : .succeeded = v := Option.some.inj (Option.ite_none_right_eq_some.mp hlast).2
    refine ⟨?_, ⟨_, tells_succeeded hcompletion⟩, fun _ => herrors, ?_, ?_⟩
    · rw [hcompletion]
      exact fun habs => by cases habs
    · intro habs
      cases habs
    · intro cause habs
      cases habs
  | some cause =>
    rw [endsAt_concat_of_error hclass] at hlast
    obtain rfl : .failed cause = v := Option.some.inj hlast
    have hcarried : (c.landed (ps ++ [p]) (.failed cause)).errors =
        serviced p &&& (InterruptStatus.errors ||| cardRemoval) := by
      unfold Command.landed
      rw [List.getLast?_concat, herrors]
      exact congrArg InterruptStatus.mk UInt32.zero_or
    have hnamed : (c.landed (ps ++ [p]) (.failed cause)).errors.classify = some cause := by
      rw [hcarried, classify_restricted, hclass]
    refine ⟨?_, ⟨_, tells_failed hcompletion⟩, ?_, ?_, ?_⟩
    · rw [hcompletion]
      exact fun habs => by cases habs
    · intro habs
      cases habs
    · intro hbusy
      obtain rfl := Completion.failed.inj hbusy
      exact absurd hclass (serviced p).classify_ne_controllerBusy
    · intro cause' hcause _
      obtain rfl := Completion.failed.inj hcause
      exact ⟨_, rfl, hcarried, ne_empty_of_classify hnamed, hnamed⟩

end Command

/-! ### One turn -/

/-- How a command that was handed back came from one of the submissions: it was refused, or it ended
on the wire, by the status that was acknowledged last. -/
inductive Entry.Finishes (submissions : List Entry) (last : Option InterruptStatus) (e : Entry) :
    Prop where
  | refused {s : Entry} (hs : s ∈ submissions) (he : e = s.refused)
  | landed {s : Entry} {ps : List Pass} {p : Pass} {v : Completion} (hs : s ∈ submissions)
      (hbefore : s.command.outcome ps = none) (hlands : s.Lands (ps ++ [p]) v e)
      (hlast : last = some (serviced p))

/-- What came from some submissions came from more of them. -/
theorem Entry.Finishes.mono {submissions more : List Entry} {last : Option InterruptStatus}
    {e : Entry} (h : e.Finishes submissions last) (hmore : ∀ s ∈ submissions, s ∈ more) :
    e.Finishes more last := by
  cases h with
  | refused hs he => exact .refused (hmore _ hs) he
  | landed hs hbefore hlands hlast => exact .landed (hmore _ hs) hbefore hlands hlast

/-- A command that was handed back is among those that were. -/
theorem mem_handed {before after : List Event} {e : Entry} {route : Route} :
    (e, route) ∈ handed (before ++ .handedBack e route :: after) := by
  rw [handed_append]
  exact List.mem_append_right _ List.mem_cons_self

/-- A pass acknowledges its status before it hands anything back. -/
theorem Controller.Services.acknowledged {before after : List Event} {e : Entry} {route : Route}
    (h : Services (before ++ .handedBack e route :: after)) :
    acknowledgements before = [serviced (before ++ .handedBack e route :: after)] := by
  generalize hsplit : before ++ .handedBack e route :: after = evs at h
  cases h with
  | empty =>
    rcases before with _ | ⟨_, _ | ⟨_, before⟩⟩
    · cases hsplit
    · cases hsplit
    · cases (List.cons.inj hsplit).2
  | @status word later hword hlater =>
    -- the first two events are no hand-back
    rcases before with _ | ⟨_, _ | ⟨_, before⟩⟩
    · cases hsplit
    · cases hsplit
    · obtain ⟨rfl, hrest⟩ := List.cons.inj hsplit
      obtain ⟨rfl, rfl⟩ := List.cons.inj hrest
      change acknowledgements (before ++ _) = [] at hlater
      rw [acknowledgements_append] at hlater
      show ⟨word⟩ :: acknowledgements before = _
      rw [(List.append_eq_nil_iff.mp hlater).1]
      rfl

namespace Controller

variable {c c' : Controller} {rest : List Entry} {ps : List Pass} {masks : List UInt32}
  {before after : List Event} {e : Entry} {route : Route}

/-- What comes back from dispatching was refused. -/
theorem Dispatches.finishes {evs : List Event} (h : Dispatches c evs c')
    (hmem : (e, route) ∈ handed evs) (last : Option InterruptStatus) :
    e.Finishes c.queue.entries last := by
  obtain ⟨gone, left, hsplit, hgone, -⟩ := h.starts_eq
  have he : e ∈ gone.map Entry.refused := by
    rw [← hgone]
    exact List.mem_map_of_mem hmem
  obtain ⟨s, hs, rfl⟩ := List.mem_map.mp he
  rw [hsplit]
  exact .refused (List.mem_append_left _ hs) rfl

/-- What a pass hands back was on the wire and ended with it, or was refused. -/
theorem Rests.finishes_serve (hr : Rests c ps masks rest) (hsub : ∀ s ∈ rest, s.Submitted)
    (h : Leads c.handleInterrupt (before ++ .handedBack e route :: after) c') :
    e.Finishes rest (acknowledgements before).getLast? := by
  have hmem : (e, route) ∈ handed (before ++ .handedBack e route :: after) := mem_handed
  cases hr with
  | idle hq hb =>
    obtain ⟨-, word, hevs⟩ := leads_handleInterrupt_idle hq h
    rw [hevs, handed_idle] at hmem
    cases hmem
  | @onWire s rest hq hb ha hm =>
    have hfresh : ∀ e ∈ rest, e.Fresh := fun e he => (hsub e (List.mem_cons_of_mem _ he)).fresh
    cases leads_handleInterrupt_onWire hq hb ha hfresh h with
    | goesOn hup hc hhanded hlatched hstarts hserves =>
      rw [hhanded] at hmem
      cases hmem
    | @ends v e' later hlands hdispatches hhanded hlatched hstarts hserves hnext =>
      rw [hhanded] at hmem
      rcases List.mem_cons.mp hmem with hfirst | hmem
      · obtain ⟨rfl, rfl⟩ := Prod.mk.inj hfirst
        refine .landed List.mem_cons_self ha.running hlands ?_
        rw [hserves.acknowledged]
        rfl
      · have hpopped : (c.popped.settle e').queue.entries = rest :=
          entries_popped_settle.trans (congrArg List.tail hq)
        have hrefused := hdispatches.finishes hmem (acknowledgements before).getLast?
        rw [hpopped] at hrefused
        exact hrefused.mono fun s hs => List.mem_cons_of_mem _ hs

/-- **One turn** ends what it hands back. -/
theorem Rests.finishes {t : Turn} {ticket : Option Ticket} {es : List Exchange}
    (hr : Rests c ps masks rest) (hsub : ∀ s ∈ rest, s.Submitted)
    (h : Path (c.turn t) es (ticket, c'))
    (hsplit : events es = before ++ .handedBack e route :: after) :
    e.Finishes (rest ++ Record.accepted ⟨t, ticket, es⟩) (acknowledgements before).getLast? := by
  have hleads := leads_of_path h
  rw [hsplit] at hleads
  have hmem : (e, route) ∈ handed (before ++ .handedBack e route :: after) := mem_handed
  cases t with
  | serve =>
    obtain ⟨c₁, hserve, -⟩ := leads_bind_pure.mp hleads
    exact (hr.finishes_serve hsub hserve).mono fun s hs => List.mem_append_left _ hs
  | submit command callback token =>
    obtain ⟨evs, out, _, henqueue, h₁, hevs⟩ := leads_bind.mp hleads
    rcases leads_enqueue henqueue with ⟨err, rfl, rfl, -, -⟩ | ⟨q, c₁, hpush, -, -, rfl, hdone⟩
    · obtain ⟨rfl, -⟩ := leads_done.mp h₁
      rw [hevs] at hmem
      cases hmem
    · obtain ⟨rfl, hout⟩ := leads_done.mp h₁
      obtain ⟨rfl, rfl⟩ := Prod.mk.inj hout
      rw [hevs, List.append_nil] at hmem
      cases hempty : c.queue.isEmpty with
      | true =>
        rw [hempty, if_pos rfl] at hdone
        have hrefused := (dispatches_accepted hempty hpush hdone).finishes hmem
          (acknowledgements before).getLast?
        rw [entries_accepted hempty hpush] at hrefused
        exact hrefused.mono fun s hs => List.mem_append_right _ hs
      | false =>
        rw [hempty, if_neg Bool.false_ne_true] at hdone
        rw [hdone.1] at hmem
        cases hmem
  | _ =>
    rw [(leads_turn_aside rfl hleads).handed] at hmem
    cases hmem

end Controller

/-! ### All turns -/

namespace Reached

variable {ts : List Record} {c : Controller}

/-- Every command that came back came from one of the accepted submissions. -/
theorem finishes (h : Reached ts c) : ∀ before e route after,
    history ts = before ++ .handedBack e route :: after →
      e.Finishes (accepted ts) (acknowledgements before).getLast? := by
  induction h using Reached.induct with
  | opened hopen =>
    intro before e route after hsplit
    cases (List.append_eq_nil_iff.mp hsplit.symm).2
  | @turn ts c c' t ticket es h hturn ih =>
    intro before e route after hsplit
    rw [history_concat, show Record.events ⟨t, ticket, es⟩ = events es from rfl] at hsplit
    rw [accepted_concat]
    rcases split_append hsplit with ⟨between, hbefore, hevents⟩ | ⟨later, hhistory⟩
    · -- it was handed back in the last turn
      obtain ⟨gone, rest, hparts, -, -, hrests, hsub⟩ := h.onWire_eq
      have hmore : ∀ s ∈ rest ++ Record.accepted ⟨t, ticket, es⟩,
          s ∈ accepted ts ++ Record.accepted ⟨t, ticket, es⟩ := by
        intro s hs
        rw [hparts, List.append_assoc]
        exact List.mem_append_right _ hs
      cases (hrests.finishes hsub hturn hevents).mono hmore with
      | refused hs he => exact .refused hs he
      | landed hs hrunning hlands hlast =>
        refine .landed hs hrunning hlands ?_
        rw [hbefore, acknowledgements_append, List.getLast?_append, hlast]
        rfl
    · exact (ih before e route later hhistory).mono fun s hs => List.mem_append_left _ hs

/-- **Every command that came back** has ended, everyone is told the same, and its errors are those
of the status that ended it, if no submission carried errors. -/
theorem coherent (h : Reached ts c) (herrors : ∀ s ∈ accepted ts, s.command.errors = .empty)
    {before after : List Event} {e : Entry} {route : Route}
    (hsplit : history ts = before ++ .handedBack e route :: after) :
    e.command.Coherent (acknowledgements before).getLast? := by
  cases h.finishes before e route after hsplit with
  | @refused s hs he =>
    rw [he]
    exact Command.coherent_refused (herrors s hs) _
  | @landed s ps p v hs hbefore hlands hlast =>
    rw [hlast]
    obtain ⟨commandDone, dataDone, rfl⟩ := hlands.entry
    exact Command.coherent_landed (herrors s hs) hbefore hlands.outcome

end Reached

end SdHost
