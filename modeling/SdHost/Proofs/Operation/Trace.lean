import Mathlib.Data.List.Induction
import SdHost.Proofs.Operation.Delivery

/-!
# Runs as turns

A run of calls is a sequence of turns, with the same submissions and the same deliveries; so what
holds of every reached controller holds after every call.

* `Run.Traced`, `Run.trace` — the turns of a run;
* `Run.handsBack` — the deliveries of each call of a run;
* `Run.pending` — a command that has not ended carries no errors.
-/

namespace SdHost

open Dialogue (Path)

variable {steps before after : List Step} {st : Step} {c : Controller}

/-- The turns of a run. -/
structure Run.Traced (steps : List Step) (c : Controller) (ts : List Record) : Prop where
  reached : Reached ts c
  accepted : (accepted ts).map Entry.submitted = submissions steps
  returned : returned ts = deliveries steps
  events : ts.flatMap Record.events = steps.flatMap Step.events
  desk : c.desk = .clear

/-- One more call is some more turns. -/
theorem Run.Traced.operates {ts us : List Record} {c' : Controller} (h : Run.Traced steps c ts)
    (hop : Operates ts c st us c') : Run.Traced (steps ++ [st]) c' (ts ++ us) := by
  refine ⟨h.reached.append hop.turns, ?_, ?_, ?_, hop.desk⟩
  · rw [accepted_append, List.map_append, h.accepted, hop.accepted, submissions_concat]
  · rw [returned_append, h.returned, hop.returned, deliveries_concat]
  · rw [List.flatMap_append, h.events, hop.events, List.flatMap_append, List.flatMap_singleton]

theorem Run.Traced.masks {ts : List Record} (h : Run.Traced steps c ts) :
    SdHost.masks ts = latched (steps.flatMap Step.events) := by
  rw [masks_eq, h.events]

namespace Run

/-- **Every run** is a sequence of turns. -/
theorem trace (h : Run steps c) : ∃ ts, Traced steps c ts := by
  induction h with
  | @takenOver platform irqs config es c hopen =>
    obtain ⟨-, -, hwaiting, hfinished⟩ := Controller.leads_takeOver (leads_of_path hopen)
    refine ⟨[], ⟨platform, irqs, config, es, c, hopen, .nil⟩, rfl, rfl, rfl, ?_⟩
    rw [Controller.desk, hwaiting, hfinished]
    rfl
  | step _ _ hstep ih =>
    obtain ⟨ts, htraced⟩ := ih
    obtain ⟨us, hop⟩ := htraced.reached.operate htraced.desk hstep
    exact ⟨ts ++ us, htraced.operates hop⟩

/-- The last call of a run. -/
theorem last (h : Run (steps ++ [st]) c) : ∃ c₀ budget, Run steps c₀ ∧
    (∀ s, st.operation.submission? = some s →
      s.command.Obtainable ((deliveries steps).map fun d => d.1.command)) ∧
    Path (c₀.operate budget st.operation) st.exchanges (some st.outcome, c) := by
  generalize hall : steps ++ [st] = all at h
  cases h with
  | takenOver hopen => exact absurd hall (by simp)
  | @step steps' c₀ _ operation budget outcome es h hcommand hstep =>
    obtain ⟨rfl, hst⟩ := List.append_inj' hall rfl
    obtain rfl := List.singleton_inj.mp hst
    exact ⟨c₀, budget, h, hcommand, hstep⟩

/-- The beginning of a run is a run. -/
theorem beginning (h : Run (before ++ after) c) : ∃ c₀, Run before c₀ := by
  induction after using List.reverseRecOn generalizing c with
  | nil =>
    rw [List.append_nil] at h
    exact ⟨c, h⟩
  | append_singleton after st ih =>
    rw [← List.append_assoc] at h
    obtain ⟨c₀, _, h₀, -⟩ := h.last
    exact ih h₀

/-- **Each call of a run** hands back as it must. -/
theorem handsBack (h : Run (before ++ st :: after) c) :
    HandsBack (submissions before).length (deliveries before).length st := by
  rw [List.append_cons] at h
  obtain ⟨c₁, h₁⟩ := h.beginning
  obtain ⟨c₀, budget, h₀, -, hstep⟩ := h₁.last
  obtain ⟨ts, htraced⟩ := h₀.trace
  obtain ⟨us, hop⟩ := htraced.reached.operate htraced.desk hstep
  rw [← htraced.accepted, List.length_map, ← htraced.returned]
  exact hop.handsBack

end Run

/-! ### Commands that have not ended -/

/-- What was handed back has ended. -/
theorem Entry.Ends.completion {s e : Entry} (h : s.Ends e) : e.command.completion ≠ .pending := by
  cases h with
  | refused =>
    intro habs
    cases habs
  | @landed e ps v hlands =>
    have hended : v ≠ .pending := outcome_ne_pending hlands.outcome
    obtain ⟨commandDone, dataDone, rfl⟩ := hlands.entry
    exact hended

/-- A command that has not ended carries no errors, if that holds of those that came back. -/
theorem Command.Obtainable.errors {back : List Command} {command : Command}
    (hback : ∀ c ∈ back, c.completion ≠ .pending) (h : command.Obtainable back)
    (hpending : command.completion = .pending) : command.errors = .empty := by
  induction h with
  | new index argument kind => rfl
  | back hmem => exact absurd hpending (hback _ hmem)
  | reset _ _ => rfl
  | edit index argument kind data response _ ih => exact ih hpending

/-- A command that is submitted next carries no errors: what came back has ended, so it cannot be
submitted again as it is. -/
theorem Run.errors_next (h : Run steps c) {command : Command}
    (hcommand : command.Obtainable ((deliveries steps).map fun d => d.1.command))
    (hpending : command.completion = .pending) : command.errors = .empty := by
  refine hcommand.errors ?_ hpending
  intro command hcommand
  obtain ⟨d, hd, rfl⟩ := List.mem_map.mp hcommand
  obtain ⟨ts, htraced⟩ := h.trace
  rw [← htraced.returned] at hd
  obtain ⟨i, hi⟩ := List.mem_iff_getElem?.mp hd
  obtain ⟨-, s, -, -, hends⟩ := htraced.reached.came hi
  exact hends.completion

/-- **No submission** of a run carries errors. -/
theorem Run.errors (h : Run steps c) : ∀ s ∈ submissions steps, s.command.completion = .pending →
    s.command.errors = .empty := by
  induction h with
  | takenOver _ => exact List.forall_mem_nil _
  | @step steps c c' operation budget outcome es h hcommand hstep ih =>
    intro s hs hpending
    rw [submissions_concat] at hs
    rcases List.mem_append.mp hs with hs | hs
    · exact ih s hs hpending
    · have hsubmission : operation.submission? = some s :=
        Step.submission?_operation (Option.mem_toList.mp hs)
      exact h.errors_next (hcommand s hsubmission) hpending

end SdHost
