import SdHost.Proofs.Controller.Acceptance
import SdHost.Proofs.Operation.Logging

/-!
# Submissions are all or nothing

A submission is accepted, or the controller is as before and the command comes back as it is.  All
that a refused submission leaves behind is a look at what the hardware can do and a report, so
whatever is called afterwards comes to the same as without it.

* `Unaware` — surroundings in which such a look and a report make no difference;
* `Unaware.run_eq`, `Unaware.same_of_asks` — a dialogue in states that make no difference, and one
  that ends in such a state;
* `unaware_logged` — hardware with a logger is unaware, if it is not changed by the look;
* `Controller.operate_refused` — what a call comes to whose submission is refused;
* `submission_all_or_nothing` — the two together.
-/

namespace SdHost

open Dialogue Dialogue.Coupling Register Request Controller

variable {σ α : Type} {reply : Surroundings Answer σ} {same : σ → σ → Prop} {x y : σ}

/-! ### What a look and a report leave behind -/

/-- In states that are the same, everything is answered alike, also from then on; and a look at what
the hardware can do, or a report, leads to a state that is the same. -/
structure Unaware (reply : Surroundings Answer σ) (same : σ → σ → Prop) : Prop where
  refl : ∀ x, same x x
  inspected : ∀ q x y, q.ofInspection → same x y → same (reply q x).2 y
  answers : ∀ q x y, same x y → (reply q x).1 = (reply q y).1
  states : ∀ q x y, same x y → same (reply q x).2 (reply q y).2

namespace Unaware

theorem indifferent (h : Unaware reply same) (q : Request) :
    (besideItself reply same).Indifferent q := by
  intro x y hxy
  have hanswer : (reply q x).1 = (reply q y).1 := h.answers q x y hxy
  refine ⟨hanswer, h.states q x y hxy, ?_⟩
  show [(⟨q, (reply q x).1⟩ : Exchange)] = [⟨q, (reply q y).1⟩]
  rw [hanswer]

/-- **A dialogue in states that are the same** comes to the same, by the same exchanges. -/
theorem run_eq (h : Unaware reply same) (d : Action α) (hxy : same x y) :
    (run reply d x).1 = (run reply d y).1 ∧ exchanges reply d x = exchanges reply d y := by
  have hasks : Asks (besideItself reply same).Indifferent d :=
    fun _ _ _ e _ => h.indifferent e.question
  obtain ⟨hresult, -, htraces⟩ := agree_of_asks hasks hxy
  exact ⟨hresult, htraces⟩

/-- A dialogue that only looks and reports ends in a state that is the same. -/
theorem same_of_asks (h : Unaware reply same) {d : Action α} (hasks : Asks ofInspection d)
    (hxy : same x y) : same (run reply d x).2 y := by
  induction d generalizing x with
  | done a => exact hxy
  | ask q k ih =>
    have hq : q.ofInspection := hasks.question reply x
    exact ih _ (hasks.next _) (h.inspected q x y hq hxy)

end Unaware

/-- **Hardware with a logger** is unaware, if a look at what it can do does not change it: all that
is left are lines in the log. -/
theorem unaware_logged (hlook : ∀ s, (reply (.read capabilities) s).2 = s) :
    Unaware (logged reply) fun a b => a.1 = b.1 ∧ a.2.verbosity = b.2.verbosity := by
  refine ⟨fun _ => ⟨rfl, rfl⟩, ?_, ?_, ?_⟩
  · rintro q ⟨s, l⟩ ⟨s', l'⟩ hq ⟨hs, hl⟩
    cases q with
    | read r =>
      obtain rfl : r = capabilities := hq
      exact ⟨(hlook s).trans hs, hl⟩
    | report m => exact ⟨hs, (verbosity_log l _).trans hl⟩
    | _ => exact hq.elim
  · rintro q ⟨s, l⟩ ⟨s', l'⟩ ⟨hs, hl⟩
    obtain rfl : s = s' := hs
    cases q with
    | keeps level => exact congrArg (·.admits level) hl
    | _ => rfl
  · rintro q ⟨s, l⟩ ⟨s', l'⟩ ⟨hs, hl⟩
    obtain rfl : s = s' := hs
    cases q with
    | report m => exact ⟨rfl, (verbosity_log l _).trans (hl.trans (verbosity_log l' _).symm)⟩
    | _ => exact ⟨rfl, hl⟩

/-! ### Calls that are refused -/

namespace Controller

variable {c : Controller} {op : Operation} {s : Submission} {err : SubmitError} {x' : σ}

/-- **A call whose submission is refused** says so, leaves the controller as it is, and does nothing
else. -/
theorem operate_refused (budget : Nat) (hop : op.submission? = some s)
    (h : run reply (c.enqueue s.command s.callback s.token).run x = (.error err, x')) :
    run reply (c.operate budget op) x = ((some (.submitted (.error err)), c), x') ∧
      exchanges reply (c.operate budget op) x =
        exchanges reply (c.enqueue s.command s.callback s.token).run x := by
  cases op with
  | send command =>
    obtain rfl := Option.some.inj hop
    simp only [operate, send, run_bind, exchanges_bind, h]
    exact ⟨rfl, by simp [exchanges]⟩
  | sendAsync command callback token =>
    obtain rfl := Option.some.inj hop
    simp only [operate, sendAsync, run_bind, exchanges_bind, h]
    exact ⟨rfl, by simp [exchanges]⟩
  | submit command callback token =>
    cases callback with
    | some handler =>
      obtain rfl := Option.some.inj hop
      simp only [operate, submit, sendAsync, run_bind, exchanges_bind, h]
      exact ⟨rfl, by simp [exchanges]⟩
    | none =>
      obtain rfl := Option.some.inj hop
      simp only [operate, submit, send, run_bind, exchanges_bind, h]
      exact ⟨rfl, by simp [exchanges]⟩
  | _ => cases hop

end Controller

/-- **Submissions are all or nothing.**  Whatever the controller and the hardware, a command is
accepted just if it has not ended, its data phase is one that the hardware says it can carry out and
fewer than eight commands are queued; then it joins the queue under the next ticket.  Any other
submission, by whichever call, is refused for the first of these reasons with the command as it is,
and the controller is as before: no register was written and nothing was handed back, there was at
most a look at what the hardware can do and a report.  Where these make no difference, all later
calls come to the same as without it. -/
theorem submission_all_or_nothing (reply : Surroundings Answer σ) (budget : Nat) (c : Controller)
    {op : Operation} {s : Submission} (hop : op.submission? = some s) (x : σ) :
    let word := (reply (.read capabilities) x).1
    let made := run reply (c.operate budget op) x
    ((∃ r, (run reply (c.enqueue s.command s.callback s.token).run x).1 = .ok r) ↔
      c.Accepts word s.command) ∧
    (c.Accepts word s.command → ∃ ticket c',
      (run reply (c.enqueue s.command s.callback s.token).run x).1 = .ok (ticket, c') ∧
      c.Joins (.submission s.command s.callback s.token ticket)
        (exchanges reply (c.enqueue s.command s.callback s.token).run x) c') ∧
    (¬c.Accepts word s.command → ∃ err, c.Refuses word s.command err ∧
      made.1 = (some (.submitted (.error err)), c) ∧
      (∀ e ∈ exchanges reply (c.operate budget op) x, e.question.ofInspection) ∧
      ∀ same, Unaware reply same → ∀ calls,
        (run reply (c.callAll budget calls) made.2).1 =
          (run reply (c.callAll budget calls) x).1 ∧
        exchanges reply (c.callAll budget calls) made.2 =
          exchanges reply (c.callAll budget calls) x) := by
  intro word made
  refine ⟨accepts_iff_enqueue rfl s.callback s.token,
    fun haccepts => haccepts.enqueue rfl s.callback s.token, fun hnot => ?_⟩
  obtain ⟨err, hrefuses⟩ := refuses_of_not_accepts hnot
  obtain ⟨henqueue, hlook⟩ := hrefuses.enqueue rfl s.callback s.token
  obtain ⟨hmade, hexchanges⟩ := operate_refused budget hop henqueue
  have hasks := asks_inspect s.command
  refine ⟨err, hrefuses, congrArg Prod.fst hmade, ?_, ?_⟩
  · rw [hexchanges, hlook]
    exact fun e he => hasks (path_run reply _ x) e he
  · intro same hunaware calls
    have hend : made.2 = (run reply (inspect s.command) x).2 := congrArg Prod.snd hmade
    apply hunaware.run_eq
    rw [hend]
    exact hunaware.same_of_asks hasks (hunaware.refl x)

/-- A blocking read of blocks that are not whole words, at a controller that was just taken over and
with everything logged: it is refused, the command comes back as it is, and whatever is called
afterwards comes to the same. -/
theorem submission_all_or_nothing_halves :
    let command : Command := { Command.twoBlockRead with data := some ⟨6, 1, .words 0 [0, 0]⟩ }
    let hardware := logged Bench.RegisterFile.answer
    let begun := (Bench.RegisterFile.initial, { verbosity := .upTo .trace : Log.Logger })
    let made := run hardware (Controller.rested.operate 2 (.send command)) begun
    Unaware hardware (fun a b => a.1 = b.1 ∧ a.2.verbosity = b.2.verbosity) ∧
    ¬Controller.rested.Accepts 0x05420000 command ∧
    made.1 = (some (.submitted (.error (.invalidData command))), Controller.rested) ∧
    ∀ calls, (run hardware (Controller.rested.callAll 2 calls) made.2).1 =
      (run hardware (Controller.rested.callAll 2 calls) begun).1 := by
  intro command hardware begun made
  have hunaware : Unaware hardware fun a b => a.1 = b.1 ∧ a.2.verbosity = b.2.verbosity :=
    unaware_logged fun _ => rfl
  have hnot : ¬Controller.rested.Accepts 0x05420000 command := by
    intro haccepts
    exact absurd (haccepts.data _ rfl).whole (by decide)
  have hop : (Operation.send command).submission? = some ⟨command, none, 0⟩ := rfl
  obtain ⟨-, -, hrefused⟩ := submission_all_or_nothing hardware 2 Controller.rested hop begun
  obtain ⟨err, hrefuses, hmade, -, hlater⟩ := hrefused hnot
  cases hrefuses with
  | notReset hended => exact absurd rfl hended
  | invalidData _ _ => exact ⟨hunaware, hnot, hmade, fun calls => (hlater _ hunaware calls).1⟩
  | queueFull _ hdata _ => exact absurd (hdata _ rfl).whole (by decide)

end SdHost
