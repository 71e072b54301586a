import SdHost.Proofs.Turn.Flight

/-!
# The outcome of a command

How a command ends, and when, is decided by the statuses that are serviced while it is on the wire,
and by nothing else; so is its response.

* `outcome_of_statuses` — the outcome of the command on the wire, over any further turns;
* `Controller.path_handleInterrupt_idle` — a status that finds no command.
-/

namespace SdHost

open Register InterruptStatus
open Dialogue (Path Always path_bind path_ask path_done always_pure always_question always_bind
  always_ite)

/-- The exchange reads the status, acknowledges it, or offers a report to the log. -/
def Acknowledges (word : UInt32) : Exchange → Prop
  | ⟨.read r, answer⟩ => r = interruptStatus ∧ answer = word
  | ⟨.write r value, _⟩ => r = interruptStatus ∧ value = word
  | ⟨.report _, _⟩ => True
  | _ => False

theorem always_reportInformational (word : UInt32) (status : InterruptStatus) :
    Always (Acknowledges word) (Controller.reportInformational status) := by
  have hreport : ∀ m, Always (Acknowledges word) (report m) :=
    fun m => always_question fun _ => trivial
  exact always_ite _ (always_pure _) (always_bind (hreport _) fun _ =>
    always_ite _ (hreport _) (always_pure _))

/-- **A status that finds no command** is acknowledged, and nothing else changes. -/
theorem Controller.path_handleInterrupt_idle {c c' : Controller} {es : List Exchange}
    (hidle : c.isIdle = true) (h : Path c.handleInterrupt es c') :
    c' = c ∧ ∃ word, ∀ x ∈ es, Acknowledges word x := by
  have hq : c.queue.entries = [] := List.isEmpty_iff.mp hidle
  refine ⟨(leads_handleInterrupt_idle hq (leads_of_path h)).1, ?_⟩
  obtain ⟨first, status, second, hstatus, hrest, rfl⟩ := path_bind.mp h
  obtain ⟨word, rest, rfl, hword⟩ := path_ask.mp hstatus
  obtain ⟨rfl, rfl⟩ := path_done.mp hword
  have hreport : ∀ m, Always (Acknowledges word) (report m) :=
    fun m => always_question fun _ => trivial
  have hserve : ∀ status, Always (Acknowledges word) (c.serve status) := by
    intro status
    have hhead := Queue.head?_of_nil hq
    unfold Controller.serve
    simp only [hhead]
    exact always_ite _ (always_bind (hreport _) fun _ => always_pure _) (always_pure _)
  have hafter : ∀ x ∈ second, Acknowledges word x := by
    refine always_ite (P := Acknowledges word) _ (always_pure c) ?_ hrest
    refine always_bind (always_question fun _ => ⟨rfl, rfl⟩) fun _ => ?_
    exact always_bind (always_reportInformational _ _) fun _ => hserve _
  refine ⟨word, ?_⟩
  intro x hx
  rcases List.mem_cons.mp hx with rfl | hx
  · exact ⟨rfl, rfl⟩
  · exact hafter x hx

/-- What the controller holds first, if it is on the wire. -/
theorem Ledger.head {A D : List Entry} {ps : List Pass} {ms : List UInt32} {c : Controller}
    {head : Entry} (h : Ledger A D ps ms c) (hhead : c.queue.head? = some head) :
    ∃ s rest, A.drop D.length = s :: rest ∧ A[D.length]? = some s ∧ head = s.inFlight ps ∧
      c.Rests ps ms (s :: rest) ∧ ∀ e ∈ s :: rest, e.Submitted := by
  have hrests := h.rests
  cases hdrop : A.drop D.length with
  | nil =>
    rw [hdrop] at hrests
    cases hrests with
    | idle hq hb =>
      cases (Queue.head?_of_nil hq).symm.trans hhead
  | cons s rest =>
    rw [hdrop] at hrests
    have hget : A[D.length]? = some s := by
      rw [← List.head?_drop, hdrop]
      rfl
    have hsub : ∀ e ∈ s :: rest, e.Submitted := by
      rw [← hdrop]
      exact h.held
    refine ⟨s, rest, rfl, hget, ?_, hrests, hsub⟩
    cases hrests with
    | onWire hq hb ha hm =>
      exact Option.some.inj (hhead.symm.trans (Queue.head?_of_cons hq))

/-- **The outcome of a command** is a function of the statuses that are serviced while it is on the
wire.  The first status that ends it decides when and how; its response is what was read on the last
status up to then that reported one.  On each such status the registers that are asked for are read,
and on no other status is a response register read. -/
theorem outcome_of_statuses {ts us : List Record} {c c' : Controller} (h : Reached ts c)
    (hu : Turns c us c') :
    (∀ head, c.queue.head? = some head → head.issued = true →
      ∃ s, (accepted ts)[(returned ts).length]? = some s ∧ head = s.inFlight (flight ts) ∧
        (returned us).head?.map
            (fun d => (d.1.ticket, d.1.command.completion, d.1.command.response)) =
          ((s.command.outcome (flight ts ++ passes us)).map fun (n, v) =>
            (s.ticket, v, s.command.responseAfter ((flight ts ++ passes us).take n))) ∧
        (∀ p ∈ s.command.flown (flight ts ++ passes us), s.command.Hears p) ∧
        ∀ d, (returned us).head? = some d →
          s.command.Responds (s.command.flown (flight ts ++ passes us)) d.1.command.response) ∧
    (c.isIdle = true → ∀ es c₁, Path c.handleInterrupt es c₁ →
      c₁ = c ∧ ∃ word, ∀ x ∈ es, Acknowledges word x) := by
  refine ⟨?_, fun hidle es c₁ hpath => c.path_handleInterrupt_idle hidle hpath⟩
  intro head hhead _
  obtain ⟨s, rest, -, hget, hflight, hrests, hsub⟩ := h.ledger.head hhead
  rw [List.length_map] at hget
  refine ⟨s, hget, hflight, ?_⟩
  rcases Turns.flight hrests hsub hu with
    ⟨hrests', hnone, -⟩ | ⟨qs, more, v, e, route, hsplit, hlands, hreturned⟩
  · cases hrests' with
    | onWire hq hb ha hm =>
      rw [hnone, ha.running, Command.flown_of_none ha.running]
      refine ⟨rfl, ha.heard, fun d hd => ?_⟩
      cases hd
  · have hresponds := Command.responds_responseAfter hlands.heard
    obtain ⟨commandDone, dataDone, rfl⟩ := hlands.entry
    rw [hreturned, hsplit, Command.flown_append hlands.outcome,
      Command.outcome_append_of_some hlands.outcome]
    refine ⟨?_, hlands.heard, fun d hd => ?_⟩
    · simp only [Option.map_some, List.take_left']
      rfl
    · obtain rfl := Option.some.inj hd
      exact hresponds

/-- A read of two blocks ends with its second pass; its response is that of the first. -/
theorem outcome_of_statuses_reading :
    ∃ ts us c c', Reached ts c ∧ Turns c us c' ∧
      (returned us).head?.map
          (fun d => (d.1.ticket, d.1.command.completion, d.1.command.response)) =
        some (0, .succeeded, { word0 := 0x900 }) := by
  refine ⟨_, _, _, _, reached_reading, turns_reading, ?_⟩
  have hhead : Controller.reading.queue.head? =
      some ((Entry.submission .twoBlockRead none 0 0).inFlight []) := by decide +kernel
  obtain ⟨s, hs, -, houtcome, -⟩ :=
    (outcome_of_statuses reached_reading turns_reading).1 _ hhead rfl
  obtain rfl : Entry.submission .twoBlockRead none 0 0 = s := Option.some.inj hs
  rw [houtcome]
  decide +kernel

end SdHost
