import SdHost.Command.Issue
import SdHost.Proofs.Event

/-!
# The events of starting a command

Starting a command first says what will be latched while it runs; then either the command is
started, which is the last that happens, or the lines are busy and nothing is started.

* `Command.leads_start` — the only event of a start is the start itself;
* `Command.leads_issue` — the two ways in which the whole sequence ends.
-/

namespace SdHost

open Register

theorem quiet_linesFree : Quiet linesFree :=
  quiet_bind (quiet_bind (quiet_read fun _ => rfl) fun _ => quiet_pure _) fun _ => quiet_pure _

theorem quiet_dataLineQuiet : Quiet dataLineQuiet :=
  quiet_bind (quiet_reads _ fun _ => rfl) fun _ => quiet_pure _

namespace Command

theorem quiet_programData (version : SpecVersion) (direction : Direction) (d : DataPhase) :
    Quiet (programData version direction d) := by
  refine quiet_bind (quiet_modify _ (fun _ => rfl) fun _ => rfl) fun _ => ?_
  refine quiet_bind (quiet_write _ rfl) fun _ => ?_
  refine quiet_bind (quiet_write _ rfl) fun _ => ?_
  -- the address is programmed for the DMA engine only, the mixer where it has a register
  cases d.buffer with
  | dma address =>
    exact quiet_bind (quiet_write _ rfl) fun _ =>
      quiet_ite _ (quiet_write _ rfl) (quiet_pure _)
  | words id contents => exact quiet_ite _ (quiet_write _ rfl) (quiet_pure _)

/-- The only event of a start is the start itself. -/
theorem leads_start {platform : Platform} {version : SpecVersion} {c : Command}
    {evs : List Event} {u : Unit} (h : Leads (c.start platform version) evs u) :
    evs = [.started (c.transferWord version)] := by
  obtain ⟨_, _, _, hd, h₁, rfl⟩ := leads_bind.mp h
  obtain ⟨_, _, _, hr, h₂, rfl⟩ := leads_bind.mp h₁
  obtain ⟨_, _, _, ha, h₃, rfl⟩ := leads_bind.mp h₂
  rw [quiet_delay _ hd, quiet_report _ hr, quiet_write _ rfl ha]
  split at h₃
  · obtain ⟨_, _, _, hp, hw, rfl⟩ := leads_bind.mp h₃
    rw [quiet_programData _ _ _ hp, leads_write.mp hw]
    rfl
  · rw [leads_write.mp h₃]
    rfl

/-- Waiting for the lines has no event, and busy lines are its only failure. -/
theorem leads_awaitLines {spinLimit : Nat} {c : Command} {evs : List Event}
    {r : Except CommandError Unit} (h : Leads (c.awaitLines spinLimit).run evs r) :
    evs = [] ∧ (r = .ok () ∨ r = .error .controllerBusy) := by
  rcases leads_run_bind.mp h with ⟨_, free, _, hw, h₁, rfl⟩ | ⟨e, hw, _⟩
  · rw [quiet_run_waitFor _ (quiet_run_lift quiet_linesFree) hw]
    cases free with
    | false =>
      obtain ⟨rfl, rfl⟩ := leads_report_throw h₁
      exact ⟨rfl, .inr rfl⟩
    | true =>
      rcases leads_run_bind.mp h₁ with ⟨_, quiet, _, hw, h₂, rfl⟩ | ⟨e, hw, _⟩
      · rw [quiet_run_waitFor _ (quiet_run_lift quiet_dataLineQuiet) hw]
        cases quiet with
        | false =>
          obtain ⟨_, _, _, hm, h₃, rfl⟩ := leads_run_lift_bind.mp h₂
          obtain ⟨rfl, rfl⟩ := leads_run_throw.mp h₃
          rw [quiet_report _ hm]
          exact ⟨rfl, .inr rfl⟩
        | true =>
          obtain ⟨rfl, rfl⟩ := leads_run_pure.mp h₂
          exact ⟨rfl, .inl rfl⟩
      · obtain ⟨_, habs⟩ := ok_of_leads_waitFor hw
        cases habs
  · obtain ⟨_, habs⟩ := ok_of_leads_waitFor hw
    cases habs

/-- **The two ways in which an attempt to start a command ends.**  What will be latched is said in
both; only busy lines keep a command from being started. -/
theorem leads_issue {platform : Platform} {version : SpecVersion} {spinLimit : Nat} {c : Command}
    {evs : List Event} {r : Except CommandError Nat}
    (h : Leads (c.issue platform version spinLimit).run evs r) :
    (r = .ok c.blocksToMove ∧
      evs = [.latching c.interruptMask.bits, .started (c.transferWord version)]) ∨
    (r = .error .controllerBusy ∧ evs = [.latching c.interruptMask.bits]) := by
  obtain ⟨_, _, _, hm, h₁, rfl⟩ := leads_run_lift_bind.mp h
  rw [leads_write.mp hm]
  rcases leads_run_bind.mp h₁ with ⟨_, _, _, hl, h₂, rfl⟩ | ⟨e, hl, rfl⟩
  · obtain ⟨rfl, _⟩ := leads_awaitLines hl
    obtain ⟨_, _, _, hs, h₃, rfl⟩ := leads_run_lift_bind.mp h₂
    obtain ⟨rfl, rfl⟩ := leads_run_pure.mp h₃
    rw [leads_start hs]
    exact .inl ⟨rfl, rfl⟩
  · obtain ⟨rfl, hbusy⟩ := leads_awaitLines hl
    refine .inr ⟨?_, rfl⟩
    rcases hbusy with habs | hbusy
    · cases habs
    · exact congrArg _ (Except.error.inj hbusy)

end Command

end SdHost
