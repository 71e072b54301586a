import SdHost.Controller.Memory
import SdHost.Proofs.Controller.Reset
import SdHost.Proofs.Controller.Submission

/-!
# Questions about the hardware

What can be asked without changing the controller, and what is read to answer it.

* `Query`, `Query.ask` — the questions;
* `Query.leads_ask` — asking only reads registers, none of them the data buffer.
-/

namespace SdHost

open Register

/-- What can be asked about the hardware and its surroundings without changing the controller. -/
inductive Query where
  | supportsDma
  | supportsAdma
  | supportsHighSpeed
  | largestBlock
  | drives (millivolts : UInt32)
  | cardPresent
  | cardWriteProtected
  | offeredVoltages (card : UInt32)
  | dumpRegisters
  | allocate (size : UInt64)
  | release (region : DmaRegion)
  /-- Reads a register past the driver. -/
  | register (r : Register)

/-- Asks, and drops the answer. -/
def Query.ask (c : Controller) : Query → Action Unit
  | supportsDma => do let _ ← Capabilities.supportsDma
  | supportsAdma => do let _ ← Capabilities.supportsAdma
  | supportsHighSpeed => do let _ ← Capabilities.supportsHighSpeed
  | largestBlock => do let _ ← Capabilities.largestBlock
  | drives millivolts => do let _ ← Capabilities.drives millivolts
  | cardPresent => do let _ ← SdHost.cardPresent
  | cardWriteProtected => do let _ ← SdHost.cardWriteProtected
  | offeredVoltages card => do let _ ← c.offeredVoltages card
  | dumpRegisters => Controller.dumpRegisters
  | allocate size => do let _ ← (Controller.allocateRegion size).run
  | release region => Controller.releaseRegion region
  | register r => do let _ ← r.read

theorem onlyReads_nil : OnlyReads [] := List.forall_mem_nil _

theorem OnlyReads.append {first second : List Event} (h : OnlyReads first)
    (h' : OnlyReads second) : OnlyReads (first ++ second) := by
  intro ev hev
  exact (List.mem_append.mp hev).elim (h ev) (h' ev)

/-- Reading a register has no other event than that. -/
theorem leads_read_only {r : Register} {evs : List Event} {word : UInt32}
    (h : Leads r.read evs word) : OnlyReads evs := by
  rw [leads_read.mp h]
  unfold readEvent?
  split_ifs
  · simp [OnlyReads, Event.isRead]
  · simp [OnlyReads, Event.isRead]
  · simp [OnlyReads, Event.isRead]
  · exact onlyReads_nil

theorem received_of_read {r : Register} {evs : List Event} {word : UInt32} (hr : r ≠ bufferAccess)
    (h : Leads r.read evs word) : received evs = [] := by
  rw [leads_read.mp h]
  unfold readEvent?
  rw [if_neg hr]
  split_ifs
  · rfl
  · rfl
  · rfl

/-- Every register that is put into the log is only read, and none of them is the data buffer. -/
theorem leads_dumpRegisters {evs : List Event} {u : Unit}
    (h : Leads Controller.dumpRegisters evs u) : OnlyReads evs ∧ received evs = [] := by
  have hdiagnostic : ∀ entry ∈ Register.diagnostic, entry.2 ≠ bufferAccess := by decide
  unfold Controller.dumpRegisters at h
  generalize Register.diagnostic = registers at hdiagnostic h
  induction registers generalizing evs with
  | nil =>
    obtain ⟨rfl, _⟩ := leads_done.mp h
    exact ⟨onlyReads_nil, rfl⟩
  | cons entry registers ih =>
    obtain ⟨first, _, second, hentry, hrest, rfl⟩ := leads_bind.mp h
    obtain ⟨honly, hrecv⟩ := ih (fun e he => hdiagnostic e (List.mem_cons_of_mem _ he)) hrest
    have hfirst : OnlyReads first ∧ received first = [] := by
      obtain ⟨_, kept, _, hk, h₁, rfl⟩ := leads_bind.mp hentry
      rw [quiet_keeps _ hk]
      rcases leads_ite.mp h₁ with ⟨_, h₂⟩ | ⟨_, h₂⟩
      · obtain ⟨reads, word, _, hr, hm, rfl⟩ := leads_bind.mp h₂
        rw [quiet_report _ hm, List.nil_append, List.append_nil]
        exact ⟨leads_read_only hr, received_of_read (hdiagnostic entry List.mem_cons_self) hr⟩
      · obtain ⟨rfl, _⟩ := leads_done.mp h₂
        exact ⟨onlyReads_nil, rfl⟩
    refine ⟨hfirst.1.append honly, ?_⟩
    rw [received_append, hfirst.2, hrecv]
    rfl

theorem quiet_run_allocateRegion (size : UInt64) :
    Quiet (Controller.allocateRegion size).run := by
  refine quiet_run_bind (quiet_run_lift (quiet_question fun _ => rfl)) fun answer => ?_
  cases answer with
  | none => exact quiet_run_fail _ _
  | some region =>
    refine quiet_run_ite region.startsInRange (quiet_run_pure _) ?_
    refine quiet_run_bind (quiet_run_lift (quiet_report _)) fun _ => ?_
    refine quiet_run_bind (quiet_run_lift (quiet_question fun _ => rfl)) fun _ => ?_
    exact quiet_run_throw _

/-- **Asking** only reads, and only past the driver is a word of data read. -/
theorem Query.leads_ask {c : Controller} {q : Query} {evs : List Event} {u : Unit}
    (h : Leads (q.ask c) evs u) :
    OnlyReads evs ∧ (received evs = [] ∨ ∃ r, q = .register r) := by
  have hquiet : Quiet (q.ask c) → OnlyReads evs ∧ (received evs = [] ∨ ∃ r, q = .register r) := by
    intro hq
    rw [hq h]
    exact ⟨onlyReads_nil, .inl rfl⟩
  cases q with
  | supportsDma => exact hquiet (quiet_bind (quiet_reads _ fun _ => rfl) fun _ => quiet_pure _)
  | supportsAdma => exact hquiet (quiet_bind (quiet_reads _ fun _ => rfl) fun _ => quiet_pure _)
  | supportsHighSpeed =>
    exact hquiet (quiet_bind (quiet_reads _ fun _ => rfl) fun _ => quiet_pure _)
  | largestBlock => exact hquiet (quiet_bind Controller.quiet_largestBlock fun _ => quiet_pure _)
  | drives millivolts =>
    refine hquiet (quiet_bind ?_ fun _ => quiet_pure _)
    exact quiet_bind (quiet_read fun _ => rfl) fun _ => quiet_pure _
  | cardPresent => exact hquiet (quiet_bind (quiet_reads _ fun _ => rfl) fun _ => quiet_pure _)
  | cardWriteProtected =>
    exact hquiet (quiet_bind (quiet_reads _ fun _ => rfl) fun _ => quiet_pure _)
  | offeredVoltages card =>
    refine hquiet (quiet_bind (quiet_bind ?_ fun _ => quiet_pure _) fun _ => quiet_pure _)
    exact quiet_bind (quiet_read fun _ => rfl) fun _ => quiet_pure _
  | dumpRegisters =>
    obtain ⟨honly, hrecv⟩ := leads_dumpRegisters h
    exact ⟨honly, .inl hrecv⟩
  | allocate size => exact hquiet (quiet_bind (quiet_run_allocateRegion size) fun _ => quiet_pure _)
  | release region => exact hquiet (quiet_question fun _ => rfl)
  | register r =>
    obtain ⟨_, _, _, hr, hp, rfl⟩ := leads_bind.mp h
    obtain ⟨rfl, _⟩ := leads_done.mp hp
    rw [List.append_nil]
    exact ⟨leads_read_only hr, .inr ⟨r, rfl⟩⟩

end SdHost
