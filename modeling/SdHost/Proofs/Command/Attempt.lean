import SdHost.Proofs.Command.Encoding
import SdHost.Proofs.Dialogue.Steps

/-!
# Starting a command on free lines

An attempt to start a command first waits for the lines.  Only when both waits have ended well are
the argument, the registers of the data phase and, last of all, the transfer type written.

* `Command.dataRegisters` — the registers that a data phase is programmed into, each of them once;
* `Command.Attempts` — the three ways in which an attempt goes; `attempts_of_path` — there are no
  others;
* `starts_on_free_lines` — the whole attempt, whatever is read.
-/

namespace SdHost

open Dialogue Register

/-! ### Delays -/

/-- The time that an exchange waits for. -/
def Exchange.micros? : Exchange → Option UInt32
  | ⟨.delay micros, _⟩ => some micros
  | _ => none

/-- The times that are waited for. -/
def delays (es : List Exchange) : List UInt32 := es.filterMap Exchange.micros?

theorem delays_append (first second : List Exchange) :
    delays (first ++ second) = delays first ++ delays second :=
  List.filterMap_append

namespace Command

variable {c : Command} {platform : Platform} {v : SpecVersion} {limit : Nat} {es : List Exchange}

/-! ### The registers of the data phase -/

/-- The registers that the data phase of a command is programmed into, in their order. -/
def dataRegisters (c : Command) (v : SpecVersion) : List Register :=
  match c.data with
  | some d =>
    [systemControl, blockAttributes, watermark] ++ (if d.buffer.isDma then [dmaAddress] else []) ++
      if v.hasSeparateMixer then [mixerControl] else []
  | none => []

/-- No register of the data phase is programmed twice, and the argument and the transfer type are
not among them. -/
theorem nodup_dataRegisters (c : Command) (v : SpecVersion) :
    (c.dataRegisters v).Nodup ∧ ∀ r ∈ c.dataRegisters v, r ∈ DataPhase.registers := by
  have hall : ∀ dma separate : Bool,
      let registers := [systemControl, blockAttributes, watermark] ++
        (if dma then [dmaAddress] else []) ++ if separate then [mixerControl] else []
      registers.Nodup ∧ ∀ r ∈ registers, r ∈ DataPhase.registers := by
    decide
  unfold dataRegisters
  cases c.data with
  | none => exact ⟨List.nodup_nil, List.forall_mem_nil _⟩
  | some d => exact hall d.buffer.isDma v.hasSeparateMixer

/-- What programs a data phase writes these registers; it neither waits nor looks at the lines. -/
theorem programmed_steps (c : Command) (v : SpecVersion) (old : UInt32) :
    (writes (c.programmed v old)).map Prod.fst = c.dataRegisters v ∧
      delays (c.programmed v old) = [] ∧
      ∀ e ∈ c.programmed v old, e.question ≠ .read presentState := by
  unfold programmed dataRegisters
  cases c.data with
  | none => exact ⟨rfl, rfl, List.forall_mem_nil _⟩
  | some d =>
    obtain ⟨size, blocks, buffer⟩ := d
    simp only [DataPhase.programmed]
    cases buffer <;> cases v.hasSeparateMixer <;>
      exact ⟨rfl, rfl, by simp [systemControl, presentState]⟩

/-- What starts a command: the gap is kept once and first, the argument is written before the data
phase is programmed, and the transfer type afterwards. -/
theorem started_steps (c : Command) (platform : Platform) (v : SpecVersion) (old : UInt32) :
    (∃ later, c.started platform v old = ⟨.delay platform.commandGap, ()⟩ :: later ∧
      delays later = []) ∧
    writes (c.started platform v old) = (commandArgument, c.argument) ::
      (writes (c.programmed v old) ++ [(transferType, c.transferWord v)]) ∧
    ∀ e ∈ c.started platform v old, e.question ≠ .read presentState := by
  obtain ⟨-, hdelays, hlooks⟩ := c.programmed_steps v old
  refine ⟨⟨_, rfl, ?_⟩, ?_, ?_⟩
  · show delays (c.programmed v old ++ [_]) = []
    rw [delays_append, hdelays]
    rfl
  · rw [started, writes_append]
    rfl
  · intro e he
    rcases List.mem_append.mp he with he | he
    · rcases List.mem_append.mp he with he | he
      · have hopening : e = ⟨.delay platform.commandGap, ()⟩ ∨
            e = ⟨.report (.commandStarted c.index c.argument), ()⟩ ∨
            e = ⟨.write commandArgument c.argument, ()⟩ := by simpa using he
        rcases hopening with rfl | rfl | rfl <;> exact Request.noConfusion
      · exact hlooks e he
    · obtain rfl := List.mem_singleton.mp he
      exact Request.noConfusion

/-! ### The ways of an attempt -/

/-- How an attempt to start a command goes. -/
inductive Attempts (c : Command) (platform : Platform) (v : SpecVersion) (limit : Nat) :
    List Exchange → Except CommandError Nat → Prop where
  /-- The command or data lines were held whenever they were looked at. -/
  | held {lines : List Exchange}
      (hlines : Watched presentState PresentState.free limit lines false) :
      Attempts c platform v limit (⟨.write interruptStatusEnable c.interruptMask.bits, ()⟩ ::
        (lines ++ [⟨.report (.inhibitNeverCleared c.index), ()⟩])) (.error .controllerBusy)
  /-- The lines were free, and a data line was active whenever they were looked at again. -/
  | active {lines data : List Exchange}
      (hlines : Watched presentState PresentState.free limit lines true)
      (hdata : Watched presentState PresentState.quiet limit data false) :
      Attempts c platform v limit (⟨.write interruptStatusEnable c.interruptMask.bits, ()⟩ ::
        (lines ++ (data ++ [⟨.report (.dataLineStillActive c.index), ()⟩])))
        (.error .controllerBusy)
  /-- The lines were free, no data line was active, and the command was started. -/
  | started {lines data : List Exchange} (old : UInt32)
      (hlines : Watched presentState PresentState.free limit lines true)
      (hdata : Watched presentState PresentState.quiet limit data true) :
      Attempts c platform v limit (⟨.write interruptStatusEnable c.interruptMask.bits, ()⟩ ::
        (lines ++ (data ++ c.started platform v old))) (.ok c.blocksToMove)

/-- The two waits, up to the first that fails. -/
theorem follows_awaitLines (c : Command) (limit : Nat) :
    Follows (c.awaitLines limit) (InOrder
      [Waited presentState PresentState.free limit (.inhibitNeverCleared c.index) .controllerBusy,
        Waited presentState PresentState.quiet limit (.dataLineStillActive c.index)
          .controllerBusy]) := by
  refine follows_wait_bind (sees_run_lift sees_linesFree) ?_
  exact follows_one (follows_wait (sees_run_lift sees_dataLineQuiet))

/-- **The ways of an attempt** are those three. -/
theorem attempts_of_path {out : Except CommandError Nat}
    (h : Path (c.issue platform v limit).run es out) : Attempts c platform v limit es out := by
  obtain ⟨_, _, _, hmask, h₁, rfl⟩ := path_run_lift_bind.mp h
  obtain rfl := path_write hmask
  rcases path_run_bind.mp h₁ with ⟨looks, _, _, hlooks, h₂, rfl⟩ | ⟨e, hlooks, rfl⟩
  · obtain ⟨_, _, _, hstart, hend, rfl⟩ := path_run_lift_bind.mp h₂
    obtain ⟨rfl, rfl⟩ := path_run_pure.mp hend
    obtain ⟨old, rfl⟩ := path_start hstart
    obtain ⟨lines, _, rfl, hlines, hrest⟩ := (c.follows_awaitLines limit hlooks).cons_ok
    obtain ⟨data, _, rfl, hdata, hnone⟩ := hrest.cons_ok
    obtain rfl := hnone.nil_ok
    cases hlines with
    | came hlines =>
      cases hdata with
      | came hdata =>
        simpa using Attempts.started old hlines hdata
  · cases c.follows_awaitLines limit hlooks with
    | failed hlines =>
      cases hlines with
      | never hlines => exact .held hlines
    | made hlines hrest =>
      cases hlines with
      | came hlines =>
        cases hrest with
        | failed hdata =>
          cases hdata with
          | never hdata => exact .active hlines hdata
        | made _ hnone => cases hnone

end Command

open Command in
/-- **A command starts only on free lines**, and its transfer type is written last.  Whatever is
read, the lines are watched until they are free and then until no data line is active; a wait that
sees nothing is the only failure, and then nothing but the event mask is written.  Otherwise the gap
between commands follows, and then the argument, the registers of the data phase and the transfer
type are written, each once and in this order. -/
theorem starts_on_free_lines {c : Command} {platform : Platform} {v : SpecVersion} {limit : Nat}
    {es : List Exchange} {out : Except CommandError Nat}
    (h : Path (c.issue platform v limit).run es out) :
    ∃ lines free data quiet rest,
      es = ⟨.write interruptStatusEnable c.interruptMask.bits, ()⟩ :: (lines ++ (data ++ rest)) ∧
      Watched presentState PresentState.free limit lines free ∧
      (free = true → Watched presentState PresentState.quiet limit data quiet) ∧
      (free = false → data = [] ∧ quiet = false) ∧
      (∀ e ∈ rest, e.question ≠ .read presentState) ∧
      (out = .error .controllerBusy ↔ free = false ∨ quiet = false) ∧
      (out = .error .controllerBusy →
        writes es = [(interruptStatusEnable, c.interruptMask.bits)]) ∧
      (out ≠ .error .controllerBusy → out = .ok c.blocksToMove ∧
        (∃ later, rest = ⟨.delay platform.commandGap, ()⟩ :: later ∧ delays later = []) ∧
        ∃ programmed, writes es = (interruptStatusEnable, c.interruptMask.bits) ::
            (commandArgument, c.argument) :: (programmed ++ [(transferType, c.transferWord v)]) ∧
          programmed.map Prod.fst = c.dataRegisters v ∧ (c.dataRegisters v).Nodup ∧
          ∀ r ∈ c.dataRegisters v, r ∈ DataPhase.registers) := by
  cases attempts_of_path h with
  | @held lines hlines =>
    refine ⟨lines, false, [], false, _, rfl, hlines, nofun, fun _ => ⟨rfl, rfl⟩, ?_,
      ⟨fun _ => .inl rfl, fun _ => rfl⟩, fun _ => ?_, fun hne => absurd rfl hne⟩
    · simp
    · exact congrArg (List.cons _) (unwritten_append hlines.writes rfl)
  | @active lines data hlines hdata =>
    refine ⟨lines, true, data, false, _, rfl, hlines, fun _ => hdata, nofun, ?_,
      ⟨fun _ => .inr rfl, fun _ => rfl⟩, fun _ => ?_, fun hne => absurd rfl hne⟩
    · simp
    · exact congrArg (List.cons _)
        (unwritten_append hlines.writes (unwritten_append hdata.writes rfl))
  | @started lines data old hlines hdata =>
    obtain ⟨hgap, hwritten, hlooks⟩ := c.started_steps platform v old
    obtain ⟨hregisters, -⟩ := c.programmed_steps v old
    have hwrites : writes (lines ++ (data ++ c.started platform v old)) =
        (commandArgument, c.argument) ::
          (writes (c.programmed v old) ++ [(transferType, c.transferWord v)]) := by
      rw [writes_append, writes_append, hlines.writes, hdata.writes, hwritten]
      rfl
    exact ⟨lines, true, data, true, _, rfl, hlines, fun _ => hdata, nofun, hlooks,
      ⟨nofun, by simp⟩, nofun, fun _ => ⟨rfl, hgap, _, congrArg (List.cons _) hwrites,
        hregisters, c.nodup_dataRegisters v⟩⟩

/-- A read of two blocks, at whose start the lines are held when they are looked at first. -/
theorem starts_on_free_lines_read :
    ∃ es, Path (Command.twoBlockRead.issue .imx6 .v1 2).run es (.ok 2) ∧
      (writes es).map Prod.fst = [interruptStatusEnable, commandArgument, systemControl,
        blockAttributes, watermark, mixerControl, transferType] := by
  have hissue : Path (Command.twoBlockRead.issue .imx6 .v1 2).run _ (.ok 2) :=
    path_scripted [(presentState, 1)] rfl
  obtain ⟨_, _, _, _, _, -, -, -, -, -, -, -, hstarted⟩ := starts_on_free_lines hissue
  obtain ⟨-, -, programmed, hwrites, hregisters, -⟩ := hstarted nofun
  refine ⟨_, hissue, ?_⟩
  rw [hwrites, List.map_cons, List.map_cons, List.map_append, hregisters]
  rfl

end SdHost
