import SdHost.Proofs.Command.Issue
import SdHost.Proofs.Controller.Asks
import SdHost.Proofs.Dialogue.Looking

/-!
# What starting a command asks

A command that is started leaves the same exchanges whatever the answers, but for the looks at the
lines and the word of the system control register that is read once.

* `DataPhase.programmed`, `Command.started` — the exchanges of the data phase and of the start;
* `Command.path_start`, `Command.path_issue` — there are no others.
-/

namespace SdHost

open Dialogue Register

/-- The exchanges that program a data phase, if the system control register is read as `old`. -/
def DataPhase.programmed (d : DataPhase) (v : SpecVersion) (direction : Direction)
    (old : UInt32) : List Exchange :=
  let address : List Exchange :=
    match d.buffer with
    | .dma address => [⟨.write dmaAddress address, ()⟩]
    | .words _ _ => []
  let mixer : List Exchange :=
    if v.hasSeparateMixer then [⟨.write mixerControl (d.mixerFields direction).value, ()⟩] else []
  [⟨.read systemControl, old⟩,
    ⟨.write systemControl ((SystemControl.dataTimeout.put DataPhase.timeout).applyTo old), ()⟩,
    ⟨.write blockAttributes d.attributes.value, ()⟩,
    ⟨.write watermark (d.watermarkFields direction).value, ()⟩] ++ address ++ mixer

namespace Command

/-- The exchanges that program the data phase of a command, if it has one. -/
def programmed (c : Command) (v : SpecVersion) (old : UInt32) : List Exchange :=
  match c.data with
  | some d => d.programmed v c.direction old
  | none => []

/-- The exchanges of a start up to the transfer type, once the lines are free. -/
def prepared (c : Command) (platform : Platform) (v : SpecVersion) (old : UInt32) :
    List Exchange :=
  [⟨.delay platform.commandGap, ()⟩, ⟨.report (.commandStarted c.index c.argument), ()⟩,
    ⟨.write commandArgument c.argument, ()⟩] ++ c.programmed v old

/-- The exchanges of a start, once the lines are free. -/
def started (c : Command) (platform : Platform) (v : SpecVersion) (old : UInt32) :
    List Exchange :=
  c.prepared platform v old ++ [⟨.write transferType (c.transferWord v), ()⟩]

variable {c : Command} {v : SpecVersion} {es : List Exchange}

theorem path_write {r : Register} {value : UInt32} {u : Unit} (h : Path (r.write value) es u) :
    es = [⟨.write r value, ()⟩] :=
  path_question.mp h

theorem path_programData {direction : Direction} {d : DataPhase} {u : Unit}
    (h : Path (programData v direction d) es u) : ∃ old, es = d.programmed v direction old := by
  obtain ⟨_, _, _, hmodify, h₁, rfl⟩ := path_bind.mp h
  obtain ⟨_, _, _, hsize, h₂, rfl⟩ := path_bind.mp h₁
  obtain ⟨_, _, _, hlevel, h₃, rfl⟩ := path_bind.mp h₂
  obtain ⟨old, rfl⟩ := path_modify hmodify
  obtain rfl := path_write hsize
  obtain rfl := path_write hlevel
  have hmixer : ∀ {more : List Exchange}, Path (if v.hasSeparateMixer then
      mixerControl.write (d.mixerFields direction).value else pure ()) more () →
      more = if v.hasSeparateMixer then [⟨.write mixerControl (d.mixerFields direction).value, ()⟩]
        else [] := by
    intro more hmore
    cases hv : v.hasSeparateMixer with
    | true => exact path_write (by simpa [hv] using hmore)
    | false => simpa [hv] using hmore
  refine ⟨old, ?_⟩
  unfold DataPhase.programmed
  -- the address is programmed for the DMA engine only
  cases hbuffer : d.buffer with
  | dma address =>
    simp only [hbuffer] at h₃
    obtain ⟨_, _, _, haddress, h₄, rfl⟩ := path_bind.mp h₃
    obtain rfl := path_write haddress
    rw [hmixer h₄]
    rfl
  | words id contents =>
    simp only [hbuffer] at h₃
    rw [hmixer h₃]
    rfl

/-- **The exchanges of a start** are those. -/
theorem path_start {platform : Platform} {u : Unit} (h : Path (c.start platform v) es u) :
    ∃ old, es = c.started platform v old := by
  obtain ⟨_, _, _, hdelay, h₁, rfl⟩ := path_bind.mp h
  obtain ⟨_, _, _, hreport, h₂, rfl⟩ := path_bind.mp h₁
  obtain ⟨_, _, _, hargument, h₃, rfl⟩ := path_bind.mp h₂
  obtain rfl := path_question.mp hdelay
  obtain rfl := path_question.mp hreport
  obtain rfl := path_write hargument
  unfold started prepared programmed
  cases hdata : c.data with
  | none =>
    simp only [hdata] at h₃
    obtain rfl := path_write h₃
    exact ⟨0, rfl⟩
  | some d =>
    simp only [hdata] at h₃
    obtain ⟨_, _, _, hprogram, hstart, rfl⟩ := path_bind.mp h₃
    obtain ⟨old, rfl⟩ := path_programData hprogram
    obtain rfl := path_write hstart
    exact ⟨old, by simp⟩

/-- **A command that was started** was announced by what is latched while it runs, then the lines
were looked at, and then it was started. -/
theorem path_issue {platform : Platform} {spinLimit n : Nat}
    (h : Path (c.issue platform v spinLimit).run es (.ok n)) :
    n = c.blocksToMove ∧ ∃ looks old,
      Path (c.awaitLines spinLimit).run looks (.ok ()) ∧
      es = ⟨.write interruptStatusEnable c.interruptMask.bits, ()⟩ ::
        looks ++ c.started platform v old := by
  obtain ⟨_, _, _, hmask, h₁, rfl⟩ := path_run_lift_bind.mp h
  obtain rfl := path_write hmask
  rcases path_run_bind.mp h₁ with ⟨looks, _, _, hlooks, h₂, rfl⟩ | ⟨e, _, habs⟩
  · obtain ⟨_, _, _, hstart, h₃, rfl⟩ := path_run_lift_bind.mp h₂
    obtain ⟨rfl, hn⟩ := path_run_pure.mp h₃
    obtain ⟨old, rfl⟩ := path_start hstart
    refine ⟨Except.ok.inj hn, looks, old, hlooks, ?_⟩
    rw [List.append_nil]
    rfl
  · cases habs

end Command

end SdHost
