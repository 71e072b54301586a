import SdHost.Command.Issue
import SdHost.Proofs.Register.Reading

/-!
# Where the transfer mode goes

Version 1 of a controller has a register for the transfer mode, the mixer control; in later versions
the mode rides in the transfer type.  It fits there, beside everything else that the transfer type
says, so no version is told less than another.

* `DataPhase.mixerFields_shared` — the mode fits;
* `Command.transferFields_apart`, `Command.transferWord_shared` — it is read back from the word;
* `Command.transferWord_later` — the word of a later version has the mode and the word of version 1;
* `DataPhase.program`, `Command.programData_eq` — what every version programs for a data phase.
-/

namespace SdHost

open Register

/-! ### The mode and the rest of the word -/

/-- **The transfer mode fits** into the low half of the transfer type, whatever the data phase. -/
theorem DataPhase.mixerFields_shared (d : DataPhase) (direction : Direction) :
    (d.mixerFields direction).value &&& MixerControl.sharedMask =
      (d.mixerFields direction).value := by
  unfold mixerFields
  generalize decide (d.blocks > 1) = several
  generalize d.buffer.isDma = dma
  cases direction <;> cases several <;> cases dma <;> rfl

namespace Command

/-- What else is in the transfer type keeps clear of the transfer mode. -/
theorem transferFields_apart (c : Command) :
    c.transferFields.value &&& MixerControl.sharedMask = 0 := by
  have hindex := TransferType.commandIndex.value_put_apart c.index.toUInt32
    (show _ &&& MixerControl.sharedMask = 0 by decide)
  have hrest : (TransferType.normalCommand + c.responseKind.fields +
      TransferType.dataPresent.flag c.data.isSome).value &&& MixerControl.sharedMask = 0 := by
    cases c.responseKind <;> cases c.data.isSome <;> decide
  unfold transferFields
  simp only [FieldValue.value_add, UInt32.or_assoc] at hrest ⊢
  rw [or_and, hindex, hrest]
  rfl

/-- **No bit of the mode is lost** in the word of a later version: it is read back from there. -/
theorem transferWord_shared {v : SpecVersion} (hv : v.hasSeparateMixer = false) {c : Command}
    {d : DataPhase} (hd : c.data = some d) :
    c.transferWord v &&& MixerControl.sharedMask = (d.mixerFields c.direction).value := by
  have hmode : c.sharedMixerBits v = (d.mixerFields c.direction).value := by
    unfold sharedMixerBits
    simp only [hd, hv, Bool.false_eq_true, if_false, d.mixerFields_shared]
  rw [transferWord, or_and, c.transferFields_apart, hmode, d.mixerFields_shared, UInt32.zero_or]

/-! ### The word of a later version -/

/-- The mode rides in the word of a later version where version 1 has a register for it. -/
theorem transferWord_later {v v' : SpecVersion} (hv : v.hasSeparateMixer = true)
    (hv' : v'.hasSeparateMixer = false) {c : Command} {d : DataPhase} (hd : c.data = some d) :
    c.transferWord v' = c.transferWord v ||| (d.mixerFields c.direction).value := by
  unfold transferWord sharedMixerBits
  simp only [hd, hv, hv', if_true, Bool.false_eq_true, if_false, d.mixerFields_shared,
    UInt32.or_zero]

/-- A command without data is started by the same word by every version. -/
theorem transferWord_no_data (v v' : SpecVersion) {c : Command} (hd : c.data = none) :
    c.transferWord v' = c.transferWord v := by
  unfold transferWord sharedMixerBits
  simp only [hd]

end Command

/-! ### What every version programs -/

/-- What is programmed for a data phase by every version. -/
def DataPhase.program (d : DataPhase) (direction : Direction) : Action Unit := do
  Register.modify (SystemControl.dataTimeout.put DataPhase.timeout)
  blockAttributes.write d.attributes.value
  Register.watermark.write (d.watermarkFields direction).value
  if let .dma address := d.buffer then
    dmaAddress.write address

theorem Command.programData_eq (v : SpecVersion) (direction : Direction) (d : DataPhase) :
    programData v direction d = d.program direction >>= fun _ =>
      if v.hasSeparateMixer then mixerControl.write (d.mixerFields direction).value
      else pure () := by
  unfold programData DataPhase.program
  simp only [bind_assoc]
  cases d.buffer <;> rfl

end SdHost
