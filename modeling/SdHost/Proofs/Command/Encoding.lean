import Mathlib.Algebra.Group.Nat.Defs
import SdHost.Proofs.Command.Start
import SdHost.Proofs.Command.TransferMode
import SdHost.Proofs.Dialogue.Looking
import SdHost.Proofs.Turn

/-!
# What the registers say about a command

The registers that a command is programmed into decode to the command: at the moment it is started,
every field holds what the command says, no two fields share a bit and no number is cut off.  The
checks of a submission are what keeps the block size and the block count within their fields.

* `ResponseKind.lengthCode`, `ResponseKind.checksCrc`, `ResponseKind.checksIndex` — how the
  controller is told which response to expect;
* `DataPhase.Encoded`, `Command.Encoded` — the registers decode to a data phase, and to a command;
* `DataPhase.attributes_encoded`, `Command.kind_encoded`, … — field by field;
* `Command.written_issue` — the transfer type is written last;
* `Controller.inRange_of_enqueue` — what an accepted submission says about its data phase;
* `Command.encoded_issue`, `issue_encoded` — the registers decode to the command after its start,
  and whenever an accepted command is started.
-/

namespace SdHost

open Dialogue Register

/-! ### What the registers say -/

namespace ResponseKind

/-- The length of the response: none, 136 bits, 48 bits, or 48 bits after which the card may be
busy. -/
def lengthCode : ResponseKind → UInt32
  | none => 0
  | r2 => 1
  | r1 | r3 | r4 | r5 | r6 => 2
  | r1b | r5b => 3

/-- Whether the response has a checksum. -/
def checksCrc : ResponseKind → Bool
  | none | r3 | r4 => false
  | _ => true

/-- Whether the response names the command. -/
def checksIndex : ResponseKind → Bool
  | none | r2 | r3 | r4 => false
  | _ => true

end ResponseKind

/-- The transfer mode: a register of its own, or the low bits of the transfer type. -/
def modeWord (v : SpecVersion) (regs : Register → UInt32) : UInt32 :=
  if v.hasSeparateMixer then regs mixerControl
  else regs transferType &&& MixerControl.sharedMask

/-- The word says nothing but the transfer mode of the data phase. -/
structure DataPhase.InMode (d : DataPhase) (direction : Direction) (word : UInt32) : Prop where
  blockCountEnable : MixerControl.blockCountEnable.isSet word = true
  multiBlock : MixerControl.multiBlock.isSet word = decide (1 < d.blocks)
  readDirection : MixerControl.readDirection.isSet word = decide (direction = .read)
  dmaEnable : MixerControl.dmaEnable.isSet word = d.buffer.isDma
  other : word &&& ~~~(MixerControl.blockCountEnable.mask ||| MixerControl.multiBlock.mask |||
    MixerControl.readDirection.mask ||| MixerControl.dmaEnable.mask) = 0

/-- The field of the watermark for a direction. -/
def watermarkField : Direction → Field watermark
  | .read => Watermark.readLevel
  | .write => Watermark.writeLevel

/-- After the exchanges, the registers decode to the data phase. -/
structure DataPhase.Encoded (d : DataPhase) (v : SpecVersion) (direction : Direction)
    (es : List Exchange) (regs : Register → UInt32) : Prop where
  size : BlockAttributes.size.get (regs blockAttributes) = d.blockSize
  count : BlockAttributes.count.get (regs blockAttributes) = d.blocks
  level : (watermarkField direction).get (regs watermark) = min (d.blockSize / 4) 0x80
  levelOnly : regs watermark &&& ~~~(watermarkField direction).mask = 0
  mode : d.InMode direction (modeWord v regs)
  address : ∀ a, d.buffer = .dma a → regs dmaAddress = a
  /-- The system control register is what it was read as, but for the data timeout. -/
  timeout : ∃ old, ⟨.read systemControl, old⟩ ∈ es ∧
    SystemControl.dataTimeout.get (regs systemControl) = 0xE ∧
    regs systemControl &&& ~~~SystemControl.dataTimeout.mask =
      old &&& ~~~SystemControl.dataTimeout.mask

/-- What was done before does not matter to a data phase. -/
theorem DataPhase.Encoded.after {d : DataPhase} {v : SpecVersion} {direction : Direction}
    {es : List Exchange} {regs : Register → UInt32} (h : d.Encoded v direction es regs)
    (earlier : List Exchange) : d.Encoded v direction (earlier ++ es) regs := by
  obtain ⟨old, hread, hold⟩ := h.timeout
  exact { h with timeout := ⟨old, List.mem_append_right _ hread, hold⟩ }

/-- The registers that only a data phase is programmed into. -/
def DataPhase.registers : List Register :=
  [blockAttributes, watermark, mixerControl, dmaAddress, systemControl]

/-- After the exchanges, the registers decode to the command. -/
structure Command.Encoded (c : Command) (v : SpecVersion) (es : List Exchange)
    (regs : Register → UInt32) : Prop where
  argument : regs commandArgument = c.argument
  index : TransferType.commandIndex.get (regs transferType) = c.index.toUInt32
  kind : TransferType.commandType.get (regs transferType) = 0
  length : TransferType.responseLength.get (regs transferType) = c.responseKind.lengthCode
  crc : TransferType.crcCheck.isSet (regs transferType) = c.responseKind.checksCrc
  indexCheck : TransferType.indexCheck.isSet (regs transferType) = c.responseKind.checksIndex
  present : TransferType.dataPresent.isSet (regs transferType) = c.data.isSome
  data : ∀ d, c.data = some d → d.Encoded v c.direction es regs
  noData : c.data = none → regs transferType &&& 0xFFFF = 0 ∧
    ∀ r ∈ DataPhase.registers, ∀ w, ⟨.write r w, ()⟩ ∉ es

/-! ### The words of a data phase -/

/-- What the checks of a submission say about a data phase. -/
structure DataPhase.InRange (d : DataPhase) : Prop where
  blockSize : d.blockSize.toNat ≤ 4096
  blocks : d.blocks.toNat ≤ 0xFFFF

/-- A number that is not above a run of low bits fits into it. -/
theorem UInt32.and_eq_self_of_le {n m : UInt32} {k : Nat} (hm : m.toNat + 1 = 1 <<< k)
    (hn : n.toNat ≤ m.toNat) : n &&& m = n := by
  rw [Nat.one_shiftLeft] at hm
  have hones : m.toNat = 2 ^ k - 1 := by omega
  have hlt : n.toNat < 2 ^ k := by omega
  refine UInt32.toNat_inj.mp ?_
  rw [UInt32.toNat_and, hones, Nat.and_two_pow_sub_one_eq_mod, Nat.mod_eq_of_lt hlt]

namespace DataPhase

variable {d : DataPhase}

/-- **Block size and block count** fit into their fields. -/
theorem attributes_encoded (h : d.InRange) :
    BlockAttributes.size.get d.attributes.value = d.blockSize ∧
      BlockAttributes.count.get d.attributes.value = d.blocks := by
  have hsize : d.blockSize &&& BlockAttributes.size.ones = d.blockSize :=
    UInt32.and_eq_self_of_le (k := 13) rfl (Nat.le_trans h.blockSize (by decide))
  have hcount : d.blocks &&& BlockAttributes.count.ones = d.blocks :=
    UInt32.and_eq_self_of_le (k := 16) rfl h.blocks
  have hvalue : d.attributes.value =
      (BlockAttributes.size.put d.blockSize).value |||
        (BlockAttributes.count.put d.blocks).value := rfl
  rw [hvalue]
  constructor
  · rw [BlockAttributes.size.get_or_left (BlockAttributes.count.value_put_apart _ (by decide)),
      BlockAttributes.size.get_put hsize]
  · rw [BlockAttributes.count.get_or_right (BlockAttributes.size.value_put_apart _ (by decide)),
      BlockAttributes.count.get_put hcount]

theorem watermarkLevel_le (d : DataPhase) : d.watermarkLevel.toNat ≤ 0x80 := by
  show (if d.blockSize / 4 ≤ Watermark.maxLevel then _ else _ : UInt32).toNat ≤ _
  split
  · assumption
  · exact Nat.le_refl _

theorem watermarkFields_eq (d : DataPhase) (direction : Direction) :
    d.watermarkFields direction = (watermarkField direction).put d.watermarkLevel := by
  cases direction <;> rfl

/-- **The watermark** fits into the field of the direction, and the other field is empty. -/
theorem watermark_encoded (d : DataPhase) (direction : Direction) :
    (watermarkField direction).get (d.watermarkFields direction).value =
        min (d.blockSize / 4) 0x80 ∧
      (d.watermarkFields direction).value &&& ~~~(watermarkField direction).mask = 0 := by
  have hones : (watermarkField direction).ones.toNat = 0xFF := by
    cases direction <;> rfl
  have hfits : d.watermarkLevel.toNat ≤ (watermarkField direction).ones.toNat := by
    rw [hones]
    exact Nat.le_trans d.watermarkLevel_le (by decide)
  have hlevel := UInt32.and_eq_self_of_le (k := 8) (congrArg (· + 1) hones) hfits
  rw [watermarkFields_eq]
  refine ⟨(watermarkField direction).get_put hlevel, ?_⟩
  apply Field.value_put_apart
  cases direction <;> decide

/-- **The transfer mode** says nothing else. -/
theorem inMode_mixerFields (d : DataPhase) (direction : Direction) :
    d.InMode direction (d.mixerFields direction).value := by
  have hbits : ∀ several dma : Bool, ∀ way : Direction,
      let word := (MixerControl.blockCountEnable.set + MixerControl.multiBlock.flag several
        + MixerControl.readDirection.flag (way = .read) + MixerControl.dmaEnable.flag dma).value
      MixerControl.blockCountEnable.isSet word = true ∧
        MixerControl.multiBlock.isSet word = several ∧
        MixerControl.readDirection.isSet word = decide (way = .read) ∧
        MixerControl.dmaEnable.isSet word = dma ∧
        word &&& ~~~(MixerControl.blockCountEnable.mask ||| MixerControl.multiBlock.mask |||
          MixerControl.readDirection.mask ||| MixerControl.dmaEnable.mask) = 0 := by
    intro several dma way
    cases several <;> cases dma <;> cases way <;> decide
  obtain ⟨henable, hmulti, hread, hdma, hother⟩ :=
    hbits (decide (d.blocks > 1)) d.buffer.isDma direction
  exact ⟨henable, hmulti, hread, hdma, hother⟩

/-- **The data timeout** is replaced and nothing else. -/
theorem timeout_encoded (old : UInt32) :
    let word := (SystemControl.dataTimeout.put DataPhase.timeout).applyTo old
    SystemControl.dataTimeout.get word = 0xE ∧
      word &&& ~~~SystemControl.dataTimeout.mask = old &&& ~~~SystemControl.dataTimeout.mask := by
  refine ⟨SystemControl.dataTimeout.get_applyTo_put _ _, ?_⟩
  have hvalue : (SystemControl.dataTimeout.put DataPhase.timeout).value &&&
      ~~~SystemControl.dataTimeout.mask = 0 := by decide
  show (old &&& ~~~SystemControl.dataTimeout.mask ||| _) &&& _ = _
  rw [or_and, hvalue, UInt32.or_zero, UInt32.and_assoc, UInt32.and_self]

/-- What registers hold after a data phase was programmed that keep what is written. -/
theorem stored_programmed (d : DataPhase) (v : SpecVersion) (direction : Direction) (old : UInt32)
    (regs : Register → UInt32) :
    let after := stored regs (d.programmed v direction old)
    after systemControl = (SystemControl.dataTimeout.put DataPhase.timeout).applyTo old ∧
      after blockAttributes = d.attributes.value ∧
      after watermark = (d.watermarkFields direction).value ∧
      (∀ a, d.buffer = .dma a → after dmaAddress = a) ∧
      (v.hasSeparateMixer = true → after mixerControl = (d.mixerFields direction).value) ∧
      after commandArgument = regs commandArgument := by
  unfold programmed
  cases d.buffer with
  | dma address => cases v.hasSeparateMixer <;> simp +decide [stored, Exchange.store]
  | words id contents => cases v.hasSeparateMixer <;> simp +decide [stored, Exchange.store]

theorem read_programmed (d : DataPhase) (v : SpecVersion) (direction : Direction) (old : UInt32) :
    ⟨.read systemControl, old⟩ ∈ d.programmed v direction old :=
  List.mem_append_left _ (List.mem_append_left _ List.mem_cons_self)

/-- A data phase is programmed into its own registers only. -/
theorem written_programmed {d : DataPhase} {v : SpecVersion} {direction : Direction}
    {old : UInt32} {r : Register} {w : UInt32}
    (h : ⟨.write r w, ()⟩ ∈ d.programmed v direction old) : r ∈ registers := by
  unfold programmed at h
  revert h
  cases d.buffer with
  | dma address => cases v.hasSeparateMixer <;> simp [registers] <;> tauto
  | words id contents => cases v.hasSeparateMixer <;> simp [registers] <;> tauto

end DataPhase

/-! ### The word of the transfer type -/

namespace Command

variable {c : Command} {v : SpecVersion}

/-- What is in the transfer type besides the index and the transfer mode. -/
def kindFields (kind : ResponseKind) (present : Bool) : FieldValue transferType :=
  TransferType.normalCommand + kind.fields + TransferType.dataPresent.flag present

theorem sharedMixerBits_shared (v : SpecVersion) (c : Command) :
    c.sharedMixerBits v &&& MixerControl.sharedMask = c.sharedMixerBits v := by
  unfold sharedMixerBits
  cases c.data with
  | none => exact UInt32.zero_and
  | some d =>
    dsimp only
    split
    · exact UInt32.zero_and
    · rw [UInt32.and_assoc, UInt32.and_self]

theorem transferWord_eq (v : SpecVersion) (c : Command) :
    c.transferWord v = (TransferType.commandIndex.put c.index.toUInt32).value |||
      ((kindFields c.responseKind c.data.isSome).value ||| c.sharedMixerBits v) := by
  unfold transferWord transferFields kindFields
  simp only [FieldValue.value_add, UInt32.or_assoc]

/-- A part of the transfer type that keeps clear of the index and of the transfer mode. -/
theorem transferWord_apart {m : UInt32} (hindex : TransferType.commandIndex.mask &&& m = 0)
    (hmode : MixerControl.sharedMask &&& m = 0) :
    (TransferType.commandIndex.put c.index.toUInt32).value &&& m = 0 ∧
      c.sharedMixerBits v &&& m = 0 :=
  ⟨Field.value_put_apart _ _ hindex, and_eq_zero_of_subset (c.sharedMixerBits_shared v) hmode⟩

theorem get_transferWord {f : Field transferType}
    (hindex : TransferType.commandIndex.mask &&& f.mask = 0)
    (hmode : MixerControl.sharedMask &&& f.mask = 0) :
    f.get (c.transferWord v) = f.get (kindFields c.responseKind c.data.isSome).value := by
  obtain ⟨hput, hbits⟩ := transferWord_apart (c := c) (v := v) hindex hmode
  rw [transferWord_eq, f.get_or_right hput, f.get_or_left hbits]

theorem isSet_transferWord {f : Field transferType}
    (hindex : TransferType.commandIndex.mask &&& f.mask = 0)
    (hmode : MixerControl.sharedMask &&& f.mask = 0) :
    f.isSet (c.transferWord v) = f.isSet (kindFields c.responseKind c.data.isSome).value := by
  obtain ⟨hput, hbits⟩ := transferWord_apart (c := c) (v := v) hindex hmode
  rw [transferWord_eq, f.isSet_or_right hput, f.isSet_or_left hbits]

/-- **The index** is read back, cut off to its six bits. -/
theorem get_commandIndex (c : Command) (v : SpecVersion) :
    TransferType.commandIndex.get (c.transferWord v) = (c.index &&& 0x3F).toUInt32 := by
  -- what is put into the field is cut off to it
  have hput : (TransferType.commandIndex.put c.index.toUInt32).value =
      (TransferType.commandIndex.put (c.index &&& 0x3F).toUInt32).value := by
    show (c.index.toUInt32 &&& 0x3F) <<< 24 = ((c.index &&& 0x3F).toUInt32 &&& 0x3F) <<< 24
    rw [UInt8.toUInt32_and, show (0x3F : UInt8).toUInt32 = 0x3F from rfl, UInt32.and_assoc,
      UInt32.and_self]
  have hfits : (c.index &&& 0x3F).toUInt32 &&& TransferType.commandIndex.ones =
      (c.index &&& 0x3F).toUInt32 := by
    show _ &&& (0x3F : UInt32) = _
    rw [UInt8.toUInt32_and, show (0x3F : UInt8).toUInt32 = 0x3F from rfl, UInt32.and_assoc,
      UInt32.and_self]
  have hkind : (kindFields c.responseKind c.data.isSome).value &&&
      TransferType.commandIndex.mask = 0 := by
    cases c.responseKind <;> cases c.data.isSome <;> decide
  have hmode : c.sharedMixerBits v &&& TransferType.commandIndex.mask = 0 :=
    and_eq_zero_of_subset (c.sharedMixerBits_shared v) (by decide)
  rw [transferWord_eq, Field.get_or_left _ (by rw [or_and, hkind, hmode]; rfl), hput,
    Field.get_put _ hfits]

/-- An index that has six bits is not cut off. -/
theorem index_and_of_le (h : c.index.toNat ≤ 63) : c.index &&& 0x3F = c.index := by
  refine UInt8.toNat_inj.mp ?_
  rw [UInt8.toNat_and]
  exact (Nat.and_two_pow_sub_one_eq_mod c.index.toNat 6).trans (Nat.mod_eq_of_lt (by omega))

theorem index_encoded (h : c.index.toNat ≤ 63) :
    TransferType.commandIndex.get (c.transferWord v) = c.index.toUInt32 := by
  rw [get_commandIndex, index_and_of_le h]

/-- **The response** and the presence of data are read back. -/
theorem kind_encoded (c : Command) (v : SpecVersion) :
    TransferType.commandType.get (c.transferWord v) = 0 ∧
      TransferType.responseLength.get (c.transferWord v) = c.responseKind.lengthCode ∧
      TransferType.crcCheck.isSet (c.transferWord v) = c.responseKind.checksCrc ∧
      TransferType.indexCheck.isSet (c.transferWord v) = c.responseKind.checksIndex ∧
      TransferType.dataPresent.isSet (c.transferWord v) = c.data.isSome := by
  rw [get_transferWord (by decide) (by decide), get_transferWord (by decide) (by decide),
    isSet_transferWord (by decide) (by decide), isSet_transferWord (by decide) (by decide),
    isSet_transferWord (by decide) (by decide)]
  cases c.responseKind <;> cases c.data.isSome <;> decide

/-- Without data the low half of the transfer type is empty. -/
theorem low_of_no_data (hd : c.data = none) : c.transferWord v &&& 0xFFFF = 0 := by
  have hmode : c.sharedMixerBits v = 0 := by simp only [sharedMixerBits, hd]
  have hkind : (kindFields c.responseKind c.data.isSome).value &&& 0xFFFF = 0 := by
    cases c.responseKind <;> cases c.data.isSome <;> decide
  rw [transferWord_eq, hmode, UInt32.or_zero, or_and, hkind,
    Field.value_put_apart _ _ (by decide)]
  rfl

/-! ### The registers after a start -/

variable {regs : Register → UInt32} {platform : Platform} {old : UInt32}

/-- The transfer type is written last. -/
theorem stored_started (c : Command) (platform : Platform) (v : SpecVersion) (old : UInt32)
    (regs : Register → UInt32) :
    stored regs (c.started platform v old) transferType = c.transferWord v ∧
      ∀ r ≠ transferType, stored regs (c.started platform v old) r =
        stored (stored regs [⟨.write commandArgument c.argument, ()⟩]) (c.programmed v old) r := by
  constructor
  · rw [started, stored_concat_write, if_pos rfl]
  · intro r hr
    rw [started, stored_concat_write, if_neg hr, prepared, stored_append]
    rfl

/-- The argument is as it was written. -/
theorem argument_encoded (c : Command) (platform : Platform) (v : SpecVersion) (old : UInt32)
    (regs : Register → UInt32) :
    stored regs (c.started platform v old) commandArgument = c.argument := by
  rw [(c.stored_started platform v old regs).2 _ (by decide)]
  unfold programmed
  cases c.data with
  | none => rfl
  | some d =>
    obtain ⟨-, -, -, -, -, hargument⟩ := d.stored_programmed v c.direction old
      (stored regs [⟨.write commandArgument c.argument, ()⟩])
    exact hargument

/-- **The direction** is decoded from the watermark and the transfer mode after the start. -/
theorem direction_encoded {d : DataPhase} (hd : c.data = some d) :
    let after := stored regs (c.started platform v old)
    (watermarkField c.direction).get (after watermark) = min (d.blockSize / 4) 0x80 ∧
      after watermark &&& ~~~(watermarkField c.direction).mask = 0 ∧
      d.InMode c.direction (modeWord v after) := by
  intro after
  obtain ⟨htype, hbefore⟩ := c.stored_started platform v old regs
  have hprogrammed : c.programmed v old = d.programmed v c.direction old := by
    simp only [programmed, hd]
  rw [hprogrammed] at hbefore
  obtain ⟨-, -, hwatermark, -, hmixer, -⟩ :=
    d.stored_programmed v c.direction old (stored regs [⟨.write commandArgument c.argument, ()⟩])
  have hlevel : after watermark = (d.watermarkFields c.direction).value :=
    (hbefore watermark (by decide)).trans hwatermark
  have hmode : modeWord v after = (d.mixerFields c.direction).value := by
    unfold modeWord
    cases hv : v.hasSeparateMixer with
    | true => exact (hbefore mixerControl (by decide)).trans (hmixer hv)
    | false => exact (congrArg (· &&& _) htype).trans (transferWord_shared hv hd)
  obtain ⟨hget, honly⟩ := d.watermark_encoded c.direction
  rw [hlevel, hmode]
  exact ⟨hget, honly, d.inMode_mixerFields c.direction⟩

/-- **A data phase** is decoded from the registers after its start. -/
theorem data_encoded {d : DataPhase} (hd : c.data = some d) (hrange : d.InRange) :
    d.Encoded v c.direction (c.started platform v old)
      (stored regs (c.started platform v old)) := by
  obtain ⟨-, hbefore⟩ := c.stored_started platform v old regs
  obtain ⟨hsystem, hattributes, -, haddress, -⟩ :=
    d.stored_programmed v c.direction old (stored regs [⟨.write commandArgument c.argument, ()⟩])
  have hprogrammed : c.programmed v old = d.programmed v c.direction old := by
    simp only [programmed, hd]
  rw [hprogrammed] at hbefore
  obtain ⟨hsize, hcount⟩ := DataPhase.attributes_encoded hrange
  obtain ⟨hlevel, hlevelOnly, hmode⟩ := direction_encoded (c := c) hd
  obtain ⟨htimeout, hkept⟩ := DataPhase.timeout_encoded old
  exact {
    size := by rw [hbefore _ (by decide), hattributes, hsize]
    count := by rw [hbefore _ (by decide), hattributes, hcount]
    level := hlevel
    levelOnly := hlevelOnly
    mode := hmode
    address := fun a ha => by rw [hbefore _ (by decide), haddress a ha]
    timeout := by
      rw [hbefore _ (by decide), hsystem]
      refine ⟨old, ?_, htimeout, hkept⟩
      rw [started, prepared, hprogrammed]
      exact List.mem_append_left _ (List.mem_append_right _ (d.read_programmed v c.direction old))
  }

/-! ### What is written -/

/-- Waiting for the lines writes nothing. -/
theorem not_written_looks {spinLimit : Nat} {looks : List Exchange} {r : Except CommandError Unit}
    (h : Path (c.awaitLines spinLimit).run looks r) (register : Register) (w : UInt32) :
    ⟨.write register w, ()⟩ ∉ looks :=
  fun hmem => c.asks_awaitLines spinLimit h _ hmem

/-- What is written before the transfer type. -/
theorem written_prepared {r : Register} {w : UInt32}
    (h : ⟨.write r w, ()⟩ ∈ c.prepared platform v old) :
    r = commandArgument ∨ c.data.isSome = true ∧ r ∈ DataPhase.registers := by
  rcases List.mem_append.mp h with hmem | hmem
  · simp at hmem
    exact .inl hmem.1
  · unfold programmed at hmem
    cases hd : c.data with
    | none =>
      rw [hd] at hmem
      cases hmem
    | some d =>
      rw [hd] at hmem
      exact .inr ⟨rfl, DataPhase.written_programmed hmem⟩

/-- **The transfer type is written last**, after the event mask, the argument and the registers of
the data phase. -/
theorem written_issue {spinLimit n : Nat} {es : List Exchange}
    (h : Path (c.issue platform v spinLimit).run es (.ok n)) :
    ∃ earlier, es = earlier ++ [⟨.write transferType (c.transferWord v), ()⟩] ∧
      ∀ r w, ⟨.write r w, ()⟩ ∈ earlier → r = interruptStatusEnable ∨ r = commandArgument ∨
        c.data.isSome = true ∧ r ∈ DataPhase.registers := by
  obtain ⟨-, looks, old, hlooks, rfl⟩ := path_issue h
  refine ⟨⟨.write interruptStatusEnable c.interruptMask.bits, ()⟩ :: looks ++
    c.prepared platform v old, by rw [started, List.append_assoc], ?_⟩
  intro r w hmem
  rcases List.mem_append.mp hmem with hmem | hmem
  · rcases List.mem_cons.mp hmem with heq | hlook
    · simp at heq
      exact .inl heq.1
    · exact absurd hlook (not_written_looks hlooks r w)
  · exact .inr (written_prepared hmem)

/-- **The registers decode to the command** after its start, if its index has six bits and its data
phase is within range. -/
theorem encoded_issue {spinLimit n : Nat} {es : List Exchange} (hindex : c.index.toNat ≤ 63)
    (hrange : ∀ d, c.data = some d → d.InRange)
    (h : Path (c.issue platform v spinLimit).run es (.ok n)) (before : Register → UInt32) :
    c.Encoded v es (stored before es) := by
  obtain ⟨earlier, hlast, hwritten⟩ := written_issue h
  obtain ⟨-, looks, old, -, hes⟩ := path_issue h
  obtain ⟨hkind, hlength, hcrc, hcheck, hpresent⟩ := c.kind_encoded v
  have hsplit : stored before es =
      stored (stored before (⟨.write interruptStatusEnable c.interruptMask.bits, ()⟩ :: looks))
        (c.started platform v old) := by
    rw [hes, stored_append]
  have htype : stored before es transferType = c.transferWord v := by
    rw [hlast, stored_concat_write, if_pos rfl]
  refine ⟨?_, ?_, ?_, ?_, ?_, ?_, ?_, ?_, ?_⟩
  · rw [hsplit, argument_encoded]
  · rw [htype, index_encoded hindex]
  · rw [htype, hkind]
  · rw [htype, hlength]
  · rw [htype, hcrc]
  · rw [htype, hcheck]
  · rw [htype, hpresent]
  · intro d hd
    rw [hsplit, hes]
    exact (data_encoded hd (hrange d hd)).after _
  · intro hd
    refine ⟨by rw [htype, low_of_no_data hd], ?_⟩
    intro r hr w hmem
    rw [hlast] at hmem
    rcases List.mem_append.mp hmem with hmem | hmem
    · rcases hwritten r w hmem with rfl | rfl | ⟨hsome, -⟩
      · exact absurd hr (by decide)
      · exact absurd hr (by decide)
      · rw [hd] at hsome
        cases hsome
    · simp at hmem
      rw [hmem.1] at hr
      exact absurd hr (by decide)

end Command

/-! ### What the checks of a submission say -/

theorem Capabilities.maxBlockLength_le (word : UInt32) : (maxBlockLength.get word).toNat ≤ 3 := by
  show (_ &&& (3 : UInt32)).toNat ≤ 3
  rw [UInt32.toNat_and]
  exact Nat.and_le_right

/-- The largest block that a capability word allows. -/
theorem Capabilities.toNat_blockLength (word : UInt32) :
    (blockLength word).toNat = 512 * 2 ^ (maxBlockLength.get word).toNat := by
  have hcode := maxBlockLength_le word
  have hpow : 2 ^ (maxBlockLength.get word).toNat ≤ 2 ^ 3 :=
    Nat.pow_le_pow_right (by decide) hcode
  have hshift : (maxBlockLength.get word).toNat % 32 = (maxBlockLength.get word).toNat :=
    Nat.mod_eq_of_lt (by omega)
  rw [blockLength, UInt32.toNat_shiftLeft, hshift, Nat.shiftLeft_eq]
  exact Nat.mod_eq_of_lt (by change 512 * _ < _; omega)

/-- The largest block that any capability word allows. -/
theorem Capabilities.blockLength_le (word : UInt32) : (blockLength word).toNat ≤ 4096 := by
  have hpow : 2 ^ (maxBlockLength.get word).toNat ≤ 2 ^ 3 :=
    Nat.pow_le_pow_right (by decide) (maxBlockLength_le word)
  rw [toNat_blockLength]
  omega

theorem DataPhase.inRange_of_validate {d : DataPhase} {word : UInt32}
    (h : (d.validate (Capabilities.blockLength word)).toOption.isNone = false) : d.InRange := by
  unfold validate at h
  split at h
  · cases h
  · rename_i hsize
    split at h
    · cases h
    · rename_i hblocks
      simp only [Bool.or_eq_true, not_or, decide_eq_true_eq] at hsize hblocks
      have hlargest := Capabilities.blockLength_le word
      have hlength := UInt32.not_lt.mp hsize.2
      have hcount := UInt32.not_lt.mp hblocks.2
      exact ⟨Nat.le_trans hlength hlargest, hcount⟩

/-- **An accepted submission** has a data phase within the numbers of its registers. -/
theorem Controller.inRange_of_enqueue {ctl ctl' : Controller} {c : Command}
    {callback : Option Callback} {token : Nat} {ticket : Ticket} {es : List Exchange}
    (h : Path (ctl.enqueue c callback token).run es (.ok (ticket, ctl'))) {d : DataPhase}
    (hd : c.data = some d) : d.InRange := by
  unfold enqueue at h
  cases hpending : c.completion.isPending with
  | false =>
    simp only [hpending] at h
    obtain ⟨_, _, _, _, hthrow, -⟩ := path_run_lift_bind.mp h
    obtain ⟨-, habs⟩ := path_run_throw.mp hthrow
    cases habs
  | true =>
    simp only [hpending, if_true] at h
    obtain ⟨_, largest, _, hlargest, h₁, -⟩ := path_run_lift_bind.mp h
    obtain ⟨word, _, rfl⟩ := path_bind_pure.mp hlargest
    cases hvalid : c.data.any fun d =>
        (d.validate (Capabilities.blockLength word)).toOption.isNone with
    | true =>
      simp only [hvalid, if_true] at h₁
      obtain ⟨_, _, _, _, hthrow, -⟩ := path_run_lift_bind.mp h₁
      obtain ⟨-, habs⟩ := path_run_throw.mp hthrow
      cases habs
    | false =>
      rw [hd] at hvalid
      exact DataPhase.inRange_of_validate hvalid

/-! ### Whenever an accepted command is started -/

theorem Command.index_new_le (index : UInt8) (argument : UInt32) (kind : ResponseKind) :
    (Command.new index argument kind).index.toNat ≤ 63 := by
  show (index &&& 0x3F).toNat ≤ 63
  rw [UInt8.toNat_and]
  exact Nat.and_le_right

/-- **The encoding of a command loses nothing.**  Whenever a command that was accepted is started,
whatever the hardware answered and whatever its registers held, they decode to the command when the
transfer type is written, which is the last that is done and done once.  The result is the number of
blocks that the processor will move. -/
theorem issue_encoded {ctl ctl' : Controller} {c : Command} {callback : Option Callback}
    {token : Nat} {ticket : Ticket} {es₀ es : List Exchange} {platform : Platform} {v : SpecVersion}
    {spinLimit n : Nat} (before : Register → UInt32)
    (haccepted : Path (ctl.enqueue c callback token).run es₀ (.ok (ticket, ctl')))
    (hindex : c.index.toNat ≤ 63)
    (hstarted : Path (c.issue platform v spinLimit).run es (.ok n)) :
    c.Encoded v es (stored before es) ∧
      (∃ earlier word, es = earlier ++ [⟨.write transferType word, ()⟩] ∧
        ∀ w, ⟨.write transferType w, ()⟩ ∉ earlier) ∧
      (c.data = none → n = 0) ∧
      ∀ d, c.data = some d → n = if d.buffer.isDma then 0 else d.blocks.toNat := by
  obtain ⟨earlier, hlast, hwritten⟩ := Command.written_issue hstarted
  obtain ⟨rfl, -⟩ := Command.path_issue hstarted
  refine ⟨?_, ⟨earlier, _, hlast, ?_⟩, ?_, ?_⟩
  · exact Command.encoded_issue hindex (fun _ => Controller.inRange_of_enqueue haccepted) hstarted _
  · intro w hmem
    rcases hwritten _ _ hmem with habs | habs | ⟨-, habs⟩
    · exact absurd habs (by decide)
    · exact absurd habs (by decide)
    · exact absurd habs (by decide)
  · intro hd
    simp only [Command.blocksToMove, hd]
  · intro d hd
    simp only [Command.blocksToMove, hd]

/-- A read of two blocks of a word each. -/
theorem issue_encoded_twoBlockRead :
    ∃ es₀ ticket c es,
      Path (Controller.rested.enqueue .twoBlockRead none 0).run es₀ (.ok (ticket, c)) ∧
      Path (Command.twoBlockRead.issue .imx6 .v1 1).run es (.ok 2) ∧
      Command.twoBlockRead.Encoded .v1 es (stored (fun _ => 0) es) ∧
      BlockAttributes.size.get (stored (fun _ => 0) es blockAttributes) = 4 := by
  have haccepted : Path (Controller.rested.enqueue .twoBlockRead none 0).run _ (.ok (_, _)) :=
    path_scripted [] rfl
  have hstarted : Path (Command.twoBlockRead.issue .imx6 .v1 1).run _ (.ok 2) :=
    path_scripted [] rfl
  obtain ⟨hencoded, -⟩ := issue_encoded (fun _ => 0) haccepted
    (Command.index_new_le CommandIndex.readMultipleBlock 0 .r1) hstarted
  exact ⟨_, _, _, _, haccepted, hstarted, hencoded, (hencoded.data _ rfl).size⟩

end SdHost
