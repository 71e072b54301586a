import SdHost.Proofs.Command.Encoding

/-!
# The index that is sent

Six bits of a command's index are sent.  The way of its data and the rule for its response are told
by the whole index, which is the one that is sent unless it was made larger than that.

* `Command.asSent` — the command as the card gets it;
* `Command.direction_asSent_iff`, `Command.asked_asSent_iff`, `Command.responseIn_asSent_iff` — when
  the way of the data and the rule for the response are those of the index that is sent;
* `Command.Directed`, `Command.directed_issue` — what the registers say about the index and the
  direction of any command after its start.
-/

namespace SdHost

open Dialogue Register

namespace Command

variable {c : Command}

/-- The command as the card gets it: six bits of its index are sent. -/
def asSent (c : Command) : Command := { c with index := c.index &&& 0x3F }

/-- An index that has six bits is sent as it is. -/
theorem asSent_of_le (h : c.index.toNat ≤ 63) : c.asSent = c := by
  unfold asSent
  rw [index_and_of_le h]

/-- An index that has more than six bits is not that of a reader, whatever is sent. -/
theorem direction_of_lt (h : 63 < c.index.toNat) : c.direction = .write := by
  have hreaders : ∀ i ∈ CommandIndex.readers, i.toNat ≤ 63 := by decide +kernel
  refine if_neg fun hmem => ?_
  exact Nat.not_le.mpr h (hreaders c.index hmem)

/-- **The way of the data** is that of the index that is sent, unless that is a reader's and more
than six bits were given. -/
theorem direction_asSent_iff : c.asSent.direction = c.direction ↔
    c.index.toNat ≤ 63 ∨ c.asSent.index ∉ CommandIndex.readers := by
  rcases Nat.lt_or_ge 63 c.index.toNat with hlong | hshort
  · rw [direction_of_lt hlong]
    constructor
    · intro hwrite
      refine .inr fun hmem => ?_
      have hread : c.asSent.direction = .read := if_pos hmem
      rw [hread] at hwrite
      cases hwrite
    · rintro (habs | hmem)
      · omega
      · exact if_neg hmem
  · rw [asSent_of_le hshort]
    exact ⟨fun _ => .inl hshort, fun _ => rfl⟩

/-- The index that ends a transfer is the one that is sent, unless more than six bits were given. -/
theorem stop_asSent_iff :
    (c.asSent.index == CommandIndex.stopTransmission) = (c.index == CommandIndex.stopTransmission) ↔
      c.index.toNat ≤ 63 ∨ c.asSent.index ≠ CommandIndex.stopTransmission := by
  rcases Nat.lt_or_ge 63 c.index.toNat with hlong | hshort
  · have hother : (c.index == CommandIndex.stopTransmission) = false := by
      refine beq_eq_false_iff_ne.mpr fun habs => ?_
      rw [habs] at hlong
      exact absurd hlong (by decide)
    rw [hother, beq_eq_false_iff_ne]
    exact ⟨.inr, fun h => h.resolve_left (Nat.not_le.mpr hlong)⟩
  · rw [asSent_of_le hshort]
    exact ⟨fun _ => .inl hshort, fun _ => rfl⟩

/-- The registers that are asked for are those of the index that is sent, unless the card may be
busy after it, that index is the one that ends a transfer and more than six bits were given. -/
theorem asked_asSent_iff : c.asSent.asked = c.asked ↔
    c.responseKind ≠ .r1b ∨ c.index.toNat ≤ 63 ∨
      c.asSent.index ≠ CommandIndex.stopTransmission := by
  by_cases hkind : c.responseKind = .r1b
  · have hasked : ∀ d : Command, d.responseKind = .r1b → d.asked =
        if d.index == CommandIndex.stopTransmission then [response3] else [response0] := by
      intro d hd
      unfold asked
      rw [hd]
    rw [← stop_asSent_iff, hasked c.asSent hkind, hasked c hkind]
    have hother : ([response3] : List Register) ≠ [response0] := by decide
    cases c.asSent.index == CommandIndex.stopTransmission <;>
      cases c.index == CommandIndex.stopTransmission <;> simp [hkind, hother, hother.symm]
  · refine ⟨fun _ => .inl hkind, fun _ => ?_⟩
    unfold asked asSent
    cases hc : c.responseKind with
    | r1b => exact absurd hc hkind
    | _ => rfl

/-- What was asked for is seen in a response. -/
theorem responseIn_eq_iff {d : Command} :
    (∀ evs old, d.responseIn evs old = c.responseIn evs old) ↔ d.asked = c.asked := by
  constructor
  · intro hsame
    -- registers that all read one, for a response of zeros
    have hwords := hsame (responseRegisters.map (.response · 1)) {}
    unfold responseIn wordIn at hwords
    rcases d.asked_cases with hd | hd | hd | hd <;>
      rcases c.asked_cases with hc | hc | hc | hc <;> rw [hd, hc] at hwords ⊢ <;>
      revert hwords <;> decide
  · intro hasked evs old
    unfold responseIn wordIn
    rw [hasked]

/-- **The rule for the response** is that of the index that is sent, unless the card may be busy
after it, that index is the one that ends a transfer and more than six bits were given. -/
theorem responseIn_asSent_iff :
    (∀ evs old, c.asSent.responseIn evs old = c.responseIn evs old) ↔
      c.responseKind ≠ .r1b ∨ c.index.toNat ≤ 63 ∨
        c.asSent.index ≠ CommandIndex.stopTransmission :=
  responseIn_eq_iff.trans asked_asSent_iff

/-! ### What the registers say -/

/-- The registers say which index is sent, and all that they say about the way of the data is the
direction of the command. -/
structure Directed (c : Command) (v : SpecVersion) (regs : Register → UInt32) : Prop where
  index : TransferType.commandIndex.get (regs transferType) = c.asSent.index.toUInt32
  mode : ∀ d, c.data = some d →
    MixerControl.readDirection.isSet (modeWord v regs) = decide (c.direction = .read)
  level : ∀ d, c.data = some d →
    (watermarkField c.direction).get (regs watermark) = min (d.blockSize / 4) 0x80
  levelOnly : c.data.isSome = true → regs watermark &&& ~~~(watermarkField c.direction).mask = 0

/-- **After its start** the registers say so of any command. -/
theorem directed_issue {platform : Platform} {v : SpecVersion} {limit n : Nat}
    {es : List Exchange} (h : Path (c.issue platform v limit).run es (.ok n))
    (before : Register → UInt32) : c.Directed v (stored before es) := by
  obtain ⟨-, looks, old, -, rfl⟩ := path_issue h
  rw [stored_append]
  generalize stored before _ = regs
  obtain ⟨htype, -⟩ := c.stored_started platform v old regs
  refine ⟨?_, fun d hd => ?_, fun d hd => ?_, fun hsome => ?_⟩
  · rw [htype]
    exact c.get_commandIndex v
  · exact (direction_encoded hd).2.2.readDirection
  · exact (direction_encoded hd).1
  · obtain ⟨d, hd⟩ := Option.isSome_iff_exists.mp hsome
    exact (direction_encoded hd).2.1

end Command

end SdHost
