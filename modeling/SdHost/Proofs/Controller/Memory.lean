import Mathlib.Algebra.Group.Nat.Defs
import SdHost.Command.Basic
import SdHost.Controller.Memory
import SdHost.Proofs.Dialogue.Looking

/-!
# The reach of DMA memory

The DMA engine addresses 32 bits, so all of a region should lie below 4 GiB.  What is looked at is
where a region starts.  A region that starts too high is given back and is no buffer; one that
*straddles*, starting below 4 GiB and ending above, is handed out like those that lie in reach.

* `DmaRegion.InReach`, `DmaRegion.Straddles` — where a region lies; `inReach_or_straddles` — what
  starts in range is one of these;
* `Controller.Allocates` — the three ways in which memory is asked for; `allocates_of_path` — there
  are no others;
* `dma_memory_reach` — what is handed out, given back and used as a buffer, for every region;
* `dma_memory_straddles` — a region that is handed out although it does not lie in reach.
-/

namespace SdHost

open Dialogue

/-! ### Where a region lies -/

namespace DmaRegion

variable {r : DmaRegion}

/-- The address after the last byte of a region. -/
def limit (r : DmaRegion) : Nat := r.physicalAddress.toNat + r.size.toNat

/-- The whole region lies where 32-bit addresses reach. -/
def InReach (r : DmaRegion) : Prop := r.limit ≤ 2 ^ 32

/-- The region starts where 32-bit addresses reach, and ends where they do not. -/
def Straddles (r : DmaRegion) : Prop := r.physicalAddress.toNat < 2 ^ 32 ∧ 2 ^ 32 < r.limit

instance : Decidable r.InReach := inferInstanceAs (Decidable (_ ≤ _))

instance : Decidable r.Straddles := inferInstanceAs (Decidable (_ ∧ _))

theorem startsInRange_iff : r.startsInRange = true ↔ r.physicalAddress.toNat < 2 ^ 32 := by
  rw [startsInRange, decide_eq_true_iff, UInt64.lt_iff_toNat_lt]
  rfl

/-- A region that starts in range lies in reach, or it straddles. -/
theorem inReach_or_straddles (h : r.startsInRange = true) : r.InReach ∨ r.Straddles := by
  rcases Nat.lt_or_ge (2 ^ 32) r.limit with hbeyond | hwithin
  · exact .inr ⟨startsInRange_iff.mp h, hbeyond⟩
  · exact .inl hwithin

/-- A region that neither lies in reach nor straddles starts too high. -/
theorem startsInRange_eq_false (hreach : ¬r.InReach) (hstraddles : ¬r.Straddles) :
    r.startsInRange = false := by
  cases hstart : r.startsInRange with
  | false => rfl
  | true => exact absurd (inReach_or_straddles hstart) (not_or.mpr ⟨hreach, hstraddles⟩)

theorem multiple_iff : (r.physicalAddress % 4 == 0) = true ↔ 4 ∣ r.physicalAddress.toNat := by
  rw [beq_iff_eq, ← UInt64.toNat_inj, UInt64.toNat_mod, Nat.dvd_iff_mod_eq_zero]
  rfl

/-- **The address of a buffer** is where the region starts, to the last bit, and word-aligned. -/
theorem busAddress_eq_ok_iff {a : UInt32} : r.busAddress = .ok a ↔
    r.startsInRange = true ∧ 4 ∣ r.physicalAddress.toNat ∧ a.toNat = r.physicalAddress.toNat := by
  have hguard : (r.startsInRange && r.physicalAddress % 4 == 0) = true ↔
      r.startsInRange = true ∧ 4 ∣ r.physicalAddress.toNat := by
    rw [Bool.and_eq_true, multiple_iff]
  unfold busAddress
  split
  · rename_i hboth
    obtain ⟨hstart, hmultiple⟩ := hguard.mp hboth
    have hnarrow : r.physicalAddress.toUInt32.toNat = r.physicalAddress.toNat :=
      Nat.mod_eq_of_lt (startsInRange_iff.mp hstart)
    constructor
    · rintro hok
      obtain rfl := Except.ok.inj hok
      exact ⟨hstart, hmultiple, hnarrow⟩
    · rintro ⟨-, -, ha⟩
      exact congrArg _ (UInt32.toNat_inj.mp (hnarrow.trans ha.symm))
  · rename_i hneither
    refine ⟨nofun, ?_⟩
    rintro ⟨hstart, hmultiple, -⟩
    exact absurd (hguard.mpr ⟨hstart, hmultiple⟩) hneither

theorem busAddress_cases (r : DmaRegion) :
    (∃ a, r.busAddress = .ok a) ∨ r.busAddress = .error .addressRange := by
  unfold busAddress
  split
  · exact .inl ⟨_, rfl⟩
  · exact .inr rfl

end DmaRegion

/-! ### Asking for memory -/

/-- The memory that an exchange gives back, with its alignment. -/
def Exchange.released? : Exchange → Option (DmaRegion × UInt64)
  | ⟨.release region alignment, _⟩ => some (region, alignment)
  | _ => none

/-- The memory that is given back. -/
def releases (es : List Exchange) : List (DmaRegion × UInt64) := es.filterMap Exchange.released?

namespace Controller

/-- The ways in which memory is asked for. -/
inductive Allocates (size : UInt64) : List Exchange → Except ControllerError DmaRegion → Prop where
  /-- There is none. -/
  | exhausted : Allocates size [⟨.allocate size dmaAlignment, none⟩,
      ⟨.report (.allocationFailed size), ()⟩] (.error .allocationFailed)
  /-- It starts in range, and is handed out. -/
  | granted {region : DmaRegion} (hstart : region.startsInRange = true) :
      Allocates size [⟨.allocate size dmaAlignment, some region⟩] (.ok region)
  /-- It starts too high, and is given back. -/
  | refused {region : DmaRegion} (hstart : region.startsInRange = false) :
      Allocates size [⟨.allocate size dmaAlignment, some region⟩,
        ⟨.report (.regionOutOfRange region.physicalAddress), ()⟩,
        ⟨.release region dmaAlignment, ()⟩] (.error .addressRange)

/-- **The ways in which memory is asked for** are those. -/
theorem allocates_of_path {size : UInt64} {es : List Exchange}
    {out : Except ControllerError DmaRegion} (h : Path (allocateRegion size).run es out) :
    Allocates size es out := by
  obtain ⟨_, answer, _, hask, hrest, rfl⟩ := path_run_lift_bind.mp h
  obtain rfl := path_question.mp hask
  cases answer with
  | none =>
    obtain ⟨rfl, rfl⟩ := path_report_throw hrest
    exact .exhausted
  | some region =>
    cases hstart : region.startsInRange with
    | true =>
      simp only [hstart, if_true] at hrest
      obtain ⟨rfl, rfl⟩ := path_run_pure.mp hrest
      exact .granted hstart
    | false =>
      simp only [hstart, Bool.false_eq_true, if_false] at hrest
      obtain ⟨_, _, _, htold, hfree, rfl⟩ := path_run_lift_bind.mp hrest
      obtain ⟨_, _, _, hrelease, hthrow, rfl⟩ := path_run_lift_bind.mp hfree
      obtain rfl := path_question.mp htold
      obtain rfl := path_question.mp hrelease
      obtain ⟨rfl, rfl⟩ := path_run_throw.mp hthrow
      exact .refused hstart

end Controller

/-! ### Buffers in a region -/

/-- A buffer in a region is one for the DMA engine, at the start of the region. -/
theorem Buffer.ofRegion_eq_ok {region : DmaRegion} {buffer : Buffer}
    (h : ofRegion region = .ok buffer) : ∃ address, buffer = .dma address ∧
      address.toNat = region.physicalAddress.toNat ∧ 4 ∣ address.toNat ∧
      (region.InReach ∨ region.Straddles) := by
  rcases region.busAddress_cases with ⟨address, haddress⟩ | hfailed
  · rw [ofRegion, haddress] at h
    obtain ⟨hstart, hmultiple, hsame⟩ := DmaRegion.busAddress_eq_ok_iff.mp haddress
    refine ⟨address, (Except.ok.inj h).symm, hsame, ?_, DmaRegion.inReach_or_straddles hstart⟩
    rw [hsame]
    exact hmultiple
  · rw [ofRegion, hfailed] at h
    cases h

/-- A region that starts too high is no buffer. -/
theorem Buffer.ofRegion_eq_error {region : DmaRegion} (h : region.startsInRange = false) :
    ofRegion region = .error .addressRange := by
  rcases region.busAddress_cases with ⟨address, haddress⟩ | hfailed
  · obtain ⟨hstart, -⟩ := DmaRegion.busAddress_eq_ok_iff.mp haddress
    rw [h] at hstart
    cases hstart
  · rw [ofRegion, hfailed]
    rfl

/-! ### The reach of what is handed out -/

/-- **DMA memory lies in reach, unless it straddles.**  Whatever the allocator answers, memory that
is handed out is what the allocator gave, it lies in reach or straddles, and nothing is given back;
memory that does neither is refused and given back once, with the alignment it was asked for with.
So it is with a buffer in any region: it begins where the region does, at a multiple of four, and
the region lies in reach or straddles; a region that does neither is no buffer.  A region that
straddles is handed out like one that lies in reach. -/
theorem dma_memory_reach {size : UInt64} {es : List Exchange}
    {out : Except ControllerError DmaRegion}
    (h : Path (Controller.allocateRegion size).run es out) :
    (∃ answer told, es = ⟨.allocate size dmaAlignment, answer⟩ :: told ∧
      (answer = none → out = .error .allocationFailed ∧ releases es = []) ∧
      (∀ region, out = .ok region → answer = some region ∧ releases es = [] ∧
        (region.InReach ∨ region.Straddles)) ∧
      (∀ region, answer = some region → ¬region.InReach → ¬region.Straddles →
        out = .error .addressRange ∧ releases es = [(region, dmaAlignment)]) ∧
      ∀ region, answer = some region → region.Straddles → out = .ok region) ∧
    (∀ region buffer, Buffer.ofRegion region = .ok buffer →
      ∃ address, buffer = .dma address ∧ address.toNat = region.physicalAddress.toNat ∧
        4 ∣ address.toNat ∧ (region.InReach ∨ region.Straddles)) ∧
    ∀ region : DmaRegion, ¬region.InReach → ¬region.Straddles →
      Buffer.ofRegion region = .error .addressRange := by
  refine ⟨?_, fun _ _ => Buffer.ofRegion_eq_ok, fun _ hreach hstraddles =>
    Buffer.ofRegion_eq_error (DmaRegion.startsInRange_eq_false hreach hstraddles)⟩
  cases Controller.allocates_of_path h with
  | exhausted =>
    exact ⟨none, _, rfl, fun _ => ⟨rfl, rfl⟩, fun _ hok => (nomatch hok),
      fun _ hsome => (nomatch hsome), fun _ hsome => (nomatch hsome)⟩
  | @granted region hstart =>
    refine ⟨some region, _, rfl, nofun, ?_, ?_, ?_⟩
    · intro got hgot
      obtain rfl := Except.ok.inj hgot
      exact ⟨rfl, rfl, DmaRegion.inReach_or_straddles hstart⟩
    · intro given hgiven hreach hstraddles
      obtain rfl := Option.some.inj hgiven
      exact absurd (DmaRegion.inReach_or_straddles hstart) (not_or.mpr ⟨hreach, hstraddles⟩)
    · intro given hgiven _
      obtain rfl := Option.some.inj hgiven
      rfl
  | @refused region hstart =>
    refine ⟨some region, _, rfl, nofun, fun _ hok => (nomatch hok), ?_, ?_⟩
    · intro given hgiven _ _
      obtain rfl := Option.some.inj hgiven
      exact ⟨rfl, rfl⟩
    · intro given hgiven hstraddles
      obtain rfl := Option.some.inj hgiven
      rw [DmaRegion.startsInRange_iff.mpr hstraddles.1] at hstart
      cases hstart

/-- Surroundings with an allocator. -/
def allocating : Surroundings Request.Answer DmaAllocator
  | .allocate size alignment, a => a.allocate size alignment
  | q, a => ((scripted q []).1, a)

/-- Memory from 4 GiB on is given back. -/
theorem dma_memory_reach_above :
    let region : DmaRegion := ⟨0x100000000, 0x100000000, 512⟩
    ∃ es, Path (Controller.allocateRegion 512).run es (.error .addressRange) ∧
      releases es = [(region, dmaAlignment)] ∧ Buffer.ofRegion region = .error .addressRange := by
  intro region
  have hpath : Path (Controller.allocateRegion 512).run
      (exchanges allocating (Controller.allocateRegion 512).run (.upwards 0x100000000 none))
      (.error .addressRange) := path_of_run rfl
  obtain ⟨⟨answer, told, hes, -, -, hrefused, -⟩, -, hbuffer⟩ := dma_memory_reach hpath
  have hanswer : answer = some region := by
    obtain ⟨hfirst, -⟩ := List.cons.inj hes
    obtain ⟨-, hanswer⟩ := Exchange.mk.inj hfirst
    exact (eq_of_heq hanswer).symm
  have hreach : ¬region.InReach := by decide
  have hstraddles : ¬region.Straddles := by decide
  exact ⟨_, hpath, (hrefused region hanswer hreach hstraddles).2, hbuffer region hreach hstraddles⟩

/-- Memory that ends above 4 GiB is handed out, and it is a buffer. -/
theorem dma_memory_straddles :
    ∃ es region, Path (Controller.allocateRegion 8192).run es (.ok region) ∧ releases es = [] ∧
      Buffer.ofRegion region = .ok (.dma 0xFFFFF000) ∧ ¬region.InReach := by
  have hpath : Path (Controller.allocateRegion 8192).run
      (exchanges allocating (Controller.allocateRegion 8192).run (.upwards 0xFFFFF000 none))
      (.ok ⟨0xFFFFF000, 0xFFFFF000, 8192⟩) := path_of_run rfl
  exact ⟨_, _, hpath, rfl, rfl, by decide⟩

end SdHost
