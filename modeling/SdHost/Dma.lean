import SdHost.Error

/-!
# Memory for DMA

The DMA engine addresses 32 bits.  A *region* is a piece of physically contiguous memory that an
allocator hands out; an *allocator* answers requests for regions.

* `DmaRegion` — where a region is for the processor and for the bus, and how long it is;
* `DmaRegion.busAddress` — the address that the DMA engine is given for a region, if it can be
  given one;
* `DmaAllocator` — the allocator that has no memory, and the one that hands out memory upwards
  from an address.
-/

namespace SdHost

/-- A physically contiguous piece of memory. -/
structure DmaRegion where
  /-- Address for the processor. -/
  virtualAddress : UInt64
  /-- Address on the bus. -/
  physicalAddress : UInt64
  /-- Length in bytes. -/
  size : UInt64
  deriving DecidableEq, Repr

/-- The alignment of every region a controller asks for. -/
def dmaAlignment : UInt64 := 4096

namespace DmaRegion

/-- Whether the region starts where 32-bit addresses reach. -/
def startsInRange (r : DmaRegion) : Bool := r.physicalAddress < 0x100000000

/-- The address given to the DMA engine: 32 bits wide and a multiple of four. -/
def busAddress (r : DmaRegion) : Except ControllerError UInt32 :=
  if r.startsInRange && r.physicalAddress % 4 == 0 then
    .ok r.physicalAddress.toUInt32
  else
    .error .addressRange

end DmaRegion

/-- An allocator of regions. -/
inductive DmaAllocator where
  /-- There is no memory for DMA. -/
  | none
  /-- Memory is handed out upwards from `next`, in pieces of at most `maxSize` bytes. -/
  | upwards (next : UInt64) (maxSize : Option UInt64)
  deriving DecidableEq, Repr

namespace DmaAllocator

/-- `a` rounded up to a multiple of `alignment`. -/
def alignUp (a alignment : UInt64) : UInt64 := (a + (alignment - 1)) / alignment * alignment

/-- Asks for `size` bytes at a multiple of `alignment`. -/
def allocate (size alignment : UInt64) : DmaAllocator → Option DmaRegion × DmaAllocator
  | .none => (Option.none, .none)
  | .upwards next maxSize =>
    if maxSize.any (size > ·) then (Option.none, .upwards next maxSize)
    else
      let start := alignUp next alignment
      (some ⟨start, start, size⟩, .upwards (start + size) maxSize)

/-- The bus address behind a processor address. -/
def busAddressOf (address : UInt64) : DmaAllocator → Option UInt64
  | .none => Option.none
  | .upwards _ _ => some address

end DmaAllocator

end SdHost
