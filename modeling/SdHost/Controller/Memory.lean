import SdHost.Controller.Basic

/-!
# DMA memory of a controller

* `Controller.allocateRegion` — asks for memory that the DMA engine reaches; memory that starts
  too high is given back at once;
* `Controller.releaseRegion` — gives memory back.
-/

namespace SdHost.Controller

/-- Gives memory back. -/
def releaseRegion (region : DmaRegion) : Action Unit :=
  Dialogue.question (Request.release region dmaAlignment)

/-- Asks for memory of some bytes that the DMA engine reaches. -/
def allocateRegion (size : UInt64) : ExceptT ControllerError Action DmaRegion := do
  match ← (Dialogue.question (Request.allocate size dmaAlignment) : Action _) with
  | none =>
    report (.allocationFailed size)
    throw .allocationFailed
  | some region =>
    unless region.startsInRange do
      report (.regionOutOfRange region.physicalAddress)
      releaseRegion region
      throw .addressRange
    return region

end SdHost.Controller
