import SdHost.Error
import SdHost.Interrupt.Status

/-!
# Which failure a status word reports

Several error bits may be latched together.  The most specific one is reported: card removal
over command errors, those over data errors, those over engine errors.  The error summary bit
alone reads as a failed transfer.

* `InterruptStatus.errorClasses` — the specific error bits, the more specific the later;
* `InterruptStatus.classify` — the failure that a word reports, if any.
-/

namespace SdHost.InterruptStatus

/-- Each specific error bit with the failure it reports, in increasing order of precedence. -/
def errorClasses : List (InterruptStatus × CommandError) :=
  [(tuning, .tuning), (overcurrent, .overcurrent), (autoStop, .autoCmd12), (dma, .dma),
    (adma, .adma), (dataEndBit, .dataEndBit), (dataCrc, .dataCrc), (dataTimeout, .dataTimeout),
    (commandIndex, .commandIndex), (commandEndBit, .commandEndBit), (commandCrc, .commandCrc),
    (commandTimeout, .commandTimeout), (cardRemoval, .cardRemoved)]

/-- The failure that a status word reports. -/
def classify (s : InterruptStatus) : Option CommandError :=
  match (errorClasses.filter fun c => s.contains c.1).getLast? with
  | some c => some c.2
  | none => if s.contains errorSummary then some .transfer else none

example : classify (errorSummary ||| dataCrc ||| commandCrc) = some .commandCrc := by decide

end SdHost.InterruptStatus
