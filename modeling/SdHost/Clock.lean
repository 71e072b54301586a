import SdHost.Error
import SdHost.Register.Map

/-!
# The SD clock divider

The SD clock is the base clock divided.  Both divider encodings divide by twice the divider's
value, and value zero passes the base clock through; up to version 2 of the specification the
value is a power of two of at most eight bits, from version 3 on any value of ten bits.

* `SpecVersion` — the versions that differ in what follows;
* `ClockDivider` — an encoded divider with its register fields, divisor and effective rate;
* `ClockDivider.choose` — the divider whose clock is nearest to, and not above, a target; where
  even the largest divider is too fast, that one.
-/

namespace SdHost

/-- Version of the controller's specification. -/
inductive SpecVersion where
  | v1
  | v2
  | v3
  deriving DecidableEq, Repr

namespace SpecVersion

/-- The version behind the register's number, which counts from zero. -/
def ofRaw (raw : UInt32) : SpecVersion :=
  if raw == 0 then v1 else if raw == 1 then v2 else v3

/-- The number of the version. -/
def number : SpecVersion → Nat
  | v1 => 1
  | v2 => 2
  | v3 => 3

/-- Whether the clock divider has ten bits. -/
def hasWideDivider (v : SpecVersion) : Bool := 3 ≤ v.number

/-- Whether the transfer mode has a register of its own. -/
def hasSeparateMixer (v : SpecVersion) : Bool := v.number < 2

end SpecVersion

/-- What the SD clock is for. -/
inductive ClockMode where
  /-- Finding out about the card. -/
  | initial
  /-- Moving data. -/
  | operational
  deriving DecidableEq, Repr

/-- The name of the mode in reports. -/
def ClockMode.name : ClockMode → String
  | initial => "Initial"
  | operational => "Operational"

/-- An encoded clock divider. -/
structure ClockDivider where
  value : UInt16
  deriving DecidableEq, Repr

namespace ClockDivider

/-- The largest divider up to version 2: it divides by 256. -/
def maxNarrow : UInt32 := 0x80

/-- The largest divider from version 3 on: it divides by 2046. -/
def maxWide : UInt32 := 0x3FF

/-- The base clock passes through. -/
def bypass : ClockDivider := ⟨0⟩

/-- The eight lower bits. -/
def lower (d : ClockDivider) : UInt8 := (d.value &&& 0xFF).toUInt8

/-- The two upper bits, used from version 3 on. -/
def upper (d : ClockDivider) : UInt8 := ((d.value >>> 8) &&& 0x3).toUInt8

/-- The divider in the system control register. -/
def fields (d : ClockDivider) : FieldValue Register.systemControl :=
  SystemControl.frequencySelect.put d.lower.toUInt32
    + SystemControl.dividerUpper.put d.upper.toUInt32

/-- The divider's bits in the system control register. -/
def bits (d : ClockDivider) : UInt32 := d.fields.value

/-- The number that the base clock is divided by. -/
def divisor (d : ClockDivider) : UInt32 := if d.value == 0 then 1 else 2 * d.value.toUInt32

/-- The rate that comes out of a base clock, rounded down. -/
def rate (d : ClockDivider) (base : UInt32) : UInt32 := base / d.divisor

/-- The quotient rounded up. -/
def ceilDiv (a b : UInt32) : UInt32 := if a % b == 0 then a / b else a / b + 1

/-- The least power of two below the largest narrow divider whose double reaches `ratio`, else
that largest one. -/
def narrow (ratio : UInt32) : UInt32 :=
  ([1, 2, 4, 8, 16, 32, 64].find? fun d : UInt32 => ratio ≤ 2 * d).getD maxNarrow

/-- Half of `ratio` rounded up, at most the largest wide divider. -/
def wide (ratio : UInt32) : UInt32 := min (ceilDiv ratio 2) maxWide

/-- The divider for a clock of at most `target` from a clock of `base`. -/
def choose (base target : UInt32) (version : SpecVersion) : Except ControllerError ClockDivider :=
  if target == 0 then .error .invalidParameter
  else
    let ratio := ceilDiv base target
    if ratio ≤ 1 then .ok bypass
    else if version.hasWideDivider then .ok ⟨(wide ratio).toUInt16⟩
    else .ok ⟨(narrow ratio).toUInt16⟩

example : (choose 200000000 400000 .v2).toOption = some ⟨0x80⟩ := by decide

example : (choose 250000000 100000 .v3).toOption = some ⟨0x3FF⟩ := by decide

end ClockDivider

end SdHost
