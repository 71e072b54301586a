import SdHost.Command.Basic
import SdHost.Register.Field

/-!
# Traces

A trace lists what the driver did to its surroundings, in order.  Reads that follow one another
directly and give the same value of the same register are one entry with a count.

* `TraceEntry`, `Tracing` — what is listed;
* `Trace.add`, `Trace.addRead` — adding an entry.
-/

namespace SdHost.Bench

/-- One thing that the driver did, or that was done to a tester's callback. -/
inductive TraceEntry where
  | wrote (register : Register) (value : UInt32)
  /-- The same value was read so many times in a row. -/
  | readRun (register : Register) (value : UInt32) (count : Nat)
  | delayed (micros : UInt32)
  | askedClock (clock : UInt32)
  | switchedPower (device : UInt32) (on : Bool)
  | assertedReset (line : UInt32)
  | deassertedReset (line : UInt32)
  | allocated (size alignment : UInt64) (address : Option UInt64)
  | released (region : DmaRegion) (alignment : UInt64)
  | logged (line : String)
  | calledBack (token : Nat) (code : Int) (command : Command)
  /-- A callback raised an interrupt. -/
  | raisedInterrupt (served : Bool)
  /-- A callback tried to lock the controller. -/
  | triedLock (taken : Bool)
  deriving Repr

/-- Which register accesses are listed. -/
inductive Tracing where
  | none
  | writes
  | accesses
  deriving DecidableEq, Repr

/-- Whether writes are listed. -/
def Tracing.listsWrites : Tracing → Bool
  | none => false
  | writes => true
  | accesses => true

/-- Whether reads are listed. -/
def Tracing.listsReads : Tracing → Bool
  | none => false
  | writes => false
  | accesses => true

/-- Entries in order. -/
abbrev Trace := Array TraceEntry

namespace Trace

/-- Adds an entry. -/
def add (t : Trace) (e : TraceEntry) : Trace := Array.push t e

/-- Adds a read, to the last entry if that read the same. -/
def addRead (t : Trace) (r : Register) (value : UInt32) : Trace :=
  match Array.back? t with
  | some (.readRun r' value' count) =>
    if r' = r && value' == value then (Array.pop t).push (.readRun r value (count + 1))
    else t.add (.readRun r value 1)
  | _ => t.add (.readRun r value 1)

end Trace

end SdHost.Bench
