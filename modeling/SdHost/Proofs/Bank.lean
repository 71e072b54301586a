import Mathlib.Logic.Function.Basic
import SdHost.Proofs.Controller.Queueing

/-!
# Banks of registers

A *bank* is hardware whose registers do not know of each other: what a register reads depends on
what was done to that register alone.  What has come out of it is kept beside it, the writes and the
commands that were handed back.

* `Bank`, `Bank.World` — the registers, and what has come of them;
* `Bank.reply` — the surroundings that a bank makes;
* `Bank.latching` — one event at a time is latched in the interrupt status, and every other register
  reads a script, then the word that was stored last;
* `Bank.undisturbed` — handing back does not disturb a bank.
-/

namespace SdHost

open Dialogue Request

/-- Registers that do not know of each other. -/
structure Bank where
  /-- What a register is like. -/
  State : Register → Type
  read : (r : Register) → State r → UInt32 × State r
  write : (r : Register) → UInt32 → State r → State r

namespace Bank

/-- A bank with what has come out of it. -/
structure World (b : Bank) where
  registers : (r : Register) → b.State r
  writes : List (Register × UInt32)
  deliveries : List (Entry × Route)

variable {b : Bank}

/-- What becomes of a read. -/
def World.afterRead (w : b.World) (r : Register) : b.World :=
  { w with registers := Function.update w.registers r (b.read r (w.registers r)).2 }

/-- What becomes of a write. -/
def World.afterWrite (w : b.World) (r : Register) (value : UInt32) : b.World :=
  { w with
    registers := Function.update w.registers r (b.write r value (w.registers r))
    writes := w.writes ++ [(r, value)] }

/-- The surroundings that a bank makes.  A handler keeps its hands off the hardware; delays and
reports change nothing, and the other services are not there. -/
def reply (b : Bank) : Surroundings Answer b.World
  | .read r, w => ((b.read r (w.registers r)).1, w.afterRead r)
  | .write r value, w => ((), w.afterWrite r value)
  | .delay _, w => ((), w)
  | .baseClock _, w => (.ok 0, w)
  | .power _ _, w => (true, w)
  | .assertReset _, w => (.ok (), w)
  | .deassertReset _, w => (.ok (), w)
  | .allocate _ _, w => (none, w)
  | .release _ _, w => ((), w)
  | .keeps _, w => (false, w)
  | .report _, w => ((), w)
  | .handBack e route, w => ((), { w with deliveries := w.deliveries ++ [(e, route)] })

/-- Registers with a stored word and words to come.  The interrupt status latches one of these at a
time, when nothing is latched, and what is acknowledged is cleared; any other register reads them
one after the other before it reads the word that is stored. -/
def latching : Bank where
  State _ := UInt32 × List UInt32
  read r
    | (stored, word :: coming) =>
      if r = .interruptStatus then
        if stored = 0 then (word, (word, coming)) else (stored, (stored, word :: coming))
      else (word, (stored, coming))
    | (stored, []) => (stored, (stored, []))
  write r value s := (if r = .interruptStatus then s.1 &&& ~~~value else value, s.2)

/-! ### Nothing is disturbed -/

theorem commutes_handBack (e : Entry) (route : Route) {q : Request} (hq : q.ofDevice) :
    Commutes b.reply (.handBack e route) q := by
  cases q with
  | read r => exact ⟨fun _ => rfl, fun _ => rfl, fun _ => rfl⟩
  | write r value => exact ⟨fun _ => rfl, fun _ => rfl, fun _ => rfl⟩
  | delay micros => exact ⟨fun _ => rfl, fun _ => rfl, fun _ => rfl⟩
  | report m => exact ⟨fun _ => rfl, fun _ => rfl, fun _ => rfl⟩
  | _ => exact hq.elim

section Apart

variable (w : b.World) {r r' : Register} (hne : r' ≠ r) (value : UInt32)

include hne

theorem World.registers_afterRead : (w.afterRead r).registers r' = w.registers r' :=
  Function.update_of_ne hne _ _

theorem World.registers_afterWrite : (w.afterWrite r value).registers r' = w.registers r' :=
  Function.update_of_ne hne _ _

theorem World.afterRead_comm :
    (w.afterRead r).afterRead r' = (w.afterRead r').afterRead r := by
  have hfirst := w.registers_afterRead hne
  have hsecond := w.registers_afterRead hne.symm
  have hupdate := Function.update_comm hne.symm (b.read r (w.registers r)).2
    (b.read r' (w.registers r')).2 w.registers
  show ({ w with registers := Function.update _ r' (b.read r' ((w.afterRead r).registers r')).2 } :
    b.World) = { w with
      registers := Function.update _ r (b.read r ((w.afterRead r').registers r)).2 }
  rw [hfirst, hsecond]
  exact congrArg (fun registers => { w with registers := registers }) hupdate

theorem World.afterRead_afterWrite :
    (w.afterRead r).afterWrite r' value = (w.afterWrite r' value).afterRead r := by
  have hfirst := w.registers_afterRead hne
  have hsecond := w.registers_afterWrite hne.symm value
  have hupdate := Function.update_comm hne.symm (b.read r (w.registers r)).2
    (b.write r' value (w.registers r')) w.registers
  show ({ w with
      registers := Function.update _ r' (b.write r' value ((w.afterRead r).registers r'))
      writes := w.writes ++ [(r', value)] } : b.World) = { w with
      registers := Function.update _ r (b.read r ((w.afterWrite r' value).registers r)).2
      writes := w.writes ++ [(r', value)] }
  rw [hfirst, hsecond]
  exact congrArg (fun registers => { w with
    registers := registers
    writes := w.writes ++ [(r', value)] }) hupdate

end Apart

/-- A register can be read before another one is touched. -/
theorem commutes_read {r : Register} {q : Request} (hq : q.ofEngine)
    (hread : ∀ r', q = .read r' → r' ≠ r) (hwrite : ∀ r' value, q = .write r' value → r' ≠ r) :
    Commutes b.reply (.read r) q := by
  cases q with
  | read r' =>
    have hne : r' ≠ r := hread r' rfl
    refine ⟨fun w => ?_, fun w => ?_, fun w => w.afterRead_comm hne⟩
    · show (b.read r ((w.afterRead r').registers r)).1 = (b.read r (w.registers r)).1
      rw [w.registers_afterRead hne.symm]
    · show (b.read r' ((w.afterRead r).registers r')).1 = (b.read r' (w.registers r')).1
      rw [w.registers_afterRead hne]
  | write r' value =>
    have hne : r' ≠ r := hwrite r' value rfl
    refine ⟨fun w => ?_, fun _ => rfl, fun w => w.afterRead_afterWrite hne value⟩
    show (b.read r ((w.afterWrite r' value).registers r)).1 = (b.read r (w.registers r)).1
    rw [w.registers_afterWrite hne.symm]
  | delay micros => exact ⟨fun _ => rfl, fun _ => rfl, fun _ => rfl⟩
  | report m => exact ⟨fun _ => rfl, fun _ => rfl, fun _ => rfl⟩
  | handBack e route => exact ⟨fun _ => rfl, fun _ => rfl, fun _ => rfl⟩
  | _ => exact hq.elim

/-- **Handing back does not disturb a bank**, nor does a look at what it can do. -/
theorem undisturbed (b : Bank) : Undisturbed b.reply := by
  refine ⟨fun e route q hq => commutes_handBack e route hq, fun q hq => ?_, fun m q => ?_⟩
  · refine commutes_read hq ?_ ?_
    · rintro r rfl
      exact hq
    · rintro r value rfl
      exact hq
  · exact commutes_of_idle (fun _ _ => rfl) fun _ => rfl

end Bank

end SdHost
