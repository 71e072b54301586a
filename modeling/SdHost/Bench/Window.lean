import SdHost.Register.Field

/-!
# A plain register window

A window of words at byte offsets, without side effects.  `Window.modify` is the access that reads,
clears some bits, sets others and writes back.
-/

namespace SdHost.Bench

/-- Words that are read and written at byte offsets. -/
structure Window where
  words : Array UInt32
  deriving Repr

namespace Window

/-- A window of so many words, all zero. -/
def zeros (count : Nat) : Window := ⟨Array.replicate count 0⟩

/-- The length of the window in bytes. -/
def size (w : Window) : Nat := 4 * w.words.size

/-- The word of a register. -/
def read (w : Window) (r : Register) : UInt32 := w.words.getD (r.offset / 4) 0

/-- The window with another word for a register. -/
def write (w : Window) (r : Register) (value : UInt32) : Window :=
  ⟨w.words.setIfInBounds (r.offset / 4) value⟩

/-- Clears some bits of a register and sets others. -/
def modify (w : Window) (r : Register) (clear set : UInt32) : Window :=
  w.write r ((w.read r &&& ~~~clear) ||| set)

end Window

end SdHost.Bench
