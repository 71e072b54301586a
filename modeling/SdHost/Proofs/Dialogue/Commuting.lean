import SdHost.Proofs.Dialogue.Asks

/-!
# Dialogues out of order

Two questions *commute* in given surroundings if neither answer, nor the state they end in, depends
on which is asked first.  Two dialogues whose questions commute can be held in either order.

* `Commutes` — two questions commute;
* `run_congr` — a dialogue can be replaced by one that runs alike;
* `run_swap` — dialogues whose questions commute can be swapped.
-/

namespace SdHost.Dialogue

variable {Q : Type} {A : Q → Type} {α β γ σ : Type} {reply : Surroundings A σ}

/-- It does not matter which of two questions is asked first. -/
structure Commutes (reply : Surroundings A σ) (q q' : Q) : Prop where
  first : ∀ s, (reply q (reply q' s).2).1 = (reply q s).1
  second : ∀ s, (reply q' (reply q s).2).1 = (reply q' s).1
  state : ∀ s, (reply q' (reply q s).2).2 = (reply q (reply q' s).2).2

/-- A question that leaves the state alone commutes with all whose answers tell nothing new. -/
theorem commutes_of_idle {q q' : Q} (hanswer : ∀ s s', (reply q s).1 = (reply q s').1)
    (hstate : ∀ s, (reply q s).2 = s) : Commutes reply q q' := by
  refine ⟨fun s => hanswer _ _, fun s => ?_, fun s => ?_⟩
  · rw [hstate]
  · rw [hstate, hstate]

/-! ### Running alike -/

/-- A part of a dialogue can be replaced by one that runs alike. -/
theorem run_congr {d d' : Dialogue A α} {f f' : α → Dialogue A β}
    (hd : run reply d = run reply d') (hf : ∀ a, run reply (f a) = run reply (f' a)) :
    run reply (d >>= f) = run reply (d' >>= f') := by
  funext s
  rw [run_bind, run_bind, hd, hf]

/-- What follows can be replaced by what runs alike. -/
theorem run_congr_right (d : Dialogue A α) {f f' : α → Dialogue A β}
    (hf : ∀ a, run reply (f a) = run reply (f' a)) :
    run reply (d >>= f) = run reply (d >>= f') :=
  run_congr rfl hf

/-- A question can be asked after a dialogue, if it commutes with all that is asked there. -/
theorem run_swap_question {q : Q} {d : Dialogue A α} {k : A q → α → Dialogue A β}
    (h : Asks (Commutes reply q) d) :
    run reply (question q >>= fun x => d >>= fun a => k x a) =
      run reply (d >>= fun a => question q >>= fun x => k x a) := by
  induction d with
  | done a => rfl
  | ask q' next ih =>
    funext s
    have hcommutes : Commutes reply q q' := h.question reply s
    -- first the two questions at the front are swapped, then the rest follows
    have hrest := congrFun (ih (reply q' s).1 (h.next _)) (reply q' s).2
    rw [run_bind] at hrest
    change run reply (next (reply q' (reply q s).2).1 >>= fun a => k (reply q s).1 a)
      (reply q' (reply q s).2).2 = run reply (next (reply q' s).1 >>= fun a =>
        question q >>= fun x => k x a) (reply q' s).2
    rw [← hrest, hcommutes.second, hcommutes.state]
    change _ = run reply (next (reply q' s).1 >>= fun a => k (reply q (reply q' s).2).1 a)
      (reply q (reply q' s).2).2
    rw [hcommutes.first]

/-- **Dialogues whose questions commute** can be swapped. -/
theorem run_swap {d : Dialogue A α} {e : Dialogue A β} {k : α → β → Dialogue A γ}
    (h : Asks (fun q => Asks (Commutes reply q) e) d) :
    run reply (d >>= fun a => e >>= fun b => k a b) =
      run reply (e >>= fun b => d >>= fun a => k a b) := by
  induction d with
  | done a => rfl
  | ask q next ih =>
    have hfirst : run reply (question q >>= fun x => next x >>= fun a => e >>= fun b => k a b) =
        run reply (question q >>= fun x => e >>= fun b => next x >>= fun a => k a b) :=
      run_congr_right _ fun x => ih x (h.next x)
    funext s
    have hcommutes : Asks (Commutes reply q) e := h.question reply s
    exact (congrFun hfirst s).trans (congrFun (run_swap_question hcommutes) s)

end SdHost.Dialogue
