import SdHost.Proofs.Dialogue.Looking
import SdHost.Proofs.Register.Reading

/-!
# The system control register

The register keeps what is written but for some bits that change by themselves: resets and the
wake-up end, and the internal clock becomes stable.  What is read of the other bits is what was
written last.

* `SystemControl.steady` — the bits that stay as they are written;
* `controlAfter` — the word that was written last;
* `Shows`, `SystemControl.Kept` — exchanges with such a register, and surroundings that have one;
* `Circuit`, `controlled`, `kept_controlled` — a register whose resets and wake-up end at once
  unless they are stuck, and whose clock is stable as soon as it is enabled, unless it never is;
* `EachWrite` — what holds of each word that is written, with what was exchanged before.
-/

namespace SdHost

open Dialogue Register

variable {σ α : Type} {es : List Exchange} {w : UInt32}

/-! ### What is written and what is read -/

/-- The bits of the system control register that stay as they are written: all but those of the
resets and the wake-up, and the one that says that the internal clock is stable. -/
def SystemControl.steady : UInt32 := 0xF0FFFFFD

/-- The word that was written to the system control register last, or its word before. -/
def controlAfter (w : UInt32) (es : List Exchange) : UInt32 := stored (fun _ => w) es systemControl

theorem controlAfter_append (first second : List Exchange) :
    controlAfter w (first ++ second) = controlAfter (controlAfter w first) second := by
  unfold controlAfter
  rw [stored_append]
  exact @stored_congr (stored (fun _ => w) first)
    (fun _ => stored (fun _ => w) first systemControl) systemControl rfl second

theorem controlAfter_of_unwritten (h : writes es = []) : controlAfter w es = w := by
  rw [controlAfter, stored_of_unwritten _ h]

/-- A word that is written is there as long as nothing is written. -/
theorem controlAfter_changing (f : FieldValue systemControl) (old : UInt32) {later : List Exchange}
    (h : writes later = []) :
    controlAfter w (changing f old ++ later) = f.applyTo old := by
  rw [controlAfter_append, controlAfter_of_unwritten h]
  rfl

theorem controlAfter_concat (first : List Exchange) (f : FieldValue systemControl) (old : UInt32) :
    controlAfter w (first ++ changing f old) = f.applyTo old := by
  rw [controlAfter_append, ← List.append_nil (changing f old),
    controlAfter_changing f old writes_nil]

/-- Every word that is read of the system control register is the one that was written last, or the
word before, but for the bits that change by themselves. -/
def Shows (w : UInt32) (es : List Exchange) : Prop :=
  ∀ before word after, es = before ++ ⟨.read systemControl, word⟩ :: after →
    AgreeOn SystemControl.steady word (controlAfter w before)

theorem Shows.left {first second : List Exchange} (h : Shows w (first ++ second)) :
    Shows w first := by
  rintro before word after rfl
  exact h before word (after ++ second) (by rw [List.append_assoc, List.cons_append])

theorem Shows.right {first second : List Exchange} (h : Shows w (first ++ second)) :
    Shows (controlAfter w first) second := by
  rintro before word after rfl
  rw [← controlAfter_append]
  exact h (first ++ before) word after (by rw [List.append_assoc])

theorem Shows.read {word : UInt32} (h : Shows w (⟨.read systemControl, word⟩ :: es)) :
    AgreeOn SystemControl.steady word w :=
  h [] word es rfl

/-! ### Surroundings with such a register -/

/-- The surroundings have a system control register that keeps its steady bits: it is read as it is,
only a write changes these bits, and then to those of the word written. -/
structure SystemControl.Kept (reply : Surroundings Request.Answer σ) (held : σ → UInt32) :
    Prop where
  read : ∀ s, (reply (.read systemControl) s).1 = held s
  write : ∀ v s, AgreeOn steady (held (reply (.write systemControl v) s).2) v
  other : ∀ q s, (∀ v, q ≠ .write systemControl v) →
    AgreeOn steady (held (reply q s).2) (held s)

namespace SystemControl.Kept

variable {reply : Surroundings Request.Answer σ} {held : σ → UInt32}

/-- One exchange with the register. -/
theorem exchange (h : Kept reply held) (q : Request) (s : σ) :
    AgreeOn steady (held (reply q s).2) (controlAfter (held s) [⟨q, (reply q s).1⟩]) := by
  cases q with
  | write r v =>
    by_cases hr : r = systemControl
    · subst hr
      exact h.write v s
    · have hsame : controlAfter (held s) [⟨.write r v, (reply (.write r v) s).1⟩] = held s :=
        if_neg (Ne.symm hr)
      rw [hsame]
      exact h.other _ s fun v' habs => hr (Request.write.inj habs).1
  | _ => exact h.other _ s fun v habs => by cases habs

theorem agree_controlAfter {a b : UInt32} (h : AgreeOn steady a b) (es : List Exchange) :
    AgreeOn steady (controlAfter a es) (controlAfter b es) := by
  induction es generalizing a b with
  | nil => exact h
  | cons x es ih =>
    have hstep : AgreeOn steady (controlAfter a [x]) (controlAfter b [x]) := by
      obtain ⟨question, answer⟩ := x
      cases question with
      | write r v =>
        show AgreeOn steady (if systemControl = r then v else a)
          (if systemControl = r then v else b)
        split
        · exact .refl steady v
        · exact h
      | _ => exact h
    rw [← List.singleton_append, controlAfter_append, controlAfter_append]
    exact ih hstep

/-- **What the register holds** in the end is what was written last, in its steady bits. -/
theorem held_run (h : Kept reply held) (d : Action α) (s : σ) :
    AgreeOn steady (held (run reply d s).2) (controlAfter (held s) (exchanges reply d s)) := by
  induction d generalizing s with
  | done a => exact .refl steady (held s)
  | ask q k ih =>
    show AgreeOn steady _ (controlAfter (held s) ([⟨q, (reply q s).1⟩] ++ exchanges reply _ _))
    rw [controlAfter_append]
    exact (ih _ _).trans (agree_controlAfter (h.exchange q s) _)

/-- **What is read** is what was written last, in its steady bits. -/
theorem shows (h : Kept reply held) (d : Action α) (s : σ) :
    Shows (held s) (exchanges reply d s) := by
  induction d generalizing s with
  | done a =>
    intro before word after habs
    exact absurd habs (by simp [exchanges])
  | ask q k ih =>
    intro before word after hsplit
    cases before with
    | nil =>
      obtain ⟨hfirst, -⟩ := List.cons.inj hsplit
      obtain ⟨rfl, hanswer⟩ := Exchange.mk.inj hfirst
      rw [← eq_of_heq hanswer, h.read]
      exact .refl steady (held s)
    | cons x before =>
      obtain ⟨rfl, hrest⟩ := List.cons.inj hsplit
      rw [← List.singleton_append, controlAfter_append]
      exact (ih _ _ before word after hrest).trans (agree_controlAfter (h.exchange q s) before)

end SystemControl.Kept

/-- How the bits of a system control register that change by themselves do so. -/
structure Circuit where
  /-- Of the resets and the wake-up, those that never end. -/
  stuck : UInt32 := 0
  /-- The internal clock becomes stable. -/
  stabilises : Bool := true

/-- What a word becomes that is written: resets and the wake-up end unless they are stuck, and the
internal clock is stable if it is enabled, unless it never is. -/
def Circuit.latch (b : Circuit) (word : UInt32) : UInt32 :=
  let ended := word &&& ~~~(0x0F000000 &&& ~~~b.stuck)
  if SystemControl.internalClockEnable.isSet ended && b.stabilises then
    ended ||| SystemControl.internalClockStable.mask
  else ended &&& ~~~SystemControl.internalClockStable.mask

/-- Surroundings with such a register; all else is answered as it may be. -/
def controlled (b : Circuit) (other : Surroundings Request.Answer σ) :
    Surroundings Request.Answer (UInt32 × σ)
  | .read r, (w, s) =>
    if r = systemControl then (w, (w, s)) else ((other (.read r) s).1, (w, (other (.read r) s).2))
  | .write r v, (w, s) =>
    if r = systemControl then ((), (b.latch v, s)) else ((), (w, (other (.write r v) s).2))
  | q, (w, s) => ((other q s).1, (w, (other q s).2))

theorem Circuit.agreeOn_latch (b : Circuit) (word : UInt32) :
    AgreeOn SystemControl.steady (b.latch word) word := by
  have hended : AgreeOn SystemControl.steady (word &&& ~~~(0x0F000000 &&& ~~~b.stuck)) word := by
    have hapart : (0x0F000000 &&& ~~~b.stuck) &&& SystemControl.steady = 0 := by
      rw [UInt32.and_comm 0x0F000000, UInt32.and_assoc]
      exact UInt32.and_zero
    unfold AgreeOn
    rw [UInt32.and_assoc, not_and_of_apart hapart]
  have hstable : SystemControl.internalClockStable.mask &&& SystemControl.steady = 0 := by decide
  unfold latch
  dsimp only
  split
  · refine AgreeOn.trans ?_ hended
    unfold AgreeOn
    rw [or_and, hstable, UInt32.or_zero]
  · refine AgreeOn.trans ?_ hended
    unfold AgreeOn
    rw [UInt32.and_assoc, not_and_of_apart hstable]

/-- **Such a register** keeps its steady bits. -/
theorem kept_controlled (b : Circuit) (other : Surroundings Request.Answer σ) :
    SystemControl.Kept (controlled b other) Prod.fst := by
  refine ⟨fun _ => rfl, fun v _ => b.agreeOn_latch v, ?_⟩
  rintro q ⟨w, s⟩ hq
  cases q with
  | read r =>
    have hsame : (controlled b other (.read r) (w, s)).2.1 = w := by
      simp only [controlled]
      split <;> rfl
    rw [hsame]
    exact .refl _ w
  | write r v =>
    have hr : r ≠ systemControl := fun habs => hq v (by rw [habs])
    have hsame : (controlled b other (.write r v) (w, s)).2.1 = w := by
      simp only [controlled, if_neg hr]
    rw [hsame]
    exact .refl _ w
  | _ => exact .refl _ w

/-! ### Each word that is written -/

/-- Each word that is written to the system control register is as it must be, after what was
exchanged before. -/
def EachWrite (P : List Exchange → UInt32 → Prop) (es : List Exchange) : Prop :=
  ∀ before v after, es = before ++ ⟨.write systemControl v, ()⟩ :: after → P before v

section EachWrite

variable {P : List Exchange → UInt32 → Prop} {first second : List Exchange}

theorem eachWrite_of_unwritten (h : writes es = []) : EachWrite P es := by
  rintro before v after rfl
  rw [writes_append] at h
  cases (List.append_eq_nil_iff.mp h).2

theorem eachWrite_append (hfirst : EachWrite P first)
    (hsecond : EachWrite (fun before => P (first ++ before)) second) :
    EachWrite P (first ++ second) := by
  intro before v after hsplit
  rcases split_append hsplit with ⟨between, rfl, hafter⟩ | ⟨later, hbefore⟩
  · exact hsecond between v after hafter
  · exact hfirst before v later hbefore

theorem eachWrite_changing (f : FieldValue systemControl) (old : UInt32)
    (h : P [⟨.read systemControl, old⟩] (f.applyTo old)) : EachWrite P (changing f old) := by
  intro before v after hsplit
  rcases List.cons_eq_append_iff.mp hsplit with ⟨rfl, habs⟩ | ⟨more, rfl, hrest⟩
  · cases habs
  · rcases List.cons_eq_append_iff.mp hrest with ⟨rfl, hhere⟩ | ⟨more', rfl, hnone⟩
    · obtain ⟨hwrite, -⟩ := List.cons.inj hhere
      obtain ⟨hword, -⟩ := Exchange.mk.inj hwrite
      obtain ⟨-, rfl⟩ := Request.write.inj hword
      exact h
    · exact absurd hnone (by simp)

end EachWrite

end SdHost
