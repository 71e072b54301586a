import Mathlib.Data.List.Induction
import SdHost.Proofs.Platform.Glitchless

/-!
# The uSDHC clock during a change

The uSDHC family starts the internal clock only if it is off, leaves a card clock alone that is not
stable, and otherwise sets prescaler, divisor and timeout at once.  On hardware whose system control
register keeps what is written, a change that is refused leaves these three fields as they were, and
no other field is touched by any change.

* `Usdhc.Starts`, `Usdhc.Enables`, `Usdhc.Programs` — the ways through starting the internal clock,
  up to a running one, and through the change; `Usdhc.path_program` — there are no others;
* `Enables.kept`, `Enables.lights` — what starting the internal clock leaves alone, and when it lets
  the card clock out;
* `usdhc_clock_change` — the whole change in such surroundings.
-/

namespace SdHost

open Dialogue Register SystemControl

variable {es : List Exchange} {w : UInt32} {limit : Nat}

/-- The bits that enabling the clocks has nothing to do with: all but their enable bits and the bits
that change by themselves. -/
def SystemControl.besidesClocks : UInt32 := 0xF0FFFFF8

namespace Usdhc

variable {request : ClockRequest} {out : Except ControllerError Unit}

/-! ### The ways through a change -/

/-- The ways through starting the internal clock: it is enabled and awaited, and only once it was
seen stable is the card clock let out. -/
inductive Starts (limit : Nat) : List Exchange → Except ControllerError Unit → Prop where
  | never {old : UInt32} {watch : List Exchange}
      (hwatch : Watched systemControl internalClockStable.isSet limit watch false) :
      Starts limit (changing internalClockEnable.set old ++
        (watch ++ [⟨.report .usdhcInternalClockUnstable, ()⟩])) (.error .clockUnstable)
  | stable {old old' : UInt32} {watch : List Exchange}
      (hwatch : Watched systemControl internalClockStable.isSet limit watch true) :
      Starts limit (changing internalClockEnable.set old ++
        (watch ++ changing cardClockEnable.set old')) (.ok ())

/-- The ways up to a running internal clock: it runs, or it is started. -/
inductive Enables (limit : Nat) : List Exchange → Except ControllerError Unit → Prop where
  | running {word : UInt32} (hon : internalClockEnable.isSet word = true) :
      Enables limit (readings systemControl [word]) (.ok ())
  | starts {word : UInt32} {start : List Exchange} {out : Except ControllerError Unit}
      (hoff : internalClockEnable.isSet word = false) (hstart : Starts limit start out) :
      Enables limit (readings systemControl [word] ++ start) out

/-- The prescaler that a change comes to, if the mixer register is read as `mixer`. -/
def prescalerFor (mode : ClockMode) (mixer : UInt32) : UInt32 :=
  (Setting.ofMode mode).effectivePrescaler (MixerControl.doubleDataRate.isSet mixer)

/-- The ways through a change. -/
inductive Programs (request : ClockRequest) :
    List Exchange → Except ControllerError Unit → Prop where
  /-- The internal clock was never stable. -/
  | dark {first : List Exchange} {e : ControllerError}
      (hfirst : Enables request.spinLimit first (.error e)) : Programs request first (.error e)
  /-- The card clock is not stable. -/
  | refused {first : List Exchange} {present : UInt32}
      (hfirst : Enables request.spinLimit first (.ok ()))
      (hpresent : PresentState.clockStable.isSet present = false) :
      Programs request (first ++ (readings presentState [present] ++
        [⟨.report .cardClockUnstable, ()⟩])) (.error .clockUnstable)
  /-- The setting of the mode is programmed. -/
  | set {first : List Exchange} {present mixer old : UInt32} {told : List Exchange}
      (hfirst : Enables request.spinLimit first (.ok ()))
      (hpresent : PresentState.clockStable.isSet present = true) (htold : writes told = []) :
      Programs request (first ++ (readings presentState [present] ++ (readings mixerControl [mixer]
        ++ (changing ((Setting.ofMode request.mode).fields (prescalerFor request.mode mixer)) old
          ++ told)))) (.ok ())

/-- A change of the register is a step. -/
theorem follows_changing (f : FieldValue systemControl) :
    Follows (liftM (Register.modify f) : ExceptT ControllerError Action Unit)
      (InOrder [Course.sure fun es => ∃ old, es = changing f old]) :=
  follows_one (follows_lift fun _ h => path_modify h)

theorem starts_of_path (h : Path (startInternalClock limit).run es out) : Starts limit es out := by
  have hsteps := follows_bind (follows_changing internalClockEnable.set)
    (follows_wait_bind (sees_run_lift (sees_reads internalClockStable))
      (follows_changing cardClockEnable.set)) h
  cases hsteps with
  | failed henable => cases henable.2
  | made henable hrest =>
    obtain ⟨⟨old, rfl⟩, -⟩ := henable
    cases hrest with
    | failed hwait =>
      cases hwait with
      | never hwatch => exact .never hwatch
    | made hwait hlight =>
      cases hwait with
      | came hwatch =>
        cases hlight with
        | failed hlight => cases hlight.2
        | made hlight hnone =>
          obtain ⟨⟨old', rfl⟩, -⟩ := hlight
          cases hnone
          rw [List.append_nil]
          exact .stable hwatch

/-- The change from a running internal clock on. -/
theorem programs_of_path {first : List Exchange}
    (hfirst : Enables request.spinLimit first (.ok ()))
    (h : Path (do
      unless ← Register.reads PresentState.clockStable do
        report .cardClockUnstable
        throw .clockUnstable
      let setting := Setting.ofMode request.mode
      let prescaler := setting.effectivePrescaler (← Register.reads MixerControl.doubleDataRate)
      Register.modify (setting.fields prescaler)
      report (.usdhcClockSet request.mode prescaler (setting.divisor + 1)) :
        ExceptT ControllerError Action Unit).run es out) :
    Programs request (first ++ es) out := by
  obtain ⟨_, b, _, hlook, hrest, rfl⟩ := path_run_lift_bind.mp h
  obtain ⟨present, rfl, rfl⟩ := sees_reads PresentState.clockStable hlook
  cases hpresent : PresentState.clockStable.isSet present with
  | false =>
    rw [hpresent, if_neg Bool.false_ne_true] at hrest
    obtain ⟨rfl, rfl⟩ := path_report_throw hrest
    exact .refused hfirst hpresent
  | true =>
    rw [hpresent, if_pos rfl] at hrest
    obtain ⟨_, _, _, hmixer, hset, rfl⟩ := path_run_lift_bind.mp hrest
    obtain ⟨mixer, rfl, rfl⟩ := sees_reads MixerControl.doubleDataRate hmixer
    obtain ⟨_, _, _, hmodify, hreport, rfl⟩ := path_run_lift_bind.mp hset
    obtain ⟨old, rfl⟩ := path_modify hmodify
    obtain ⟨_, htold, rfl⟩ := path_bind_pure.mp hreport
    obtain rfl := path_question.mp htold
    exact .set hfirst hpresent rfl

/-- **The ways through a change** are those. -/
theorem path_program (h : Path (program request).run es out) : Programs request es out := by
  obtain ⟨_, running, _, hlook, hrest, rfl⟩ := path_run_lift_bind.mp h
  obtain ⟨word, rfl, rfl⟩ := sees_reads internalClockEnable hlook
  cases hrunning : internalClockEnable.isSet word with
  | true =>
    rw [hrunning, if_pos rfl] at hrest
    exact programs_of_path (.running hrunning) hrest
  | false =>
    rw [hrunning, if_neg Bool.false_ne_true] at hrest
    rcases path_run_bind.mp hrest with ⟨start, _, more, hstart, hmore, rfl⟩ | ⟨e, hstart, rfl⟩
    · rw [← List.append_assoc]
      exact programs_of_path (.starts hrunning (starts_of_path hstart)) hmore
    · exact .dark (.starts hrunning (starts_of_path hstart))

/-! ### What is left alone -/

/-- After the internal clock was enabled it was seen stable, with nothing written in between. -/
def SeenStable (es : List Exchange) : Prop :=
  ∃ earlier enabling between word later,
    es = earlier ++ ⟨.write systemControl enabling, ()⟩ ::
      (between ++ ⟨.read systemControl, word⟩ :: later) ∧
    internalClockEnable.isSet enabling = true ∧ internalClockStable.isSet word = true ∧
    writes between = []

/-- A word that may be written after these exchanges, if the register held `w` before them: the card
clock is let out in it only if it was out, or the internal clock was seen stable. -/
def Lights (w : UInt32) (before : List Exchange) (v : UInt32) : Prop :=
  cardClockEnable.isSet v = true →
    cardClockEnable.isSet (controlAfter w before) = true ∨ SeenStable before

theorem SeenStable.before (first : List Exchange) (h : SeenStable es) :
    SeenStable (first ++ es) := by
  obtain ⟨earlier, enabling, between, word, later, rfl, hseen⟩ := h
  exact ⟨first ++ earlier, enabling, between, word, later, (List.append_assoc _ _ _).symm, hseen⟩

theorem SeenStable.append (h : SeenStable es) (more : List Exchange) :
    SeenStable (es ++ more) := by
  obtain ⟨earlier, enabling, between, word, later, rfl, hseen⟩ := h
  exact ⟨earlier, enabling, between, word, later ++ more, by simp, hseen⟩

/-- What may be written after the second part may be written after both. -/
theorem Lights.after {before : List Exchange} {v : UInt32} (first : List Exchange)
    (h : Lights (controlAfter w first) before v) : Lights w (first ++ before) v := by
  intro hon
  rw [controlAfter_append]
  exact (h hon).imp_right (.before first)

theorem eachWrite_lights_append {first second : List Exchange}
    (hfirst : EachWrite (Lights w) first)
    (hsecond : EachWrite (Lights (controlAfter w first)) second) :
    EachWrite (Lights w) (first ++ second) :=
  eachWrite_append hfirst fun before v after hsplit => (hsecond before v after hsplit).after first

/-- A change leaves alone the steady bits that it does not decide. -/
theorem agreeOn_change {f : FieldValue systemControl} {m old : UInt32} (hwithin : f.Within)
    (hmask : f.mask &&& m = 0) (hm : steady &&& m = m) (hshows : Shows w (changing f old)) :
    AgreeOn m (f.applyTo old) w := by
  rw [← List.append_nil (changing f old)] at hshows
  exact DividedClock.agreeOn_changing hwithin hmask hm hshows

/-- A change of other bits leaves the card clock as it is. -/
theorem lights_changing {f : FieldValue systemControl} {old : UInt32} (hwithin : f.Within)
    (hmask : f.mask &&& cardClockEnable.mask = 0) (hshows : Shows w (changing f old)) :
    EachWrite (Lights w) (changing f old) := by
  have hsame := agreeOn_change hwithin hmask (by decide) hshows
  refine eachWrite_changing f old fun hon => .inl ?_
  rw [cardClockEnable.isSet_congr hsame] at hon
  exact hon

/-- **The card clock** is out at the end only if it was out, or the internal clock was seen
stable. -/
theorem lit_of_eachWrite (h : EachWrite (Lights w) es)
    (hon : cardClockEnable.isSet (controlAfter w es) = true) :
    cardClockEnable.isSet w = true ∨ SeenStable es := by
  induction es using List.reverseRecOn with
  | nil => exact .inl hon
  | append_singleton es x ih =>
    have hleft : EachWrite (Lights w) es := by
      rintro before v after rfl
      exact h before v (after ++ [x]) (by simp)
    have hcontinue : cardClockEnable.isSet (controlAfter w es) = true →
        cardClockEnable.isSet w = true ∨ SeenStable (es ++ [x]) :=
      fun hon => (ih hleft hon).imp_right (·.append [x])
    -- only a write to the register makes a difference
    obtain ⟨question, answer⟩ := x
    rw [controlAfter_append] at hon
    cases question with
    | write r v =>
      by_cases hr : r = systemControl
      · subst hr
        rcases h es v [] rfl hon with hbefore | hseen
        · exact hcontinue hbefore
        · exact .inr (hseen.append _)
      · have hsame : controlAfter (controlAfter w es) [⟨.write r v, answer⟩] = controlAfter w es :=
          if_neg (Ne.symm hr)
        rw [hsame] at hon
        exact hcontinue hon
    | _ => exact hcontinue hon

/-! ### Starting the internal clock -/

/-- Enabling the internal clock touches nothing but its enable bit. -/
theorem enabled_changing {old : UInt32} (hshows : Shows w (changing internalClockEnable.set old)) :
    internalClockEnable.isSet (internalClockEnable.set.applyTo old) = true ∧
      AgreeOn besidesClocks (internalClockEnable.set.applyTo old) w := by
  refine ⟨?_, agreeOn_change (FieldValue.within_put _ _) (by decide) (by decide) hshows⟩
  rw [FieldValue.isSet_applyTo _ _ _ (by decide)]
  decide

/-- Starting the internal clock leaves it enabled and touches nothing but the bits of the clocks. -/
theorem Starts.kept (h : Starts limit es out) (hshows : Shows w es) :
    internalClockEnable.isSet (controlAfter w es) = true ∧
      AgreeOn besidesClocks (controlAfter w es) w := by
  cases h with
  | never hwatch =>
    rw [controlAfter_changing _ _ (unwritten_append hwatch.writes rfl)]
    exact enabled_changing hshows.left
  | @stable old old' watch hwatch =>
    obtain ⟨hon, hkept⟩ := enabled_changing hshows.left
    have hlight := hshows.right.right
    rw [controlAfter_of_unwritten hwatch.writes] at hlight
    have hsame : AgreeOn (besidesClocks ||| internalClockEnable.mask)
        (cardClockEnable.set.applyTo old') (internalClockEnable.set.applyTo old) :=
      agreeOn_change (FieldValue.within_put _ _) (by decide) (by decide) hlight
    rw [← List.append_assoc, controlAfter_concat]
    refine ⟨?_, (hsame.mono (by decide)).trans hkept⟩
    rw [internalClockEnable.isSet_congr (hsame.mono (by decide)), hon]

/-- The card clock is let out once the internal clock was seen stable. -/
theorem Starts.lights (h : Starts limit es out) (hshows : Shows w es) :
    EachWrite (Lights w) es := by
  have henable : ∀ {old : UInt32}, Shows w (changing internalClockEnable.set old) →
      EachWrite (Lights w) (changing internalClockEnable.set old) :=
    lights_changing (FieldValue.within_put _ _) (by decide)
  cases h with
  | never hwatch =>
    exact eachWrite_lights_append (henable hshows.left)
      (eachWrite_of_unwritten (unwritten_append hwatch.writes rfl))
  | @stable old old' watch hwatch =>
    refine eachWrite_append (henable hshows.left) ?_
    refine eachWrite_append (eachWrite_of_unwritten hwatch.writes) ?_
    refine eachWrite_changing _ _ fun _ => .inr ?_
    cases hwatch with
    | @seen misses last _ _ hlast =>
      refine ⟨[⟨.read systemControl, old⟩], internalClockEnable.set.applyTo old,
        readings systemControl misses, last, [⟨.read systemControl, old'⟩], ?_,
        (enabled_changing hshows.left).1, hlast, writes_readings _ _⟩
      simp [changing, readings]

/-- **Up to a running internal clock** nothing but the bits of the clocks is touched. -/
theorem Enables.kept (h : Enables limit es out) (hshows : Shows w es) :
    internalClockEnable.isSet (controlAfter w es) = true ∧
      AgreeOn besidesClocks (controlAfter w es) w := by
  cases h with
  | running hon =>
    rw [controlAfter_of_unwritten (writes_readings _ _)]
    refine ⟨?_, .refl _ w⟩
    rw [← internalClockEnable.isSet_congr (hshows.read.mono (by decide)), hon]
  | starts hoff hstart =>
    have hshows' := hshows.right
    rw [controlAfter_of_unwritten (writes_readings _ _)] at hshows'
    rw [controlAfter_append, controlAfter_of_unwritten (writes_readings _ _)]
    exact hstart.kept hshows'

theorem Enables.lights (h : Enables limit es out) (hshows : Shows w es) :
    EachWrite (Lights w) es := by
  cases h with
  | running _ => exact eachWrite_of_unwritten (writes_readings _ _)
  | starts hoff hstart =>
    refine eachWrite_lights_append (eachWrite_of_unwritten (writes_readings _ _)) ?_
    exact hstart.lights hshows.right

/-! ### The end of a change -/

/-- The bits that a change has nothing to do with: neither the three fields of a setting, nor bits
of the clocks, nor bits that change by themselves. -/
def untouched : UInt32 := 0xF0F00008

/-- The word holds the setting, with this prescaler. -/
structure Setting.InEffect (setting : Setting) (prescaler word : UInt32) : Prop where
  prescaler : frequencySelect.get word = prescaler
  divisor : SystemControl.divisor.get word = setting.divisor
  timeout : dataTimeout.get word = setting.timeout

theorem Setting.InEffect.congr {setting : Setting} {prescaler a b : UInt32}
    (h : setting.InEffect prescaler a) (hab : AgreeOn steady b a) :
    setting.InEffect prescaler b :=
  ⟨(frequencySelect.get_congr (hab.mono (by decide))).trans h.prescaler,
    (SystemControl.divisor.get_congr (hab.mono (by decide))).trans h.divisor,
    (dataTimeout.get_congr (hab.mono (by decide))).trans h.timeout⟩

theorem within_fields (setting : Setting) (prescaler : UInt32) :
    (setting.fields prescaler).Within :=
  FieldValue.within_add (FieldValue.within_add (FieldValue.within_put _ _)
    (FieldValue.within_put _ _)) (FieldValue.within_put _ _)

theorem mask_fields (setting : Setting) (prescaler : UInt32) :
    (setting.fields prescaler).mask = 0xFFFF0 := by
  have hmask : (setting.fields prescaler).mask =
      frequencySelect.mask ||| SystemControl.divisor.mask ||| dataTimeout.mask := rfl
  rw [hmask]
  decide

/-- **The setting of a mode** is read back from the word that it is programmed into. -/
theorem inEffect_fields (mode : ClockMode) (mixer old : UInt32) :
    (Setting.ofMode mode).InEffect
      (if MixerControl.doubleDataRate.isSet mixer then (Setting.ofMode mode).prescaler / 2
        else (Setting.ofMode mode).prescaler)
      (((Setting.ofMode mode).fields (prescalerFor mode mixer)).applyTo old) := by
  unfold prescalerFor
  cases mode <;> cases MixerControl.doubleDataRate.isSet mixer <;>
    refine ⟨?_, ?_, ?_⟩ <;> rw [FieldValue.get_applyTo _ _ _ (by decide)] <;> decide

/-- A change that fails is refused because a clock is not stable, and leaves all but the bits of the
clocks alone. -/
theorem Programs.failed {e : ControllerError} (h : Programs request es (.error e))
    (hshows : Shows w es) : AgreeOn besidesClocks (controlAfter w es) w := by
  cases h with
  | dark hfirst => exact (hfirst.kept hshows).2
  | refused hfirst _ =>
    rw [controlAfter_append, controlAfter_of_unwritten (unwritten_append (writes_readings _ _) rfl)]
    exact (hfirst.kept hshows.left).2

/-- **A change that succeeds** leaves the setting of its mode in effect, the internal clock enabled
and all else alone. -/
theorem Programs.succeeded (h : Programs request es (.ok ())) (hshows : Shows w es) :
    ∃ mixer, ⟨.read mixerControl, mixer⟩ ∈ es ∧
      (Setting.ofMode request.mode).InEffect
        (if MixerControl.doubleDataRate.isSet mixer then (Setting.ofMode request.mode).prescaler / 2
          else (Setting.ofMode request.mode).prescaler) (controlAfter w es) ∧
      internalClockEnable.isSet (controlAfter w es) = true ∧
      AgreeOn untouched (controlAfter w es) w := by
  cases h with
  | @set first present mixer old told hfirst hpresent htold =>
    obtain ⟨hon, hkept⟩ := hfirst.kept hshows.left
    have hset := hshows.right.right.right.left
    rw [controlAfter_of_unwritten (writes_readings _ _),
      controlAfter_of_unwritten (writes_readings _ _)] at hset
    have hsame : AgreeOn (untouched ||| internalClockEnable.mask) _ _ :=
      agreeOn_change (within_fields _ _) (by rw [mask_fields]; decide) (by decide) hset
    rw [controlAfter_append, controlAfter_append, controlAfter_of_unwritten (writes_readings _ _),
      controlAfter_append, controlAfter_of_unwritten (writes_readings _ _),
      controlAfter_changing _ _ htold]
    refine ⟨mixer, by simp [readings], inEffect_fields _ _ _, ?_, ?_⟩
    · rw [internalClockEnable.isSet_congr (hsame.mono (by decide)), hon]
    · exact (hsame.mono (by decide)).trans (hkept.mono (by decide))

/-- **Each word that is written** lets the card clock out only as it may. -/
theorem Programs.lights (h : Programs request es out) (hshows : Shows w es) :
    EachWrite (Lights w) es := by
  cases h with
  | dark hfirst => exact hfirst.lights hshows
  | refused hfirst _ =>
    exact eachWrite_lights_append (hfirst.lights hshows.left)
      (eachWrite_of_unwritten (unwritten_append (writes_readings _ _) rfl))
  | @set first present mixer old told hfirst hpresent htold =>
    have hset := hshows.right.right.right.left
    refine eachWrite_lights_append (hfirst.lights hshows.left) ?_
    refine eachWrite_lights_append (eachWrite_of_unwritten (writes_readings _ _)) ?_
    refine eachWrite_lights_append (eachWrite_of_unwritten (writes_readings _ _)) ?_
    refine eachWrite_lights_append ?_ (eachWrite_of_unwritten htold)
    exact lights_changing (within_fields _ _) (by rw [mask_fields]; decide) hset

/-! ### When a change is refused -/

/-- The internal clock was enabled and then looked at as often as may be, and never seen stable. -/
def NeverStable (limit : Nat) (es : List Exchange) : Prop :=
  ∃ word old watch rest, es = readings systemControl [word] ++
      (changing internalClockEnable.set old ++ (watch ++ rest)) ∧
    Watched systemControl internalClockStable.isSet limit watch false

/-- What keeps the internal clock from running is that it was off and is never stable. -/
theorem Enables.failed {e : ControllerError} (h : Enables limit es (.error e))
    (hshows : Shows w es) :
    e = .clockUnstable ∧ internalClockEnable.isSet w = false ∧ NeverStable limit es := by
  cases h with
  | @starts word start _ hoff hstart =>
    cases hstart with
    | @never old watch hwatch =>
      refine ⟨rfl, ?_, word, old, watch, _, rfl, hwatch⟩
      rw [← internalClockEnable.isSet_congr (hshows.read.mono (by decide)), hoff]

/-- An internal clock that was off and runs was seen stable in time. -/
theorem Enables.stable (h : Enables limit es (.ok ())) (hshows : Shows w es)
    (hoff : internalClockEnable.isSet w = false) (more : List Exchange) :
    ¬NeverStable limit (es ++ more) := by
  rintro ⟨word, old, watch, rest, hes, hwatch⟩
  cases h with
  | @running word' hon =>
    rw [internalClockEnable.isSet_congr (hshows.read.mono (by decide)), hoff] at hon
    cases hon
  | @starts word' start _ _ hstart =>
    cases hstart with
    | @stable old₁ old₂ watch' hwatch' =>
      -- both sides begin with the first look, and with the change that enables the clock
      have hwaits : watch' ++ (changing cardClockEnable.set old₂ ++ more) = watch ++ rest := by
        simpa [readings, changing] using
          (List.cons.inj (List.cons.inj (List.cons.inj hes).2).2).2
      cases hwatch'.unique hwatch hwaits

/-- A change is refused because a clock is not stable, if at all. -/
theorem Programs.outcome (h : Programs request es out) (hshows : Shows w es) :
    out = .ok () ∨ out = .error .clockUnstable := by
  cases h with
  | dark hfirst => exact .inr (congrArg _ (hfirst.failed hshows).1)
  | refused _ _ => exact .inr rfl
  | set _ _ _ => exact .inl rfl

/-- **A change is refused** if the internal clock was off and is never seen stable, or the card
clock is not stable, and for no other reason. -/
theorem Programs.refused_iff {present : UInt32} (h : Programs request es out)
    (hshows : Shows w es)
    (hpresent : ∀ word, ⟨.read presentState, word⟩ ∈ es → word = present) :
    out = .error .clockUnstable ↔
      (internalClockEnable.isSet w = false ∧ NeverStable request.spinLimit es) ∨
        PresentState.clockStable.isSet present = false := by
  cases h with
  | dark hfirst =>
    obtain ⟨rfl, hoff, hnever⟩ := hfirst.failed hshows
    exact ⟨fun _ => .inl ⟨hoff, hnever⟩, fun _ => rfl⟩
  | @refused first word hfirst hword =>
    rw [hpresent word (by simp [readings])] at hword
    exact ⟨fun _ => .inr hword, fun _ => rfl⟩
  | @set first word mixer old told hfirst hword htold =>
    rw [hpresent word (by simp [readings])] at hword
    constructor
    · intro habs
      cases habs
    · rintro (⟨hoff, hnever⟩ | habs)
      · exact absurd hnever (hfirst.stable hshows.left hoff _)
      · rw [hword] at habs
        cases habs

end Usdhc

/-! ### The whole change -/

open Usdhc in
/-- **A change of the uSDHC clock is refused cleanly and touches only clock fields.**  The register
keeps what is written but for the bits that change by themselves; the present state and the mixer
register are read as `present` and `mixer`.  The change is refused exactly if the internal clock was
off and is never seen stable while it is looked at as often as may be, or the card clock is not
stable.  A refused change leaves prescaler, divisor and timeout as they were, and the card clock has
been let out only after the internal clock was seen stable; otherwise they hold the setting of the
mode, the prescaler halved if both clock edges are in use, the internal clock is enabled, and every
other bit is as it was. -/
theorem usdhc_clock_change {σ : Type} {p : Platform} (hfamily : p.family = .usdhc)
    {reply : Surroundings Request.Answer σ} {held : σ → UInt32} (hkept : Kept reply held)
    {present mixer : UInt32} (hpresent : ∀ s, (reply (.read presentState) s).1 = present)
    (hmixer : ∀ s, (reply (.read mixerControl) s).1 = mixer) (request : ClockRequest) (s : σ) :
    let change := (p.setClock request).run
    let es := exchanges reply change s
    let out := (run reply change s).1
    let after := held (run reply change s).2
    let setting := Setting.ofMode request.mode
    (out = .ok () ∨ out = .error .clockUnstable) ∧
    (out = .error .clockUnstable ↔
      (internalClockEnable.isSet (held s) = false ∧ NeverStable request.spinLimit es) ∨
        PresentState.clockStable.isSet present = false) ∧
    EachWrite (Lights (held s)) es ∧
    (out = .error .clockUnstable →
      frequencySelect.get after = frequencySelect.get (held s) ∧
      divisor.get after = divisor.get (held s) ∧
      dataTimeout.get after = dataTimeout.get (held s) ∧
      AgreeOn besidesClocks after (held s) ∧
      (cardClockEnable.isSet after = true →
        cardClockEnable.isSet (held s) = true ∨ SeenStable es)) ∧
    (out = .ok () →
      frequencySelect.get after = (if MixerControl.doubleDataRate.isSet mixer
        then setting.prescaler / 2 else setting.prescaler) ∧
      divisor.get after = setting.divisor ∧ dataTimeout.get after = setting.timeout ∧
      internalClockEnable.isSet after = true ∧ AgreeOn untouched after (held s)) := by
  have hchange : p.setClock request = program request := by
    rw [Platform.setClock, hfamily]
  intro change es out after setting
  have hprograms : Programs request es out := by
    refine path_program ?_
    rw [← hchange]
    exact path_run reply change s
  have hshows : Shows (held s) es := hkept.shows change s
  have hafter : AgreeOn steady after (controlAfter (held s) es) := hkept.held_run change s
  have hlights := hprograms.lights hshows
  refine ⟨hprograms.outcome hshows, hprograms.refused_iff hshows ?_, hlights, ?_, ?_⟩
  · intro word hmem
    obtain ⟨s', hanswer⟩ := answer_of_mem hmem
    exact hanswer.trans (hpresent s')
  · intro hout
    rw [hout] at hprograms
    have hsame : AgreeOn besidesClocks after (held s) :=
      (hafter.mono (by decide)).trans (hprograms.failed hshows)
    refine ⟨frequencySelect.get_congr (hsame.mono (by decide)),
      divisor.get_congr (hsame.mono (by decide)), dataTimeout.get_congr (hsame.mono (by decide)),
      hsame, fun hon => lit_of_eachWrite hlights ?_⟩
    rw [← cardClockEnable.isSet_congr (hafter.mono (by decide)), hon]
  · intro hout
    rw [hout] at hprograms
    obtain ⟨word, hmem, heffect, hon, hsame⟩ := hprograms.succeeded hshows
    obtain ⟨s', hanswer⟩ := answer_of_mem hmem
    obtain rfl : word = mixer := hanswer.trans (hmixer s')
    obtain ⟨hprescaler, hdivisor, htimeout⟩ := heffect.congr hafter
    refine ⟨hprescaler, hdivisor, htimeout, ?_, (hafter.mono (by decide)).trans hsame⟩
    rw [internalClockEnable.isSet_congr (hafter.mono (by decide)), hon]

/-- Surroundings whose present state and mixer register do not change. -/
def settled (present mixer : UInt32) : Surroundings Request.Answer Unit
  | .read r, u => (if r = presentState then present else if r = mixerControl then mixer else 0, u)
  | q, u => ((scripted q []).1, u)

/-- The internal clock is started to find out about a card, with both clock edges in use. -/
theorem usdhc_clock_change_started :
    let request : ClockRequest :=
      { mode := .initial, targetHz := 400000, version := .v3, spinLimit := 2 }
    let hardware := controlled {} (settled 8 8)
    let outcome := run hardware (Platform.imx6.setClock request).run (0x10000000, ())
    outcome.1 = .ok () ∧ frequencySelect.get outcome.2.1 = 8 ∧ divisor.get outcome.2.1 = 0xF ∧
      AgreeOn Usdhc.untouched outcome.2.1 0x10000000 := by
  intro request hardware outcome
  have hpresent : ∀ s, (hardware (.read presentState) s).1 = 8 := fun _ => rfl
  have hmixer : ∀ s, (hardware (.read mixerControl) s).1 = 8 := fun _ => rfl
  have himx6 : Platform.imx6.family = .usdhc := rfl
  obtain ⟨hout, -, -, -, hok⟩ := usdhc_clock_change himx6 (kept_controlled {} (settled 8 8))
    hpresent hmixer request (0x10000000, ())
  have hsucceeds : outcome.1.isOk = true := by decide +kernel
  rcases hout with hsucceeded | hfailed
  · obtain ⟨hprescaler, hdivisor, -, -, hsame⟩ := hok hsucceeded
    exact ⟨hsucceeded, hprescaler.trans (by decide), hdivisor, hsame⟩
  · have habs : outcome.1 = .error .clockUnstable := hfailed
    rw [habs] at hsucceeds
    cases hsucceeds

end SdHost
