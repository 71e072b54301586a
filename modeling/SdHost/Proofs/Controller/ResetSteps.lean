import SdHost.Proofs.Controller.Reset
import SdHost.Proofs.Platform.ClockFailure

/-!
# The steps of a reset

A reset is seven steps that are made one after the other, up to the first that fails.  What a step
writes and what it waits for does not depend on the others.

* `Clears`, `Controller.Clocks` — a bit that is set and ends by itself, and a change of the clock;
* `Controller.resetCourses`, `Controller.follows_resetSequence` — the steps, and that there are no
  others;
* `Controller.WasReset`, `Controller.wasReset_of_inOrder` — what was exchanged after all of them;
  `WasReset.masks`, `WasReset.bus` — what that has changed;
* `Controller.path_reset`, `Controller.path_setOperational` — both calls; `busy_reset`,
  `busy_setOperational` — their refusals.
-/

namespace SdHost

open Dialogue Register SystemControl

variable {es : List Exchange}

/-- A bit of the system control register is set, and then awaited to end by itself. -/
def Clears (f : Field systemControl) (limit : Nat) (m : Log.Message) : Course ControllerError :=
  fun es out => ∃ old watch, es = changing f.set old ++ watch ∧
    Waited systemControl (fun word => !f.isSet word) limit m .resetTimeout watch out

/-- A condition that a bit is not set any more. -/
theorem sees_ended (f : Field systemControl) :
    Sees systemControl (fun word => (.ok (!f.isSet word) : Except ControllerError Bool))
      (do return !(← Register.reads f) : ExceptT ControllerError Action Bool).run :=
  sees_run_map (sees_run_lift (sees_reads f)) not

theorem follows_clears (f : Field systemControl) (limit : Nat) (m : Log.Message) :
    Follows (do
      Register.modify f.set
      unless ← waitFor limit (return !(← Register.reads f)) do
        report m
        throw .resetTimeout) (Clears f limit m) := by
  intro es out hpath
  obtain ⟨change, _, watch, hchange, hwatch, rfl⟩ := path_run_lift_bind.mp hpath
  obtain ⟨old, rfl⟩ := path_modify hchange
  exact ⟨old, watch, rfl, waited_of_path (sees_ended f) hwatch⟩

namespace Controller

variable {c c' : Controller} {out : Except ControllerError Unit}

/-- What a change to the clock of a mode asks for. -/
def clockRequest (c : Controller) (mode : ClockMode) : ClockRequest :=
  { mode := mode
    targetHz := c.config.clockHz mode
    version := c.version
    spinLimit := c.config.spinLimit }

/-- The change to the clock of a mode, in the family's way; if it fails nothing is written after
what has failed. -/
def Clocks (c : Controller) (mode : ClockMode) : Course ControllerError := fun es out =>
  Path (c.platform.setClock (c.clockRequest mode)).run es out ∧
    ∀ e, out = .error e → ∃ earlier last, es = earlier ++ last ∧
      ClockFails (c.clockRequest mode) last e ∧ writes last = []

theorem follows_setClock (c : Controller) (mode : ClockMode) :
    Follows (c.setClock mode) (c.Clocks mode) := by
  intro es out hpath
  refine ⟨hpath, ?_⟩
  rintro e rfl
  obtain ⟨earlier, last, hsplit, hends⟩ :=
    Platform.halts_setClock c.platform (c.clockRequest mode) hpath
  exact ⟨earlier, last, hsplit, hends, hends.writes⟩

/-- A change of the clock writes no other register than one. -/
theorem Clocks.writes {mode : ClockMode} (h : c.Clocks mode es out) :
    ∀ p ∈ writes es, p.1 = systemControl :=
  forall_writes (fun _ _ hr => hr) (Platform.asks_setClock _ _ h.1)

/-- The exchanges that let every event of the engine through. -/
def enabling : List Exchange :=
  [⟨.write interruptStatusEnable resetMask.bits, ()⟩,
    ⟨.write interruptSignalEnable resetMask.bits, ()⟩]

theorem writes_enabling : writes enabling =
    [(interruptStatusEnable, resetMask.bits), (interruptSignalEnable, resetMask.bits)] := rfl

/-- **The steps of a reset**, in their order. -/
def resetCourses (c : Controller) : List (Course ControllerError) :=
  [Clears resetAll c.config.spinLimit .resetTimedOut,
    .sure fun es => es = enabling,
    c.Clocks .initial,
    .sure fun es => ∃ old, es = changing ProtocolControl.fourBit old,
    Waited presentState PresentState.free c.config.spinLimit .linesBusyAfterReset .lineBusy,
    Clears SystemControl.wakeCard c.config.spinLimit .wakeUpTimedOut,
    .sure fun es => writes es = []]

theorem path_enableEvents {u : Unit} (h : Path enableEvents es u) : es = enabling := by
  obtain ⟨first, _, second, hfirst, hsecond, rfl⟩ := path_bind.mp h
  rw [path_question.mp hfirst, path_question.mp hsecond]
  rfl

theorem asks_reportCard : Asks Request.unwritten reportCard := by
  have hlook : ∀ {r : Register} (f : Field r), Asks Request.unwritten (Register.reads f) :=
    fun _ => asks_bind (asks_question trivial) fun _ => asks_pure _
  refine asks_bind (hlook _) fun present => asks_ite present ?_ (asks_question trivial)
  refine asks_bind (asks_question trivial) fun kept => asks_ite kept ?_ (asks_pure _)
  exact asks_bind (hlook _) fun _ => asks_question trivial

theorem follows_wakeCard (c : Controller) :
    Follows c.wakeCard (InOrder
      [Waited presentState PresentState.free c.config.spinLimit .linesBusyAfterReset .lineBusy,
        Clears SystemControl.wakeCard c.config.spinLimit .wakeUpTimedOut]) := by
  apply follows_wait_bind (sees_run_lift sees_linesFree)
  exact follows_one (follows_clears ..)

/-- **A reset** is those steps. -/
theorem follows_resetSequence (c : Controller) :
    Follows c.resetSequence (InOrder c.resetCourses) := by
  refine follows_bind (follows_one (follows_clears ..)) ?_
  refine follows_bind (follows_one (follows_lift fun _ h => path_enableEvents h)) ?_
  refine follows_bind (follows_one (c.follows_setClock .initial)) ?_
  refine follows_bind (follows_one (follows_lift fun _ h => path_modify h)) ?_
  refine follows_bind c.follows_wakeCard ?_
  exact follows_one (follows_lift fun _ h => writes_of_asks asks_reportCard h)

/-! ### After a reset -/

/-- The exchanges from the change to four data lines on. -/
def waking (bus control : UInt32) (lines wake told : List Exchange) : List Exchange :=
  changing ProtocolControl.fourBit bus ++
    (lines ++ (changing SystemControl.wakeCard.set control ++ (wake ++ told)))

/-- **A reset that has come to a good end**: the hardware was reset and seen to have ended that,
the events were let through and the clock was changed, and then there were four data lines, the
lines were seen free, and the card was woken and that was seen to have ended. -/
inductive WasReset (c : Controller) : List Exchange → Prop where
  | intro {old bus control : UInt32} {reset clock lines wake told : List Exchange}
      (hreset : Watched systemControl (fun word => !resetAll.isSet word) c.config.spinLimit
        reset true)
      (hclock : c.Clocks .initial clock (.ok ()))
      (hlines : Watched presentState PresentState.free c.config.spinLimit lines true)
      (hwake : Watched systemControl (fun word => !SystemControl.wakeCard.isSet word)
        c.config.spinLimit wake true)
      (htold : writes told = []) :
      WasReset c (changing resetAll.set old ++ (reset ++ (enabling ++ (clock ++
        waking bus control lines wake told))))

theorem clears_ok {f : Field systemControl} {limit : Nat} {m : Log.Message}
    (h : Clears f limit m es (.ok ())) : ∃ old watch, es = changing f.set old ++ watch ∧
      Watched systemControl (fun word => !f.isSet word) limit watch true := by
  obtain ⟨old, watch, rfl, hwaited⟩ := h
  cases hwaited with
  | came hwatched => exact ⟨old, watch, rfl, hwatched⟩

/-- **All steps of a reset** lead there. -/
theorem wasReset_of_inOrder (h : InOrder c.resetCourses es (.ok ())) : c.WasReset es := by
  obtain ⟨_, _, rfl, hreset, h₁⟩ := h.cons_ok
  obtain ⟨_, _, rfl, ⟨rfl, -⟩, h₂⟩ := h₁.cons_ok
  obtain ⟨clock, _, rfl, hclock, h₃⟩ := h₂.cons_ok
  obtain ⟨_, _, rfl, ⟨⟨bus, rfl⟩, -⟩, h₄⟩ := h₃.cons_ok
  obtain ⟨lines, _, rfl, hlines, h₅⟩ := h₄.cons_ok
  obtain ⟨_, _, rfl, hwake, h₆⟩ := h₅.cons_ok
  obtain ⟨told, _, rfl, ⟨htold, -⟩, h₇⟩ := h₆.cons_ok
  obtain rfl := h₇.nil_ok
  obtain ⟨old, reset, rfl, hended⟩ := clears_ok hreset
  obtain ⟨control, wake, rfl, hawake⟩ := clears_ok hwake
  cases hlines with
  | came hfree =>
    rw [List.append_nil, List.append_assoc, List.append_assoc]
    exact .intro hended hclock hfree hawake htold

theorem writes_waking {bus control : UInt32} {lines wake told : List Exchange} {limit : Nat}
    {holds holds' : UInt32 → Bool} (hlines : Watched presentState holds limit lines true)
    (hwake : Watched systemControl holds' limit wake true) (htold : writes told = []) :
    writes (waking bus control lines wake told) =
      [(protocolControl, ProtocolControl.fourBit.applyTo bus),
        (systemControl, SystemControl.wakeCard.set.applyTo control)] := by
  simp [waking, hlines.writes, hwake.writes, htold]

/-- **What a reset writes**, in its order; the clock is changed by one register. -/
theorem WasReset.writes (h : c.WasReset es) : ∃ old clock bus control, writes es =
    (systemControl, resetAll.set.applyTo old) :: (interruptStatusEnable, resetMask.bits) ::
      (interruptSignalEnable, resetMask.bits) :: (clock ++
        [(protocolControl, ProtocolControl.fourBit.applyTo bus),
          (systemControl, SystemControl.wakeCard.set.applyTo control)]) ∧
    ∀ p ∈ clock, p.1 = systemControl := by
  cases h with
  | @intro old bus control reset clock lines wake told hreset hclock hlines hwake htold =>
    refine ⟨old, SdHost.writes clock, bus, control, ?_, hclock.writes⟩
    simp only [writes_append, writes_changing, hreset.writes, writes_waking hlines hwake htold]
    rfl

/-- Both event masks were written last as they are after a reset. -/
theorem WasReset.masks (h : c.WasReset es) (regs : Register → UInt32) :
    stored regs es interruptStatusEnable = resetMask.bits ∧
      stored regs es interruptSignalEnable = resetMask.bits := by
  obtain ⟨old, clock, bus, control, hwrites, hclock⟩ := h.writes
  have hapart : ∀ r, systemControl ≠ r → protocolControl ≠ r → ∀ p ∈ clock ++
      [(protocolControl, ProtocolControl.fourBit.applyTo bus),
        (systemControl, SystemControl.wakeCard.set.applyTo control)], p.1 ≠ r := by
    intro r hsystem hprotocol p hp
    rcases List.mem_append.mp hp with hp | hp
    · rw [hclock p hp]
      exact hsystem
    · simp only [List.mem_cons, List.not_mem_nil, or_false] at hp
      rcases hp with rfl | rfl
      · exact hprotocol
      · exact hsystem
  refine ⟨stored_of_writes regs [_] hwrites ?_, stored_of_writes regs [_, _] hwrites ?_⟩
  · exact List.forall_mem_cons.mpr ⟨by decide, hapart _ (by decide) (by decide)⟩
  · exact hapart _ (by decide) (by decide)

/-- **Of the register of the bus** a reset changes the data width only: it is written once, and its
other bits are written as they were read. -/
theorem WasReset.bus (h : c.WasReset es) :
    ∃ before old after, es = before ++ (changing ProtocolControl.fourBit old ++ after) ∧
      (∀ p ∈ SdHost.writes (before ++ after), p.1 ≠ protocolControl) ∧
      AgreeOn (~~~ProtocolControl.dataWidth.mask) (ProtocolControl.fourBit.applyTo old) old ∧
      ProtocolControl.dataWidth.get (ProtocolControl.fourBit.applyTo old) = 1 := by
  cases h with
  | @intro old bus control reset clock lines wake told hreset hclock hlines hwake htold =>
    refine ⟨changing resetAll.set old ++ (reset ++ (enabling ++ clock)), bus,
      lines ++ (changing SystemControl.wakeCard.set control ++ (wake ++ told)), ?_, ?_, ?_, ?_⟩
    · simp [waking]
    · intro p hp
      have hother : systemControl ≠ protocolControl := by decide
      simp only [writes_append, writes_changing, writes_enabling, hreset.writes, hlines.writes,
        hwake.writes, htold, List.mem_append, List.mem_cons, List.not_mem_nil, or_false,
        false_or] at hp
      rcases hp with (rfl | (rfl | rfl) | hp) | rfl
      · exact hother
      · decide
      · decide
      · rw [hclock.writes p hp]
        exact hother
      · exact hother
    · exact FieldValue.agreeOn_applyTo _ _ (FieldValue.within_put _ _) (by decide)
    · rw [FieldValue.get_applyTo _ _ _ (by decide)]
      decide

/-! ### Both calls -/

/-- No step of a reset fails as a call does that is refused. -/
theorem ne_busy_of_inOrder {e : ControllerError} (h : InOrder c.resetCourses es (.error e)) :
    e ≠ .busy := by
  have hclears : ∀ {f : Field systemControl} {m : Log.Message} {last : List Exchange},
      Clears f c.config.spinLimit m last (.error e) → e ≠ .busy := by
    rintro f m last ⟨old, watch, -, hwaited⟩
    cases hwaited with
    | never _ => decide
  obtain ⟨before, course, after, earlier, last, hsteps, -, -, hfailed⟩ := h.exists_failed
  have hstep : course ∈ c.resetCourses := by
    rw [hsteps]
    exact List.mem_append_right _ List.mem_cons_self
  simp only [resetCourses, List.mem_cons, List.not_mem_nil, or_false] at hstep
  rcases hstep with rfl | rfl | rfl | rfl | rfl | rfl | rfl
  · exact hclears hfailed
  · cases hfailed.2
  · obtain ⟨_, _, -, hends, -⟩ := hfailed.2 e rfl
    exact hends.ne_busy
  · cases hfailed.2
  · cases hfailed with
    | never _ => decide
  · exact hclears hfailed
  · cases hfailed.2

/-- **A reset** is refused while commands are queued; else it is those steps, and at most the blocks
of a head are forgotten. -/
theorem path_reset (h : Path c.reset es (out, c')) :
    (c.queue.isEmpty = false ∧ es = [⟨.report (.resetRefused c.queue.size), ()⟩] ∧
      out = .error .busy ∧ c' = c) ∨
    (c.queue.isEmpty = true ∧ InOrder c.resetCourses es out ∧
      (c' = c ∨ c' = { c with blocksRemaining := 0 })) := by
  unfold reset at h
  cases hempty : c.queue.isEmpty with
  | true =>
    rw [hempty, if_pos rfl] at h
    obtain ⟨first, ended, rest, hsteps, hrest, rfl⟩ := path_bind.mp h
    have hcourse := c.follows_resetSequence hsteps
    cases ended with
    | ok u =>
      obtain ⟨rfl, hpair⟩ := path_done.mp hrest
      obtain ⟨rfl, rfl⟩ := Prod.mk.inj hpair
      rw [List.append_nil]
      exact .inr ⟨rfl, hcourse, .inr rfl⟩
    | error e =>
      obtain ⟨rfl, hpair⟩ := path_done.mp hrest
      obtain ⟨rfl, rfl⟩ := Prod.mk.inj hpair
      rw [List.append_nil]
      exact .inr ⟨rfl, hcourse, .inl rfl⟩
  | false =>
    rw [hempty, if_neg Bool.false_ne_true] at h
    obtain ⟨first, u, rest, htold, hrest, rfl⟩ := path_bind.mp h
    obtain rfl := path_question.mp htold
    obtain ⟨rfl, hpair⟩ := path_done.mp hrest
    obtain ⟨rfl, rfl⟩ := Prod.mk.inj hpair
    exact .inl ⟨rfl, rfl, rfl, rfl⟩

/-- **A reset is refused** just if commands are queued, and then nothing is done but to say so. -/
theorem busy_reset (h : Path c.reset es (out, c')) :
    (out = .error .busy ↔ c.queue.isEmpty = false) ∧
      (c.queue.isEmpty = false → es = [⟨.report (.resetRefused c.queue.size), ()⟩]) := by
  rcases path_reset h with ⟨hqueued, hreport, rfl, -⟩ | ⟨hempty, hsteps, -⟩
  · exact ⟨⟨fun _ => hqueued, fun _ => rfl⟩, fun _ => hreport⟩
  · have hnone : c.queue.isEmpty ≠ false := by
      rw [hempty]
      decide
    refine ⟨⟨?_, fun hqueued => absurd hqueued hnone⟩, fun hqueued => absurd hqueued hnone⟩
    rintro rfl
    exact absurd rfl (ne_busy_of_inOrder hsteps)

theorem inOrder_reset (h : Path c.reset es (out, c')) (hempty : c.queue.isEmpty = true) :
    InOrder c.resetCourses es out := by
  rcases path_reset h with ⟨hqueued, -, -, -⟩ | ⟨-, hsteps, -⟩
  · rw [hqueued] at hempty
    cases hempty
  · exact hsteps

/-- A reset that comes to a good end was not refused. -/
theorem wasReset_of_path (h : Path c.reset es (.ok (), c')) : c.WasReset es := by
  rcases path_reset h with ⟨-, -, habs, -⟩ | ⟨-, hsteps, -⟩
  · cases habs
  · exact wasReset_of_inOrder hsteps

/-- **A change to the clock for moving data** is refused while commands are queued; else it is that
change. -/
theorem path_setOperational (h : Path c.setOperational.run es out) :
    (c.queue.isEmpty = false ∧ es = [⟨.report (.clockChangeRefused c.queue.size), ()⟩] ∧
      out = .error .busy) ∨
    (c.queue.isEmpty = true ∧ c.Clocks .operational es out) := by
  unfold setOperational at h
  cases hempty : c.queue.isEmpty with
  | true =>
    rw [hempty, if_pos rfl] at h
    exact .inr ⟨rfl, c.follows_setClock .operational h⟩
  | false =>
    rw [hempty, if_neg Bool.false_ne_true] at h
    obtain ⟨rfl, rfl⟩ := path_report_throw h
    exact .inl ⟨rfl, rfl, rfl⟩

/-- **It is refused** just if commands are queued, and then nothing is done but to say so. -/
theorem busy_setOperational (h : Path c.setOperational.run es out) :
    (out = .error .busy ↔ c.queue.isEmpty = false) ∧
      (c.queue.isEmpty = false → es = [⟨.report (.clockChangeRefused c.queue.size), ()⟩]) := by
  rcases path_setOperational h with ⟨hqueued, hreport, rfl⟩ | ⟨hempty, hclocks⟩
  · exact ⟨⟨fun _ => hqueued, fun _ => rfl⟩, fun _ => hreport⟩
  · have hnone : c.queue.isEmpty ≠ false := by
      rw [hempty]
      decide
    refine ⟨⟨?_, fun hqueued => absurd hqueued hnone⟩, fun hqueued => absurd hqueued hnone⟩
    rintro rfl
    obtain ⟨_, _, -, hends, -⟩ := hclocks.2 _ rfl
    exact absurd rfl hends.ne_busy

theorem clocks_setOperational (h : Path c.setOperational.run es out)
    (hempty : c.queue.isEmpty = true) : c.Clocks .operational es out := by
  rcases path_setOperational h with ⟨hqueued, -, -⟩ | ⟨-, hclocks⟩
  · rw [hqueued] at hempty
    cases hempty
  · exact hclocks

end Controller

end SdHost
