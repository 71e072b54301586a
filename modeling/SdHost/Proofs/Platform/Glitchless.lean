import SdHost.Proofs.Platform.ClockFailure

/-!
# The SD clock during a change

On hardware whose system control register keeps what is written, the SD clock never runs on a
divider that is being changed: it is off in each word that changes the divider, and it is switched
on only after the internal clock was seen stable with the new divider.  However the change ends,
the SD clock is untouched, off, or running with the whole of the new divider in effect.

* `DividedClock.Stops.off`, `DividedClock.decided`, `DividedClock.restarted` — the word in the
  register after each of the three changes;
* `DividedClock.Safe`, `Programs.safe` — what holds of each word that is written;
* `Programs.succeeded`, `Programs.failed` — what the register holds in the end;
* `clock_change_glitchless` — the whole change in such surroundings.
-/

namespace SdHost

open Dialogue Register SystemControl

variable {es : List Exchange} {w : UInt32} {limit : Nat}

namespace DividedClock

variable {request : ClockRequest} {d : ClockDivider} {out : Except ControllerError Unit}
  {old : UInt32} {first stop settled stable later : List Exchange}

/-! ### The word in the register -/

/-- A field that is changed leaves the other steady bits as they were. -/
theorem agreeOn_changing {f : FieldValue systemControl} {m : UInt32} (hwithin : f.Within)
    (hmask : f.mask &&& m = 0) (hm : steady &&& m = m) (h : Shows w (changing f old ++ later)) :
    AgreeOn m (f.applyTo old) w :=
  (f.agreeOn_applyTo old hwithin hmask).trans (h.read.mono hm)

/-- **After it was stopped** the SD clock is off, and only its own bit was changed. -/
theorem Stops.off (h : Stops limit stop out) (hshows : Shows w stop) :
    cardClockEnable.isSet (controlAfter w stop) = false ∧
      AgreeOn bystanders (controlAfter w stop) w := by
  cases h with
  | @idle word hoff =>
    rw [controlAfter_of_unwritten (writes_readings _ _)]
    refine ⟨?_, .refl _ w⟩
    rw [← cardClockEnable.isSet_congr (hshows.read.mono (by decide)), hoff]
  | @stopped word old lines _ hlines =>
    have hchange := hshows.right
    rw [controlAfter_of_unwritten (writes_readings _ _)] at hchange
    rw [controlAfter_append, controlAfter_of_unwritten (writes_readings _ _),
      controlAfter_changing _ _ hlines.writes]
    refine ⟨?_, agreeOn_changing (FieldValue.within_put _ _) (by decide) (by decide) hchange⟩
    rw [FieldValue.isSet_applyTo _ _ _ (by decide)]
    decide

/-- **The divider is programmed** while the SD clock is as it was. -/
theorem decided (hshows : Shows w (changing d.decision old ++ later)) :
    AgreeOn (bystanders ||| cardClockEnable.mask) (d.decision.applyTo old) w := by
  refine agreeOn_changing d.within_decision ?_ (by decide) hshows
  rw [d.mask_decision]
  decide

/-- **The SD clock is started** with the divider in effect that is programmed. -/
theorem restarted (hprogrammed : d.Programmed w)
    (hshows : Shows w (changing cardClockEnable.set old ++ later)) :
    d.InEffect (cardClockEnable.set.applyTo old) ∧
      AgreeOn (bystanders ||| dividerBits) (cardClockEnable.set.applyTo old) w := by
  have hold : d.Programmed old := hprogrammed.congr hshows.read (by decide)
  exact ⟨hold.inEffect,
    agreeOn_changing (FieldValue.within_put _ _) (by decide) (by decide) hshows⟩

/-! ### Each word that is written -/

/-- The divider was written, the internal clock was seen stable after that, and nothing else was
written since. -/
def Ready (d : ClockDivider) (before : List Exchange) : Prop :=
  ∃ earlier divided between word later,
    before = earlier ++ ⟨.write systemControl divided, ()⟩ ::
      (between ++ ⟨.read systemControl, word⟩ :: later) ∧
    d.Programmed divided ∧ internalClockStable.isSet word = true ∧
    writes between = [] ∧ writes later = []

/-- A word that may be written after these exchanges, if the register held `w` before them: the SD
clock is off in it, or it does not change the divider and everything is ready for the SD clock. -/
def Safe (d : ClockDivider) (w : UInt32) (before : List Exchange) (v : UInt32) : Prop :=
  cardClockEnable.isSet v = false ∨
    AgreeOn dividerBits v (controlAfter w before) ∧ Ready d before

/-- What is safe after the second part is safe after both. -/
theorem Safe.after {before : List Exchange} {v : UInt32} (first : List Exchange)
    (h : Safe d (controlAfter w first) before v) : Safe d w (first ++ before) v := by
  rcases h with hoff | ⟨hsame, earlier, divided, between, word, later, rfl, hready⟩
  · exact .inl hoff
  · rw [← controlAfter_append] at hsame
    exact .inr ⟨hsame, first ++ earlier, divided, between, word, later,
      (List.append_assoc _ _ _).symm, hready⟩

theorem eachWrite_safe_append {first second : List Exchange} (hfirst : EachWrite (Safe d w) first)
    (hsecond : EachWrite (Safe d (controlAfter w first)) second) :
    EachWrite (Safe d w) (first ++ second) :=
  eachWrite_append hfirst fun before v after hsplit => (hsecond before v after hsplit).after first

/-- The SD clock is off in the only word written to stop it. -/
theorem Stops.safe (h : Stops limit stop out) : EachWrite (Safe d w) stop := by
  cases h with
  | idle _ => exact eachWrite_of_unwritten (writes_readings _ _)
  | stopped hlines =>
    refine eachWrite_safe_append (eachWrite_of_unwritten (writes_readings _ _)) ?_
    refine eachWrite_safe_append (eachWrite_changing _ _ (.inl ?_))
      (eachWrite_of_unwritten hlines.writes)
    rw [FieldValue.isSet_applyTo _ _ _ (by decide)]
    decide

/-- **With the divider programmed** the SD clock is off, and nothing but the clocks was changed. -/
theorem Divides.after (h : Divides limit d first) (hshows : Shows w first) :
    d.Programmed (controlAfter w first) ∧ cardClockEnable.isSet (controlAfter w first) = false ∧
      AgreeOn bystanders (controlAfter w first) w := by
  cases h with
  | @intro lines stop old hlines hstop =>
    have hrest := hshows.right
    rw [controlAfter_of_unwritten hlines.writes] at hrest
    obtain ⟨hoff, hkept⟩ := hstop.off hrest.left
    have hchange : Shows (controlAfter w stop) (changing d.decision old ++ []) := by
      rw [List.append_nil]
      exact hrest.right
    have hdecided := decided hchange
    rw [← List.append_assoc, controlAfter_concat]
    refine ⟨d.programmed_decision old, ?_, (hdecided.mono (by decide)).trans hkept⟩
    rw [cardClockEnable.isSet_congr (hdecided.mono (by decide)), hoff]

/-- The SD clock is off in each word up to the one with the divider. -/
theorem Divides.safe (h : Divides limit d first) (hshows : Shows w first) :
    EachWrite (Safe d w) first := by
  have hoff := (h.after hshows).2.1
  cases h with
  | @intro lines stop old hlines hstop =>
    rw [← List.append_assoc, controlAfter_concat] at hoff
    refine eachWrite_safe_append (eachWrite_of_unwritten hlines.writes) ?_
    exact eachWrite_safe_append hstop.safe (eachWrite_changing _ _ (.inl hoff))

/-- **Everything is ready** for the SD clock when the wait for the internal clock has ended well. -/
theorem Divides.ready (h : Divides limit d first) (hsettled : writes settled = [])
    (hstable : ClockWaited limit stable (.ok ())) (hlater : writes later = []) :
    Ready d (first ++ ((settled ++ stable) ++ later)) := by
  cases h with
  | @intro lines stop old hlines hstop =>
    cases hstable with
    | came hwatched =>
      cases hwatched with
      | @seen misses last _ _ hlast =>
        refine ⟨lines ++ (stop ++ [⟨.read systemControl, old⟩]), d.decision.applyTo old,
          settled ++ readings systemControl misses, last, later, ?_, d.programmed_decision old,
          hlast, unwritten_append hsettled (writes_readings _ _), hlater⟩
        simp [changing, readings]

/-- The SD clock is started in a word that leaves the divider as it was programmed. -/
theorem safe_started (hfirst : Divides limit d first) (hsettled : writes settled = [])
    (hstable : ClockWaited limit stable (.ok ()))
    (hshows : Shows w (first ++ ((settled ++ stable) ++ changing cardClockEnable.set old))) :
    Safe d w (first ++ ((settled ++ stable) ++ [⟨.read systemControl, old⟩]))
      (cardClockEnable.set.applyTo old) := by
  have hwaits := unwritten_append hsettled hstable.writes
  have hrest := hshows.right.right
  rw [controlAfter_of_unwritten hwaits, ← List.append_nil (changing _ _)] at hrest
  have hword : controlAfter w (first ++ ((settled ++ stable) ++ [⟨.read systemControl, old⟩])) =
      controlAfter w first := by
    rw [controlAfter_append, controlAfter_append, controlAfter_of_unwritten hwaits]
    rfl
  refine .inr ⟨?_, hfirst.ready hsettled hstable rfl⟩
  rw [hword]
  exact agreeOn_changing (FieldValue.within_put _ _) (by decide) (by decide) hrest

/-- **Each word that is written** on the way is safe. -/
theorem Programs.safe (h : Programs limit d es out) (hshows : Shows w es) :
    EachWrite (Safe d w) es := by
  cases h with
  | busy hlines => exact eachWrite_of_unwritten hlines.writes
  | halted hlines hstop =>
    exact eachWrite_safe_append (eachWrite_of_unwritten hlines.writes) hstop.safe
  | programmed hfirst hwaits =>
    exact eachWrite_safe_append (hfirst.safe hshows.left) (eachWrite_of_unwritten hwaits)
  | @started first settled stable last told old out hfirst hsettled hstable hlast htold hsilent =>
    have hwaits := unwritten_append hsettled.writes hstable.writes
    have htail := unwritten_append hlast.writes htold
    have hupTo : Shows w (first ++ ((settled ++ stable) ++ changing cardClockEnable.set old)) := by
      rw [← List.append_assoc (settled ++ stable), ← List.append_assoc first] at hshows
      exact hshows.left
    refine eachWrite_append (hfirst.safe hshows.left) ?_
    refine eachWrite_append (eachWrite_of_unwritten hwaits) ?_
    refine eachWrite_append (eachWrite_changing _ _ ?_) (eachWrite_of_unwritten htail)
    exact safe_started hfirst hsettled.writes hstable hupTo

/-! ### The end of a change -/

/-- **Once the SD clock was started** the new divider is in effect, whatever follows. -/
theorem started_after (hfirst : Divides limit d first) (hwaits : writes settled = [])
    (hlater : writes later = [])
    (hshows : Shows w (first ++ (settled ++ (changing cardClockEnable.set old ++ later)))) :
    let es := first ++ (settled ++ (changing cardClockEnable.set old ++ later))
    d.InEffect (controlAfter w es) ∧ AgreeOn bystanders (controlAfter w es) w := by
  intro es
  have hrest := hshows.right.right
  obtain ⟨hprogrammed, -, hkept⟩ := hfirst.after hshows.left
  rw [controlAfter_of_unwritten hwaits] at hrest
  rw [controlAfter_append, controlAfter_append, controlAfter_of_unwritten hwaits,
    controlAfter_changing _ _ hlater]
  obtain ⟨heffect, hsame⟩ := restarted hprogrammed hrest
  exact ⟨heffect, (hsame.mono (by decide)).trans hkept⟩

/-- **A change that succeeds** leaves the new divider in effect and all else as it was. -/
theorem Programs.succeeded (h : Programs limit d es (.ok ())) (hshows : Shows w es) :
    d.InEffect (controlAfter w es) ∧ AgreeOn bystanders (controlAfter w es) w := by
  cases h with
  | started hfirst hsettled hstable hlast htold hsilent =>
    exact started_after hfirst (unwritten_append hsettled.writes hstable.writes)
      (unwritten_append hlast.writes htold) hshows

/-- The last that was done is a wait for the lines, which were busy, and to say so. -/
def EndsBusy (limit : Nat) (es : List Exchange) : Prop :=
  ∃ earlier lines, es = earlier ++ (lines ++ [⟨.report .linesStuck, ()⟩]) ∧
    Watched presentState PresentState.free limit lines false

/-- **A change that fails** leaves the register unwritten or the SD clock off, unless the lines were
busy after all, with the new divider in effect. -/
theorem Programs.failed {e : ControllerError} (h : Programs limit d es (.error e))
    (hshows : Shows w es) :
    writes es = [] ∨ cardClockEnable.isSet (controlAfter w es) = false ∨
      e = .lineBusy ∧ d.InEffect (controlAfter w es) ∧ EndsBusy limit es := by
  cases h with
  | busy hlines => exact .inl hlines.writes
  | halted hlines hstop =>
    have hrest := hshows.right
    rw [controlAfter_of_unwritten hlines.writes] at hrest
    rw [controlAfter_append, controlAfter_of_unwritten hlines.writes]
    exact .inr (.inl (hstop.off hrest).1)
  | programmed hfirst hwaits =>
    rw [controlAfter_append, controlAfter_of_unwritten hwaits]
    exact .inr (.inl (hfirst.after hshows.left).2.1)
  | @started first settled stable last told old _ hfirst hsettled hstable hlast htold hsilent =>
    have hwaits := unwritten_append hsettled.writes hstable.writes
    have htail := unwritten_append hlast.writes htold
    obtain ⟨heffect, -⟩ := started_after hfirst hwaits htail hshows
    obtain rfl := hsilent e rfl
    cases hlast with
    | @never watch hwatched =>
      refine .inr (.inr ⟨rfl, heffect, first ++ ((settled ++ stable) ++
        changing cardClockEnable.set old), watch, ?_, hwatched⟩)
      simp only [List.append_assoc, List.append_nil]

/-! ### The whole change -/

/-- The divider that a change comes to with this answer of the clock service. -/
def Chosen (answer : Except ServiceError UInt32) (request : ClockRequest) (d : ClockDivider) :
    Prop :=
  ∃ base, answer = .ok base ∧
    ClockDivider.choose base request.targetHz request.version = .ok d

/-- The divider is chosen with the answer to the first question of a change. -/
theorem chosen_of_exchanges {σ : Type} {clock base : UInt32} {rest : List Exchange}
    {reply : Surroundings Request.Answer σ} {s : σ}
    (h : exchanges reply (program clock request).run s = ⟨.baseClock clock, .ok base⟩ :: rest)
    (hchosen : Chosen (.ok base) request d) : Chosen (reply (.baseClock clock) s).1 request d := by
  obtain ⟨hfirst, -⟩ := List.cons.inj h
  obtain ⟨-, hanswer⟩ := Exchange.mk.inj hfirst
  rw [eq_of_heq hanswer]
  exact hchosen

/-- **The ways through a change** where the register shows what is written: nothing is written, or a
divider is chosen, each word is safe for it, and it is in effect at a good end. -/
theorem path_program_safe {clock : UInt32} (h : Path (program clock request).run es out)
    (hshows : Shows w es) :
    (∃ e, out = .error e ∧ writes es = []) ∨
      ∃ base rest d, es = ⟨.baseClock clock, .ok base⟩ :: rest ∧
        Chosen (.ok base) request d ∧ EachWrite (Safe d w) es ∧
        (out = .ok () → d.InEffect (controlAfter w es) ∧ AgreeOn bystanders (controlAfter w es) w) ∧
        ∀ e, out = .error e → writes es = [] ∨ cardClockEnable.isSet (controlAfter w es) = false ∨
          e = .lineBusy ∧ d.InEffect (controlAfter w es) ∧ EndsBusy request.spinLimit es := by
  rcases path_program h with hfailed | ⟨base, d, told, more, rfl, htold, hchoose, hprograms⟩
  · exact .inl hfailed
  refine .inr ⟨base, told ++ more, d, rfl, ⟨base, rfl, hchoose⟩, ?_⟩
  rw [← List.cons_append] at hshows ⊢
  have hasked : writes (⟨.baseClock clock, .ok base⟩ :: told : List Exchange) = [] := htold
  have hmore := hshows.right
  rw [controlAfter_append]
  rw [controlAfter_of_unwritten hasked] at hmore ⊢
  refine ⟨?_, ?_, ?_⟩
  · refine eachWrite_safe_append (eachWrite_of_unwritten hasked) ?_
    rw [controlAfter_of_unwritten hasked]
    exact hprograms.safe hmore
  · rintro rfl
    exact hprograms.succeeded hmore
  · rintro e rfl
    rcases hprograms.failed hmore with hnone | hoff | ⟨he, heffect, earlier, lines, rfl, hbusy⟩
    · exact .inl (unwritten_append hasked hnone)
    · exact .inr (.inl hoff)
    · exact .inr (.inr ⟨he, heffect, _ ++ earlier, lines, (List.append_assoc _ _ _).symm, hbusy⟩)

end DividedClock

open DividedClock

/-- **A clock change is free of glitches**, whatever the lines and the clock service answer, if the
system control register keeps what is written but for the bits that change by themselves.  The SD
clock is off in each word that changes the divider; it is on only in words written after the new
divider was programmed and the internal clock was seen stable since.  After a good end the new
divider is in effect, and the bits it has nothing to do with are as they were.  A failure has a
cause that was seen last, and after it nothing was written at all, or the SD clock is off, or the
new divider is in effect and only the last wait for the lines has failed. -/
theorem clock_change_glitchless {σ : Type} {p : Platform} {clock irq : UInt32} {bringUp : BringUp}
    (hfamily : p.family = .divided clock irq bringUp)
    {reply : Surroundings Request.Answer σ} {held : σ → UInt32}
    (hkept : SystemControl.Kept reply held) (request : ClockRequest) (s : σ) :
    let change := (p.setClock request).run
    let es := exchanges reply change s
    let after := held (run reply change s).2
    let chosen := Chosen (reply (.baseClock clock) s).1 request
    EachWrite (fun before v => ¬AgreeOn dividerBits v (controlAfter (held s) before) →
      cardClockEnable.isSet v = false) es ∧
    EachWrite (fun before v => cardClockEnable.isSet v = true → ∃ d, chosen d ∧ Ready d before) es ∧
    ((run reply change s).1 = .ok () →
      ∃ d, chosen d ∧ d.InEffect after ∧ AgreeOn bystanders after (held s)) ∧
    ∀ e, (run reply change s).1 = .error e →
      (∃ earlier last, es = earlier ++ last ∧ ClockFails request last e) ∧
      (writes es = [] ∨ cardClockEnable.isSet after = false ∨
        e = .lineBusy ∧ ∃ d, chosen d ∧ d.InEffect after ∧ EndsBusy request.spinLimit es) := by
  have hchange : p.setClock request = program clock request := by
    rw [Platform.setClock, hfamily]
  intro change es after chosen
  have hpath : Path (program clock request).run es (run reply change s).1 := by
    rw [← hchange]
    exact path_run reply change s
  have hcause : ∀ e, (run reply change s).1 = .error e →
      ∃ earlier last, es = earlier ++ last ∧ ClockFails request last e := by
    intro e hout
    rw [hout] at hpath
    exact halts_program hpath
  have hafter : AgreeOn steady after (controlAfter (held s) es) := hkept.held_run change s
  rcases path_program_safe hpath (hkept.shows change s) with ⟨e, hfailed, hnone⟩ |
    ⟨base, rest, d, hes, hasked, hsafe, hok, herror⟩
  · refine ⟨eachWrite_of_unwritten hnone, eachWrite_of_unwritten hnone, ?_, ?_⟩
    · intro hok
      rw [hok] at hfailed
      cases hfailed
    · exact fun e hout => ⟨hcause e hout, .inl hnone⟩
  · have hchosen : chosen d := by
      simp only [es, change, hchange] at hes
      exact chosen_of_exchanges hes hasked
    refine ⟨?_, ?_, ?_, ?_⟩
    · intro before v later hsplit hchanges
      rcases hsafe before v later hsplit with hoff | ⟨hsame, -⟩
      · exact hoff
      · exact absurd hsame hchanges
    · intro before v later hsplit hon
      rcases hsafe before v later hsplit with hoff | ⟨-, hready⟩
      · rw [hoff] at hon
        cases hon
      · exact ⟨d, hchosen, hready⟩
    · intro hout
      obtain ⟨heffect, hkeptBits⟩ := hok hout
      exact ⟨d, hchosen, heffect.congr hafter, (hafter.mono (by decide)).trans hkeptBits⟩
    · intro e hout
      refine ⟨hcause e hout, ?_⟩
      rcases herror e hout with hnone | hoff | ⟨he, heffect, hbusy⟩
      · exact .inl hnone
      · refine .inr (.inl ?_)
        rw [cardClockEnable.isSet_congr (hafter.mono (by decide)), hoff]
      · exact .inr (.inr ⟨he, d, hchosen, heffect.congr hafter, hbusy⟩)

/-- Surroundings with a script whose clock service knows a base clock. -/
def clocked (base : UInt32) : Surroundings Request.Answer (List (Register × UInt32))
  | .baseClock _, script => (.ok base, script)
  | q, script => scripted q script

/-- The clock of a card that was found is raised from 400 kHz to 25 MHz. -/
theorem clock_change_glitchless_raised :
    let request : ClockRequest :=
      { mode := .operational, targetHz := 25000000, version := .v3, spinLimit := 2 }
    let hardware := controlled {} (clocked 200000000)
    let outcome := run hardware (Platform.bcm2711.setClock request).run (0x000EFA07, [])
    outcome.1 = .ok () ∧
      ∃ d, Chosen (.ok 200000000) request d ∧ d.InEffect outcome.2.1 ∧
        AgreeOn bystanders outcome.2.1 0x000EFA07 := by
  intro request hardware outcome
  have hsucceeds : outcome.1.isOk = true := by decide +kernel
  have hok : outcome.1 = .ok () := by
    cases hout : outcome.1 with
    | ok u => rfl
    | error e =>
      rw [hout] at hsucceeds
      cases hsucceeds
  refine ⟨hok, ?_⟩
  exact (clock_change_glitchless rfl (kept_controlled {} (clocked 200000000)) request
    (0x000EFA07, [])).2.2.1 hok

end SdHost
