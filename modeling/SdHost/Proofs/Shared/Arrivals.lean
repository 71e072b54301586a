import SdHost.Proofs.Operation.Logging
import SdHost.SharedController

/-!
# Interrupts that arrive while a controller is in use

Between any two things that happen while a controller is in use, interrupts may arrive, and so they
may while a completion handler runs.  They are deferred, which leaves nothing but a record in the
log; so whatever is done with the controller comes to the same as if none had arrived.

* `onInterrupt_inUse`, `onInterrupt_foreign`, `onInterrupt_own` — the three ways of an interrupt;
* `SharedController.Spares` — an interrupt that is not served, `path_onInterrupt_spared` — what it
  does;
* `Outside` — surroundings whose completion handlers take their time, `Site` — their state;
* `Outside.arrivals`, `Outside.beset` — interrupts arrive by a schedule; `Outside.calm` — none do;
* `beset_calm`, `use_calm` — both come to the same.
-/

namespace SdHost

open Dialogue Dialogue.Coupling Register Request

variable {σ α : Type}

/-! ### The ways of an interrupt -/

namespace SharedController

variable {s : SharedController} {irq : UInt32}

theorem onInterrupt_inUse (h : s.inUse = true) :
    s.onInterrupt irq = report (.interruptDeferred irq) >>= fun _ => pure (false, s) := by
  have hlock : s.lock? = none := if_pos h
  unfold onInterrupt deferInterrupt
  rw [hlock]
  rfl

/-- While nobody uses the controller, an interrupt uses it. -/
theorem onInterrupt_free (h : s.inUse = false) :
    s.onInterrupt irq = s.controller.handleInterruptLine irq >>= fun c =>
      pure (true, { s with controller := c }) := by
  obtain ⟨c, inUse⟩ := s
  obtain rfl : inUse = false := h
  rfl

theorem onInterrupt_foreign (h : s.inUse = false) (hirq : irq ∉ s.controller.irqs) :
    s.onInterrupt irq = report (.foreignInterrupt irq) >>= fun _ => pure (true, s) := by
  rw [onInterrupt_free h]
  unfold Controller.handleInterruptLine
  rw [if_neg hirq]
  rfl

theorem onInterrupt_own (h : s.inUse = false) (hirq : irq ∈ s.controller.irqs) :
    s.onInterrupt irq =
      s.controller.handleInterrupt >>= fun c => pure (true, { s with controller := c }) := by
  rw [onInterrupt_free h]
  unfold Controller.handleInterruptLine
  rw [if_pos hirq]

/-- The controller is in use, or the line is not one of its own. -/
def Spares (s : SharedController) (irq : UInt32) : Prop :=
  s.inUse = true ∨ irq ∉ s.controller.irqs

/-- What is said of an interrupt that is not served. -/
def excuse (s : SharedController) (irq : UInt32) : Log.Message :=
  if s.inUse then .interruptDeferred irq else .foreignInterrupt irq

/-- An interrupt that is not served is reported. -/
theorem onInterrupt_spared (h : s.Spares irq) :
    s.onInterrupt irq = report (s.excuse irq) >>= fun _ => pure (!s.inUse, s) := by
  cases hfree : s.inUse with
  | true =>
    rw [onInterrupt_inUse hfree, excuse, if_pos hfree]
    rfl
  | false =>
    have hirq : irq ∉ s.controller.irqs :=
      h.resolve_left fun hin => Bool.false_ne_true (hfree.symm.trans hin)
    rw [onInterrupt_foreign hfree hirq, excuse, if_neg (by rw [hfree]; exact Bool.false_ne_true)]
    rfl

/-- **An interrupt that is not served** makes no register access, and changes nothing. -/
theorem path_onInterrupt_spared (h : s.Spares irq) {es : List Exchange}
    {r : Bool × SharedController} (hpath : Path (s.onInterrupt irq) es r) :
    es = [⟨.report (s.excuse irq), ()⟩] ∧ r = (!s.inUse, s) := by
  rw [onInterrupt_spared h] at hpath
  obtain ⟨u, hreport, hr⟩ := path_bind_pure.mp hpath
  exact ⟨path_question.mp hreport, hr⟩

end SharedController

/-! ### Surroundings with interrupts -/

/-- Surroundings whose completion handlers take their time: what a handler does, one thing after
the other. -/
structure Outside (σ : Type) where
  reply : Surroundings Answer σ
  steps : Callback → Entry → List (σ → σ)

/-- What is outside of a controller, and how many things have happened there. -/
structure Site (σ : Type) where
  hardware : σ
  logger : Log.Logger
  elapsed : Nat := 0

/-- What a controller can tell of a site: the log is only asked what it keeps. -/
def Site.view (w : Site σ) : σ × Log.Verbosity := (w.hardware, w.logger.verbosity)

/-- The lines on which interrupts arrive before the next thing happens, by what has happened. -/
abbrev Schedule := Nat → List UInt32

namespace Outside

variable (o : Outside σ) (schedule : Schedule) (s : SharedController)

/-- An interrupt arrives. -/
def arrive (w : σ × Log.Logger) (irq : UInt32) : σ × Log.Logger :=
  (run (logged o.reply) (s.onInterrupt irq) w).2

/-- Interrupts arrive, as the schedule has it. -/
def arrivals (w : Site σ) : Site σ :=
  let (hardware, logger) := (schedule w.elapsed).foldl (o.arrive s) (w.hardware, w.logger)
  ⟨hardware, logger, w.elapsed + 1⟩

/-- What a completion handler does that was called, with interrupts in between. -/
def handle (q : Request) (w : Site σ) : Site σ :=
  match q with
  | .handBack e (.callback h) =>
    (o.steps h e).foldl (fun w f =>
      let w := o.arrivals schedule s w
      { w with hardware := f w.hardware }) w
  | _ => w

/-- Surroundings in which interrupts arrive before every question and before everything that a
completion handler does. -/
def beset : Surroundings Answer (Site σ) := fun q w =>
  let w := o.arrivals schedule s w
  let (x, hardware, logger) := logged o.reply q (w.hardware, w.logger)
  (x, o.handle schedule s q { w with hardware := hardware, logger := logger })

/-- The same surroundings without interrupts, and without what the log says. -/
def calm : Surroundings Answer (σ × Log.Verbosity)
  | .keeps level, (x, v) => (v.admits level, (x, v))
  | .report _, (x, v) => ((), (x, v))
  | .handBack e (.callback h), (x, v) =>
    ((), ((o.steps h e).foldl (fun x f => f x) (o.reply (.handBack e (.callback h)) x).2, v))
  | q, (x, v) => ((o.reply q x).1, ((o.reply q x).2, v))

/-- Uses the controller for a dialogue.  Interrupts may still arrive before it is given back. -/
def use (d : Action α) (w : Site σ) : (α × List Exchange) × Site σ :=
  let (a, ended) := run (o.beset schedule s) d w
  ((a, exchanges (o.beset schedule s) d w), o.arrivals schedule s ended)

/-- What is made of a result does not matter to what is outside. -/
theorem use_bind_pure {β : Type} (d : Action α) (f : α → β) (w : Site σ) :
    o.use schedule s (d >>= fun a => pure (f a)) w =
      ((f (o.use schedule s d w).1.1, (o.use schedule s d w).1.2), (o.use schedule s d w).2) := by
  unfold use
  rw [run_bind, exchanges_bind]
  exact Prod.ext (Prod.ext rfl (List.append_nil _)) rfl

/-! ### Interrupts do not matter -/

variable {s}

/-- An interrupt that is not served leaves the hardware alone. -/
theorem arrive_spared {irq : UInt32} (h : s.Spares irq) (w : σ × Log.Logger) :
    (o.arrive s w irq).1 = w.1 ∧ (o.arrive s w irq).2.verbosity = w.2.verbosity := by
  unfold arrive
  rw [SharedController.onInterrupt_spared h]
  exact ⟨rfl, verbosity_log ..⟩

theorem arrive_all_inUse (h : s.inUse = true) (irqs : List UInt32) (w : σ × Log.Logger) :
    (irqs.foldl (o.arrive s) w).1 = w.1 ∧
      (irqs.foldl (o.arrive s) w).2.verbosity = w.2.verbosity := by
  induction irqs generalizing w with
  | nil => exact ⟨rfl, rfl⟩
  | cons irq irqs ih =>
    have hspared : s.Spares irq := .inl h
    obtain ⟨hhardware, hverbosity⟩ := arrive_spared o hspared w
    rw [List.foldl_cons, (ih _).1, (ih _).2]
    exact ⟨hhardware, hverbosity⟩

/-- Interrupts that arrive while the controller is in use cannot be told. -/
theorem view_arrivals (h : s.inUse = true) (w : Site σ) :
    (o.arrivals schedule s w).view = w.view := by
  obtain ⟨hhardware, hverbosity⟩ :=
    arrive_all_inUse o h (schedule w.elapsed) (w.hardware, w.logger)
  exact Prod.ext hhardware hverbosity

/-- Nor can those that arrive while a completion handler runs. -/
theorem view_steps (h : s.inUse = true) (fs : List (σ → σ)) (w : Site σ) :
    (fs.foldl (fun w f =>
      let w := o.arrivals schedule s w
      { w with hardware := f w.hardware }) w).view =
    (fs.foldl (fun x f => f x) w.hardware, w.logger.verbosity) := by
  induction fs generalizing w with
  | nil => rfl
  | cons f fs ih =>
    obtain ⟨hhardware, hverbosity⟩ := Prod.mk.inj (view_arrivals o schedule h w)
    rw [List.foldl_cons, List.foldl_cons, ih]
    show (fs.foldl (fun x f => f x) (f (o.arrivals schedule s w).hardware),
      (o.arrivals schedule s w).logger.verbosity) = _
    rw [hhardware, hverbosity]

/-- **A question** is answered as if no interrupts arrived, and leads to the same. -/
theorem beset_calm (h : s.inUse = true) (q : Request) (w : Site σ) :
    (o.beset schedule s q w).1 = (o.calm q w.view).1 ∧
      (o.beset schedule s q w).2.view = (o.calm q w.view).2 := by
  rw [← view_arrivals o schedule h w]
  unfold beset
  generalize o.arrivals schedule s w = w
  cases q with
  | report m => exact ⟨rfl, Prod.ext rfl (verbosity_log ..)⟩
  | handBack e route =>
    cases route with
    | callback handler => exact ⟨rfl, view_steps o schedule h _ _⟩
    | _ => exact ⟨rfl, rfl⟩
  | _ => exact ⟨rfl, rfl⟩

end Outside

/-- Surroundings with interrupts, and without. -/
def besetting (o : Outside σ) (schedule : Schedule) (s : SharedController) :
    Coupling Answer (Site σ) (σ × Log.Verbosity) where
  left := o.beset schedule s
  right := o.calm
  States w s := w.view = s
  Traces := Eq
  nil := rfl
  append h h' := by rw [h, h']

namespace Outside

variable (o : Outside σ) (schedule : Schedule) {s : SharedController}

theorem indifferent_besetting (h : s.inUse = true) (q : Request) :
    (besetting o schedule s).Indifferent q := by
  rintro w _ rfl
  obtain ⟨hanswer, hview⟩ := beset_calm o schedule h q w
  have htraces : [(⟨q, (o.beset schedule s q w).1⟩ : Exchange)] = [⟨q, (o.calm q w.view).1⟩] := by
    rw [hanswer]
  exact ⟨hanswer, hview, htraces⟩

/-- **Whatever is done** with a controller comes to the same as if no interrupts arrived. -/
theorem use_calm (h : s.inUse = true) (d : Action α) (w : Site σ) :
    (o.use schedule s d w).1 = ((run o.calm d w.view).1, exchanges o.calm d w.view) ∧
      (o.use schedule s d w).2.view = (run o.calm d w.view).2 := by
  have hasks : Asks (besetting o schedule s).Indifferent d :=
    fun _ _ _ x _ => indifferent_besetting o schedule h x.question
  have hview : (besetting o schedule s).States w w.view := rfl
  obtain ⟨hresult, hstates, htraces⟩ := agree_of_asks hasks hview
  exact ⟨Prod.ext hresult htraces, (view_arrivals o schedule h _).trans hstates⟩

/-- Two schedules come to the same. -/
theorem use_congr (schedule' : Schedule) (h : s.inUse = true) (d : Action α) {w w' : Site σ}
    (hview : w.view = w'.view) :
    (o.use schedule s d w).1 = (o.use schedule' s d w').1 ∧
      (o.use schedule s d w).2.view = (o.use schedule' s d w').2.view := by
  obtain ⟨hresult, hend⟩ := use_calm o schedule h d w
  obtain ⟨hresult', hend'⟩ := use_calm o schedule' h d w'
  rw [hview] at hresult hend
  exact ⟨hresult.trans hresult'.symm, hend.trans hend'.symm⟩

end Outside

end SdHost
