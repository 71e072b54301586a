import SdHost.Proofs.Shared.Arrivals
import SdHost.Proofs.Turn.Bounds

/-!
# Interrupts that are harmless

A controller is shared: it is locked and given back, used in between, and interrupted at any time.
Into what is done with it, further interrupts may be inserted anywhere.  Those that come while it is
in use, those on a line of another device and those that find nothing are harmless: all else comes
to the same, and nothing is lost.

* `Scene`, `Move`, `Scene.perform` — a shared controller, and what can happen to it;
* `Visit`, `play` — a run with interrupts inserted, and what its own moves come to;
* `Scene.Harmless`, `HarmlessIn` — the interrupts that may be inserted;
* `perform_congr`, `perform_harmless` — one step; `play_bare` — a run;
* `Controller.ServedOnce` — a status is acted on once, `Scene.Idles` — and stays until then;
* `interrupts_harmless` — nothing changes, and nothing is lost.
-/

namespace SdHost

open Dialogue Register Request

variable {σ : Type}

/-- A shared controller with what is outside of it. -/
structure Scene (σ : Type) where
  site : Site σ
  cell : SharedController
  /-- The controller, while somebody holds it. -/
  holder : Option Controller := none

/-- What can happen to a shared controller. -/
inductive Move (σ : Type) where
  | lock
  | unlock
  /-- The holder makes a call. -/
  | call (budget : Nat) (call : Call)
  | interrupt (irq : UInt32)
  /-- Something happens outside. -/
  | happens (f : σ → σ)

/-- What a move comes to. -/
structure Account where
  reply : Reply
  exchanges : List Exchange := []

/-- The same controller in use. -/
def SharedController.held (s : SharedController) : SharedController := { s with inUse := true }

namespace Scene

/-- Who holds the controller uses it. -/
def Sound (st : Scene σ) : Prop := st.holder.isSome → st.cell.inUse = true

/-- A move.  Who does not hold the controller cannot call it; an interrupt uses it, unless it is in
use. -/
def perform (o : Outside σ) (schedule : Schedule) (st : Scene σ) : Move σ → Account × Scene σ
  | .lock =>
    match st.cell.lock? with
    | none => ({ reply := .flag false }, st)
    | some (c, cell) => ({ reply := .flag true }, { st with cell := cell, holder := some c })
  | .unlock =>
    match st.holder with
    | none => ({ reply := .nothing }, st)
    | some c => ({ reply := .nothing }, { st with cell := st.cell.unlock c, holder := none })
  | .call budget call =>
    match st.holder with
    | none => ({ reply := .nothing }, st)
    | some c =>
      let ((r, es), site) := o.use schedule st.cell (c.call budget call) st.site
      (⟨r.1, es⟩, { st with site := site, holder := some r.2 })
  | .interrupt irq =>
    let ((r, es), site) := o.use schedule st.cell.held (st.cell.onInterrupt irq) st.site
    (⟨.flag r.1, es⟩, { st with site := site, cell := r.2 })
  | .happens f =>
    ({ reply := .nothing }, { st with site := { st.site with hardware := f st.site.hardware } })

end Scene

/-! ### Runs with insertions -/

/-- A move of a run, or an interrupt that is inserted. -/
inductive Visit (σ : Type) where
  | own (m : Move σ)
  | inserted (irq : UInt32)

namespace Visit

/-- The visit as a move. -/
def move : Visit σ → Move σ
  | own m => m
  | inserted irq => .interrupt irq

/-- The visit is not inserted. -/
def isOwn : Visit σ → Bool
  | own _ => true
  | inserted _ => false

end Visit

/-- One move after the other; of each it is told whether it is one of the run's own. -/
def play (o : Outside σ) (schedule : Schedule) :
    List (Visit σ) → Scene σ → List (Bool × Account) × Scene σ
  | [], st => ([], st)
  | v :: rest, st =>
    let (account, st) := st.perform o schedule v.move
    let (accounts, st) := play o schedule rest st
    ((v.isOwn, account) :: accounts, st)

/-- What the moves of the run itself come to. -/
def ownAccounts (accounts : List (Bool × Account)) : List Account :=
  (accounts.filter (·.1)).map (·.2)

/-- No status is latched, and none is waiting to be. -/
def Outside.Still (o : Outside σ) (x : σ) : Prop := o.reply (.read interruptStatus) x = (0, x)

/-- The interrupt is not served, or finds nothing. -/
def Scene.Harmless (o : Outside σ) (st : Scene σ) (irq : UInt32) : Prop :=
  st.cell.Spares irq ∨ o.Still st.site.hardware

/-- Every interrupt that is inserted is harmless where it comes. -/
def HarmlessIn (o : Outside σ) (schedule : Schedule) : List (Visit σ) → Scene σ → Prop
  | [], _ => True
  | .own m :: rest, st => HarmlessIn o schedule rest (st.perform o schedule m).2
  | .inserted irq :: rest, st =>
    st.Harmless o irq ∧ HarmlessIn o schedule rest (st.perform o schedule (.interrupt irq)).2

/-! ### One step -/

namespace Scene

variable (o : Outside σ) (schedule : Schedule) {st st' : Scene σ} {irq : UInt32}

/-- Two scenes that differ in what the log says, and in how much has happened. -/
structure Same (st st' : Scene σ) : Prop where
  view : st.site.view = st'.site.view
  cell : st.cell = st'.cell
  holder : st.holder = st'.holder

theorem Same.refl (st : Scene σ) : st.Same st := ⟨rfl, rfl, rfl⟩

theorem Same.trans {st'' : Scene σ} (h : st.Same st') (h' : st'.Same st'') : st.Same st'' :=
  ⟨h.view.trans h'.view, h.cell.trans h'.cell, h.holder.trans h'.holder⟩

/-- **A move** comes to the same, whatever interrupts arrive while the controller is in use. -/
theorem perform_congr (schedule' : Schedule) (hsound : st.Sound) (h : st.Same st') (m : Move σ) :
    (st.perform o schedule m).1 = (st'.perform o schedule' m).1 ∧
      (st.perform o schedule m).2.Same (st'.perform o schedule' m).2 := by
  obtain ⟨site, cell, holder⟩ := st
  obtain ⟨site', _, _⟩ := st'
  obtain ⟨hview, rfl, rfl⟩ := h
  cases m with
  | lock =>
    unfold perform
    cases cell.lock? with
    | none => exact ⟨rfl, hview, rfl, rfl⟩
    | some taken => exact ⟨rfl, hview, rfl, rfl⟩
  | unlock =>
    cases holder with
    | none => exact ⟨rfl, hview, rfl, rfl⟩
    | some c => exact ⟨rfl, hview, rfl, rfl⟩
  | call budget call =>
    cases holder with
    | none => exact ⟨rfl, hview, rfl, rfl⟩
    | some c =>
      obtain ⟨hresult, hend⟩ :=
        o.use_congr schedule schedule' (hsound rfl) (c.call budget call) hview
      obtain ⟨hr, hes⟩ := Prod.mk.inj hresult
      exact ⟨congrArg₂ Account.mk (congrArg Prod.fst hr) hes, hend, rfl,
        congrArg some (congrArg Prod.snd hr)⟩
  | interrupt irq =>
    have hheld : cell.held.inUse = true := rfl
    obtain ⟨hresult, hend⟩ := o.use_congr schedule schedule' hheld (cell.onInterrupt irq) hview
    obtain ⟨hr, hes⟩ := Prod.mk.inj hresult
    exact ⟨congrArg₂ Account.mk (congrArg Reply.flag (congrArg Prod.fst hr)) hes, hend,
      congrArg Prod.snd hr, rfl⟩
  | happens f =>
    obtain ⟨hhardware, hverbosity⟩ := Prod.mk.inj hview
    exact ⟨rfl, Prod.ext (congrArg f hhardware) hverbosity, rfl, rfl⟩

/-- An interrupt that changes nothing where no others arrive. -/
theorem perform_unchanged {served : Bool} {es : List Exchange}
    (hrun : run o.calm (st.cell.onInterrupt irq) st.site.view = ((served, st.cell), st.site.view))
    (hes : exchanges o.calm (st.cell.onInterrupt irq) st.site.view = es) :
    (st.perform o schedule (.interrupt irq)).1 = ⟨.flag served, es⟩ ∧
      (st.perform o schedule (.interrupt irq)).2.Same st := by
  have hheld : st.cell.held.inUse = true := rfl
  obtain ⟨hresult, hend⟩ := o.use_calm schedule hheld (st.cell.onInterrupt irq) st.site
  rw [hrun, hes] at hresult
  rw [hrun] at hend
  obtain ⟨hr, hexchanges⟩ := Prod.mk.inj hresult
  exact ⟨congrArg₂ Account.mk (congrArg Reply.flag (congrArg Prod.fst hr)) hexchanges, hend,
    congrArg Prod.snd hr, rfl⟩

/-- **An interrupt that is not served** is reported, and changes nothing else. -/
theorem perform_spared (h : st.cell.Spares irq) :
    (st.perform o schedule (.interrupt irq)).1 =
        ⟨.flag !st.cell.inUse, [⟨.report (st.cell.excuse irq), ()⟩]⟩ ∧
      (st.perform o schedule (.interrupt irq)).2.Same st := by
  apply perform_unchanged
  · rw [SharedController.onInterrupt_spared h]
    rfl
  · rw [SharedController.onInterrupt_spared h]
    rfl

/-- **An interrupt that finds nothing** looks at the status, and changes nothing. -/
theorem perform_still (hfree : st.cell.inUse = false) (hirq : irq ∈ st.cell.controller.irqs)
    (h : o.Still st.site.hardware) :
    (st.perform o schedule (.interrupt irq)).1 = ⟨.flag true, [⟨.read interruptStatus, 0⟩]⟩ ∧
      (st.perform o schedule (.interrupt irq)).2.Same st := by
  -- the status is empty, so the pass ends there
  have hreply : o.reply (.read interruptStatus) st.site.hardware = (0, st.site.hardware) := h
  have hlook : o.calm (.read interruptStatus) st.site.view = (0, st.site.view) := by
    show ((o.reply (.read interruptStatus) st.site.hardware).1,
      ((o.reply (.read interruptStatus) st.site.hardware).2, st.site.logger.verbosity)) = _
    rw [hreply]
    rfl
  have hpass : run o.calm st.cell.controller.handleInterrupt st.site.view =
      (st.cell.controller, st.site.view) := by
    show run o.calm (ask (.read interruptStatus) _) _ = _
    rw [run_ask, hlook]
    rfl
  have hlooks : exchanges o.calm st.cell.controller.handleInterrupt st.site.view =
      [⟨.read interruptStatus, 0⟩] := by
    show exchanges o.calm (ask (.read interruptStatus) _) _ = _
    rw [exchanges, hlook]
    rfl
  apply perform_unchanged
  · rw [SharedController.onInterrupt_own hfree hirq, run_bind, hpass]
    rfl
  · rw [SharedController.onInterrupt_own hfree hirq, exchanges_bind, hpass, hlooks]
    rfl

/-- **An interrupt that is harmless** does nothing that lasts, and changes nothing. -/
theorem perform_harmless (h : st.Harmless o irq) :
    doings (st.perform o schedule (.interrupt irq)).1.exchanges = [] ∧
      (st.perform o schedule (.interrupt irq)).2.Same st := by
  by_cases hspares : st.cell.Spares irq
  · obtain ⟨haccount, hsame⟩ := perform_spared o schedule hspares
    rw [haccount]
    exact ⟨rfl, hsame⟩
  · -- the controller is free and the line its own, so nothing is to be found
    obtain ⟨hfree, hirq⟩ := not_or.mp hspares
    obtain ⟨haccount, hsame⟩ := perform_still o schedule (Bool.eq_false_iff.mpr hfree)
      (not_not.mp hirq) (h.resolve_left hspares)
    rw [haccount]
    exact ⟨rfl, hsame⟩

/-- Who holds the controller goes on using it. -/
theorem Sound.perform (hsound : st.Sound) (m : Move σ) : (st.perform o schedule m).2.Sound := by
  cases m with
  | lock =>
    unfold Scene.perform SharedController.lock?
    cases hin : st.cell.inUse with
    | true => exact fun _ => hin
    | false => exact fun _ => rfl
  | unlock =>
    unfold Scene.perform
    cases hheld : st.holder with
    | none => exact hsound
    | some c => exact fun hnone => nomatch hnone
  | call budget call =>
    unfold Scene.perform
    cases hheld : st.holder with
    | none => exact hsound
    | some c => exact fun _ => hsound (by rw [hheld]; rfl)
  | interrupt irq =>
    intro hheld
    have hin : st.cell.inUse = true := hsound hheld
    have hcell := (perform_spared o schedule (.inl hin : st.cell.Spares irq)).2.cell
    exact (congrArg SharedController.inUse hcell).trans hin
  | happens f => exact hsound

end Scene

/-! ### A run -/

/-- **A run** with harmless interrupts inserted comes to the same as without, whatever arrives while
the controller is in use. -/
theorem play_bare (o : Outside σ) (schedule schedule' : Schedule) {visits : List (Visit σ)}
    {st st' : Scene σ} (hsound : st.Sound) (hsame : st.Same st')
    (h : HarmlessIn o schedule visits st) :
    ownAccounts (play o schedule visits st).1 =
        ownAccounts (play o schedule' (visits.filter Visit.isOwn) st').1 ∧
      (play o schedule visits st).2.Same (play o schedule' (visits.filter Visit.isOwn) st').2 := by
  induction visits generalizing st st' with
  | nil => exact ⟨rfl, hsame⟩
  | cons v rest ih =>
    cases v with
    | own m =>
      obtain ⟨haccount, hafter⟩ := Scene.perform_congr o schedule schedule' hsound hsame m
      obtain ⟨haccounts, hend⟩ := ih (hsound.perform o schedule m) hafter h
      exact ⟨congrArg₂ List.cons haccount haccounts, hend⟩
    | inserted irq =>
      obtain ⟨hharmless, hrest⟩ := h
      obtain ⟨-, hafter⟩ := Scene.perform_harmless o schedule hharmless
      exact ih (hsound.perform o schedule (.interrupt irq)) (hafter.trans hsame) hrest

/-- Nothing that lasts is done in the insertions. -/
theorem play_inserted (o : Outside σ) (schedule : Schedule) {visits : List (Visit σ)}
    {st : Scene σ} (h : HarmlessIn o schedule visits st) :
    ∀ a ∈ (play o schedule visits st).1, a.1 = false → doings a.2.exchanges = [] := by
  induction visits generalizing st with
  | nil => exact List.forall_mem_nil _
  | cons v rest ih =>
    cases v with
    | own m => exact List.forall_mem_cons.mpr ⟨(nomatch ·), ih h⟩
    | inserted irq =>
      obtain ⟨hharmless, hrest⟩ := h
      exact List.forall_mem_cons.mpr
        ⟨fun _ => (Scene.perform_harmless o schedule hharmless).1, ih hrest⟩

/-! ### Nothing is lost -/

/-- A pass has read the status once and, unless it was empty, acknowledged it once, as it was read,
and served the controller by it. -/
inductive Controller.ServedOnce (c : Controller) : UInt32 → List Event → Controller → Prop
  | empty : c.ServedOnce 0 [.status 0] c
  | acted {word : UInt32} {served : List Event} {c' : Controller} (hword : word ≠ 0)
      (hserve : Leads (c.serve ⟨word⟩) served c') (hstatuses : statuses served = [])
      (hacknowledgements : acknowledgements served = []) :
      c.ServedOnce word (.status word :: .acknowledged word :: served) c'

/-- The status that a look would find. -/
def Outside.status (o : Outside σ) (x : σ) : UInt32 := (o.reply (.read interruptStatus) x).1

section Reached

variable {ts : List Record} {c c' : Controller} (o : Outside σ) (schedule : Schedule)

/-- **A pass** over a controller that was reached acts once on the status that it reads. -/
theorem Reached.servedOnce (h : Reached ts c) {word : UInt32} {es : List Exchange}
    (hpass : Path c.handleInterrupt (⟨.read interruptStatus, word⟩ :: es) c') :
    c.ServedOnce word (events (⟨.read interruptStatus, word⟩ :: es)) c' := by
  have hleads := leads_of_path hpass
  have hevents : events (⟨.read interruptStatus, word⟩ :: es) = .status word :: events es := rfl
  rw [hevents] at hleads ⊢
  rcases Controller.leads_handleInterrupt hleads with ⟨hes, rfl⟩ |
    ⟨latched, served, hword, hes, hserve⟩
  · obtain ⟨hstatus, hnil⟩ := List.cons.inj hes
    obtain rfl : word = 0 := Event.status.inj hstatus
    rw [hnil]
    exact .empty
  · obtain ⟨hstatus, htail⟩ := List.cons.inj hes
    obtain rfl : word = latched := Event.status.inj hstatus
    obtain ⟨hstatuses, hacknowledgements, -⟩ :=
      Controller.leads_serve_bounded h.fresh_tail hserve
    rw [htail]
    exact .acted hword hserve hstatuses hacknowledgements

/-- A pass finds the status that was latched before the interrupts that arrive meanwhile. -/
theorem Reached.servedOnce_use (h : Reached ts c) {s : SharedController} (hin : s.inUse = true)
    (w : Site σ) :
    c.ServedOnce (o.status w.hardware) (events (o.use schedule s c.handleInterrupt w).1.2)
      (o.use schedule s c.handleInterrupt w).1.1 := by
  rw [(o.use_calm schedule hin c.handleInterrupt w).1]
  exact h.servedOnce (path_run o.calm c.handleInterrupt w.view)

end Reached

namespace Scene

/-- The move is a pass over the controller: its holder polls, or an interrupt on one of its lines
comes while nobody holds it. -/
inductive Serves (st : Scene σ) (c : Controller) : Move σ → Prop
  | poll (budget : Nat) (hholder : st.holder = some c) :
      st.Serves c (.call budget (.operation .handleInterrupt))
  | line (irq : UInt32) (hholder : st.holder = none) (hcell : st.cell = ⟨c, false⟩)
      (hirq : irq ∈ c.irqs) : st.Serves c (.interrupt irq)

/-- From the first scene to the second the controller is locked and given back at most, and no
interrupt is served. -/
inductive Idles (o : Outside σ) (schedule : Schedule) (st : Scene σ) : Scene σ → Prop
  | refl : st.Idles o schedule st
  | lock {st' : Scene σ} (h : st.Idles o schedule st') :
      st.Idles o schedule (st'.perform o schedule .lock).2
  | unlock {st' : Scene σ} (h : st.Idles o schedule st') :
      st.Idles o schedule (st'.perform o schedule .unlock).2
  | interrupt {st' : Scene σ} {irq : UInt32} (h : st.Idles o schedule st')
      (hspares : st'.cell.Spares irq) :
      st.Idles o schedule (st'.perform o schedule (.interrupt irq)).2

/-- The controller as it is now. -/
def controller (st : Scene σ) : Controller := st.holder.getD st.cell.controller

variable (o : Outside σ) (schedule : Schedule) {st st' : Scene σ} {c : Controller}

theorem Idles.sound (h : st.Idles o schedule st') (hsound : st.Sound) : st'.Sound := by
  induction h with
  | refl => exact hsound
  | lock _ ih => exact ih.perform o schedule .lock
  | unlock _ ih => exact ih.perform o schedule .unlock
  | interrupt _ _ ih => exact ih.perform o schedule _

/-- **What is latched stays latched** until the controller is called or an interrupt is served. -/
theorem Idles.hardware_eq (h : st.Idles o schedule st') :
    st'.site.hardware = st.site.hardware := by
  induction h with
  | refl => rfl
  | @lock st' _ ih =>
    rw [← ih]
    unfold perform
    cases st'.cell.lock? with
    | none => rfl
    | some taken => rfl
  | @unlock st' _ ih =>
    rw [← ih]
    unfold perform
    cases st'.holder with
    | none => rfl
    | some c => rfl
  | interrupt _ hspares ih =>
    rw [← ih]
    exact congrArg Prod.fst (perform_spared o schedule hspares).2.view

/-- **A pass in a scene** acts once on the status that is latched when it comes. -/
theorem Serves.servedOnce {ts : List Record} (hreached : Reached ts c) (hsound : st.Sound)
    {m : Move σ} (h : st.Serves c m) :
    c.ServedOnce (o.status st.site.hardware) (events (st.perform o schedule m).1.exchanges)
      (st.perform o schedule m).2.controller := by
  obtain ⟨site, cell, holder⟩ := st
  cases h with
  | poll budget hholder =>
    obtain rfl : holder = some c := hholder
    have hpass : c.call budget (.operation .handleInterrupt) =
        c.handleInterrupt >>= fun c => pure (.nothing, c) := rfl
    unfold perform
    simp only [hpass, o.use_bind_pure]
    exact hreached.servedOnce_use o schedule (hsound rfl) site
  | line irq hholder hcell hirq =>
    obtain rfl : holder = none := hholder
    obtain rfl : cell = ⟨c, false⟩ := hcell
    have hpass : SharedController.onInterrupt ⟨c, false⟩ irq =
        c.handleInterrupt >>= fun c => pure (true, ⟨c, false⟩) :=
      SharedController.onInterrupt_own rfl hirq
    unfold perform
    simp only [hpass, o.use_bind_pure]
    exact hreached.servedOnce_use o schedule rfl site

end Scene

/-- **Deferred, foreign and empty interrupts are harmless**, that is, those that come while the
controller is in use, on a line of another device, or where nothing is to be found.  Wherever they
are inserted into a run, also between any two things that happen during a call or in a completion
handler, what its own moves come to is the same: the answers, all that is read, written and handed
back, and the controller and the hardware in the end.  **Nothing is lost**: an interrupt that is not
served makes no register access and leaves the hardware alone, and the status that was latched when
it came is what the next pass reads, a poll or an interrupt on an own line, and is acted on there
once. -/
theorem interrupts_harmless (o : Outside σ) (schedule schedule' : Schedule) {st : Scene σ}
    {visits : List (Visit σ)} (hsound : st.Sound) (h : HarmlessIn o schedule visits st) :
    (let full := play o schedule visits st
      let bare := play o schedule' (visits.filter Visit.isOwn) st
      ownAccounts full.1 = ownAccounts bare.1 ∧ full.2.cell = bare.2.cell ∧
        full.2.holder = bare.2.holder ∧ full.2.site.hardware = bare.2.site.hardware ∧
        ∀ a ∈ full.1, a.1 = false → doings a.2.exchanges = []) ∧
    (∀ (s : SharedController) (irq : UInt32), s.Spares irq →
      (∀ es r, Path (s.onInterrupt irq) es r →
        es = [⟨.report (s.excuse irq), ()⟩] ∧ r = (!s.inUse, s)) ∧
      ∀ x l, (o.arrive s (x, l) irq).1 = x) ∧
    (∀ ts c, Reached ts c → ∀ (s : SharedController) (w : Site σ), s.inUse = true →
      c.ServedOnce (o.status w.hardware) (events (o.use schedule s c.handleInterrupt w).1.2)
        (o.use schedule s c.handleInterrupt w).1.1) ∧
    ∀ st later : Scene σ, st.Sound → st.Idles o schedule later →
      later.site.hardware = st.site.hardware ∧ ∀ ts c m, Reached ts c → later.Serves c m →
        c.ServedOnce (o.status st.site.hardware) (events (later.perform o schedule m).1.exchanges)
          (later.perform o schedule m).2.controller := by
  obtain ⟨haccounts, hend⟩ := play_bare o schedule schedule' hsound (Scene.Same.refl st) h
  refine ⟨⟨haccounts, hend.cell, hend.holder, congrArg Prod.fst hend.view,
    play_inserted o schedule h⟩, ?_, ?_, ?_⟩
  · intro s irq hspares
    exact ⟨fun es r hpath => SharedController.path_onInterrupt_spared hspares hpath,
      fun x l => (o.arrive_spared hspares (x, l)).1⟩
  · intro ts c hreached s w hin
    exact hreached.servedOnce_use o schedule hin w
  · intro st later hsound hidles
    have hlatched : later.site.hardware = st.site.hardware := hidles.hardware_eq o schedule
    refine ⟨hlatched, fun ts c m hreached hserves => ?_⟩
    rw [← hlatched]
    exact hserves.servedOnce o schedule hreached (hidles.sound o schedule hsound)

/-! ### A run to look at -/

/-- A register file whose completion handlers do two things; the second of them raises an event. -/
def Outside.bench : Outside Bench.RegisterFile where
  reply := Bench.RegisterFile.answer
  steps _ _ := [id, fun f => { f with events := f.events ++ [8] }]

/-- A register file that has nothing stored in the status, and nothing waiting, is still. -/
theorem Outside.still_bench {f : Bench.RegisterFile} (hstored : f.storedAt interruptStatus = 0)
    (hevents : f.events = []) : Outside.bench.Still f := by
  show f.readStatus = _
  unfold Bench.RegisterFile.readStatus
  rw [hevents, hstored]

/-- A controller with an interrupt line, that nobody uses. -/
def Scene.rested : Scene Bench.RegisterFile where
  site := ⟨Bench.RegisterFile.initial, { verbosity := .off }, 0⟩
  cell := ⟨{ Controller.rested with irqs := [86] }, false⟩

/-- A command ends with an interrupt.  Interrupts of another device are inserted, one on the own
line while the event is waiting, and one on the own line after all is over; and before anything
happens during a call there arrives one of each. -/
theorem interrupts_harmless_handler :
    let o := Outside.bench
    let crowded : Schedule := fun _ => [86, 7]
    let visits : List (Visit Bench.RegisterFile) :=
      [.inserted 7, .own .lock,
        .own (.call 0 (.operation (.sendAsync (Command.new 0 0 .none) ⟨0⟩ 5))),
        .own (.happens fun f => { f with events := [1] }),
        .inserted 86, .own .unlock, .own (.interrupt 86), .own (.interrupt 86), .inserted 86]
    let bare := play o (fun _ => []) (visits.filter Visit.isOwn) Scene.rested
    Scene.rested.Sound ∧ HarmlessIn o crowded visits Scene.rested ∧
      (ownAccounts bare.1).map (·.reply) =
        [.flag true, .submitted (some (.ok none)), .nothing, .nothing, .flag true, .flag true] ∧
      (ownAccounts bare.1).flatMap (fun a => statuses (events a.exchanges)) = [1, 8] ∧
      ownAccounts (play o crowded visits Scene.rested).1 = ownAccounts bare.1 := by
  intro o crowded visits bare
  have hsound : Scene.rested.Sound := fun hheld => nomatch hheld
  have hharmless : HarmlessIn o crowded visits Scene.rested := by
    refine ⟨.inl (.inr (by decide)), .inl (.inl ?_), .inr ?_, trivial⟩
    · decide +kernel
    · exact Outside.still_bench (by decide +kernel) (by decide +kernel)
  obtain ⟨⟨haccounts, -⟩, -⟩ := interrupts_harmless o crowded (fun _ => []) hsound hharmless
  exact ⟨hsound, hharmless, by decide +kernel, by decide +kernel, haccounts⟩

end SdHost
