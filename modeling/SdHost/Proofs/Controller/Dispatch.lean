import SdHost.Proofs.Command.Issue
import SdHost.Proofs.Command.Progress

/-!
# The events of dispatching

Heads are started until one is on the wire.  Each head that cannot be started is handed back as a
failed command, and the next one is tried.

* `Controller.settle` — the controller after a command was handed back;
* `Controller.Dispatches` — starting heads: no head is left, the head is started, or it is refused
  and the rest goes on;
* `Controller.leads_dispatch`, `Controller.leads_complete` — dispatching from rest, and after the
  end of a head.
-/

namespace SdHost

/-- A submitted entry that was not touched. -/
structure Entry.Fresh (s : Entry) : Prop where
  issued : s.issued = false
  commandDone : s.commandDone = false
  dataDone : s.dataDone = false
  wordOffset : s.wordOffset = 0

/-- What becomes of a submission that cannot be started. -/
def Entry.refused (s : Entry) : Entry := { s with command := s.command.fail .controllerBusy }

namespace Controller

variable {c c' : Controller} {s e : Entry} {rest : List Entry} {evs : List Event}

/-- The controller after a command was handed back. -/
def settle (c : Controller) (e : Entry) : Controller :=
  match c.routeOf e with
  | .parked => { c with waiting := none, finished := some (e.ticket, e.command) }
  | _ => c

/-- The controller after its head was started. -/
def launch (c : Controller) (s : Entry) : Controller :=
  { c with
    queue := c.queue.modifyHead fun _ => s.inFlight []
    blocksRemaining := s.blocksLeft [] }

/-- The controller after its head could not be started. -/
def dropHead (c : Controller) : Controller := { c with queue := c.queue.tail }

/-- The controller after its head has ended. -/
def popped (c : Controller) : Controller := { c with queue := c.queue.tail, blocksRemaining := 0 }

@[simp] theorem queue_settle : (c.settle e).queue = c.queue := by
  unfold settle
  cases c.routeOf e <;> rfl

theorem entries_popped_settle : (c.popped.settle e).queue.entries = c.queue.entries.tail := by
  rw [queue_settle, popped, Queue.entries_tail]

@[simp] theorem blocksRemaining_settle : (c.settle e).blocksRemaining = c.blocksRemaining := by
  unfold settle
  cases c.routeOf e <;> rfl

@[simp] theorem version_settle : (c.settle e).version = c.version := by
  unfold settle
  cases c.routeOf e <;> rfl

@[simp] theorem platform_settle : (c.settle e).platform = c.platform := by
  unfold settle
  cases c.routeOf e <;> rfl

@[simp] theorem config_settle : (c.settle e).config = c.config := by
  unfold settle
  cases c.routeOf e <;> rfl

/-- Where a command is parked does not depend on the queue. -/
theorem settle_congr {q : Queue queueDepth} {n : Nat} :
    ({ c with queue := q, blocksRemaining := n } : Controller).settle e =
      { c.settle e with queue := q, blocksRemaining := n } := by
  have hroute : ({ c with queue := q, blocksRemaining := n } : Controller).routeOf e =
      c.routeOf e := rfl
  unfold settle
  rw [hroute]
  cases c.routeOf e <;> rfl

/-! ### Single steps -/

theorem leads_deliver (h : Leads (c.deliver e) evs c') :
    evs = [.handedBack e (c.routeOf e)] ∧ c' = c.settle e := by
  obtain ⟨_, _, _, hb, h₁, rfl⟩ := leads_bind.mp h
  rw [leads_handBack.mp hb]
  unfold settle
  cases hroute : c.routeOf e with
  | callback handler =>
    simp only [hroute] at h₁
    obtain ⟨rfl, rfl⟩ := leads_done.mp h₁
    exact ⟨rfl, rfl⟩
  | parked =>
    simp only [hroute] at h₁
    obtain ⟨rfl, rfl⟩ := leads_done.mp h₁
    exact ⟨rfl, rfl⟩
  | abandoned =>
    simp only [hroute] at h₁
    obtain ⟨rfl, rfl⟩ := leads_report_pure h₁
    exact ⟨rfl, rfl⟩

/-- An entry without a pass behind it is the submission, on the wire. -/
theorem inFlight_nil_of_fresh (s : Entry) :
    s.inFlight [] =
      { s with issued := true, commandDone := false, dataDone := false, wordOffset := 0 } := by
  unfold Entry.inFlight
  rw [Command.inFlight_nil, Command.wordsMoved_nil]
  simp only [List.any_nil, Bool.and_false]

theorem blocksLeft_nil (s : Entry) : s.blocksLeft [] = s.command.blocksToMove := by
  unfold Entry.blocksLeft Command.blocksMoved ready
  simp

/-- The two ways in which starting the head ends. -/
theorem leads_issueHead {r : Option Entry × Controller} (hs : c.queue.entries = s :: rest)
    (hfresh : s.Fresh) (h : Leads c.issueHead evs r) :
    (r = (none, c.launch s) ∧ evs = [.latching s.command.interruptMask.bits,
      .started (s.command.transferWord c.version)]) ∨
    (r = (some s.refused, c.dropHead) ∧ evs = [.latching s.command.interruptMask.bits]) := by
  have hhead := Queue.head?_of_cons hs
  unfold issueHead at h
  simp only [hhead, hfresh.issued] at h
  obtain ⟨_, out, _, hi, h₁, rfl⟩ := leads_bind.mp h
  rcases Command.leads_issue hi with ⟨rfl, rfl⟩ | ⟨rfl, rfl⟩
  · obtain ⟨rfl, rfl⟩ := leads_done.mp h₁
    refine .inl ⟨?_, List.append_nil _⟩
    rw [launch, inFlight_nil_of_fresh, blocksLeft_nil]
  · obtain ⟨rfl, rfl⟩ := leads_done.mp h₁
    refine .inr ⟨?_, List.append_nil _⟩
    obtain ⟨command, callback, token, ticket, issued, commandDone, dataDone, wordOffset⟩ := s
    obtain ⟨rfl, rfl, rfl, rfl⟩ := hfresh
    rfl

/-- With a head on the wire there is nothing to start. -/
theorem leads_issueHead_of_issued {r : Option Entry × Controller}
    (hs : c.queue.entries = s :: rest) (hissued : s.issued = true)
    (h : Leads c.issueHead evs r) : r = (none, c) ∧ evs = [] := by
  have hhead := Queue.head?_of_cons hs
  unfold issueHead at h
  simp only [hhead, hissued] at h
  obtain ⟨rfl, rfl⟩ := leads_done.mp h
  exact ⟨rfl, rfl⟩

/-- Without a head there is nothing to start. -/
theorem leads_issueHead_of_nil {r : Option Entry × Controller} (hs : c.queue.entries = [])
    (h : Leads c.issueHead evs r) : r = (none, c) ∧ evs = [] := by
  have hhead := Queue.head?_of_nil hs
  unfold issueHead at h
  simp only [hhead] at h
  obtain ⟨rfl, rfl⟩ := leads_done.mp h
  exact ⟨rfl, rfl⟩

/-! ### Starting heads -/

/-- Heads are started until one is on the wire or none is left. -/
inductive Dispatches : Controller → List Event → Controller → Prop where
  /-- No head is left. -/
  | rest {c : Controller} (hs : c.queue.entries = []) : Dispatches c [] c
  /-- The head is started. -/
  | launch {c : Controller} {s : Entry} {rest : List Entry} (hs : c.queue.entries = s :: rest) :
      Dispatches c [.latching s.command.interruptMask.bits,
        .started (s.command.transferWord c.version)] (c.launch s)
  /-- The head cannot be started, and the rest goes on. -/
  | refuse {c c' : Controller} {s : Entry} {rest : List Entry} {evs : List Event}
      (hs : c.queue.entries = s :: rest) (hrest : Dispatches (c.dropHead.settle s.refused) evs c') :
      Dispatches c (.latching s.command.interruptMask.bits ::
        .handedBack s.refused (c.routeOf s.refused) :: evs) c'

theorem Dispatches.only (h : Dispatches c evs c') : OnlyDispatch evs := by
  induction h with
  | rest hs => simp [OnlyDispatch]
  | launch hs => simp [OnlyDispatch, Event.isDispatch]
  | refuse hs hrest ih =>
    intro ev hev
    rcases List.mem_cons.mp hev with rfl | hev
    · rfl
    · rcases List.mem_cons.mp hev with rfl | hev
      · rfl
      · exact ih ev hev

theorem leads_dispatchUpTo {attempts : Nat} (hsize : c.queue.entries.length ≤ attempts)
    (hfresh : ∀ s ∈ c.queue.entries, s.Fresh) (h : Leads (dispatchUpTo attempts c) evs c') :
    Dispatches c evs c' := by
  -- a head that is refused leaves the queue, so there are always enough attempts
  induction attempts generalizing c evs with
  | zero =>
    obtain ⟨rfl, rfl⟩ := leads_done.mp h
    exact .rest (List.length_eq_zero_iff.mp (Nat.le_zero.mp hsize))
  | succ attempts ih =>
    obtain ⟨first, r, _, hi, h₁, rfl⟩ := leads_bind.mp h
    cases hs : c.queue.entries with
    | nil =>
      obtain ⟨rfl, rfl⟩ := leads_issueHead_of_nil hs hi
      obtain ⟨rfl, rfl⟩ := leads_done.mp h₁
      exact .rest hs
    | cons s rest =>
      have hhead : s.Fresh := hfresh s (by rw [hs]; exact List.mem_cons_self)
      rcases leads_issueHead hs hhead hi with ⟨rfl, rfl⟩ | ⟨rfl, rfl⟩
      · obtain ⟨rfl, rfl⟩ := leads_done.mp h₁
        exact .launch hs
      · obtain ⟨_, c₂, _, hd, h₂, rfl⟩ := leads_bind.mp h₁
        obtain ⟨rfl, rfl⟩ := leads_deliver hd
        have hrest : (c.dropHead.settle s.refused).queue.entries = rest := by
          rw [queue_settle, dropHead, Queue.entries_tail, hs]
          rfl
        refine .refuse hs (ih ?_ ?_ h₂)
        · rw [hs, List.length_cons] at hsize
          rw [hrest]
          omega
        · intro e he
          rw [hrest] at he
          exact hfresh e (by rw [hs]; exact List.mem_cons_of_mem _ he)

/-- **Dispatching from rest.** -/
theorem leads_dispatch (hfresh : ∀ s ∈ c.queue.entries, s.Fresh) (h : Leads c.dispatch evs c') :
    Dispatches c evs c' :=
  leads_dispatchUpTo (Nat.le_refl _) hfresh h

/-- A head on the wire stays there. -/
theorem leads_dispatch_of_issued (hs : c.queue.entries = s :: rest) (hissued : s.issued = true)
    (h : Leads c.dispatch evs c') : evs = [] ∧ c' = c := by
  have hsize : c.queue.size = rest.length + 1 := by
    rw [Queue.size, hs]
    rfl
  unfold dispatch at h
  rw [hsize] at h
  obtain ⟨_, r, _, hi, h₁, rfl⟩ := leads_bind.mp h
  obtain ⟨rfl, rfl⟩ := leads_issueHead_of_issued hs hissued hi
  obtain ⟨rfl, rfl⟩ := leads_done.mp h₁
  exact ⟨rfl, rfl⟩

/-! ### The end of a head -/

/-- The events of handing back a command that has ended, and of what follows.  The next command is
attempted before the one that has ended is handed back; it has been started by then, unless another
command is handed back later. -/
inductive Completes (c : Controller) (e : Entry) : List Event → Controller → Prop where
  | intro {attempt later : List Event} {c' : Controller}
      (hdispatches : Dispatches (c.popped.settle e) (attempt ++ later) c')
      (hattempt : handed attempt = []) (hlater : handed later = [] → later = []) :
      Completes c e (attempt ++ .handedBack e (c.routeOf e) :: later) c'

theorem Completes.only (h : Completes c e evs c') : OnlyDispatch evs := by
  obtain ⟨hdispatches, -, -⟩ := h
  have honly := hdispatches.only
  intro ev hev
  rcases List.mem_append.mp hev with hev | hev
  · exact honly ev (List.mem_append_left _ hev)
  · rcases List.mem_cons.mp hev with rfl | hev
    · rfl
    · exact honly ev (List.mem_append_right _ hev)

theorem leads_complete (hfresh : ∀ s ∈ c.queue.entries.tail, s.Fresh)
    (h : Leads (c.complete e) evs c') : Completes c e evs c' := by
  unfold complete at h
  obtain ⟨_, r, _, hi, h₁, rfl⟩ := leads_bind.mp h
  change Leads c.popped.issueHead _ _ at hi
  have hpopped : c.popped.queue.entries = c.queue.entries.tail := rfl
  cases hs : c.popped.queue.entries with
  | nil =>
    obtain ⟨rfl, rfl⟩ := leads_issueHead_of_nil hs hi
    obtain ⟨_, c₁, _, hd, h₂, rfl⟩ := leads_bind.mp h₁
    obtain ⟨rfl, rfl⟩ := leads_deliver hd
    have hentries : (c.popped.settle e).queue.entries = [] := by rw [queue_settle, hs]
    have hnil : ∀ s ∈ (c.popped.settle e).queue.entries, s.Fresh := by
      rw [hentries]
      exact List.forall_mem_nil _
    cases leads_dispatch hnil h₂ with
    | rest hrest => exact @Completes.intro _ _ [] [] _ (.rest hrest) rfl fun _ => rfl
    | launch habs => cases hentries.symm.trans habs
    | refuse habs _ => cases hentries.symm.trans habs
  | cons s rest =>
    have hhead : s.Fresh := hfresh s (by rw [← hpopped, hs]; exact List.mem_cons_self)
    have hentries : (c.popped.settle e).queue.entries = s :: rest := by
      rw [queue_settle, hs]
    rcases leads_issueHead hs hhead hi with ⟨rfl, rfl⟩ | ⟨rfl, rfl⟩
    · obtain ⟨_, c₁, _, hd, h₂, rfl⟩ := leads_bind.mp h₁
      obtain ⟨rfl, rfl⟩ := leads_deliver hd
      -- the next head was started first; the desk does not know the difference
      have hlaunch : (c.popped.launch s).settle e = (c.popped.settle e).launch s := by
        rw [launch, settle_congr, launch, queue_settle]
      have hqueue : ((c.popped.launch s).settle e).queue.entries = s.inFlight [] :: rest := by
        rw [queue_settle, launch, Queue.entries_modifyHead, hs]
        rfl
      have hversion : (c.popped.settle e).version = c.popped.version := version_settle
      obtain ⟨rfl, rfl⟩ := leads_dispatch_of_issued hqueue rfl h₂
      have hdispatches := Dispatches.launch hentries
      rw [hversion, ← hlaunch] at hdispatches
      exact @Completes.intro _ _ _ [] _ hdispatches rfl fun _ => rfl
    · obtain ⟨_, c₁, _, hd, h₂, rfl⟩ := leads_bind.mp h₁
      obtain ⟨rfl, rfl⟩ := leads_deliver hd
      obtain ⟨_, c₂, _, hf, h₃, rfl⟩ := leads_bind.mp h₂
      obtain ⟨rfl, rfl⟩ := leads_deliver hf
      -- the next head was refused first, but comes back second
      have hdrop : c.popped.dropHead.settle e = (c.popped.settle e).dropHead := by
        rw [dropHead, settle_congr, dropHead, queue_settle, ← blocksRemaining_settle]
      have hlater : ∀ s' ∈ ((c.popped.settle e).dropHead.settle s.refused).queue.entries,
          s'.Fresh := by
        intro s' hmem
        rw [queue_settle, dropHead, queue_settle, Queue.entries_tail, hs] at hmem
        exact hfresh s' (by rw [← hpopped, hs]; exact List.mem_cons_of_mem _ hmem)
      rw [hdrop] at h₃ ⊢
      have hdispatches := Dispatches.refuse hentries (leads_dispatch hlater h₃)
      refine @Completes.intro _ _ [.latching s.command.interruptMask.bits] _ _ hdispatches rfl ?_
      intro habs
      cases habs

end Controller

end SdHost
