import SdHost.Action
import SdHost.Proofs.Dialogue.Path

/-!
# Events

Of all that the driver asks its surroundings, the command engine is told by a few exchanges: what
is latched and acknowledged, what is started, the words of responses and data, and the commands
handed back.  These are its *events*; delays, reports and the programming of other registers are
not.

* `Event`, `events` — the events of a list of exchanges, in their order;
* `acknowledgements`, `received`, `sent`, `responses`, `latched`, `starts`, `handed` — what they
  tell of statuses, data, responses, starts and deliveries;
* `Leads` — some answers lead through these events to this result; `leads_bind` takes a composed
  action apart;
* `Quiet` — an action without events;
* `scripted` — surroundings for runs to look at.
-/

namespace SdHost

open Register

/-- What the command engine is told by. -/
inductive Event where
  /-- Only these events will be latched. -/
  | latching (mask : UInt32)
  /-- A command was started by this transfer type. -/
  | started (word : UInt32)
  /-- The latched status was read. -/
  | status (word : UInt32)
  /-- Status bits were acknowledged. -/
  | acknowledged (word : UInt32)
  /-- A response register was read. -/
  | response (register : Register) (word : UInt32)
  /-- A word was read out of the data buffer. -/
  | received (word : UInt32)
  /-- A word was written into the data buffer. -/
  | sent (word : UInt32)
  /-- A finished command was handed back. -/
  | handedBack (entry : Entry) (route : Route)

/-- The registers that hold a response. -/
def responseRegisters : List Register := [response0, response1, response2, response3]

/-- The event of a read, if it is one. -/
def readEvent? (r : Register) (word : UInt32) : Option Event :=
  if r = interruptStatus then some (.status word)
  else if r = bufferAccess then some (.received word)
  else if r ∈ responseRegisters then some (.response r word)
  else none

/-- The event of a write, if it is one. -/
def writeEvent? (r : Register) (word : UInt32) : Option Event :=
  if r = interruptStatus then some (.acknowledged word)
  else if r = interruptStatusEnable then some (.latching word)
  else if r = transferType then some (.started word)
  else if r = bufferAccess then some (.sent word)
  else none

/-- A question of the driver with its answer. -/
abbrev Exchange := Dialogue.Exchange Request.Answer

/-- The event of an exchange, if it is one. -/
def Exchange.event? : Exchange → Option Event
  | ⟨.read r, word⟩ => readEvent? r word
  | ⟨.write r word, _⟩ => writeEvent? r word
  | ⟨.handBack entry route, _⟩ => some (.handedBack entry route)
  | _ => none

/-- The events of a list of exchanges. -/
def events (es : List Exchange) : List Event := es.filterMap Exchange.event?

@[simp] theorem events_nil : events [] = [] := rfl

@[simp] theorem events_append (first second : List Exchange) :
    events (first ++ second) = events first ++ events second :=
  List.filterMap_append

theorem events_cons (x : Exchange) (es : List Exchange) :
    events (x :: es) = x.event?.toList ++ events es := by
  cases h : x.event? <;> simp [events, h]

/-! ### What events tell -/

namespace Event

/-- The status that was read. -/
def status? : Event → Option UInt32
  | status word => some word
  | _ => none

/-- The status that was acknowledged. -/
def acknowledged? : Event → Option InterruptStatus
  | acknowledged word => some ⟨word⟩
  | _ => none

/-- The word that was read out of the data buffer. -/
def received? : Event → Option UInt32
  | received word => some word
  | _ => none

/-- The word that was written into the data buffer. -/
def sent? : Event → Option UInt32
  | sent word => some word
  | _ => none

/-- The response register that was read, with its word. -/
def response? : Event → Option (Register × UInt32)
  | response r word => some (r, word)
  | _ => none

/-- What will be latched from now on. -/
def latching? : Event → Option UInt32
  | latching mask => some mask
  | _ => none

/-- The transfer type that started a command. -/
def started? : Event → Option UInt32
  | started word => some word
  | _ => none

/-- The command that was handed back, with its route. -/
def handedBack? : Event → Option (Entry × Route)
  | handedBack entry route => some (entry, route)
  | _ => none

/-- Whether a word of a response or of data was moved. -/
def isTransfer : Event → Bool
  | response _ _ => true
  | received _ => true
  | sent _ => true
  | _ => false

/-- Whether a command was started or handed back, or made ready to be started. -/
def isDispatch : Event → Bool
  | latching _ => true
  | started _ => true
  | handedBack _ _ => true
  | _ => false

/-- Whether a register was read. -/
def isRead : Event → Bool
  | status _ => true
  | response _ _ => true
  | received _ => true
  | _ => false

end Event

/-- The statuses that were acknowledged. -/
def acknowledgements (evs : List Event) : List InterruptStatus :=
  evs.filterMap Event.acknowledged?

/-- The words read out of the data buffer. -/
def received (evs : List Event) : List UInt32 := evs.filterMap Event.received?

/-- The words written into the data buffer. -/
def sent (evs : List Event) : List UInt32 := evs.filterMap Event.sent?

/-- The response registers read, with their words. -/
def responses (evs : List Event) : List (Register × UInt32) := evs.filterMap Event.response?

/-- The sets of events that were to be latched, one after the other. -/
def latched (evs : List Event) : List UInt32 := evs.filterMap Event.latching?

/-- The transfer types of the commands that were started. -/
def starts (evs : List Event) : List UInt32 := evs.filterMap Event.started?

/-- The commands handed back, with their routes. -/
def handed (evs : List Event) : List (Entry × Route) := evs.filterMap Event.handedBack?

section Views

variable (first second : List Event)

@[simp] theorem acknowledgements_append :
    acknowledgements (first ++ second) = acknowledgements first ++ acknowledgements second :=
  List.filterMap_append

@[simp] theorem received_append : received (first ++ second) = received first ++ received second :=
  List.filterMap_append

@[simp] theorem sent_append : sent (first ++ second) = sent first ++ sent second :=
  List.filterMap_append

@[simp] theorem responses_append :
    responses (first ++ second) = responses first ++ responses second :=
  List.filterMap_append

@[simp] theorem latched_append : latched (first ++ second) = latched first ++ latched second :=
  List.filterMap_append

@[simp] theorem starts_append : starts (first ++ second) = starts first ++ starts second :=
  List.filterMap_append

@[simp] theorem handed_append : handed (first ++ second) = handed first ++ handed second :=
  List.filterMap_append

end Views

/-- Only words of responses and data were moved. -/
def OnlyTransfers (evs : List Event) : Prop := ∀ ev ∈ evs, ev.isTransfer = true

/-- Commands were started and handed back, and nothing else. -/
def OnlyDispatch (evs : List Event) : Prop := ∀ ev ∈ evs, ev.isDispatch = true

/-- Registers were read, and nothing else. -/
def OnlyReads (evs : List Event) : Prop := ∀ ev ∈ evs, ev.isRead = true

theorem filterMap_eq_nil_of_all {γ : Type} {f : Event → Option γ} {p : Event → Bool}
    {evs : List Event} (hf : ∀ ev, p ev = true → f ev = none) (h : ∀ ev ∈ evs, p ev = true) :
    evs.filterMap f = [] :=
  List.filterMap_eq_nil_iff.mpr fun ev hev => hf ev (h ev hev)

namespace OnlyTransfers

variable {evs : List Event}

theorem acknowledgements (h : OnlyTransfers evs) : acknowledgements evs = [] :=
  filterMap_eq_nil_of_all (fun ev => by cases ev <;> simp [Event.isTransfer, Event.acknowledged?]) h

theorem handed (h : OnlyTransfers evs) : handed evs = [] :=
  filterMap_eq_nil_of_all (fun ev => by cases ev <;> simp [Event.isTransfer, Event.handedBack?]) h

theorem latched (h : OnlyTransfers evs) : latched evs = [] :=
  filterMap_eq_nil_of_all (fun ev => by cases ev <;> simp [Event.isTransfer, Event.latching?]) h

theorem starts (h : OnlyTransfers evs) : starts evs = [] :=
  filterMap_eq_nil_of_all (fun ev => by cases ev <;> simp [Event.isTransfer, Event.started?]) h

end OnlyTransfers

namespace OnlyDispatch

variable {evs : List Event}

theorem acknowledgements (h : OnlyDispatch evs) : acknowledgements evs = [] :=
  filterMap_eq_nil_of_all (fun ev => by cases ev <;> simp [Event.isDispatch, Event.acknowledged?]) h

theorem received (h : OnlyDispatch evs) : received evs = [] :=
  filterMap_eq_nil_of_all (fun ev => by cases ev <;> simp [Event.isDispatch, Event.received?]) h

theorem sent (h : OnlyDispatch evs) : sent evs = [] :=
  filterMap_eq_nil_of_all (fun ev => by cases ev <;> simp [Event.isDispatch, Event.sent?]) h

theorem responses (h : OnlyDispatch evs) : responses evs = [] :=
  filterMap_eq_nil_of_all (fun ev => by cases ev <;> simp [Event.isDispatch, Event.response?]) h

end OnlyDispatch

namespace OnlyReads

variable {evs : List Event}

theorem acknowledgements (h : OnlyReads evs) : acknowledgements evs = [] :=
  filterMap_eq_nil_of_all (fun ev => by cases ev <;> simp [Event.isRead, Event.acknowledged?]) h

theorem handed (h : OnlyReads evs) : handed evs = [] :=
  filterMap_eq_nil_of_all (fun ev => by cases ev <;> simp [Event.isRead, Event.handedBack?]) h

theorem latched (h : OnlyReads evs) : latched evs = [] :=
  filterMap_eq_nil_of_all (fun ev => by cases ev <;> simp [Event.isRead, Event.latching?]) h

theorem starts (h : OnlyReads evs) : starts evs = [] :=
  filterMap_eq_nil_of_all (fun ev => by cases ev <;> simp [Event.isRead, Event.started?]) h

theorem sent (h : OnlyReads evs) : sent evs = [] :=
  filterMap_eq_nil_of_all (fun ev => by cases ev <;> simp [Event.isRead, Event.sent?]) h

end OnlyReads

/-! ### Actions by their events -/

variable {α β : Type}

/-- Some answers lead through the events to the result. -/
def Leads (d : Action α) (evs : List Event) (a : α) : Prop :=
  ∃ es, Dialogue.Path d es a ∧ events es = evs

theorem leads_of_path {d : Action α} {es : List Exchange} {a : α} (h : Dialogue.Path d es a) :
    Leads d (events es) a :=
  ⟨es, h, rfl⟩

@[simp] theorem leads_done {a b : α} {evs : List Event} :
    Leads (Dialogue.done a) evs b ↔ evs = [] ∧ b = a := by
  constructor
  · rintro ⟨es, h, rfl⟩
    obtain ⟨rfl, rfl⟩ := Dialogue.path_done.mp h
    exact ⟨rfl, rfl⟩
  · rintro ⟨rfl, rfl⟩
    exact ⟨[], .done _, rfl⟩

/-- **The events of a composed action** are the events of its parts, one after the other. -/
theorem leads_bind {d : Action α} {f : α → Action β} {evs : List Event} {b : β} :
    Leads (d >>= f) evs b ↔
      ∃ first a second, Leads d first a ∧ Leads (f a) second b ∧ evs = first ++ second := by
  constructor
  · rintro ⟨es, h, rfl⟩
    obtain ⟨first, a, second, hd, hf, rfl⟩ := Dialogue.path_bind.mp h
    exact ⟨_, a, _, leads_of_path hd, leads_of_path hf, events_append _ _⟩
  · rintro ⟨_, a, _, ⟨first, hd, rfl⟩, ⟨second, hf, rfl⟩, rfl⟩
    exact ⟨first ++ second, Dialogue.path_bind.mpr ⟨first, a, second, hd, hf, rfl⟩,
      events_append _ _⟩

theorem leads_bind_pure {d : Action α} {f : α → β} {evs : List Event} {b : β} :
    Leads (d >>= fun a => pure (f a)) evs b ↔ ∃ a, Leads d evs a ∧ b = f a := by
  constructor
  · rintro ⟨es, h, rfl⟩
    obtain ⟨a, hd, rfl⟩ := Dialogue.path_bind_pure.mp h
    exact ⟨a, leads_of_path hd, rfl⟩
  · rintro ⟨a, ⟨es, hd, rfl⟩, rfl⟩
    exact ⟨es, Dialogue.path_bind_pure.mpr ⟨a, hd, rfl⟩, rfl⟩

theorem leads_ite {b : Bool} {d e : Action α} {evs : List Event} {a : α} :
    Leads (if b then d else e) evs a ↔ b = true ∧ Leads d evs a ∨ b = false ∧ Leads e evs a := by
  cases b <;> simp

/-- Two beginnings with the same end. -/
theorem leads_ite_bind {b : Bool} {d e : Action α} {f : α → Action β} {evs : List Event} {r : β} :
    Leads (if b then d >>= f else e >>= f) evs r ↔
      ∃ first a second, Leads (if b then d else e) first a ∧ Leads (f a) second r ∧
        evs = first ++ second := by
  rw [← leads_bind]
  cases b <;> rfl

/-- One question. -/
theorem leads_question {q : Request} {evs : List Event} {x : q.Answer} :
    Leads (Dialogue.question q) evs x ↔ evs = (Exchange.event? ⟨q, x⟩).toList := by
  constructor
  · rintro ⟨es, h, rfl⟩
    obtain ⟨y, rest, rfl, hk⟩ := Dialogue.path_ask.mp h
    obtain ⟨rfl, rfl⟩ := Dialogue.path_done.mp hk
    simp [events_cons]
  · rintro rfl
    exact ⟨[⟨q, x⟩], .ask (.done x), by simp [events_cons]⟩

theorem leads_read {r : Register} {evs : List Event} {word : UInt32} :
    Leads r.read evs word ↔ evs = (readEvent? r word).toList :=
  leads_question

theorem leads_write {r : Register} {value : UInt32} {evs : List Event} {u : Unit} :
    Leads (r.write value) evs u ↔ evs = (writeEvent? r value).toList :=
  leads_question

theorem leads_handBack {e : Entry} {route : Route} {evs : List Event} {u : Unit} :
    Leads (handBack e route) evs u ↔ evs = [.handedBack e route] :=
  leads_question

/-! ### Actions without events -/

/-- The action has no event. -/
def Quiet (d : Action α) : Prop := ∀ ⦃evs a⦄, Leads d evs a → evs = []

theorem quiet_pure (a : α) : Quiet (pure a : Action α) :=
  fun _ _ h => (leads_done.mp h).1

theorem quiet_bind {d : Action α} {f : α → Action β} (hd : Quiet d) (hf : ∀ a, Quiet (f a)) :
    Quiet (d >>= f) := by
  intro evs b h
  obtain ⟨first, a, second, h₁, h₂, rfl⟩ := leads_bind.mp h
  rw [hd h₁, hf a h₂]
  rfl

theorem quiet_question {q : Request} (h : ∀ x, Exchange.event? ⟨q, x⟩ = none) :
    Quiet (Dialogue.question q) := by
  intro evs x hx
  rw [leads_question.mp hx, h x]
  rfl

theorem quiet_report (m : Log.Message) : Quiet (report m) := quiet_question fun _ => rfl

/-- A report before a result. -/
theorem leads_report_pure {m : Log.Message} {a b : α} {evs : List Event}
    (h : Leads (do report m; return a) evs b) : evs = [] ∧ b = a := by
  obtain ⟨_, _, _, hm, h₁, rfl⟩ := leads_bind.mp h
  obtain ⟨rfl, rfl⟩ := leads_done.mp h₁
  exact ⟨by rw [quiet_report m hm]; rfl, rfl⟩

theorem quiet_keeps (level : Log.Level) : Quiet (keeps level) := quiet_question fun _ => rfl

theorem quiet_delay (micros : UInt32) : Quiet (delay micros) := quiet_question fun _ => rfl

theorem quiet_read {r : Register} (h : ∀ word, readEvent? r word = none) : Quiet r.read :=
  quiet_question h

theorem quiet_write {r : Register} (value : UInt32) (h : writeEvent? r value = none) :
    Quiet (r.write value) :=
  quiet_question fun _ => h

theorem quiet_reads {r : Register} (f : Field r) (h : ∀ word, readEvent? r word = none) :
    Quiet (r.reads f) :=
  quiet_bind (quiet_read h) fun _ => quiet_pure _

theorem quiet_modify {r : Register} (v : FieldValue r) (hr : ∀ word, readEvent? r word = none)
    (hw : ∀ word, writeEvent? r word = none) : Quiet (Register.modify v) :=
  quiet_bind (quiet_read hr) fun _ => quiet_write _ (hw _)

theorem quiet_ite {d e : Action α} (b : Bool) (hd : Quiet d) (he : Quiet e) :
    Quiet (if b then d else e) := by
  cases b
  · exact he
  · exact hd

/-! ### Actions that may fail -/

variable {ε : Type}

theorem leads_run_pure {a : α} {evs : List Event} {r : Except ε α} :
    Leads (pure a : ExceptT ε Action α).run evs r ↔ evs = [] ∧ r = .ok a :=
  leads_done

theorem leads_run_throw {e : ε} {evs : List Event} {r : Except ε α} :
    Leads (throw e : ExceptT ε Action α).run evs r ↔ evs = [] ∧ r = .error e :=
  leads_done

theorem leads_run_lift {d : Action α} {evs : List Event} {r : Except ε α} :
    Leads (liftM d : ExceptT ε Action α).run evs r ↔ ∃ a, Leads d evs a ∧ r = .ok a := by
  constructor
  · intro h
    obtain ⟨first, a, second, hd, hp, rfl⟩ := leads_bind.mp h
    obtain ⟨rfl, rfl⟩ := leads_done.mp hp
    exact ⟨a, by simpa using hd, rfl⟩
  · rintro ⟨a, hd, rfl⟩
    exact leads_bind.mpr ⟨evs, a, [], hd, leads_done.mpr ⟨rfl, rfl⟩, by simp⟩

/-- An action that may fail goes on only after a success. -/
theorem leads_run_bind {d : ExceptT ε Action α} {f : α → ExceptT ε Action β} {evs : List Event}
    {r : Except ε β} :
    Leads (d >>= f).run evs r ↔
      (∃ first a second, Leads d.run first (.ok a) ∧ Leads (f a).run second r ∧
        evs = first ++ second) ∨
      ∃ e, Leads d.run evs (.error e) ∧ r = .error e := by
  rw [ExceptT.run_bind]
  constructor
  · intro h
    obtain ⟨first, x, second, hd, hf, rfl⟩ := leads_bind.mp h
    cases x with
    | ok a => exact .inl ⟨first, a, second, hd, hf, rfl⟩
    | error e =>
      obtain ⟨rfl, rfl⟩ := leads_done.mp hf
      exact .inr ⟨e, by simpa using hd, rfl⟩
  · rintro (⟨first, a, second, hd, hf, rfl⟩ | ⟨e, hd, rfl⟩)
    · exact leads_bind.mpr ⟨first, .ok a, second, hd, hf, rfl⟩
    · exact leads_bind.mpr ⟨evs, .error e, [], hd, leads_done.mpr ⟨rfl, rfl⟩, by simp⟩

/-- An action that cannot fail before one that may. -/
theorem leads_run_lift_bind {d : Action α} {f : α → ExceptT ε Action β} {evs : List Event}
    {r : Except ε β} :
    Leads ((liftM d : ExceptT ε Action α) >>= f).run evs r ↔
      ∃ first a second, Leads d first a ∧ Leads (f a).run second r ∧ evs = first ++ second := by
  rw [leads_run_bind]
  constructor
  · rintro (⟨first, a, second, hd, hf, rfl⟩ | ⟨e, hd, rfl⟩)
    · obtain ⟨a', hd, heq⟩ := leads_run_lift.mp hd
      cases heq
      exact ⟨first, a, second, hd, hf, rfl⟩
    · obtain ⟨_, _, habs⟩ := leads_run_lift.mp hd
      cases habs
  · rintro ⟨first, a, second, hd, hf, rfl⟩
    exact .inl ⟨first, a, second, leads_run_lift.mpr ⟨a, hd, rfl⟩, hf, rfl⟩

/-- A failure that is reported first has no event. -/
theorem leads_report_throw {γ : Type} {m : Log.Message} {cause : ε} {f : γ → ExceptT ε Action β}
    {evs : List Event} {r : Except ε β}
    (h : Leads ((liftM (report m) : ExceptT ε Action Unit) >>= fun _ => throw cause >>= f).run
      evs r) :
    evs = [] ∧ r = .error cause := by
  obtain ⟨_, _, _, hm, h₁, rfl⟩ := leads_run_lift_bind.mp h
  rw [quiet_report m hm]
  rcases leads_run_bind.mp h₁ with ⟨_, _, _, ht, _, _⟩ | ⟨e, ht, rfl⟩
  · cases (leads_run_throw.mp ht).2
  · obtain ⟨rfl, he⟩ := leads_run_throw.mp ht
    exact ⟨rfl, congrArg _ (Except.error.inj he)⟩

theorem quiet_run_pure (a : α) : Quiet (pure a : ExceptT ε Action α).run := quiet_pure _

theorem quiet_run_throw (e : ε) : Quiet (throw e : ExceptT ε Action α).run := quiet_pure _

theorem quiet_run_lift {d : Action α} (h : Quiet d) :
    Quiet (liftM d : ExceptT ε Action α).run :=
  quiet_bind h fun _ => quiet_pure _

theorem quiet_run_bind {d : ExceptT ε Action α} {f : α → ExceptT ε Action β} (hd : Quiet d.run)
    (hf : ∀ a, Quiet (f a).run) : Quiet (d >>= f).run := by
  refine quiet_bind hd fun r => ?_
  cases r with
  | ok a => exact hf a
  | error e => exact quiet_pure _

theorem quiet_run_ite {d e : ExceptT ε Action α} (b : Bool) (hd : Quiet d.run)
    (he : Quiet e.run) : Quiet (if b then d else e).run := by
  cases b
  · exact he
  · exact hd

theorem quiet_run_waitFor {condition : ExceptT ε Action Bool} (limit : Nat)
    (h : Quiet condition.run) : Quiet (waitFor limit condition).run := by
  rw [waitFor]
  induction max limit 1 with
  | zero => exact quiet_run_pure _
  | succ tries ih => exact quiet_run_bind h fun b => quiet_run_ite b (quiet_run_pure _) ih

theorem quiet_run_fail (m : Log.Message) (cause : ε) :
    Quiet ((liftM (report m) : ExceptT ε Action Unit) >>= fun _ =>
      (throw cause : ExceptT ε Action α)).run :=
  quiet_run_bind (quiet_run_lift (quiet_report m)) fun _ => quiet_run_throw cause

/-- Waiting itself never fails. -/
theorem ok_of_leads_waitFor {condition : Action Bool} {limit : Nat} {evs : List Event}
    {r : Except ε Bool}
    (h : Leads (waitFor limit (liftM condition : ExceptT ε Action Bool)).run evs r) :
    ∃ b, r = .ok b := by
  rw [waitFor] at h
  generalize max limit 1 = tries at h
  induction tries generalizing evs with
  | zero => exact ⟨false, (leads_run_pure.mp h).2⟩
  | succ tries ih =>
    rcases leads_run_bind.mp h with ⟨_, b, _, _, hb, _⟩ | ⟨e, he, _⟩
    · cases b with
      | false => exact ih hb
      | true => exact ⟨true, (leads_run_pure.mp hb).2⟩
    · obtain ⟨_, _, habs⟩ := leads_run_lift.mp he
      cases habs

/-! ### Surroundings with a script -/

/-- Surroundings that answer reads of registers from a script, each line when its register is read;
every other register reads as zero, and every service succeeds. -/
def scripted : Dialogue.Surroundings Request.Answer (List (Register × UInt32))
  | .read _, [] => (0, [])
  | .read r, (r', word) :: script => if r = r' then (word, script) else (0, (r', word) :: script)
  | .write _ _, script => ((), script)
  | .delay _, script => ((), script)
  | .baseClock _, script => (.ok 0, script)
  | .power _ _, script => (true, script)
  | .assertReset _, script => (.ok (), script)
  | .deassertReset _, script => (.ok (), script)
  | .allocate _ _, script => (none, script)
  | .release _ _, script => ((), script)
  | .keeps _, script => (false, script)
  | .report _, script => ((), script)
  | .handBack _ _, script => ((), script)

/-- What happens by a script is a path. -/
theorem path_scripted {d : Action α} {a : α} (script : List (Register × UInt32))
    (h : (Dialogue.run scripted d script).1 = a) :
    Dialogue.Path d (Dialogue.exchanges scripted d script) a := by
  rw [← h]
  exact Dialogue.path_run scripted d script

end SdHost
