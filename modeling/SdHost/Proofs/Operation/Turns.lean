import SdHost.Proofs.Operation

/-!
# Calls as turns

Every call is a sequence of turns.  A blocking submission is the longest: the command joins the
queue, the controller is served again and again, and in the end the submitter picks its command up
or gives up.

* `Controller.path_pollUpTo` — polling serves the controller until the command is there;
* `Controller.Submits` — the ways in which a submission ends;
* `Controller.path_operate_submission` — every submission ends in one of them.
-/

namespace SdHost

open Dialogue (Path path_bind path_bind_pure path_done)

/-- The turns serve the controller and do nothing else. -/
def OnlyServes (us : List Record) : Prop := ∀ r ∈ us, r.turn = .serve

/-- What is known of the turn of a submission. -/
def Submission.record (s : Submission) (ticket : Option Ticket) (es : List Exchange) : Record :=
  ⟨.submit s.command s.callback s.token, ticket, es⟩

namespace Controller

variable {c c' : Controller} {s : Submission} {ticket : Ticket} {es : List Exchange}

/-! ### Calls that are one turn -/

theorem turns_accepted
    (h : Path (c.enqueue s.command s.callback s.token).run es (.ok (ticket, c'))) :
    Turns c [s.record (some ticket) es] c' :=
  Turns.one (path_bind.mpr ⟨es, _, [], h, .done _, (List.append_nil es).symm⟩)

theorem turns_refused {err : SubmitError}
    (h : Path (c.enqueue s.command s.callback s.token).run es (.error err)) :
    Turns c [s.record none es] c :=
  Turns.one (path_bind.mpr ⟨es, _, [], h, .done _, (List.append_nil es).symm⟩)

theorem path_turn_serve (h : Path c.handleInterrupt es c') : Path (c.turn .serve) es (none, c') :=
  path_bind_pure.mpr ⟨c', h, rfl⟩

theorem path_turn_pickUp {command : Command} (h : c.takeFinished ticket = some (command, c')) :
    Path (c.turn (.pickUp ticket)) [] (none, c') := by
  have hturn : c.turn (.pickUp ticket) =
      pure (none, ((c.takeFinished ticket).map Prod.snd).getD c) := rfl
  rw [hturn, h]
  exact .done _

/-! ### Submissions -/

/-- A command that is there is picked up without a poll. -/
theorem path_pollUpTo_found {polls : Nat} {command : Command} {r : Option Command × Controller}
    (htake : c.takeFinished ticket = some (command, c')) (h : Path (pollUpTo ticket polls c) es r) :
    es = [] ∧ r = (some command, c') := by
  unfold pollUpTo at h
  simp only [htake] at h
  exact path_done.mp h

/-- Polling serves the controller until the command is there, or to the last poll. -/
theorem path_pollUpTo {polls : Nat} {r : Option Command × Controller}
    (h : Path (pollUpTo ticket polls c) es r) :
    ∃ us c₁, Turns c us c₁ ∧ OnlyServes us ∧ es = us.flatMap Record.exchanges ∧
      ((∃ command c', c₁.takeFinished ticket = some (command, c') ∧ r = (some command, c')) ∨
        c₁.takeFinished ticket = none ∧ r = (none, c₁)) := by
  -- the controller is looked at once more than it is served
  induction polls generalizing c es with
  | zero =>
    cases htake : c.takeFinished ticket with
    | some found =>
      obtain ⟨rfl, rfl⟩ := path_pollUpTo_found htake h
      exact ⟨[], c, .nil, List.forall_mem_nil _, rfl, .inl ⟨_, _, htake, rfl⟩⟩
    | none =>
      unfold pollUpTo at h
      simp only [htake] at h
      obtain ⟨rfl, rfl⟩ := path_done.mp h
      exact ⟨[], c, .nil, List.forall_mem_nil _, rfl, .inr ⟨htake, rfl⟩⟩
  | succ polls ih =>
    cases htake : c.takeFinished ticket with
    | some found =>
      obtain ⟨rfl, rfl⟩ := path_pollUpTo_found htake h
      exact ⟨[], c, .nil, List.forall_mem_nil _, rfl, .inl ⟨_, _, htake, rfl⟩⟩
    | none =>
      unfold pollUpTo at h
      simp only [htake] at h
      obtain ⟨first, c₁, second, hserve, hpolls, rfl⟩ := path_bind.mp h
      obtain ⟨us, c₂, hturns, honly, rfl, hend⟩ := ih hpolls
      refine ⟨⟨.serve, none, first⟩ :: us, c₂, ?_, ?_, rfl, hend⟩
      · exact (Turns.one (path_turn_serve hserve)).append hturns
      · intro r hr
        rcases List.mem_cons.mp hr with rfl | hr
        · rfl
        · exact honly r hr

/-- The ways in which a submission ends. -/
inductive Submits (c : Controller) (s : Submission) (es : List Exchange)
    (result : Except SubmitError (Option Command)) (c' : Controller) : Prop where
  /-- It is refused. -/
  | refused {err : SubmitError}
      (h : Path (c.enqueue s.command s.callback s.token).run es (.error err))
      (hresult : result = .error err) (hc : c' = c)
  /-- It is accepted, and its handler will be told. -/
  | queued {ticket : Ticket} (hasync : s.callback ≠ none)
      (h : Path (c.enqueue s.command s.callback s.token).run es (.ok (ticket, c')))
      (hresult : result = .ok none)
  /-- Its command is picked up. -/
  | returned {ticket : Ticket} {c₁ c₂ : Controller} {first : List Exchange} {us : List Record}
      {done : Command} (hblocking : s.callback = none)
      (h : Path (c.enqueue s.command s.callback s.token).run first (.ok (ticket, c₁)))
      (hpolls : Turns c₁ us c₂) (honly : OnlyServes us)
      (hes : es = first ++ (us.flatMap Record.exchanges ++ []))
      (htake : c₂.takeFinished ticket = some (done, c'))
      (hresult : result = (resultOf done).map some)
  /-- It is given up. -/
  | gaveUp {ticket : Ticket} {c₁ c₂ : Controller} {first last : List Exchange} {us : List Record}
      {polls : Nat} (hblocking : s.callback = none)
      (h : Path (c.enqueue s.command s.callback s.token).run first (.ok (ticket, c₁)))
      (hpolls : Turns c₁ us c₂) (honly : OnlyServes us)
      (hes : es = first ++ (us.flatMap Record.exchanges ++ last))
      (htake : c₂.takeFinished ticket = none)
      (hlast : Path (c₂.turn (.giveUp polls)) last (none, c'))
      (hresult : result = .error (.timeout ticket))

/-- A submission with a handler. -/
theorem path_sendAsync {command : Command} {callback : Callback} {token : Nat}
    {r : Except SubmitError Unit × Controller}
    (h : Path (c.sendAsync command callback token) es r) :
    c.Submits ⟨command, some callback, token⟩ es (r.1.map fun _ => none) r.2 := by
  obtain ⟨first, out, _, henqueue, h₁, rfl⟩ := path_bind.mp h
  cases out with
  | ok found =>
    obtain ⟨ticket, c₁⟩ := found
    obtain ⟨rfl, rfl⟩ := path_done.mp h₁
    rw [List.append_nil]
    exact .queued (Option.some_ne_none callback) henqueue rfl
  | error err =>
    obtain ⟨rfl, rfl⟩ := path_done.mp h₁
    rw [List.append_nil]
    exact .refused henqueue rfl rfl

/-- A blocking submission. -/
theorem path_send {budget : Nat} {command : Command} {result : Except SubmitError Command}
    (h : Path (c.send budget command) es (some result, c')) :
    c.Submits ⟨command, none, 0⟩ es (result.map some) c' := by
  obtain ⟨first, out, _, henqueue, h₁, rfl⟩ := path_bind.mp h
  cases out with
  | error err =>
    obtain ⟨rfl, hr⟩ := path_done.mp h₁
    obtain ⟨hresult, rfl⟩ := Prod.mk.inj hr
    obtain rfl := Option.some.inj hresult
    rw [List.append_nil]
    exact .refused henqueue rfl rfl
  | ok found =>
    obtain ⟨ticket, c₁⟩ := found
    obtain ⟨_, polled, _, hpolls, h₂, rfl⟩ := path_bind.mp h₁
    obtain ⟨us, c₂, hturns, honly, rfl, ⟨done, c₃, htake, rfl⟩ | ⟨htake, rfl⟩⟩ :=
      path_pollUpTo hpolls
    · obtain ⟨rfl, hr⟩ := path_done.mp h₂
      obtain ⟨hresult, rfl⟩ := Prod.mk.inj hr
      obtain rfl := Option.some.inj hresult
      exact .returned rfl henqueue hturns honly rfl htake rfl
    · cases hlimit : c₂.config.pollLimit with
      | none =>
        simp only [hlimit] at h₂
        obtain ⟨-, hr⟩ := path_done.mp h₂
        cases (Prod.mk.inj hr).1
      | some polls =>
        simp only [hlimit] at h₂
        obtain ⟨_, hreport, hr⟩ := path_bind_pure.mp h₂
        obtain ⟨hresult, rfl⟩ := Prod.mk.inj hr
        obtain rfl := Option.some.inj hresult
        have hgaveUp : Path (c₂.turn (.giveUp polls)) _ (none, { c₂ with waiting := none }) :=
          path_bind_pure.mpr ⟨_, hreport, rfl⟩
        exact .gaveUp rfl henqueue hturns honly rfl htake hgaveUp rfl

/-- A blocking submission, read as the outcome of a call. -/
theorem path_send_map {budget : Nat} {command : Command} {out : Outcome}
    {f : Except SubmitError Command → Outcome}
    (h : Path (c.send budget command >>= fun r => pure (r.1.map f, r.2)) es (some out, c')) :
    ∃ result, out = f result ∧ c.Submits ⟨command, none, 0⟩ es (result.map some) c' := by
  obtain ⟨⟨answer, c₁⟩, hsend, hr⟩ := path_bind_pure.mp h
  obtain ⟨hresult, rfl⟩ := Prod.mk.inj hr
  cases answer with
  | none => cases hresult
  | some result =>
    obtain rfl := Option.some.inj hresult
    exact ⟨result, rfl, path_send hsend⟩

/-- **Every submission** ends in one of these ways. -/
theorem path_operate_submission {budget : Nat} {op : Operation} {out : Outcome}
    (hs : op.submission? = some s) (h : Path (c.operate budget op) es (some out, c')) :
    ∃ result, out = .submitted result ∧ c.Submits s es result c' := by
  cases op with
  | send command =>
    obtain rfl := Option.some.inj hs
    obtain ⟨result, rfl, hsubmits⟩ := path_send_map h
    exact ⟨_, rfl, hsubmits⟩
  | sendAsync command callback token =>
    obtain rfl := Option.some.inj hs
    obtain ⟨⟨answer, c₁⟩, hasync, hr⟩ := path_bind_pure.mp h
    obtain ⟨hresult, rfl⟩ := Prod.mk.inj hr
    obtain rfl := Option.some.inj hresult
    exact ⟨_, rfl, path_sendAsync hasync⟩
  | submit command callback token =>
    obtain ⟨⟨answer, c₁⟩, hsubmit, hr⟩ := path_bind_pure.mp h
    obtain ⟨hresult, rfl⟩ := Prod.mk.inj hr
    cases callback with
    | some callback =>
      obtain rfl := Option.some.inj hs
      obtain ⟨⟨answer', c₂⟩, hasync, hr⟩ := path_bind_pure.mp hsubmit
      obtain ⟨rfl, rfl⟩ := Prod.mk.inj hr
      obtain rfl := Option.some.inj hresult
      exact ⟨_, rfl, path_sendAsync hasync⟩
    | none =>
      obtain rfl := Option.some.inj hs
      obtain ⟨⟨answer', c₂⟩, hblocking, hr⟩ := path_bind_pure.mp hsubmit
      obtain ⟨rfl, rfl⟩ := Prod.mk.inj hr
      cases answer' with
      | none => cases hresult
      | some result =>
        obtain rfl := Option.some.inj hresult
        exact ⟨_, rfl, path_send hblocking⟩
  | _ => cases hs

end Controller

end SdHost
