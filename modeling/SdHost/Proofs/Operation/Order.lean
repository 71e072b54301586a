import SdHost.Proofs.Operation.Trace

/-!
# The order of commands

The accepted submissions are, in their order, those that were handed back followed by those that are
queued.  Each comes back as it was submitted but for what came of it, and to its own submitter.

* `Entry.Ends.order` — what was handed back, without what came of it, is what was submitted;
* `Ledger.map_eq` — what does not change while a command is queued can be read off the submissions;
* `Reached.tickets` — the tickets are the numbers of the submissions;
* `Run.away_of_gaveUp` — a submitter that gave up is not told any more;
* `order_of_commands` — the whole of it, for every run.
-/

namespace SdHost

/-! ### What does not change -/

/-- The words of a buffer do not matter, only how many there are. -/
theorem Command.order_withWords {c : Command} {ws : List UInt32}
    (h : c.usesWords = true → ws.length = c.words.length) : (c.withWords ws).order = c.order := by
  obtain ⟨index, argument, kind, data, response, completion, errors⟩ := c
  rcases data with _ | ⟨size, blocks, address | ⟨id, contents⟩⟩
  · rfl
  · rfl
  · have hlength : ws.length = contents.length := h rfl
    show Command.mk index argument kind
      (some ⟨size, blocks, .words id (List.replicate ws.length 0)⟩) {} .pending .empty = _
    rw [hlength]
    rfl

namespace Entry

variable {s e : Entry} {ps : List Pass}

theorem order_inFlight (hfits : s.command.Fits) (h : s.Moved ps) :
    (s.command.inFlight ps).order = s.command.order :=
  Command.order_withWords fun _ => h.length_filled hfits

/-- **What was handed back**, without what came of it, is what was submitted. -/
theorem Ends.order (hfits : s.command.Fits) (h : s.Ends e) : e.order = s.order := by
  cases h with
  | refused => rfl
  | @landed e ps v hlands =>
    have hcommand : (s.command.landed ps v).order = s.command.order :=
      order_inFlight hfits hlands.moved
    obtain ⟨commandDone, dataDone, rfl⟩ := hlands.entry
    exact congrArg (Submission.mk · s.callback s.token) hcommand

end Entry

/-- **What does not change** while a command is queued can be read off the submissions. -/
theorem Ledger.map_eq {α : Type} {f : Entry → α} {A D : List Entry} {ps : List Pass}
    {ms : List UInt32} {c : Controller} (h : Ledger A D ps ms c)
    (hends : ∀ s e, s.Submitted → s.Ends e → f e = f s)
    (hflight : ∀ s, s.Aloft ps → f (s.inFlight ps) = f s) :
    (D ++ c.queue.entries).map f = A.map f := by
  obtain ⟨gone, rest, rfl, hgone, hrests⟩ := h.split
  have hsub : ∀ s ∈ gone, s.Submitted := fun s hs => h.submitted s (List.mem_append_left _ hs)
  have hfirst : D.map f = gone.map f := by
    clear h hrests
    induction hgone with
    | nil => rfl
    | cons hhead _ ih =>
      rw [List.map_cons, List.map_cons, hends _ _ (hsub _ List.mem_cons_self) hhead,
        ih fun s hs => hsub s (List.mem_cons_of_mem _ hs)]
  have hsecond : c.queue.entries.map f = rest.map f := by
    cases hrests with
    | idle hq hb => rw [hq]
    | onWire hq hb ha hm => rw [hq, List.map_cons, hflight _ ha, List.map_cons]
  rw [List.map_append, List.map_append, hfirst, hsecond]

/-- The tickets of what was handed back and of what is queued are numbers in a row, from zero on. -/
theorem Reached.tickets {ts : List Record} {c : Controller} (h : Reached ts c) :
    (returned ts).map (fun d => d.1.ticket) ++ c.queue.entries.map Entry.ticket =
      (List.range (accepted ts).length).map UInt32.ofNat := by
  have htickets := h.ledger.map_eq (f := Entry.ticket) (fun _ _ _ hends => hends.ticket)
    (fun _ _ => rfl)
  rw [List.map_append, List.map_map] at htickets
  refine Eq.trans htickets ?_
  apply List.ext_getElem?
  intro i
  rw [List.getElem?_map, List.getElem?_map]
  rcases Nat.lt_or_ge i (accepted ts).length with hlt | hge
  · have hget := List.getElem?_eq_getElem hlt
    rw [hget, List.getElem?_range hlt, Option.map_some, Option.map_some,
      h.ledger.ticket i _ hget]
  · rw [List.getElem?_eq_none hge, List.getElem?_eq_none (by rwa [List.length_range])]
    rfl

/-! ### Who is told -/

variable {steps before after : List Step} {st : Step} {c : Controller} {s : Submission}
  {d : Entry × Route}

namespace HandsBack

variable {i n : Nat}

/-- A command with a handler goes to it. -/
theorem route_of_callback (h : HandsBack i n st) (hd : d ∈ st.deliveries) {handler : Callback}
    (hcallback : d.1.callback = some handler) : d.2 = .callback handler := by
  have haway : d.2 = d.1.away → d.2 = .callback handler := by
    intro hroute
    rw [hroute, Entry.away, hcallback]
  cases h with
  | away _ hall => exact haway (hall d hd)
  | returned hsplit hall _ hblocking _ =>
    rw [hsplit] at hd
    rcases List.mem_append.mp hd with hd | hd
    · exact haway (hall d hd)
    · obtain rfl := List.mem_singleton.mp hd
      cases hblocking.symm.trans hcallback
  | gaveUp hall _ _ => exact haway (hall d hd)

/-- Only the command with the number of the submission is for its submitter. -/
theorem route_of_ne (h : HandsBack i n st) {j : Nat} (hget : st.deliveries[j]? = some d)
    (hne : n + j ≠ i) : d.2 = d.1.away := by
  have hd := List.mem_of_getElem? hget
  cases h with
  | away _ hall => exact hall d hd
  | gaveUp hall _ _ => exact hall d hd
  | @returned first e hsplit hall hown _ _ =>
    rw [hsplit] at hget hd
    rcases List.mem_append.mp hd with hd | hd
    · exact hall d hd
    · have hj : j < (first ++ [(e, Route.parked)]).length := (List.getElem?_eq_some_iff.mp hget).1
      rw [List.length_append, List.length_singleton] at hj
      have hlt : j < first.length := by omega
      rw [List.getElem?_append_left hlt] at hget
      exact hall d (List.mem_of_getElem? hget)

end HandsBack

/-- The submission of a call has the number of those before it. -/
theorem submissions_getElem? (before after : List Step) (hs : st.submission? = some s) :
    (submissions (before ++ st :: after))[(submissions before).length]? = some s := by
  rw [submissions_append, List.getElem?_append_right (Nat.le_refl _), Nat.sub_self, submissions,
    List.filterMap_cons_some hs]
  rfl

namespace Run

/-- The accepted submissions are those handed back and those queued, but for what came of them. -/
theorem orders (h : Run steps c) : (submissions steps).map Submission.order =
    (deliveries steps).map (fun d => d.1.order) ++ c.queue.entries.map Entry.order := by
  obtain ⟨ts, htraced⟩ := h.trace
  have horders := htraced.reached.ledger.map_eq (f := Entry.order)
    (fun s e hs hends => hends.order hs.fits)
    (fun s ha => congrArg (Submission.mk · s.callback s.token)
      (Entry.order_inFlight ha.fits ha.moved))
  rw [List.map_append, List.map_map, htraced.returned] at horders
  rw [← htraced.accepted, List.map_map]
  exact horders.symm

/-- A command that was handed back is, but for what came of it, the submission with its number. -/
theorem order_of_delivery (h : Run steps c) {i : Nat} (hget : (deliveries steps)[i]? = some d)
    (hs : (submissions steps)[i]? = some s) : d.1.order = s.order := by
  have hlt : i < ((deliveries steps).map fun d => d.1.order).length := by
    rw [List.length_map]
    exact (List.getElem?_eq_some_iff.mp hget).1
  have horder := congrArg (·[i]?) h.orders
  simp only [List.getElem?_append_left hlt, List.getElem?_map, hget, hs] at horder
  exact (Option.some.inj horder).symm

/-- A command with a handler goes to it. -/
theorem route_of_callback (h : Run steps c) (hd : d ∈ deliveries steps) {handler : Callback}
    (hcallback : d.1.callback = some handler) : d.2 = .callback handler := by
  obtain ⟨call, hcall, hback⟩ := List.mem_flatMap.mp hd
  obtain ⟨before, after, rfl⟩ := List.append_of_mem hcall
  exact h.handsBack.route_of_callback hback hcallback

/-- **A submitter that gave up** is not told any more. -/
theorem away_of_gaveUp (h : Run (before ++ st :: after) c) (hs : st.submission? = some s)
    (hqueued : (deliveries (before ++ [st])).length ≤ (submissions before).length)
    (hget : (deliveries (before ++ st :: after))[(submissions before).length]? = some d) :
    d.2 = d.1.away := by
  -- on the calls after it: the command came back before the last one, or in it
  induction after using List.reverseRecOn generalizing c with
  | nil =>
    rw [List.getElem?_eq_none hqueued] at hget
    cases hget
  | append_singleton after last ih =>
    rw [← List.cons_append, ← List.append_assoc] at h hget
    rw [deliveries_concat] at hget
    rcases Nat.lt_or_ge (submissions before).length (deliveries (before ++ st :: after)).length
      with hlt | hge
    · rw [List.getElem?_append_left hlt] at hget
      obtain ⟨c₀, h₀⟩ := h.beginning
      exact ih h₀ hget
    · rw [List.getElem?_append_right hge] at hget
      have hnumber := (List.getElem?_eq_some_iff.mp (submissions_getElem? before after hs)).1
      refine h.handsBack.route_of_ne hget ?_
      omega

/-- The tickets of what was handed back and of what is queued are the numbers of the submissions. -/
theorem tickets (h : Run steps c) :
    (deliveries steps).map (fun d => d.1.ticket) ++ c.queue.entries.map Entry.ticket =
      (List.range (submissions steps).length).map UInt32.ofNat := by
  obtain ⟨ts, htraced⟩ := h.trace
  rw [← htraced.returned, ← htraced.accepted, List.length_map]
  exact htraced.reached.tickets

end Run

/-- How the submission of a call is served in a run.  One with a handler is handed to it, with its
token.  A blocking one comes back from the call itself, unless the call has given up. -/
def Serves (before : List Step) (st : Step) (after : List Step) (s : Submission) : Prop :=
  let i := (submissions before).length
  let back := (deliveries (before ++ st :: after))[i]?
  match s.callback with
  | some handler => ∀ d, back = some d → d.2 = .callback handler ∧ d.1.token = s.token
  | none =>
    (∃ e, (deliveries (before ++ [st]))[i]? = some (e, .parked) ∧
      st.outcome = .submitted ((Controller.resultOf e.command).map some)) ∨
    ((deliveries (before ++ [st])).length ≤ i ∧
      st.outcome = .submitted (.error (.timeout (UInt32.ofNat i))) ∧
      ∀ d, back = some d → d.2 = .abandoned)

theorem Run.serves (h : Run (before ++ st :: after) c) (hs : st.submission? = some s) :
    Serves before st after s := by
  unfold Serves
  intro i back
  have hsubmission := submissions_getElem? before after hs
  cases hcallback : s.callback with
  | some handler =>
    intro d hget
    have horder := h.order_of_delivery hget hsubmission
    have howner : d.1.callback = some handler :=
      (congrArg Submission.callback horder).trans hcallback
    exact ⟨h.route_of_callback (List.mem_of_getElem? hget) howner,
      congrArg Submission.token horder⟩
  | none =>
    cases h.handsBack with
    | away hnone _ => exact absurd hcallback (hnone s hs)
    | @returned first e hsplit _ hown _ houtcome =>
      refine .inl ⟨e, ?_, houtcome⟩
      have hplace : i = (deliveries before ++ first).length := by
        rw [List.length_append]
        exact hown.symm
      rw [deliveries_concat, hsplit, ← List.append_assoc, hplace]
      exact List.getElem?_concat_length
    | gaveUp _ hqueued houtcome =>
      have hlength : (deliveries (before ++ [st])).length ≤ (submissions before).length := by
        rw [deliveries_concat, List.length_append]
        exact hqueued
      refine .inr ⟨hlength, houtcome, ?_⟩
      intro d hget
      have horder := h.order_of_delivery hget hsubmission
      have howner : d.1.callback = none := (congrArg Submission.callback horder).trans hcallback
      rw [h.away_of_gaveUp hs hlength hget, Entry.away, howner]

/-- **The order of commands.**  After every run the accepted submissions are, in their order, those
that were handed back followed by those that are queued, each as it was submitted but for what came
of it.  Each was handed back to its own submitter, and none that is owed to a submitter was dropped
before that submitter gave up. -/
theorem order_of_commands (h : Run steps c) :
    (submissions steps).map Submission.order =
      (deliveries steps).map (fun d => d.1.order) ++ c.queue.entries.map Entry.order ∧
    (deliveries steps).map (fun d => d.1.ticket) ++ c.queue.entries.map Entry.ticket =
      (List.range (submissions steps).length).map UInt32.ofNat ∧
    ∀ before st after s, steps = before ++ st :: after → st.submission? = some s →
      Serves before st after s := by
  refine ⟨h.orders, h.tickets, ?_⟩
  intro before st after s hsteps hs
  subst hsteps
  exact h.serves hs

/-- A command whose handler is told at once that it could not be started, and behind it a blocking
read that comes back from its own call. -/
theorem order_of_commands_two :
    ∃ first second c goIdle read, Run [first, second] c ∧ first.submission? = some goIdle ∧
      goIdle.callback = some ⟨3⟩ ∧ second.submission? = some read ∧ read.callback = none ∧
      (submissions [first, second]).map Submission.order =
        (deliveries [first, second]).map (fun d => d.1.order) ++ c.queue.entries.map Entry.order ∧
      Serves [] first [second] goIdle ∧ Serves [first] second [] read := by
  have hrefused := run_rested.scripted
    (.sendAsync (Command.new 0 0 .none) ⟨3⟩ 5) [(.presentState, 1)]
    (fun s hs => by obtain rfl := Option.some.inj hs; exact .new 0 0 .none) rfl
  have hread := hrefused.scripted (.send .twoBlockRead) (firstPass ++ secondPass)
    (fun s hs => by obtain rfl := Option.some.inj hs; exact obtainable_twoBlockRead _) rfl
  obtain ⟨horder, -, hserves⟩ := order_of_commands hread
  exact ⟨_, _, _, _, _, hread, rfl, rfl, rfl, rfl, horder, hserves [] _ _ _ rfl rfl,
    hserves [_] _ [] _ rfl rfl⟩

end SdHost
