import SdHost.Proofs.Turn

/-!
# The flight of a command over turns

From the turn that starts it to the turn that ends it, a command is on the wire.  Other turns may
come between the passes over it; they leave it alone.

* `Controller.Rests.turn_onWire` — one turn: the command goes on, or it lands;
* `Turns.flight` — any number of turns.
-/

namespace SdHost

namespace Controller

variable {c c' : Controller} {s : Entry} {rest : List Entry} {ps : List Pass}
  {masks : List UInt32} {t : Turn} {ticket : Option Ticket} {es : List Exchange}

/-- Only a pass ends a command on the wire, and until then nothing is started. -/
theorem leads_turn_onWire {evs : List Event} (hq : c.queue.entries = s.inFlight ps :: rest)
    (hb : c.blocksRemaining = s.blocksLeft ps) (ha : s.Aloft ps) (hfresh : ∀ e ∈ rest, e.Fresh)
    (h : Leads (c.turn t) evs (ticket, c')) :
    (handed evs = [] ∧ starts evs = []) ∨
      ∃ v e, t = .serve ∧ s.Lands (ps ++ [evs]) v e ∧
        (handed evs).head? = some (e, c.routeOf e) := by
  cases t with
  | submit command callback token =>
    obtain ⟨_, out, _, henqueue, h₁, rfl⟩ := leads_bind.mp h
    have hquiet : ∀ first, Leads (c.enqueue command callback token).run first out → first = [] := by
      intro first hfirst
      have hempty : c.queue.isEmpty = false := Queue.isEmpty_of_cons hq
      rcases leads_enqueue hfirst with ⟨_, _, rfl, -⟩ | ⟨_, _, _, _, _, _, hdone⟩
      · rfl
      · rw [hempty, if_neg Bool.false_ne_true] at hdone
        exact hdone.1
    rw [hquiet _ henqueue]
    cases out with
    | error err =>
      obtain ⟨rfl, -⟩ := leads_done.mp h₁
      exact .inl ⟨rfl, rfl⟩
    | ok result =>
      obtain ⟨rfl, -⟩ := leads_done.mp h₁
      exact .inl ⟨rfl, rfl⟩
  | serve =>
    obtain ⟨_, c₁, _, hserve, h₁, rfl⟩ := leads_bind.mp h
    obtain ⟨rfl, -⟩ := leads_done.mp h₁
    rw [List.append_nil]
    cases leads_handleInterrupt_onWire hq hb ha hfresh hserve with
    | goesOn hup hc hhanded hlatched hstarts hserves => exact .inl ⟨hhanded, hstarts⟩
    | @ends v e later hlands hdispatch hhanded hlatched hstarts hserves hnext =>
      refine .inr ⟨v, e, rfl, hlands, ?_⟩
      rw [hhanded]
      rfl
  | _ =>
    have haside := leads_turn_aside rfl h
    exact .inl ⟨haside.handed, haside.starts⟩

/-- **One turn** takes a command on the wire no further than its passes. -/
theorem Rests.turn_onWire (hr : Rests c ps masks (s :: rest)) (hsub : ∀ e ∈ rest, e.Submitted)
    (hs : s.Submitted) (h : Dialogue.Path (c.turn t) es (ticket, c')) :
    let r : Record := ⟨t, ticket, es⟩
    (Rests c' (ps ++ r.passes) (masks ++ latched r.events) (s :: (rest ++ r.accepted)) ∧
        handed r.events = [] ∧ ∀ e ∈ r.accepted, e.Submitted) ∨
      ∃ v e, s.Lands (ps ++ r.passes) v e ∧ (handed r.events).head? = some (e, c.routeOf e) := by
  intro r
  have hall : ∀ e ∈ s :: rest, e.Submitted := by
    intro e he
    rcases List.mem_cons.mp he with rfl | he
    · exact hs
    · exact hsub e he
  obtain ⟨hnew, -, gone, left, hsplit, hends, hrests⟩ := hr.turn hall h
  cases hr with
  | onWire hq hb ha hm =>
    have hfresh : ∀ e ∈ rest, e.Fresh := fun e he => (hsub e he).fresh
    rcases leads_turn_onWire hq hb ha hfresh (leads_of_path h) with
      ⟨hhanded, hstarts⟩ | ⟨v, e, rfl, hlands, hhead⟩
    · rw [show handed r.events = [] from hhanded] at hends
      rw [show starts r.events = [] from hstarts, if_pos rfl] at hrests
      obtain rfl := List.forall₂_nil_right_iff.mp hends
      rw [List.nil_append] at hsplit
      rw [← hsplit, List.cons_append] at hrests
      exact .inl ⟨hrests, hhanded, fun e he => (hnew e he).1⟩
    · exact .inr ⟨v, e, hlands, hhead⟩

end Controller

/-- **Any turns** take a command on the wire no further than their passes, until it lands. -/
theorem Turns.flight {c c' : Controller} {s : Entry} {rest : List Entry} {ps : List Pass}
    {us : List Record} {ms : List UInt32} (hr : c.Rests ps ms (s :: rest))
    (hsub : ∀ e ∈ s :: rest, e.Submitted) (hu : Turns c us c') :
    (c'.Rests (ps ++ passes us) (ms ++ masks us) (s :: (rest ++ accepted us)) ∧
        returned us = [] ∧ ∀ e ∈ s :: (rest ++ accepted us), e.Submitted) ∨
      ∃ qs more v e route, ps ++ passes us = qs ++ more ∧ s.Lands qs v e ∧
        (returned us).head? = some (e, route) := by
  -- on the turns; as long as nothing came back, the command is still the head
  induction hu with
  | nil =>
    refine .inl ⟨?_, rfl, ?_⟩
    · show c.Rests (ps ++ []) (ms ++ []) (s :: (rest ++ []))
      rw [List.append_nil, List.append_nil, List.append_nil]
      exact hr
    · show ∀ e ∈ s :: (rest ++ []), e.Submitted
      rw [List.append_nil]
      exact hsub
  | @snoc us c₁ c₂ t ticket es _ hturn ih =>
    rw [passes_concat, returned_concat, accepted_concat, masks_concat, ← List.append_assoc,
      ← List.append_assoc, ← List.append_assoc]
    rcases ih with ⟨hrests, hnone, hall⟩ | ⟨qs, more, v, e, route, hsplit, hlands, hhead⟩
    · have hs : s.Submitted := hall s List.mem_cons_self
      have hothers : ∀ e ∈ rest ++ accepted us, e.Submitted :=
        fun e he => hall e (List.mem_cons_of_mem _ he)
      rw [hnone, List.nil_append]
      rcases hrests.turn_onWire hothers hs hturn with
        ⟨hrests', hhanded, hnew⟩ | ⟨v, e, hlands, hhead⟩
      · refine .inl ⟨hrests', hhanded, ?_⟩
        intro e he
        rw [← List.cons_append] at he
        rcases List.mem_append.mp he with he | he
        · exact hall e he
        · exact hnew e he
      · exact .inr ⟨_, [], v, e, _, (List.append_nil _).symm, hlands, hhead⟩
    · refine .inr ⟨qs, more ++ Record.passes ⟨t, ticket, es⟩, v, e, route, ?_, hlands, ?_⟩
      · rw [hsplit, List.append_assoc]
      · rw [List.head?_append, hhead]
        rfl

end SdHost
