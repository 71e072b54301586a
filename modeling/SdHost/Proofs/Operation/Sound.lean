import SdHost.Proofs.Operation.Trace

/-!
# Sound controllers

What holds of the queue and the counters of a controller between two calls.

* `Controller.Sound` — the invariant;
* `Controller.Rests.sound` — a controller that holds submissions is sound;
* `sound_of_run` — so is every controller after every run.
-/

namespace SdHost

/-- The queue and the counters of a controller, against what was to be latched, one after the
other. -/
structure Controller.Sound (c : Controller) (masks : List UInt32) : Prop where
  /-- There is room for eight commands. -/
  size : c.queue.entries.length ≤ 8
  /-- No queued command has ended, and none carries errors. -/
  pending : ∀ e ∈ c.queue.entries,
    e.command.completion = .pending ∧ e.command.errors = .empty
  /-- The head is on the wire, and its events are latched. -/
  head : ∀ e, c.queue.head? = some e →
    e.issued = true ∧ masks.getLast? = some e.command.interruptMask.bits
  /-- The others were not touched. -/
  fresh : ∀ e ∈ c.queue.entries.tail, e.Fresh
  /-- The counters agree on the words that have moved, and there is a word for every block. -/
  words : ∀ e d id contents, c.queue.head? = some e → e.command.data = some d →
    d.buffer = .words id contents →
      c.blocksRemaining ≤ d.blocks.toNat ∧
      e.wordOffset = (d.blocks.toNat - c.blocksRemaining) * d.blockWords ∧
      d.blocks.toNat * d.blockWords ≤ contents.length
  /-- Without words for the processor, no block is to be moved. -/
  noWords : (∀ e, c.queue.head? = some e → e.command.usesWords = false) → c.blocksRemaining = 0
  /-- The head has not ended. -/
  running : ∀ e, c.queue.head? = some e →
    (e.commandDone && e.dataDone) = false ∧ (e.command.data = none → e.commandDone = false)

namespace Entry.Aloft

variable {s : Entry} {ps : List Pass}

/-- The counters of a command on the wire. -/
theorem counters (ha : s.Aloft ps) {d : DataPhase} {id : Nat} {contents : List UInt32}
    (hdata : (s.inFlight ps).command.data = some d) (hbuffer : d.buffer = .words id contents) :
    s.blocksLeft ps ≤ d.blocks.toNat ∧
      (s.inFlight ps).wordOffset = (d.blocks.toNat - s.blocksLeft ps) * d.blockWords ∧
      d.blocks.toNat * d.blockWords ≤ contents.length := by
  have hlength := ha.moved.length_filled ha.fits
  have hfits := ha.fits
  have hle := s.command.blocksMoved_le ps
  have hmoved : s.blocksLeft ps = s.command.blocksToMove - s.command.blocksMoved ps := rfl
  have hoffset : (s.inFlight ps).wordOffset = s.command.blocksMoved ps * s.command.blockWords := rfl
  unfold Command.Fits at hfits
  cases hs : s.command.data with
  | none =>
    have hnone : (s.inFlight ps).command.data = none := congrArg (Option.map _) hs
    cases hnone.symm.trans hdata
  | some phase =>
    have hd : d = phase.withWords (s.command.filled 0 (received ps.flatten)) := by
      have hsome : (s.inFlight ps).command.data = some _ := congrArg (Option.map _) hs
      exact Option.some.inj (hdata.symm.trans hsome)
    obtain ⟨size, blocks, address | ⟨id', old⟩⟩ := phase
    · rw [hd] at hbuffer
      cases hbuffer
    · have hblocks : s.command.blocksToMove = blocks.toNat := by
        rw [Command.blocksToMove, hs]
        rfl
      have hwords : s.command.blockWords = (size / 4).toNat := by
        rw [Command.blockWords, hs]
        rfl
      subst hd
      obtain ⟨-, rfl⟩ := Buffer.words.inj hbuffer
      rw [hblocks, hwords] at hfits
      rw [hblocks] at hle hmoved
      have hback : blocks.toNat - s.blocksLeft ps = s.command.blocksMoved ps := by omega
      refine ⟨?_, ?_, ?_⟩
      · show s.blocksLeft ps ≤ blocks.toNat
        omega
      · show _ = (blocks.toNat - s.blocksLeft ps) * (size / 4).toNat
        rw [hback, hoffset, hwords]
      · show blocks.toNat * (size / 4).toNat ≤ _
        rw [hlength]
        exact hfits

end Entry.Aloft

namespace Controller

variable {c : Controller} {ps : List Pass} {masks : List UInt32} {rest : List Entry}

/-- What is latched does not depend on what has arrived. -/
theorem interruptMask_inFlight (command : Command) (ps : List Pass) :
    (command.inFlight ps).interruptMask = command.interruptMask := by
  have huses : (command.inFlight ps).usesWords = command.usesWords :=
    command.usesWords_withWords _
  unfold Command.interruptMask
  rw [huses]

/-- **A controller that holds submissions** is sound. -/
theorem Rests.sound (hr : Rests c ps masks rest) (hsub : ∀ s ∈ rest, s.Submitted)
    (herrors : ∀ s ∈ rest, s.command.errors = .empty) : c.Sound masks := by
  have hsize := c.queue.size_le
  cases hr with
  | idle hq hb =>
    have hhead : ∀ e, c.queue.head? ≠ some e := by
      intro e he
      cases (Queue.head?_of_nil hq).symm.trans he
    refine ⟨hsize, ?_, ?_, ?_, ?_, fun _ => hb, ?_⟩
    · rw [hq]
      exact List.forall_mem_nil _
    · exact fun e he => absurd he (hhead e)
    · rw [hq]
      exact List.forall_mem_nil _
    · exact fun e _ _ _ he => absurd he (hhead e)
    · exact fun e he => absurd he (hhead e)
  | @onWire s rest hq hb ha hm =>
    have hhead : ∀ e, c.queue.head? = some e → e = s.inFlight ps := by
      intro e he
      exact Option.some.inj (he.symm.trans (Queue.head?_of_cons hq))
    refine ⟨hsize, ?_, ?_, ?_, ?_, ?_, ?_⟩
    · rw [hq]
      intro e he
      rcases List.mem_cons.mp he with rfl | he
      · exact ⟨ha.pending, herrors s List.mem_cons_self⟩
      · have hmem := List.mem_cons_of_mem s he
        exact ⟨(hsub e hmem).pending, herrors e hmem⟩
    · intro e he
      obtain rfl := hhead e he
      refine ⟨rfl, ?_⟩
      show _ = some (s.command.inFlight ps).interruptMask.bits
      rw [interruptMask_inFlight]
      exact hm
    · rw [hq]
      exact fun e he => (hsub e (List.mem_cons_of_mem s he)).fresh
    · intro e d id contents he hdata hbuffer
      obtain rfl := hhead e he
      rw [hb]
      exact ha.counters hdata hbuffer
    · intro hnone
      have huses : s.command.usesWords = false :=
        (s.command.usesWords_withWords _).symm.trans (hnone _ (Queue.head?_of_cons hq))
      rw [hb, Entry.blocksLeft, s.command.blocksToMove_eq_zero huses, Nat.zero_sub]
    · intro e he
      obtain rfl := hhead e he
      refine ⟨ha.not_done, fun hdata => ha.not_commandDone ?_⟩
      exact Option.map_eq_none_iff.mp hdata

end Controller

/-- **Every controller** is sound between two calls. -/
theorem sound_of_run {steps : List Step} {c : Controller} (h : Run steps c) :
    c.Sound (latched (steps.flatMap Step.events)) := by
  obtain ⟨ts, htraced⟩ := h.trace
  have hledger := htraced.reached.ledger
  rw [← htraced.masks]
  refine hledger.rests.sound hledger.held ?_
  intro s hs
  have hsubmission : s.submitted ∈ submissions steps := by
    rw [← htraced.accepted]
    exact List.mem_map_of_mem (List.mem_of_mem_drop hs)
  exact h.errors s.submitted hsubmission (hledger.held s hs).pending

/-- A read on the wire, with one of its two blocks moved. -/
theorem sound_of_run_reading :
    ∃ steps c, Run steps c ∧ c.queue.head?.map Entry.wordOffset = some 1 ∧ c.blocksRemaining = 1 ∧
      c.Sound (latched (steps.flatMap Step.events)) := by
  have hstarted := run_rested.scripted (.sendAsync .twoBlockRead ⟨3⟩ 5) []
    (fun s hs => by obtain rfl := Option.some.inj hs; exact obtainable_twoBlockRead _) rfl
  have hserved := hstarted.scripted .handleInterrupt firstPass (fun _ hs => by cases hs) rfl
  exact ⟨_, _, hserved, by decide +kernel, by decide +kernel, sound_of_run hserved⟩

end SdHost
