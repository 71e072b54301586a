import SdHost.Proofs.Command.Sent
import SdHost.Proofs.Turn.Data
import SdHost.Proofs.Turn.Drain
import SdHost.Proofs.Turn.Wire

/-!
# The direction of a command

One direction is used for the data of a command: the registers are programmed for it when the
command is started, and its blocks move this way.  The direction is told by the whole index of the
command, while six bits of the index are sent.

* `Controller.Launches` — some exchanges start a command, and nothing is written afterwards;
* `Drains.launches`, `EndsHead.launches`, `Reached.launches` — the start in a turn that starts a
  command;
* `Turns.in_flight` — its data and its response from then on;
* `directions_agree` — the direction and the response, against the index that is sent.
-/

namespace SdHost

open Dialogue (Path)
open Register

variable {es first second : List Exchange}

namespace Controller

variable {c c' : Controller} {head next e s : Entry} {rest waiting gone : List Entry}

/-- The command is started in the exchanges, and nothing is written afterwards. -/
inductive Launches (c : Controller) (s : Entry) : List Exchange → Prop where
  | intro {before start after : List Exchange}
      (hstart : Path (c.attempt s) start (.ok s.command.blocksToMove))
      (hafter : writes after = []) : Launches c s (before ++ (start ++ after))

/-- An attempt that starts the command, and then what writes nothing. -/
theorem launches_attempt (h : Path (c.attempt s) first (.ok s.command.blocksToMove))
    (hafter : writes second = []) : c.Launches s (first ++ second) :=
  @Launches.intro c s [] first second h hafter

theorem Launches.prepend (h : c.Launches s second) (first : List Exchange) :
    c.Launches s (first ++ second) := by
  obtain @⟨before, start, after, hstart, hafter⟩ := h
  rw [← List.append_assoc]
  exact .intro hstart hafter

/-- A controller with other commands starts a command in the same way. -/
theorem Launches.congr (hattempt : c'.attempt s = c.attempt s) (h : c'.Launches s es) :
    c.Launches s es := by
  obtain ⟨hstart, hafter⟩ := h
  rw [hattempt] at hstart
  exact .intro hstart hafter

/-- What is told about a command that is handed back writes nothing. -/
theorem writes_announce {route : Route} {u : Unit} (h : Path (announce e route) es u) :
    writes es = [] := by
  have hunwritten : Dialogue.Asks Request.unwritten (announce e route) :=
    (asks_announce e route).mono fun q hq => by
      cases q with
      | write r w => exact hq
      | _ => trivial
  exact writes_of_asks hunwritten h

/-- **The start among attempts**: if a command is queued in the end, it was started last. -/
theorem Drains.launches (h : Drains c es gone c') (hqueue : c'.queue.entries = e :: rest) :
    ∃ s : Entry, e = { s with issued := true } ∧ c.Launches s es := by
  induction h with
  | empty hnone => cases hnone.symm.trans hqueue
  | @started c s waiting tries hwaiting htries =>
    obtain ⟨rfl, -⟩ := List.cons.inj (hqueue.symm.trans (entries_withHead hwaiting _ _))
    have hlaunches := launches_attempt htries writes_nil
    rw [List.append_nil] at hlaunches
    exact ⟨s, rfl, hlaunches⟩
  | failed _ _ _ _ ih =>
    obtain ⟨s, hs, hlaunches⟩ := ih hqueue
    exact ⟨s, hs, ((hlaunches.congr attempt_dropHead_settle).prepend _).prepend _⟩

/-- **The start after the end of a head** comes before the head is handed back, or afterwards if
the command behind the head cannot be started. -/
theorem EndsHead.launches (h : c.EndsHead head e waiting gone c' es)
    (hwaiting : c.queue.entries = head :: waiting)
    (hqueue : c'.queue.entries = next :: rest) :
    ∃ s : Entry, next = { s with issued := true } ∧ c.Launches s es := by
  obtain @⟨word, notes, moves, tries, told, later, blocks, -, -, hfirst, htold, hdrains⟩ := h
  -- the start is found from the first attempt on
  suffices hrest : ∃ s : Entry, next = { s with issued := true } ∧
      c.Launches s (tries ++ (told ++ later)) by
    obtain ⟨s, hs, hlaunches⟩ := hrest
    exact ⟨s, hs, ((hlaunches.prepend moves).prepend notes).prepend [_, _]⟩
  have hentries : (c.popped.settle e).queue.entries = waiting :=
    entries_popped_settle.trans (congrArg List.tail hwaiting)
  -- the first attempt of `hdrains` is the one that was made before the head was handed back
  generalize hdrained : tries ++ later = drained at hdrains
  cases hdrains with
  | empty hnone => cases hnone.symm.trans hqueue
  | @started _ s others _ hcons htries =>
    obtain rfl := hentries.symm.trans hcons
    obtain ⟨rfl, -⟩ := List.cons.inj (hqueue.symm.trans (entries_withHead hcons _ _))
    obtain ⟨out, hout⟩ := hfirst
    rw [attempt_popped_settle] at htries
    obtain ⟨rfl, rfl⟩ := hout.unique htries (hdrained.trans (List.append_nil _).symm)
    obtain rfl := List.append_right_eq_self.mp hdrained
    refine ⟨s, rfl, launches_attempt htries ?_⟩
    rw [List.append_nil]
    exact writes_announce htold
  | @failed _ _ s others gone tries' told' later' hcons htries htold' hlater =>
    obtain rfl := hentries.symm.trans hcons
    obtain ⟨out, hout⟩ := hfirst
    rw [attempt_popped_settle] at htries
    obtain ⟨rfl, rfl⟩ := hout.unique htries hdrained
    obtain rfl := List.append_cancel_left hdrained
    obtain ⟨s', hs', hlaunches⟩ := hlater.launches hqueue
    have hlaunches' := (hlaunches.congr attempt_dropHead_settle).congr attempt_popped_settle
    exact ⟨s', hs', ((hlaunches'.prepend told').prepend told).prepend tries⟩

/-- **After its start** the registers say which way the data of the command goes. -/
theorem Launches.directed (h : c.Launches s es) (regs : Register → UInt32) :
    s.command.Directed c.version (stored regs es) := by
  obtain @⟨before, start, after, hstart, hafter⟩ := h
  rw [stored_append, stored_append, stored_of_unwritten _ hafter]
  exact Command.directed_issue hstart _

end Controller

open Controller

variable {ts us : List Record} {c c₁ c₂ : Controller} {t : Turn} {ticket : Option Ticket}

/-- **The start in a turn**: a turn that starts a command leaves it at the head of the queue, and
writes nothing after the start. -/
theorem Reached.launches (h : Reached ts c) (hturn : Path (c.turn t) es (ticket, c₁))
    (hstarts : SdHost.starts (events es) ≠ []) :
    ∃ (s : Entry) (rest : List Entry),
      c₁.queue.entries = { s with issued := true } :: rest ∧ c.Launches s es := by
  obtain ⟨fresh, held, hrests, hwires, -⟩ := h.wires hturn
  have hbusy : c₁.isIdle = false := hwires.busy fun habs => by
    rw [habs] at hwires
    exact hstarts hwires.starts
  obtain ⟨next, rest, hqueue⟩ : ∃ next rest, c₁.queue.entries = next :: rest := by
    refine List.exists_cons_of_ne_nil fun hnil => ?_
    rw [isIdle, Queue.isEmpty, hnil] at hbusy
    cases hbusy
  suffices hlaunch : ∃ s : Entry, next = { s with issued := true } ∧ c.Launches s es by
    obtain ⟨s, rfl, hlaunches⟩ := hlaunch
    exact ⟨s, rest, hqueue, hlaunches⟩
  have htail := h.fresh_tail
  cases hrests with
  | idle hq hb =>
    cases t with
    | submit command callback token =>
      obtain ⟨first, out, second, henqueue, hrest, rfl⟩ := Dialogue.path_bind.mp hturn
      cases out with
      | error err =>
        obtain ⟨rfl, -⟩ := Dialogue.path_done.mp hrest
        rw [List.append_nil] at hstarts
        rcases leads_enqueue (leads_of_path henqueue) with
          ⟨-, -, hnone, -⟩ | ⟨_, _, _, _, _, habs, _⟩
        · rw [hnone] at hstarts
          exact absurd rfl hstarts
        · cases habs
      | ok result =>
        obtain ⟨rfl, hr⟩ := Dialogue.path_done.mp hrest
        obtain ⟨rfl, rfl⟩ := Prod.mk.inj hr
        obtain ⟨look, drained, gone, rfl, -, -, hdrains⟩ := drains_of_enqueue hq henqueue
        obtain ⟨s, hs, hlaunches⟩ := hdrains.launches hqueue
        have hattempt : (c.joined ⟨command, callback, token⟩).attempt s = c.attempt s := rfl
        rw [List.append_nil]
        exact ⟨s, hs, (hlaunches.congr hattempt).prepend look⟩
    | serve =>
      obtain ⟨d, hserve, -⟩ := leads_bind_pure.mp (leads_of_path hturn)
      obtain ⟨-, word, hevs⟩ := leads_handleInterrupt_idle hq hserve
      refine absurd ?_ hstarts
      rw [hevs]
      split <;> rfl
    | _ => exact absurd (leads_turn_aside rfl (leads_of_path hturn)).starts hstarts
  | onWire hq hb ha hm =>
    rw [hq] at htail
    rcases leads_turn_onWire hq hb ha htail (leads_of_path hturn) with
      ⟨-, hnone⟩ | ⟨v, e, rfl, -, hhead⟩
    · exact absurd hnone hstarts
    · obtain ⟨d, hserve, hout⟩ := Dialogue.path_bind_pure.mp hturn
      obtain ⟨rfl, rfl⟩ := Prod.mk.inj hout
      have hhanded : handed (events es) ≠ [] := by
        intro habs
        rw [habs] at hhead
        cases hhead
      obtain ⟨e', gone, hends⟩ := endsHead_of_path hq htail hserve hhanded
      exact hends.launches hq hqueue

/-- **From its start on** a command moves its blocks in its direction and takes its response by its
index: while it is at the head of the queue, and when it comes back. -/
theorem Turns.in_flight {s : Entry} {rest : List Entry} {ms : List UInt32}
    (hr : c.Rests [] ms (s :: rest)) (hsub : ∀ e ∈ s :: rest, e.Submitted) (hu : Turns c us c₁) :
    ∃ now : Entry, now.ticket = s.ticket ∧
      ((returned us).head?.map Prod.fst).or c₁.queue.head? = some now ∧
      s.command.Account (s.command.flown (passes us)) now.command ∧
      now.command.response = s.command.responseAfter (s.command.flown (passes us)) ∧
      ∀ p ∈ s.command.flown (passes us), s.command.Hears p := by
  have hfits := (hsub s List.mem_cons_self).fits
  rcases Turns.flight hr hsub hu with
    ⟨hrests, hnone, -⟩ | ⟨qs, more, v, e, route, hsplit, hlands, hreturned⟩
  · rw [List.nil_append] at hrests
    cases hrests with
    | onWire hq hb ha hm =>
      rw [Command.flown_of_none ha.running]
      refine ⟨s.inFlight (passes us), rfl, ?_, ha.moved.account hfits, rfl, ha.heard⟩
      rw [hnone, Queue.head?_of_cons hq]
      rfl
  · rw [List.nil_append] at hsplit
    rw [hsplit, Command.flown_append hlands.outcome]
    obtain ⟨commandDone, dataDone, he⟩ := hlands.entry
    refine ⟨e, by rw [he], ?_, ?_, ?_, hlands.heard⟩
    · rw [hreturned]
      rfl
    · rw [he]
      exact hlands.moved.account hfits
    · rw [he]
      rfl

/-- **The direction of a command.**  A turn that starts a command has programmed its direction, and
whatever comes then, until the command is handed back its blocks move in this direction and its
response is read from where its index says and put there.  The direction and the response are those
of the index that is sent unless more than six bits were given, and then unless that index is a
reader's, or is the one that ends a transfer and the card may be busy after it. -/
theorem directions_agree {r : Record} (h : Reached ts c)
    (hturn : Path (c.turn r.turn) r.exchanges (r.ticket, c₁)) (hstarts : starts r.events ≠ [])
    (hu : Turns c₁ us c₂) (regs : Register → UInt32) :
    ∃ s now, (accepted (ts ++ [r]))[(returned (ts ++ [r])).length]? = some s ∧
      now.ticket = s.ticket ∧
      ((returned us).head?.map Prod.fst).or c₂.queue.head? = some now ∧
      s.command.Directed c.version (stored regs r.exchanges) ∧
      s.command.Account (s.command.flown (passes us)) now.command ∧
      now.command.response = s.command.responseAfter (s.command.flown (passes us)) ∧
      (∀ p ∈ s.command.flown (passes us), s.command.Hears p) ∧
      (s.command.index.toNat ≤ 63 → s.command.asSent = s.command) ∧
      (s.command.asSent.direction = s.command.direction ↔
        s.command.index.toNat ≤ 63 ∨ s.command.asSent.index ∉ CommandIndex.readers) ∧
      ((∀ evs old, s.command.asSent.responseIn evs old = s.command.responseIn evs old) ↔
        s.command.responseKind ≠ .r1b ∨ s.command.index.toNat ≤ 63 ∨
          s.command.asSent.index ≠ CommandIndex.stopTransmission) := by
  obtain ⟨started, behind, hqueue, hlaunches⟩ := h.launches hturn hstarts
  have hafter : Reached (ts ++ [r]) c₁ := h.append (Turns.one hturn)
  obtain ⟨s, rest, -, hget, hhead, hrests, hsub⟩ :=
    hafter.ledger.head (Queue.head?_of_cons hqueue)
  rw [List.length_map] at hget
  -- the flight of the command begins with this turn
  have hflight : flight (ts ++ [r]) = [] := (flight_concat ts r).trans (if_neg hstarts)
  rw [hflight] at hhead hrests
  have hcommand : started.command = s.command :=
    (congrArg Entry.command hhead).trans (Command.inFlight_nil _)
  have hdirected := hlaunches.directed regs
  rw [hcommand] at hdirected
  obtain ⟨now, hticket, hback, haccount, hresponse, hheard⟩ := Turns.in_flight hrests hsub hu
  exact ⟨s, now, hget, hticket, hback, hdirected, haccount, hresponse, hheard,
    Command.asSent_of_le, Command.direction_asSent_iff, Command.responseIn_asSent_iff⟩

/-- The start of a read of two blocks, and the passes that end it: the registers say that the data
are read, and the words that arrive fill the buffer. -/
theorem directions_agree_reading :
    ∃ (r : Record) (us : List Record) (c₂ : Controller) (s now : Entry),
      Path (Controller.rested.turn r.turn) r.exchanges (r.ticket, Controller.reading) ∧
      starts r.events ≠ [] ∧ Turns Controller.reading us c₂ ∧ s.command = .twoBlockRead ∧
      s.command.asSent = s.command ∧ s.command.direction = .read ∧
      s.command.Directed .v1 (stored (fun _ => 0) r.exchanges) ∧
      ((returned us).head?.map Prod.fst).or c₂.queue.head? = some now ∧
      now.command.data = some ⟨4, 2, .words 0 [5, 6, 3]⟩ := by
  obtain ⟨s, now, hs, -, hnow, hdirected, haccount, -, -, hsent, -, -⟩ :=
    directions_agree (r := Controller.rested.recorded (.submit .twoBlockRead none 0) [])
      reached_rested (path_scripted [] rfl) (by decide +kernel) turns_reading fun _ => 0
  obtain rfl : Entry.submission .twoBlockRead none 0 0 = s := Option.some.inj hs
  obtain ⟨-, -, -, hdata⟩ := haccount
  refine ⟨_, _, _, _, now, path_scripted [] rfl, by decide +kernel, turns_reading, rfl,
    hsent (by decide), rfl, hdirected, hnow, hdata.trans ?_⟩
  decide +kernel

/-- A block of a word under an index of seven bits; the lower six are those of a reader. -/
def Command.overlong : Command :=
  { (Command.new CommandIndex.readSingleBlock 0 .r1).withData ⟨4, 1, .words 0 [7]⟩ with
    index := 0x40 ||| CommandIndex.readSingleBlock }

/-- The only block has moved, and that is the end of the data. -/
def lastPass : List (Register × UInt32) := [(.interruptStatus, 0x2)]

/-- **An index of seven bits** is accepted, and the read of a block is started by it, while the
registers say that the data are written.  When the block of the card waits, the word of the buffer
is written, and the read ends well with nothing received. -/
theorem directions_disagree :
    ∃ (r : Record) (us : List Record) (c₁ c₂ : Controller) (s : Entry)
        (regs : Register → UInt32),
      Reached [] Controller.rested ∧
      Path (Controller.rested.turn r.turn) r.exchanges (r.ticket, c₁) ∧ Turns c₁ us c₂ ∧
      accepted [r] = [s] ∧ s.command = .overlong ∧
      (returned us).map (fun d => d.1.command.completion) = [.succeeded] ∧
      s.command.asSent.index = CommandIndex.readSingleBlock ∧ s.command.asSent.direction = .read ∧
      regs = stored (fun _ => 0) r.exchanges ∧
      TransferType.commandIndex.get (regs transferType) = 17 ∧
      MixerControl.readDirection.isSet (modeWord .v1 regs) = false ∧
      Watermark.readLevel.get (regs watermark) = 0 ∧
      Watermark.writeLevel.get (regs watermark) = 1 ∧
      sent (passes us).flatten = [7] ∧ received (passes us).flatten = [] := by
  let c₁ := Controller.rested.after (.submit .overlong none 0) []
  refine ⟨Controller.rested.recorded (.submit .overlong none 0) [],
    [c₁.recorded .serve firstPass, (c₁.after .serve firstPass).recorded .serve lastPass], c₁,
    (c₁.after .serve firstPass).after .serve lastPass, .submission .overlong none 0 0, _,
    reached_rested, path_scripted [] rfl,
    (Turns.nil.scripted .serve firstPass).scripted .serve lastPass, rfl, rfl, ?_, rfl, rfl, rfl,
    ?_, ?_, ?_, ?_, ?_, ?_⟩
  all_goals decide +kernel

end SdHost
