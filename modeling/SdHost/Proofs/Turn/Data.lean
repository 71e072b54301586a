import SdHost.Proofs.Turn.Outcome

/-!
# The data of a command

What moves between the data buffer of the hardware and the words of a command while it is on the
wire, and that nothing else touches either.

* `Command.Account` — the words after some passes, against the words that were read and written;
* `data_integrity` — the account of the command on the wire, over any further turns.
-/

namespace SdHost

open Dialogue (Path)

/-- The account of the data of a command after some passes.  Of a command whose words the processor
moves, as many blocks have moved as were waiting, at most all of them, each of them whole: the words
that were read stand at the front of the buffer, or the words at the front of the buffer were
written.  Of any other command no word has moved. -/
def Command.Account (c : Command) (ps : List Pass) (now : Command) : Prop :=
  match c.data with
  | some ⟨size, blocks, .words id contents⟩ =>
    let count := min blocks.toNat (ready ps) * (size / 4).toNat
    count ≤ contents.length ∧
      match c.direction with
      | .read => (received ps.flatten).length = count ∧ sent ps.flatten = [] ∧
          now.data = some ⟨size, blocks, .words id (received ps.flatten ++ contents.drop count)⟩
      | .write => received ps.flatten = [] ∧ sent ps.flatten = contents.take count ∧
          now.data = c.data
  | _ => received ps.flatten = [] ∧ sent ps.flatten = [] ∧ now.data = c.data

/-- Events that move no word. -/
theorem Command.Moves.none {c : Command} {first : Nat} {evs : List Event}
    (h : c.Moves first 0 evs) : received evs = [] ∧ sent evs = [] := by
  unfold Command.Moves at h
  cases hdir : c.direction with
  | read =>
    rw [hdir] at h
    exact ⟨List.length_eq_zero_iff.mp h.1, h.2⟩
  | write =>
    rw [hdir] at h
    refine ⟨h.1, ?_⟩
    rw [h.2]
    exact List.take_zero

/-- Without words for the processor none has moved. -/
theorem Entry.Moved.none {s : Entry} {ps : List Pass} (hidle : s.command.usesWords = false)
    (h : s.Moved ps) : received ps.flatten = [] ∧ sent ps.flatten = [] := by
  have hzero : s.command.wordsMoved ps = 0 := by
    rw [Command.wordsMoved, Command.blocksMoved_eq_zero hidle, Nat.zero_mul]
  unfold Entry.Moved at h
  rw [hzero] at h
  exact h.none

/-- **The words that moved** account for the data. -/
theorem Entry.Moved.account {s : Entry} {ps : List Pass} (hfits : s.command.Fits)
    (h : s.Moved ps) : s.command.Account ps (s.command.inFlight ps) := by
  have hle := hfits.wordsMoved_le ps
  have hidle := h.none
  unfold Entry.Moved Command.Moves at h
  obtain ⟨⟨index, argument, kind, data, response, completion, errors⟩, callback, token, ticket,
    issued, commandDone, dataDone, offset⟩ := s
  rcases data with _ | ⟨size, blocks, address | ⟨id, contents⟩⟩
  · obtain ⟨hrecv, hsent⟩ := hidle rfl
    exact ⟨hrecv, hsent, rfl⟩
  · obtain ⟨hrecv, hsent⟩ := hidle rfl
    exact ⟨hrecv, hsent, rfl⟩
  · refine ⟨hle, ?_⟩
    simp only [Command.inFlight, Command.withWords, Option.map_some, DataPhase.withWords,
      Buffer.withWords, Command.filled]
    cases hdir : Direction.ofIndex index with
    | read =>
      simp only [Command.direction, hdir] at h ⊢
      refine ⟨h.1, h.2, ?_⟩
      rw [List.take_zero, List.nil_append, Nat.zero_add, h.1]
      rfl
    | write =>
      simp only [Command.direction, hdir] at h ⊢
      exact ⟨h.1, h.2, rfl⟩

/-! ### Other turns -/

/-- Only a pass moves words of data; past the driver a register can be read. -/
theorem Controller.leads_turn_data {c c' : Controller} {t : Turn} {ticket : Option Ticket}
    {evs : List Event} (ht : t ≠ .serve) (h : Leads (c.turn t) evs (ticket, c')) :
    sent evs = [] ∧ (received evs = [] ∨ ∃ r, t = .query (.register r)) := by
  cases t with
  | serve => exact absurd rfl ht
  | submit command callback token =>
    obtain ⟨first, out, _, henqueue, h₁, rfl⟩ := leads_bind.mp h
    have honly := only_of_enqueue henqueue
    cases out with
    | error err =>
      obtain ⟨rfl, -⟩ := leads_done.mp h₁
      rw [List.append_nil]
      exact ⟨honly.sent, .inl honly.received⟩
    | ok result =>
      obtain ⟨rfl, -⟩ := leads_done.mp h₁
      rw [List.append_nil]
      exact ⟨honly.sent, .inl honly.received⟩
  | _ =>
    have haside := leads_turn_aside rfl h
    exact ⟨haside.sent, haside.received⟩

/-- Every turn was made by some controller. -/
theorem Turns.exists_path {c c' : Controller} {us : List Record} (hu : Turns c us c') :
    ∀ r ∈ us, ∃ c₁ c₂ : Controller, Path (c₁.turn r.turn) r.exchanges (r.ticket, c₂) := by
  induction hu with
  | nil => exact List.forall_mem_nil _
  | snoc _ hturn ih =>
    intro r hr
    rcases List.mem_append.mp hr with hr | hr
    · exact ih r hr
    · obtain rfl := List.mem_singleton.mp hr
      exact ⟨_, _, hturn⟩

/-- What was never started comes back with its data as it was. -/
theorem Ledger.data_of_unissued {A D : List Entry} {ps : List Pass} {ms : List UInt32}
    {c : Controller} (h : Ledger A D ps ms c) {i : Nat} {e : Entry} (hget : D[i]? = some e)
    (hunissued : e.issued = false) : ∃ s, A[i]? = some s ∧ e.command.data = s.command.data := by
  obtain ⟨s, hs, hcame⟩ := h.came hget
  refine ⟨s, hs, ?_⟩
  cases hcame with
  | refused => rfl
  | landed hlands =>
    obtain ⟨commandDone, dataDone, rfl⟩ := hlands.entry
    cases hunissued

/-- What waits is as it was submitted. -/
theorem Ledger.waiting {A D : List Entry} {ps : List Pass} {ms : List UInt32} {c : Controller}
    (h : Ledger A D ps ms c) : c.queue.entries.tail = A.drop (D.length + 1) := by
  have hrests := h.rests
  rw [← List.tail_drop]
  cases hdrop : A.drop D.length with
  | nil =>
    rw [hdrop] at hrests
    cases hrests with
    | idle hq hb =>
      rw [hq]
  | cons s rest =>
    rw [hdrop] at hrests
    cases hrests with
    | onWire hq hb ha hm =>
      rw [hq]
      rfl

/-- **The integrity of data.**  The command on the wire accounts for its data at all times: while it
goes on and when it comes back.  What waits behind it is as it was submitted, what was never started
comes back with its data as it was, and no other turn moves a word. -/
theorem data_integrity {ts us : List Record} {c c' : Controller} (h : Reached ts c)
    (hu : Turns c us c') :
    (∀ head, c.queue.head? = some head → head.issued = true →
      ∃ s now, (accepted ts)[(returned ts).length]? = some s ∧ now.ticket = s.ticket ∧
        ((returned us).head?.map Prod.fst).or c'.queue.head? = some now ∧
        s.command.Account (s.command.flown (flight ts ++ passes us)) now.command) ∧
    c'.queue.entries.tail =
      (accepted (ts ++ us)).drop ((returned (ts ++ us)).length + 1) ∧
    (∀ (i : Nat) (d : Entry × Route), (returned (ts ++ us))[i]? = some d → d.1.issued = false →
      ∃ s, (accepted (ts ++ us))[i]? = some s ∧ d.1.command.data = s.command.data) ∧
    (∀ r ∈ us, r.turn ≠ .serve → sent r.events = [] ∧
      (received r.events = [] ∨ ∃ register, r.turn = .query (.register register))) ∧
    (c.isIdle = true → ∀ es c₁, Path c.handleInterrupt es c₁ →
      received (events es) = [] ∧ sent (events es) = []) := by
  have hledger := (h.append hu).ledger
  refine ⟨?_, ?_, ?_, ?_, ?_⟩
  · intro head hhead _
    obtain ⟨s, rest, -, hget, hflight, hrests, hsub⟩ := h.ledger.head hhead
    rw [List.length_map] at hget
    have hfits := (hsub s List.mem_cons_self).fits
    rcases Turns.flight hrests hsub hu with
      ⟨hrests', hnone, -⟩ | ⟨qs, more, v, e, route, hsplit, hlands, hreturned⟩
    · cases hrests' with
      | onWire hq hb ha hm =>
        refine ⟨s, s.inFlight (flight ts ++ passes us), hget, rfl, ?_, ?_⟩
        · rw [hnone, Queue.head?_of_cons hq]
          rfl
        · rw [Command.flown_of_none ha.running]
          exact ha.moved.account hfits
    · obtain ⟨commandDone, dataDone, he⟩ := hlands.entry
      refine ⟨s, e, hget, by rw [he], ?_, ?_⟩
      · rw [hreturned]
        rfl
      · rw [hsplit, Command.flown_append hlands.outcome, he]
        exact hlands.moved.account hfits
  · rw [hledger.waiting, List.length_map]
  · intro i d hget hunissued
    have hfst : ((returned (ts ++ us)).map Prod.fst)[i]? = some d.1 := by
      rw [List.getElem?_map, hget]
      rfl
    exact hledger.data_of_unissued hfst hunissued
  · intro r hr ht
    obtain ⟨c₁, c₂, hpath⟩ := hu.exists_path r hr
    exact Controller.leads_turn_data ht (leads_of_path hpath)
  · intro hidle es c₁ hpath
    have hq : c.queue.entries = [] := List.isEmpty_iff.mp hidle
    obtain ⟨-, word, hevs⟩ := Controller.leads_handleInterrupt_idle hq (leads_of_path hpath)
    rw [hevs]
    split_ifs
    · exact ⟨rfl, rfl⟩
    · exact ⟨rfl, rfl⟩

/-- A read of two blocks of a word each fills two words of a longer buffer. -/
theorem data_integrity_reading :
    ∃ ts us c c', Reached ts c ∧ Turns c us c' ∧
      (returned us).head?.map (fun d => d.1.command.data) =
        some (some ⟨4, 2, .words 0 [5, 6, 3]⟩) := by
  refine ⟨_, _, _, _, reached_reading, turns_reading, ?_⟩
  have hhead : Controller.reading.queue.head? =
      some ((Entry.submission .twoBlockRead none 0 0).inFlight []) := by decide +kernel
  have hempty : ((Controller.reading.after .serve firstPass).after .serve secondPass).queue.head? =
      none := by decide +kernel
  obtain ⟨s, now, hs, -, hnow, haccount⟩ :=
    (data_integrity reached_reading turns_reading).1 _ hhead rfl
  obtain rfl : Entry.submission .twoBlockRead none 0 0 = s := Option.some.inj hs
  obtain ⟨-, -, -, hdata⟩ := haccount
  rw [hempty, Option.or_none] at hnow
  have hback := congrArg (Option.map fun e : Entry => e.command.data) hnow
  rw [Option.map_map, Option.map_some, hdata] at hback
  refine Eq.trans hback ?_
  decide +kernel

end SdHost
