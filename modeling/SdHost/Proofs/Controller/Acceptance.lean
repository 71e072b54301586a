import SdHost.Proofs.Command.Encoding
import SdHost.Proofs.Controller.Drain

/-!
# What is accepted

A command is looked at before it joins the queue: it must not have ended, its data phase must be
one that the hardware can carry out, and there must be room.  The first of these that fails is the
reason for which the submission is refused.

* `DataPhase.Acceptable` — the data phases that hardware with a given capability word can carry
  out;
* `Controller.Accepts`, `Controller.Refuses` — what is accepted, and why anything else is not;
* `run_inspect` — what a look at a command comes to;
* `Controller.enqueue_full` — a submission to a full queue;
* `Controller.Joins`, `joins_of_path` — what a submission that is accepted leaves behind;
* `Accepts.enqueue`, `Refuses.enqueue` — a submission that is accepted, and one that is refused.
-/

namespace SdHost

open Dialogue Register

variable {σ : Type} {reply : Surroundings Request.Answer σ} {x : σ} {word : UInt32}

/-! ### Data phases -/

/-- A data phase that hardware with the capability word can carry out: blocks of whole words, not
longer than the hardware allows, no more of them than the block count holds, and in a buffer that
the processor moves a word for each word of them. -/
structure DataPhase.Acceptable (word : UInt32) (d : DataPhase) : Prop where
  size_pos : 0 < d.blockSize.toNat
  whole : 4 ∣ d.blockSize.toNat
  size_le : d.blockSize.toNat ≤ 512 * 2 ^ (Capabilities.maxBlockLength.get word).toNat
  blocks_pos : 1 ≤ d.blocks.toNat
  blocks_le : d.blocks.toNat ≤ 65535
  room : ∀ id contents, d.buffer = .words id contents →
    d.blockSize.toNat / 4 * d.blocks.toNat ≤ contents.length

namespace DataPhase

variable {d : DataPhase}

/-- The check of the block size. -/
theorem badSize_eq_false_iff :
    (d.blockSize == 0 || d.blockSize % 4 != 0 ||
        decide (d.blockSize > Capabilities.blockLength word)) = false ↔
      0 < d.blockSize.toNat ∧ 4 ∣ d.blockSize.toNat ∧
        d.blockSize.toNat ≤ 512 * 2 ^ (Capabilities.maxBlockLength.get word).toNat := by
  have hlargest := Capabilities.toNat_blockLength word
  have hzero : d.blockSize = 0 ↔ d.blockSize.toNat = 0 := UInt32.toNat_inj.symm
  have hwhole : d.blockSize % 4 = 0 ↔ d.blockSize.toNat % 4 = 0 := by
    rw [← UInt32.toNat_inj, UInt32.toNat_mod]
    rfl
  have hlonger : d.blockSize > Capabilities.blockLength word ↔
      (Capabilities.blockLength word).toNat < d.blockSize.toNat := UInt32.lt_iff_toNat_lt
  simp only [Bool.or_eq_false_iff, beq_eq_false_iff_ne, bne_eq_false_iff_eq,
    decide_eq_false_iff_not, ne_eq, hzero, hwhole, hlonger]
  omega

/-- The check of the number of blocks. -/
theorem badCount_eq_false_iff :
    (d.blocks == 0 || decide (d.blocks > maxBlocks)) = false ↔
      1 ≤ d.blocks.toNat ∧ d.blocks.toNat ≤ 65535 := by
  have hzero : d.blocks = 0 ↔ d.blocks.toNat = 0 := UInt32.toNat_inj.symm
  have hmore : d.blocks > maxBlocks ↔ 65535 < d.blocks.toNat := UInt32.lt_iff_toNat_lt
  simp only [Bool.or_eq_false_iff, beq_eq_false_iff_ne, decide_eq_false_iff_not, ne_eq, hzero,
    hmore]
  omega

/-- The check of the buffer. -/
theorem bufferSuffices_iff :
    d.bufferSuffices = true ↔ ∀ id contents, d.buffer = .words id contents →
      d.blockSize.toNat / 4 * d.blocks.toNat ≤ contents.length := by
  have hwords : d.blockWords = d.blockSize.toNat / 4 := UInt32.toNat_div _ _
  unfold bufferSuffices
  rw [hwords]
  cases d.buffer with
  | dma address => simp
  | words id contents => simp

/-- **The checks of a data phase** are about what the hardware can carry out. -/
theorem validate_iff :
    (d.validate (Capabilities.blockLength word)).toOption.isNone = false ↔ d.Acceptable word := by
  have hall : (d.validate (Capabilities.blockLength word)).toOption.isNone = false ↔
      (d.blockSize == 0 || d.blockSize % 4 != 0 ||
        decide (d.blockSize > Capabilities.blockLength word)) = false ∧
      (d.blocks == 0 || decide (d.blocks > maxBlocks)) = false ∧ d.bufferSuffices = true := by
    unfold validate
    cases (d.blockSize == 0 || d.blockSize % 4 != 0 ||
      decide (d.blockSize > Capabilities.blockLength word)) <;>
    cases (d.blocks == 0 || decide (d.blocks > maxBlocks)) <;>
    cases d.bufferSuffices <;> simp [Except.toOption]
  rw [hall, badSize_eq_false_iff, badCount_eq_false_iff, bufferSuffices_iff]
  constructor
  · rintro ⟨⟨hpos, hwhole, hle⟩, ⟨hsome, hmost⟩, hroom⟩
    exact ⟨hpos, hwhole, hle, hsome, hmost, hroom⟩
  · rintro ⟨hpos, hwhole, hle, hsome, hmost, hroom⟩
    exact ⟨⟨hpos, hwhole, hle⟩, ⟨hsome, hmost⟩, hroom⟩

end DataPhase

/-- The checks of a command's data phase, if it has one. -/
theorem Command.validate_iff {command : Command} :
    (command.data.any fun d => (d.validate (Capabilities.blockLength word)).toOption.isNone) =
        false ↔
      ∀ d, command.data = some d → d.Acceptable word := by
  cases command.data with
  | none => simp
  | some d =>
    rw [Option.any_some, DataPhase.validate_iff]
    simp

theorem Completion.isPending_iff {completion : Completion} :
    completion.isPending = true ↔ completion = .pending := by
  cases completion <;> simp [isPending]

namespace Controller

variable {c : Controller} {command : Command} {callback : Option Callback} {token : Nat}
  {err : SubmitError}

/-! ### Accepted and refused -/

/-- The command can join the queue of a controller whose capability word is `word`. -/
structure Accepts (word : UInt32) (c : Controller) (command : Command) : Prop where
  pending : command.completion = .pending
  data : ∀ d, command.data = some d → d.Acceptable word
  room : c.pending < 8

/-- The first reason for which the command cannot join the queue, with the command as it is. -/
inductive Refuses (word : UInt32) (c : Controller) (command : Command) : SubmitError → Prop where
  | notReset (hended : command.completion ≠ .pending) : Refuses word c command (.notReset command)
  | invalidData (hpending : command.completion = .pending)
      (hdata : ¬∀ d, command.data = some d → d.Acceptable word) :
      Refuses word c command (.invalidData command)
  | queueFull (hpending : command.completion = .pending)
      (hdata : ∀ d, command.data = some d → d.Acceptable word) (hfull : 8 ≤ c.pending) :
      Refuses word c command (.queueFull command)

/-- A command that is not accepted is refused for a reason. -/
theorem refuses_of_not_accepts (h : ¬c.Accepts word command) :
    ∃ err, c.Refuses word command err := by
  by_cases hpending : command.completion = .pending
  · by_cases hdata : ∀ d, command.data = some d → d.Acceptable word
    · refine ⟨_, .queueFull hpending hdata ?_⟩
      by_contra hroom
      exact h ⟨hpending, hdata, by omega⟩
    · exact ⟨_, .invalidData hpending hdata⟩
  · exact ⟨_, .notReset hpending⟩

/-! ### A look at a command -/

theorem run_inspect_ended (hended : command.completion ≠ .pending) :
    (run reply (inspect command) x).1 = .error (.notReset command) := by
  have hfalse : command.completion.isPending = false := by
    rw [← Bool.not_eq_true, Completion.isPending_iff]
    exact hended
  unfold inspect
  rw [hfalse]
  rfl

/-- **A look at a command** that has not ended tells whether its data phase can be carried out. -/
theorem run_inspect_pending (hpending : command.completion = .pending)
    (hword : word = (reply (.read capabilities) x).1) :
    (run reply (inspect command) x).1 =
      if command.data.any fun d =>
        (d.validate (Capabilities.blockLength word)).toOption.isNone
      then .error (.invalidData command) else .ok () := by
  have hlook : inspect command = capabilities.read >>= fun word =>
      if command.data.any fun d =>
        (d.validate (Capabilities.blockLength word)).toOption.isNone
      then report (.invalidData command.index) >>= fun _ => pure (.error (.invalidData command))
      else pure (.ok ()) := by
    unfold inspect
    rw [Completion.isPending_iff.mpr hpending, if_pos rfl]
    exact bind_assoc ..
  have hread : run reply capabilities.read x = (word, (reply (.read capabilities) x).2) := by
    rw [hword]
    rfl
  rw [hlook, run_bind, hread]
  dsimp only
  split
  · rfl
  · rfl

theorem run_inspect_acceptable (hpending : command.completion = .pending)
    (hdata : ∀ d, command.data = some d → d.Acceptable word)
    (hword : word = (reply (.read capabilities) x).1) :
    (run reply (inspect command) x).1 = .ok () := by
  rw [run_inspect_pending hpending hword, Command.validate_iff.mpr hdata]
  rfl

/-! ### Submissions -/

/-- **A submission to a full queue** is looked at, and refused at the latest because there is no
room. -/
theorem enqueue_full (hfull : 8 ≤ c.pending) (command : Command) (callback : Option Callback)
    (token : Nat) :
    (c.enqueue command callback token).run = inspect command >>= fun verdict =>
      pure (verdict.bind fun _ => .error (.queueFull command)) := by
  have hsize := c.queue.size_le
  have hnone : c.queue.push command callback token = none := by
    refine (c.queue.push_eq_none_iff command callback token).mpr (beq_iff_eq.mpr ?_)
    exact Nat.le_antisymm hsize hfull
  unfold enqueue inspect
  cases hpending : command.completion.isPending with
  | false => rfl
  | true =>
    simp only [if_true, hnone]
    refine (ExceptT.run_bind_lift _ _).trans ?_
    rw [bind_assoc]
    congr 1
    funext largest
    cases command.data.any fun d => (d.validate largest).toOption.isNone with
    | true => rfl
    | false => rfl

/-- A submission that is refused by the look at its command. -/
theorem enqueue_uninspected (callback : Option Callback) (token : Nat)
    (h : (run reply (inspect command) x).1 = .error err) :
    run reply (c.enqueue command callback token).run x =
        (.error err, (run reply (inspect command) x).2) ∧
      exchanges reply (c.enqueue command callback token).run x =
        exchanges reply (inspect command) x := by
  by_cases hroom : c.pending < 8
  · have henqueue := enqueue_eq hroom ⟨command, callback, token⟩
    dsimp only at henqueue
    rw [henqueue, run_bind, exchanges_bind, h]
    exact ⟨rfl, List.append_nil _⟩
  · rw [enqueue_full (Nat.not_lt.mp hroom), run_bind, exchanges_bind, h]
    exact ⟨rfl, List.append_nil _⟩

/-- The entry `e` has joined the queue, under the next ticket, and that ticket is used up.  Behind
others it waits as the last; alone it is on the wire, or it has come back because the lines are
busy. -/
structure Joins (c : Controller) (e : Entry) (es : List Exchange) (c' : Controller) : Prop where
  ticket : e.ticket = c.queue.nextTicket
  next : c'.queue.nextTicket = c.queue.nextTicket + 1
  behind : c.queue.entries ≠ [] →
    c'.queue.entries = c.queue.entries ++ [e] ∧ handed (events es) = []
  alone : c.queue.entries = [] →
    (c'.queue.entries = [{ e with issued := true }] ∧ handed (events es) = []) ∨
      (c'.queue.entries = [] ∧ (handed (events es)).map Prod.fst = [e.refused])

/-- **A submission that is accepted** joins the queue. -/
theorem joins_of_path {es : List Exchange} {ticket : Ticket} {c' : Controller}
    (h : Path (c.enqueue command callback token).run es (.ok (ticket, c'))) :
    c.Joins (.submission command callback token ticket) es c' := by
  rcases leads_enqueue (leads_of_path h) with ⟨_, habs, -⟩ | ⟨q, c₁, hpush, -, -, hok, hdone⟩
  · cases habs
  · obtain ⟨rfl, rfl⟩ := Prod.mk.inj (Except.ok.inj hok)
    obtain ⟨hentries, hnext⟩ := Queue.push_eq_some hpush
    cases hqueue : c.queue.entries with
    | nil =>
      obtain ⟨look, drained, gone, rfl, hlook, halone, hdrains⟩ := drains_of_enqueue hqueue h
      have hroom : c.queue.entries.length < queueDepth := by
        rw [hqueue]
        decide
      have hjoined := (Queue.entries_joined hroom ⟨command, callback, token⟩).2
      have hhanded : (handed (events (look ++ drained))).map Prod.fst = gone.map Entry.refused := by
        rw [events_append, handed_append, handed_inspect hlook, List.nil_append,
          hdrains.handed_eq]
      refine ⟨rfl, hdrains.nextTicket.trans hjoined, fun habs => absurd hqueue habs, fun _ => ?_⟩
      rcases hdrains.alone halone with ⟨rfl, hleft⟩ | ⟨rfl, hleft⟩
      · exact .inl ⟨hleft, List.map_eq_nil_iff.mp hhanded⟩
      · exact .inr ⟨hleft, hhanded⟩
    | cons head rest =>
      have hoccupied : c.queue.isEmpty = false := Queue.isEmpty_of_cons hqueue
      rw [hoccupied, if_neg Bool.false_ne_true] at hdone
      obtain ⟨hquiet, rfl⟩ := hdone
      refine ⟨rfl, hnext, fun _ => ⟨hentries, ?_⟩, fun habs => ?_⟩
      · rw [hquiet]
        rfl
      · cases habs.symm.trans hqueue

/-- **A command that can join the queue** is accepted, and joins it. -/
theorem Accepts.enqueue (h : c.Accepts word command)
    (hword : word = (reply (.read capabilities) x).1) (callback : Option Callback) (token : Nat) :
    ∃ ticket c', (run reply (c.enqueue command callback token).run x).1 = .ok (ticket, c') ∧
      c.Joins (.submission command callback token ticket)
        (exchanges reply (c.enqueue command callback token).run x) c' := by
  have hresult : ∃ r, (run reply (c.enqueue command callback token).run x).1 = .ok r := by
    have henqueue := enqueue_eq h.room ⟨command, callback, token⟩
    dsimp only at henqueue
    rw [henqueue, run_bind, run_inspect_acceptable h.pending h.data hword]
    dsimp only
    rw [run_bind]
    exact ⟨_, rfl⟩
  obtain ⟨⟨ticket, c'⟩, hok⟩ := hresult
  have hpath := path_run reply (c.enqueue command callback token).run x
  rw [hok] at hpath
  exact ⟨ticket, c', hok, joins_of_path hpath⟩

/-- **A command that cannot join the queue** is refused for the first reason against it, and all
that was done is the look at it. -/
theorem Refuses.enqueue (h : c.Refuses word command err)
    (hword : word = (reply (.read capabilities) x).1) (callback : Option Callback) (token : Nat) :
    run reply (c.enqueue command callback token).run x =
        (.error err, (run reply (inspect command) x).2) ∧
      exchanges reply (c.enqueue command callback token).run x =
        exchanges reply (inspect command) x := by
  cases h with
  | notReset hended => exact enqueue_uninspected callback token (run_inspect_ended hended)
  | invalidData hpending hdata =>
    refine enqueue_uninspected callback token ?_
    rw [run_inspect_pending hpending hword, if_pos]
    rw [← Bool.not_eq_false, Command.validate_iff]
    exact hdata
  | queueFull hpending hdata hfull =>
    rw [enqueue_full hfull, run_bind, exchanges_bind,
      run_inspect_acceptable hpending hdata hword]
    exact ⟨rfl, List.append_nil _⟩

theorem accepts_iff_enqueue (hword : word = (reply (.read capabilities) x).1)
    (callback : Option Callback) (token : Nat) :
    (∃ r, (run reply (c.enqueue command callback token).run x).1 = .ok r) ↔
      c.Accepts word command := by
  constructor
  · rintro ⟨r, hr⟩
    by_contra hnot
    obtain ⟨err, hrefuses⟩ := refuses_of_not_accepts hnot
    rw [(hrefuses.enqueue hword callback token).1] at hr
    cases hr
  · intro h
    obtain ⟨ticket, c', hok, -⟩ := h.enqueue hword callback token
    exact ⟨_, hok⟩

end Controller

end SdHost
