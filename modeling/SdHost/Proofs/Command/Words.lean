import SdHost.Controller.Interrupt
import SdHost.Proofs.Event

/-!
# Words of responses and data

What the two accesses of a pass do to the head: the response registers are read into the words that
the kind of response asks for, and one block moves between the data buffer and the words that the
head has not moved yet.

* `Command.asked`, `Command.responseIn` — the registers that are read, and the response afterwards;
* `Command.Stores`, `stores_responseIn` — the words that are stored are those that were read;
* `Command.words`, `Command.withWords` — the words that the processor fills or empties;
* `Command.Fits` — there is a word for every word that will move;
* `leads_captureResponse`, `leads_moveBlock` — the two accesses by their events.
-/

namespace SdHost

open Register

/-! ### Responses -/

/-- The word that was read from a response register, if it was read. -/
def answered (r : Register) (evs : List Event) : Option UInt32 := (responses evs).lookup r

/-- A register that was read has answered. -/
theorem answered_of_mem {r : Register} {evs : List Event} (h : r ∈ (responses evs).map Prod.fst) :
    ∃ word, answered r evs = some word := by
  obtain ⟨x, hx, rfl⟩ := List.mem_map.mp h
  exact Option.isSome_iff_exists.mp (List.lookup_isSome_iff.mpr ⟨x, hx, beq_self_eq_true x.1⟩)

/-- The words of a response, each with the register that it comes from. -/
def Response.inRegisters (r : Response) : List (Register × UInt32) :=
  responseRegisters.zip r.toList

namespace Command

/-- The registers that the kind of response asks for. -/
def asked (c : Command) : List Register :=
  match c.responseKind with
  | .none => []
  | .r2 => responseRegisters
  | .r1b => if c.index == CommandIndex.stopTransmission then [response3] else [response0]
  | _ => [response0]

/-- What becomes of the word `old` when the response registers are read: the word from its register,
if that is asked for and was read. -/
def wordIn (c : Command) (evs : List Event) (r : Register) (old : UInt32) : UInt32 :=
  if r ∈ c.asked then (answered r evs).getD old else old

/-- The response `old` after the response registers were read. -/
def responseIn (c : Command) (evs : List Event) (old : Response) : Response :=
  ⟨c.wordIn evs response0 old.word0, c.wordIn evs response1 old.word1,
    c.wordIn evs response2 old.word2, c.wordIn evs response3 old.word3⟩

theorem wordIn_of_not_mem {c : Command} {r : Register} (h : r ∉ c.asked) (evs : List Event)
    (old : UInt32) : c.wordIn evs r old = old :=
  if_neg h

/-- What is read first is overwritten by what is read later. -/
theorem wordIn_wordIn {c : Command} {later : List Event}
    (h : (responses later).map Prod.fst = c.asked) (evs : List Event) (r : Register)
    (old : UInt32) : c.wordIn later r (c.wordIn evs r old) = c.wordIn later r old := by
  by_cases hr : r ∈ c.asked
  · obtain ⟨word, hword⟩ := answered_of_mem (h.symm ▸ hr)
    simp only [wordIn, hr, if_true, hword, Option.getD_some]
  · rw [wordIn_of_not_mem hr evs]

theorem responseIn_responseIn {c : Command} {later : List Event}
    (h : (responses later).map Prod.fst = c.asked) (evs : List Event) (old : Response) :
    c.responseIn later (c.responseIn evs old) = c.responseIn later old := by
  unfold responseIn
  rw [wordIn_wordIn h, wordIn_wordIn h, wordIn_wordIn h, wordIn_wordIn h]

/-- Only the registers that were read matter. -/
theorem responseIn_congr (c : Command) {evs evs' : List Event} (h : responses evs = responses evs')
    (old : Response) : c.responseIn evs old = c.responseIn evs' old := by
  unfold responseIn wordIn answered
  rw [h]

/-- The response `new` is what `old` becomes when the response registers are read: those that are
asked for are read, each once, and their words are stored; the other words are as they were. -/
structure Stores (c : Command) (evs : List Event) (old new : Response) : Prop where
  read : responses evs = new.inRegisters.filter (·.1 ∈ c.asked)
  kept : new.inRegisters.filter (·.1 ∉ c.asked) = old.inRegisters.filter (·.1 ∉ c.asked)

theorem asked_cases (c : Command) :
    c.asked = [] ∨ c.asked = [response0] ∨ c.asked = [response3] ∨ c.asked = responseRegisters := by
  unfold asked
  cases c.responseKind with
  | r1b => cases c.index == CommandIndex.stopTransmission <;> simp
  | _ => simp

theorem inRegisters_responseIn (c : Command) (evs : List Event) (old : Response) :
    (c.responseIn evs old).inRegisters =
      old.inRegisters.map fun x => (x.1, c.wordIn evs x.1 x.2) :=
  rfl

/-- **The words that are stored** are those that were read. -/
theorem stores_responseIn {c : Command} {evs : List Event}
    (h : (responses evs).map Prod.fst = c.asked) (old : Response) :
    c.Stores evs old (c.responseIn evs old) := by
  constructor
  · rcases c.asked_cases with hasked | hasked | hasked | hasked
    · have hread := List.map_eq_nil_iff.mp (h.trans hasked)
      rw [hread, hasked]
      rfl
    · obtain ⟨⟨_, word⟩, hread, rfl⟩ := List.map_eq_singleton_iff.mp (h.trans hasked)
      simp only [inRegisters_responseIn, wordIn, answered, hread, hasked]
      rfl
    · obtain ⟨⟨_, word⟩, hread, rfl⟩ := List.map_eq_singleton_iff.mp (h.trans hasked)
      simp only [inRegisters_responseIn, wordIn, answered, hread, hasked]
      rfl
    · obtain ⟨⟨_, word0⟩, _, hread, rfl, h₁⟩ := List.map_eq_cons_iff.mp (h.trans hasked)
      obtain ⟨⟨_, word1⟩, _, rfl, rfl, h₂⟩ := List.map_eq_cons_iff.mp h₁
      obtain ⟨⟨_, word2⟩, _, rfl, rfl, h₃⟩ := List.map_eq_cons_iff.mp h₂
      obtain ⟨⟨_, word3⟩, rfl, rfl⟩ := List.map_eq_singleton_iff.mp h₃
      simp only [inRegisters_responseIn, wordIn, answered, hread, hasked]
      rfl
  · rw [inRegisters_responseIn, List.filter_map]
    refine (List.map_congr_left fun x hx => ?_).trans (List.map_id _)
    have hother : x.1 ∉ c.asked := of_decide_eq_true (List.mem_filter.mp hx).2
    rw [wordIn_of_not_mem hother]
    rfl

/-- A long response takes the words of all four registers. -/
example : (Command.new 2 0 .r2).responseIn (responseRegisters.zipWith .response [1, 2, 3, 4]) {} =
    ⟨1, 2, 3, 4⟩ := by decide

/-- One response register. -/
theorem leads_readResponse {r : Register} {evs : List Event} {word : UInt32}
    (hr : ∀ w, readEvent? r w = some (.response r w)) (h : Leads r.read evs word) :
    evs = [.response r word] := by
  rw [leads_read.mp h, hr]
  rfl

theorem leads_captureFirst {c' : Command} {evs : List Event} {r : Register}
    {store : UInt32 → Command} (hr : ∀ w, readEvent? r w = some (.response r w))
    (h : Leads (do return store (← r.read)) evs c') :
    ∃ word, evs = [.response r word] ∧ c' = store word := by
  obtain ⟨word, hw, rfl⟩ := leads_bind_pure.mp h
  exact ⟨word, by rw [leads_readResponse hr hw], rfl⟩

/-- **Reading the response** reads the registers that the kind of response asks for; it changes
their words, and nothing else. -/
theorem leads_captureResponse {c c' : Command} {evs : List Event}
    (h : Leads c.captureResponse evs c') :
    c' = { c with response := c.responseIn evs c.response } ∧
      (responses evs).map Prod.fst = c.asked ∧ OnlyTransfers evs ∧
      received evs = [] ∧ sent evs = [] := by
  obtain ⟨index, argument, kind, data, response, completion, errors⟩ := c
  cases kind with
  | none =>
    obtain ⟨rfl, rfl⟩ := leads_done.mp h
    exact ⟨rfl, rfl, by simp [OnlyTransfers], rfl, rfl⟩
  | r2 =>
    obtain ⟨_, w0, _, h0, h₁, rfl⟩ := leads_bind.mp h
    obtain ⟨_, w1, _, h1, h₂, rfl⟩ := leads_bind.mp h₁
    obtain ⟨_, w2, _, h2, h₃, rfl⟩ := leads_bind.mp h₂
    obtain ⟨_, w3, _, h3, h₄, rfl⟩ := leads_bind.mp h₃
    obtain ⟨rfl, rfl⟩ := leads_done.mp h₄
    rw [leads_readResponse (fun _ => rfl) h0, leads_readResponse (fun _ => rfl) h1,
      leads_readResponse (fun _ => rfl) h2, leads_readResponse (fun _ => rfl) h3]
    exact ⟨rfl, rfl, by simp [OnlyTransfers, Event.isTransfer], rfl, rfl⟩
  | r1b =>
    by_cases hstop : (index == CommandIndex.stopTransmission) = true
    · simp only [captureResponse, hstop, if_true] at h
      obtain ⟨word, rfl, rfl⟩ := leads_captureFirst (fun _ => rfl) h
      refine ⟨?_, ?_, by simp [OnlyTransfers, Event.isTransfer], rfl, rfl⟩
      · simp only [responseIn, wordIn, asked, hstop, if_true]
        rfl
      · simp only [asked, hstop, if_true]
        rfl
    · simp only [captureResponse, hstop] at h
      obtain ⟨word, rfl, rfl⟩ := leads_captureFirst (fun _ => rfl) h
      refine ⟨?_, ?_, by simp [OnlyTransfers, Event.isTransfer], rfl, rfl⟩
      · simp only [responseIn, wordIn, asked, hstop]
        rfl
      · simp only [asked, hstop]
        rfl
  | _ =>
    obtain ⟨word, rfl, rfl⟩ := leads_captureFirst (fun _ => rfl) h
    exact ⟨rfl, rfl, by simp [OnlyTransfers, Event.isTransfer], rfl, rfl⟩

end Command

/-! ### Words of a buffer -/

/-- The buffer with other words; a buffer of the DMA engine has none. -/
def Buffer.withWords (ws : List UInt32) : Buffer → Buffer
  | .dma address => .dma address
  | .words id _ => .words id ws

/-- The data phase with other words. -/
def DataPhase.withWords (ws : List UInt32) (d : DataPhase) : DataPhase :=
  { d with buffer := d.buffer.withWords ws }

namespace Command

/-- The words that the processor fills or empties. -/
def words (c : Command) : List UInt32 := (c.data.bind (·.buffer.contents?)).getD []

/-- The words of one block; there are none without a data phase. -/
def blockWords (c : Command) : Nat := (c.data.map DataPhase.blockWords).getD 0

/-- The command with other words. -/
def withWords (c : Command) (ws : List UInt32) : Command :=
  { c with data := c.data.map (DataPhase.withWords ws) }

/-- There is a word for every word that the processor will move. -/
def Fits (c : Command) : Prop := c.blocksToMove * c.blockWords ≤ c.words.length

section WithWords

variable (c : Command) (ws ws' : List UInt32)

theorem usesWords_of_data_eq_none (h : c.data = none) : c.usesWords = false := by
  rw [usesWords, h]
  rfl

theorem blocksToMove_eq_zero (h : c.usesWords = false) : c.blocksToMove = 0 := by
  obtain ⟨index, argument, kind, data, response, completion, errors⟩ := c
  rcases data with _ | ⟨size, blocks, _ | _⟩
  · rfl
  · rfl
  · cases h

@[simp] theorem withWords_words : c.withWords c.words = c := by
  obtain ⟨index, argument, kind, data, response, completion, errors⟩ := c
  rcases data with _ | ⟨size, blocks, _ | _⟩ <;> rfl

@[simp] theorem withWords_withWords : (c.withWords ws).withWords ws' = c.withWords ws' := by
  obtain ⟨index, argument, kind, data, response, completion, errors⟩ := c
  rcases data with _ | ⟨size, blocks, _ | _⟩ <;> rfl

@[simp] theorem usesWords_withWords : (c.withWords ws).usesWords = c.usesWords := by
  obtain ⟨index, argument, kind, data, response, completion, errors⟩ := c
  rcases data with _ | ⟨size, blocks, _ | _⟩ <;> rfl

@[simp] theorem blockWords_withWords : (c.withWords ws).blockWords = c.blockWords := by
  obtain ⟨index, argument, kind, data, response, completion, errors⟩ := c
  rcases data with _ | d <;> rfl

@[simp] theorem isSome_data_withWords : (c.withWords ws).data.isSome = c.data.isSome := by
  obtain ⟨index, argument, kind, data, response, completion, errors⟩ := c
  rcases data with _ | d <;> rfl

@[simp] theorem direction_withWords : (c.withWords ws).direction = c.direction := rfl

theorem words_withWords (h : c.usesWords = true) : (c.withWords ws).words = ws := by
  obtain ⟨index, argument, kind, data, response, completion, errors⟩ := c
  rcases data with _ | ⟨size, blocks, _ | _⟩
  · cases h
  · cases h
  · rfl

end WithWords

/-! ### Moving words -/

/-- The words of the command once the words `got` were read from the data buffer, the first of them
into place `first`.  A command that sends its words keeps them. -/
def filled (c : Command) (first : Nat) (got : List UInt32) : List UInt32 :=
  match c.direction with
  | .read => c.words.take first ++ got ++ c.words.drop (first + got.length)
  | .write => c.words

/-- The events move `count` words of the command from place `first` on, and no other words. -/
def Moves (c : Command) (first count : Nat) (evs : List Event) : Prop :=
  match c.direction with
  | .read => (received evs).length = count ∧ sent evs = []
  | .write => received evs = [] ∧ sent evs = (c.words.drop first).take count

theorem length_filled {c : Command} {first : Nat} {got : List UInt32}
    (h : first + got.length ≤ c.words.length) : (c.filled first got).length = c.words.length := by
  unfold filled
  cases c.direction with
  | read =>
    simp only [List.length_append, List.length_take, List.length_drop]
    omega
  | write => rfl

/-- A command that sends its words keeps them. -/
theorem filled_of_write {c : Command} (hdir : c.direction = .write) (first : Nat)
    (got : List UInt32) : c.filled first got = c.words := by
  unfold filled
  rw [hdir]

/-- Nothing is filled in before anything moves. -/
@[simp] theorem filled_nil (c : Command) (first : Nat) : c.filled first [] = c.words := by
  unfold filled
  cases c.direction with
  | read => simp
  | write => rfl

/-- Words that are filled in behind others. -/
theorem filled_append {c : Command} {first : Nat} {got : List UInt32} (more : List UInt32)
    (hc : c.usesWords = true) (hfirst : c.direction = .read → got.length = first) :
    (c.withWords (c.filled 0 got)).filled first more = c.filled 0 (got ++ more) := by
  unfold filled
  rw [words_withWords _ _ hc, direction_withWords]
  cases hdir : c.direction with
  | read =>
    rw [← hfirst hdir]
    simp
  | write => rfl

/-- Only the words that move matter. -/
theorem Moves.congr {c : Command} {first count : Nat} {evs evs' : List Event}
    (hr : received evs = received evs') (hs : sent evs = sent evs')
    (h : c.Moves first count evs) : c.Moves first count evs' := by
  unfold Moves at h ⊢
  rwa [← hr, ← hs]

/-- Events without words move none. -/
theorem moves_zero {c : Command} {first : Nat} {evs : List Event} (hr : received evs = [])
    (hs : sent evs = []) : c.Moves first 0 evs := by
  unfold Moves
  cases c.direction with
  | read => exact ⟨by rw [hr]; rfl, hs⟩
  | write => exact ⟨hr, by rw [hs, List.take_zero]⟩

/-- Words that move behind others. -/
theorem Moves.append {c : Command} {first count more : Nat} {evs later : List Event}
    {ws : List UInt32} (hws : c.direction = .write → ws = c.words) (hc : c.usesWords = true)
    (h : c.Moves first count evs) (hlater : (c.withWords ws).Moves (first + count) more later) :
    c.Moves first (count + more) (evs ++ later) := by
  unfold Moves at h hlater ⊢
  rw [words_withWords _ _ hc, direction_withWords] at hlater
  cases hdir : c.direction with
  | read =>
    simp only [hdir] at h hlater ⊢
    rw [received_append, sent_append, List.length_append, h.1, h.2, hlater.1, hlater.2]
    exact ⟨rfl, rfl⟩
  | write =>
    simp only [hdir] at h hlater ⊢
    rw [received_append, sent_append, h.1, h.2, hlater.1, hlater.2, hws hdir, List.take_add,
      List.drop_drop]
    exact ⟨rfl, rfl⟩

end Command

/-! ### One block -/

section Words

variable (ws : List UInt32)

@[simp] theorem received_map_received : received (ws.map .received) = ws := by
  simp [received, List.filterMap_map, Function.comp_def, Event.received?]

@[simp] theorem sent_map_received : sent (ws.map .received) = [] := by
  simp [sent, Event.sent?]

@[simp] theorem responses_map_received : responses (ws.map .received) = [] := by
  simp [responses, Event.response?]

theorem onlyTransfers_map_received : OnlyTransfers (ws.map .received) := by
  simp [OnlyTransfers, Event.isTransfer]

@[simp] theorem received_map_sent : received (ws.map .sent) = [] := by
  simp [received, Event.received?]

@[simp] theorem sent_map_sent : sent (ws.map .sent) = ws := by
  simp [sent, List.filterMap_map, Function.comp_def, Event.sent?]

@[simp] theorem responses_map_sent : responses (ws.map .sent) = [] := by
  simp [responses, Event.response?]

theorem onlyTransfers_map_sent : OnlyTransfers (ws.map .sent) := by
  simp [OnlyTransfers, Event.isTransfer]

end Words

theorem leads_readWords {count : Nat} {got ws : List UInt32} {evs : List Event}
    (h : Leads (readWords count got) evs ws) :
    ∃ more, more.length = count ∧ evs = more.map .received ∧ ws = got.reverse ++ more := by
  induction count generalizing got evs with
  | zero =>
    obtain ⟨rfl, rfl⟩ := leads_done.mp h
    exact ⟨[], rfl, rfl, by simp⟩
  | succ count ih =>
    obtain ⟨_, w, _, hw, h₁, rfl⟩ := leads_bind.mp h
    obtain ⟨more, rfl, rfl, rfl⟩ := ih h₁
    exact ⟨w :: more, rfl, by rw [leads_read.mp hw]; rfl, by simp⟩

theorem leads_writeWords {ws : List UInt32} {evs : List Event} {u : Unit}
    (h : Leads (writeWords ws) evs u) : evs = ws.map .sent := by
  induction ws generalizing evs with
  | nil => exact (leads_done.mp h).1
  | cons w ws ih =>
    obtain ⟨_, _, _, hw, h₁, rfl⟩ := leads_bind.mp h
    rw [leads_write.mp hw, ih h₁]
    rfl

/-- **One block.**  As long as there is a word for each of the block, it moves whole. -/
theorem leads_moveBlock {e e' : Entry} {evs : List Event} (hc : e.command.usesWords = true)
    (hroom : e.wordOffset + e.command.blockWords ≤ e.command.words.length)
    (h : Leads e.moveBlock evs e') :
    e' = { e with
        command := e.command.withWords (e.command.filled e.wordOffset (received evs))
        wordOffset := e.wordOffset + e.command.blockWords } ∧
      e.command.Moves e.wordOffset e.command.blockWords evs ∧ OnlyTransfers evs ∧
      responses evs = [] := by
  obtain ⟨⟨index, argument, kind, data, response, completion, errors⟩, callback, token, ticket,
    issued, commandDone, dataDone, first⟩ := e
  rcases data with _ | ⟨size, blocks, _ | ⟨id, contents⟩⟩
  · cases hc
  · cases hc
  have hmin : min (first + (size / 4).toNat) contents.length = first + (size / 4).toNat :=
    Nat.min_eq_left hroom
  have hcount : first + (size / 4).toNat - first = (size / 4).toNat := by omega
  cases hdir : Direction.ofIndex index with
  | read =>
    simp only [Entry.moveBlock, Command.direction, DataPhase.blockWords, hmin, hcount, hdir] at h
    obtain ⟨_, got, _, hg, h₁, rfl⟩ := leads_bind.mp h
    obtain ⟨_, _, _, hp, h₂, rfl⟩ := leads_bind.mp h₁
    obtain ⟨rfl, rfl⟩ := leads_done.mp hp
    obtain ⟨_, _, _, hm, h₃, rfl⟩ := leads_bind.mp h₂
    obtain ⟨rfl, rfl⟩ := leads_done.mp h₃
    obtain ⟨more, hlen, rfl, rfl⟩ := leads_readWords hg
    rw [quiet_report _ hm]
    simp only [List.append_nil]
    refine ⟨?_, ?_, onlyTransfers_map_received _, responses_map_received _⟩
    · simp [Command.filled, Command.direction, hdir, Command.withWords, DataPhase.withWords,
        Buffer.withWords, Command.words, Buffer.contents?, Command.blockWords,
        DataPhase.blockWords, hlen]
    · simp [Command.Moves, Command.direction, hdir, Command.blockWords, DataPhase.blockWords, hlen]
  | write =>
    simp only [Entry.moveBlock, Command.direction, DataPhase.blockWords, hmin, hcount, hdir] at h
    obtain ⟨_, _, _, hw, h₁, rfl⟩ := leads_bind.mp h
    obtain ⟨_, _, _, hp, h₂, rfl⟩ := leads_bind.mp h₁
    obtain ⟨rfl, rfl⟩ := leads_done.mp hp
    obtain ⟨_, _, _, hm, h₃, rfl⟩ := leads_bind.mp h₂
    obtain ⟨rfl, rfl⟩ := leads_done.mp h₃
    rw [leads_writeWords hw, quiet_report _ hm]
    simp only [List.append_nil]
    refine ⟨?_, ?_, onlyTransfers_map_sent _, responses_map_sent _⟩
    · simp [Command.filled, Command.direction, hdir, Command.withWords, DataPhase.withWords,
        Buffer.withWords, Command.words, Buffer.contents?, Command.blockWords,
        DataPhase.blockWords]
    · simp only [Command.Moves, Command.direction, hdir]
      exact ⟨received_map_sent _, sent_map_sent _⟩

end SdHost
