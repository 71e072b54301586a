import Mathlib.Data.List.Basic
import Mathlib.Data.List.Induction
import SdHost.Proofs.Command.Words

/-!
# A command in flight

While a command is on the wire, each *pass* over the controller services one status word.  How far
the command has come is told by the passes alone, without regard to the steps that led there.

* `outcome` — which pass ends a command, and how: by the statuses that were serviced;
* `Command.responseAfter` — the response after some passes; `Command.Hears`, `Command.Responds` —
  which registers were read for it, and where their words are;
* `blocksMoved`, `Command.inFlight`, `Entry.inFlight` — the words, flags and counters after some
  passes.
-/

namespace SdHost

open InterruptStatus

/-- The events of one pass over the controller. -/
abbrev Pass := List Event

/-- The status that a pass services. -/
def serviced (p : Pass) : InterruptStatus := ⟨(p.findSome? Event.status?).getD 0⟩

/-! ### The outcome -/

/-- How the last status ends a command, with or without data, that the statuses before it have not
ended.  An error ends it badly.  Without an error, a command without data ends with its response;
one with data ends once both its response and the end of its data have been reported. -/
def endsAt (hasData : Bool) (ss : List InterruptStatus) : Option Completion :=
  ss.getLast?.bind fun s =>
    match s.classify with
    | some cause => some (.failed cause)
    | none =>
      let done :=
        if hasData then ss.any (·.contains commandComplete) && ss.any (·.contains transferComplete)
        else s.contains commandComplete
      if done then some .succeeded else none

/-- How many statuses it takes to end a command, and how it ends. -/
def outcome (hasData : Bool) (ss : List InterruptStatus) : Option (Nat × Completion) :=
  (List.range (ss.length + 1)).findSome? fun n => (endsAt hasData (ss.take n)).map (n, ·)

section Outcome

variable {hasData : Bool} {ss : List InterruptStatus} {s : InterruptStatus}

@[simp] theorem outcome_nil : outcome hasData [] = none := rfl

/-- The first status that ends the command decides. -/
theorem outcome_concat : outcome hasData (ss ++ [s]) =
    (outcome hasData ss).or ((endsAt hasData (ss ++ [s])).map (ss.length + 1, ·)) := by
  unfold outcome
  simp only [← List.head?_filterMap]
  rw [List.length_append, List.length_singleton, List.range_succ, List.filterMap_append,
    List.head?_append]
  congr 2
  · -- the first statuses are the same with and without the last one
    apply List.filterMap_congr
    intro n hn
    rw [List.take_append_of_le_length (Nat.le_of_lt_succ (List.mem_range.mp hn))]
  · simp [List.take_of_length_le]

theorem outcome_concat_of_none (h : outcome hasData ss = none) :
    outcome hasData (ss ++ [s]) = (endsAt hasData (ss ++ [s])).map (ss.length + 1, ·) := by
  rw [outcome_concat, h, Option.none_or]

/-- What has ended stays ended. -/
theorem outcome_append_of_some {n : Nat} {v : Completion} (h : outcome hasData ss = some (n, v))
    (more : List InterruptStatus) : outcome hasData (ss ++ more) = some (n, v) := by
  induction more using List.reverseRecOn with
  | nil => rwa [List.append_nil]
  | append_singleton more s ih => rw [← List.append_assoc, outcome_concat, ih, Option.some_or]

theorem endsAt_concat_of_error {cause : CommandError} (h : s.classify = some cause) :
    endsAt hasData (ss ++ [s]) = some (.failed cause) := by
  unfold endsAt
  rw [List.getLast?_concat, Option.bind_some, h]

theorem endsAt_concat_of_clean (h : s.classify = none) : endsAt hasData (ss ++ [s]) =
    if (if hasData then
        (ss ++ [s]).any (·.contains commandComplete) &&
          (ss ++ [s]).any (·.contains transferComplete)
      else s.contains commandComplete) then some .succeeded else none := by
  unfold endsAt
  rw [List.getLast?_concat, Option.bind_some, h]

theorem endsAt_concat_eq_none : endsAt hasData (ss ++ [s]) = none ↔
    s.classify = none ∧
      if hasData then
        ¬((ss ++ [s]).any (·.contains commandComplete) = true ∧
          (ss ++ [s]).any (·.contains transferComplete) = true)
      else s.contains commandComplete = false := by
  cases hclass : s.classify with
  | some cause =>
    rw [endsAt_concat_of_error hclass]
    simp
  | none =>
    rw [endsAt_concat_of_clean hclass]
    cases hasData <;> simp

/-- A command ends well, or with the failure that one of the statuses reports. -/
theorem outcome_cases {n : Nat} {v : Completion} (h : outcome hasData ss = some (n, v)) :
    v = .succeeded ∨ ∃ s cause, s ∈ ss ∧ s.classify = some cause ∧ v = .failed cause := by
  obtain ⟨k, -, hk⟩ := List.exists_of_findSome?_eq_some h
  obtain ⟨v', hv', heq⟩ := Option.map_eq_some_iff.mp hk
  obtain rfl : v' = v := (Prod.mk.inj heq).2
  obtain ⟨s, hlast, hs⟩ := Option.bind_eq_some_iff.mp hv'
  cases hclass : s.classify with
  | some cause =>
    rw [hclass] at hs
    have hmem : s ∈ ss := List.mem_of_mem_take (List.mem_of_getLast? hlast)
    exact .inr ⟨s, cause, hmem, hclass, (Option.some.inj hs).symm⟩
  | none =>
    simp only [hclass] at hs
    exact .inl (Option.some.inj (Option.ite_none_right_eq_some.mp hs).2).symm

/-- A command that has ended is not pending. -/
theorem outcome_ne_pending {n : Nat} {v : Completion} (h : outcome hasData ss = some (n, v)) :
    v ≠ .pending := by
  rcases outcome_cases h with rfl | ⟨s, cause, -, -, rfl⟩
  · intro habs
    cases habs
  · intro habs
    cases habs

/-- **A command is still in flight** as long as there was no error and not all of its ends were
reported. -/
theorem outcome_eq_none : outcome hasData ss = none ↔
    (∀ s ∈ ss, s.classify = none) ∧
      if hasData then
        ¬(ss.any (·.contains commandComplete) = true ∧ ss.any (·.contains transferComplete) = true)
      else ss.any (·.contains commandComplete) = false := by
  induction ss using List.reverseRecOn with
  | nil => cases hasData <;> simp
  | append_singleton ss s ih =>
    rw [outcome_concat, Option.or_eq_none_iff, Option.map_eq_none_iff, ih, endsAt_concat_eq_none]
    cases hasData <;> simp <;> grind

/-- The status without a bit neither ends a command nor brings it closer to its end. -/
theorem outcome_filter_eq_none :
    outcome hasData (ss.filter fun s => !s.isEmpty) = none ↔ outcome hasData ss = none := by
  have hempty : ∀ s : InterruptStatus, s.isEmpty = true → s = .empty := by
    rintro ⟨bits⟩ h
    exact congrArg InterruptStatus.mk (eq_of_beq h)
  have hclass : InterruptStatus.empty.classify = none := by decide
  have hany : ∀ t : InterruptStatus, InterruptStatus.empty.contains t = false →
      (ss.filter fun s => !s.isEmpty).any (·.contains t) = ss.any (·.contains t) := by
    intro t ht
    rw [List.any_filter]
    congr 1
    funext s
    cases hs : s.isEmpty with
    | false => rfl
    | true => rw [hempty s hs, ht]; rfl
  have hall : (∀ s ∈ ss.filter fun s => !s.isEmpty, s.classify = none) ↔
      ∀ s ∈ ss, s.classify = none := by
    constructor
    · intro h s hs
      cases hzero : s.isEmpty with
      | false => exact h s (List.mem_filter.mpr ⟨hs, by rw [hzero]; rfl⟩)
      | true => rw [hempty s hzero, hclass]
    · exact fun h s hs => h s (List.mem_filter.mp hs).1
  rw [outcome_eq_none, outcome_eq_none, hall, hany _ (by decide), hany _ (by decide)]

end Outcome

/-! ### The command after some passes -/

/-- How many passes found a block waiting, without an error. -/
def ready (ps : List Pass) : Nat :=
  ps.countP fun p => (serviced p).classify.isNone && (serviced p).intersects bufferReady

/-- The last pass that reported a response. -/
def lastReport (ps : List Pass) : Option Pass :=
  (ps.filter fun p => (serviced p).contains commandComplete).getLast?

theorem lastReport_eq_some {ps : List Pass} {p : Pass} (h : lastReport ps = some p) :
    p ∈ ps ∧ (serviced p).contains commandComplete = true :=
  List.mem_filter.mp (List.mem_of_getLast? h)

namespace Command

variable (c : Command) (ps : List Pass) (p : Pass)

/-- Which pass ends the command, and how. -/
def outcome : Option (Nat × Completion) := SdHost.outcome c.data.isSome (ps.map serviced)

/-- The response: what was read on the last report of one, in the words that the kind of response
asks for. -/
def responseAfter : Response :=
  match lastReport ps with
  | some p => c.responseIn p c.response
  | none => c.response

/-- The response registers that are read when a status is serviced: those that are asked for, if it
reports a response. -/
def askedOn (s : InterruptStatus) : List Register :=
  if s.contains commandComplete then c.asked else []

/-- The pass reads these registers in their order, and no other response register. -/
def Hears : Prop := (responses p).map Prod.fst = c.askedOn (serviced p)

/-- The response `new` of the command after some passes: on the last of them that reported a
response the registers asked for were read and their words were stored, and every other word is as
it was submitted. -/
def Responds (new : Response) : Prop :=
  match lastReport ps with
  | some p => c.Stores p c.response new
  | none => new = c.response

/-- The blocks that the processor has moved: one for each that was waiting, up to all. -/
def blocksMoved : Nat := min c.blocksToMove (ready ps)

/-- The words that the processor has moved. -/
def wordsMoved : Nat := c.blocksMoved ps * c.blockWords

/-- The command with what has arrived. -/
def inFlight : Command :=
  { c.withWords (c.filled 0 (received ps.flatten)) with response := c.responseAfter ps }

/-- The passes up to the one that ends the command. -/
def flown : List Pass := ps.take (((c.outcome ps).map Prod.fst).getD ps.length)

theorem outcome_append_of_some {c : Command} {ps : List Pass} {n : Nat} {v : Completion}
    (h : c.outcome ps = some (n, v)) (more : List Pass) : c.outcome (ps ++ more) = some (n, v) := by
  unfold outcome
  rw [List.map_append]
  exact SdHost.outcome_append_of_some h _

/-- What has ended stays ended. -/
theorem outcome_append_ne_none {c : Command} {ps : List Pass} (h : c.outcome ps ≠ none)
    (more : List Pass) : c.outcome (ps ++ more) ≠ none := by
  obtain ⟨⟨n, v⟩, hended⟩ := Option.ne_none_iff_exists'.mp h
  rw [outcome_append_of_some hended]
  exact Option.some_ne_none _

/-- All passes over a command on the wire are passes of its flight. -/
theorem flown_of_none {c : Command} {ps : List Pass} (h : c.outcome ps = none) :
    c.flown ps = ps := by
  rw [flown, h]
  exact List.take_length

/-- Passes after the end are not. -/
theorem flown_append {c : Command} {ps : List Pass} {v : Completion}
    (h : c.outcome ps = some (ps.length, v)) (more : List Pass) : c.flown (ps ++ more) = ps := by
  rw [flown, outcome_append_of_some h]
  exact List.take_left

@[simp] theorem wordsMoved_nil : c.wordsMoved [] = 0 := by
  rw [wordsMoved, blocksMoved, ready, List.countP_nil, Nat.min_zero, Nat.zero_mul]

@[simp] theorem inFlight_nil : c.inFlight [] = c := by
  unfold inFlight
  rw [List.flatten_nil, show received [] = [] from rfl, filled_nil, withWords_words]
  rfl

/-- What a pass reads of the response is read while the head is served. -/
theorem hears_of_responses {c : Command} {p : Pass} {evs : List Event}
    (hresp : responses p = responses evs)
    (hasked : (responses evs).map Prod.fst = c.askedOn (serviced p)) : c.Hears p :=
  (congrArg (List.map Prod.fst) hresp).trans hasked

/-- A pass that reports a response reads the registers that are asked for. -/
theorem Hears.asked {c : Command} {p : Pass} (h : c.Hears p)
    (hcc : (serviced p).contains commandComplete = true) :
    (responses p).map Prod.fst = c.asked :=
  h.trans (if_pos hcc)

theorem lastReport_concat (ps : List Pass) (p : Pass) : lastReport (ps ++ [p]) =
    if (serviced p).contains commandComplete then some p else lastReport ps := by
  unfold lastReport
  rw [List.filter_append, List.filter_singleton]
  cases (serviced p).contains commandComplete with
  | true => exact List.getLast?_concat
  | false => exact congrArg List.getLast? (List.append_nil _)

/-- A pass that reports a response replaces it. -/
theorem responseAfter_concat {c : Command} {p : Pass} (h : c.Hears p) (ps : List Pass) :
    c.responseAfter (ps ++ [p]) =
      if (serviced p).contains commandComplete then c.responseIn p (c.responseAfter ps)
      else c.responseAfter ps := by
  unfold responseAfter
  rw [lastReport_concat]
  by_cases hcc : (serviced p).contains commandComplete = true
  · rw [if_pos hcc, if_pos hcc]
    cases lastReport ps with
    | some q => exact (responseIn_responseIn (h.asked hcc) q c.response).symm
    | none => rfl
  · rw [if_neg hcc, if_neg hcc]

/-- **The response after some passes** is made of the words that were read on the last report. -/
theorem responds_responseAfter {c : Command} {ps : List Pass} (h : ∀ p ∈ ps, c.Hears p) :
    c.Responds ps (c.responseAfter ps) := by
  unfold Responds responseAfter
  cases hlast : lastReport ps with
  | some p =>
    obtain ⟨hp, hcc⟩ := lastReport_eq_some hlast
    exact stores_responseIn ((h p hp).asked hcc) c.response
  | none => rfl

theorem ready_concat : ready (ps ++ [p]) = ready ps +
    if (serviced p).classify.isNone && (serviced p).intersects bufferReady then 1 else 0 := by
  rw [ready, List.countP_append, List.countP_singleton]
  rfl

/-- A pass that finds a block waiting moves it, unless all have moved. -/
theorem blocksMoved_concat : c.blocksMoved (ps ++ [p]) = c.blocksMoved ps +
    if (serviced p).classify.isNone && (serviced p).intersects bufferReady &&
      decide (c.blocksMoved ps < c.blocksToMove) then 1 else 0 := by
  unfold blocksMoved
  rw [ready_concat]
  split_ifs with h₁ h₂ h₂ <;> grind

theorem blocksMoved_concat_of_error {cause : CommandError}
    (h : (serviced p).classify = some cause) :
    c.blocksMoved (ps ++ [p]) = c.blocksMoved ps := by
  rw [blocksMoved_concat, h]
  rfl

theorem blocksMoved_eq_zero {c : Command} (h : c.usesWords = false) (ps : List Pass) :
    c.blocksMoved ps = 0 := by
  rw [blocksMoved, blocksToMove_eq_zero c h, Nat.zero_min]

theorem wordsMoved_congr {c : Command} {ps qs : List Pass}
    (h : c.blocksMoved qs = c.blocksMoved ps) : c.wordsMoved qs = c.wordsMoved ps := by
  rw [wordsMoved, h]
  rfl

theorem blocksMoved_le : c.blocksMoved ps ≤ c.blocksToMove := Nat.min_le_left ..

/-- No word is moved that the command does not have. -/
theorem Fits.wordsMoved_le {c : Command} (h : c.Fits) (ps : List Pass) :
    c.wordsMoved ps ≤ c.words.length :=
  Nat.le_trans (Nat.mul_le_mul_right _ (c.blocksMoved_le ps)) h

/-- There is room for one more block until all have moved. -/
theorem Fits.room {c : Command} (h : c.Fits) {ps : List Pass}
    (hlt : c.blocksMoved ps < c.blocksToMove) :
    c.wordsMoved ps + c.blockWords ≤ c.words.length := by
  calc c.wordsMoved ps + c.blockWords = (c.blocksMoved ps + 1) * c.blockWords := by
        rw [wordsMoved, Nat.add_mul, Nat.one_mul]
    _ ≤ c.blocksToMove * c.blockWords := Nat.mul_le_mul_right _ hlt
    _ ≤ c.words.length := h

end Command

namespace Entry

variable (s : Entry) (ps : List Pass)

/-- A submitted entry after some passes on the wire. -/
def inFlight : Entry :=
  { s with
    command := s.command.inFlight ps
    issued := true
    commandDone := ps.any fun p => (serviced p).contains commandComplete
    dataDone := s.command.data.isSome &&
      ps.any fun p => (serviced p).contains transferComplete
    wordOffset := s.command.wordsMoved ps }

/-- The blocks that are still to move. -/
def blocksLeft : Nat := s.command.blocksToMove - s.command.blocksMoved ps

theorem blocksLeft_congr {s : Entry} {ps qs : List Pass}
    (h : s.command.blocksMoved qs = s.command.blocksMoved ps) :
    s.blocksLeft qs = s.blocksLeft ps := by
  rw [blocksLeft, h]
  rfl

/-- The passes moved the words of the command from the first on, as many as there were blocks
waiting, and no other word. -/
def Moved : Prop := s.command.Moves 0 (s.command.wordsMoved ps) ps.flatten

/-- A pass that moves no word leaves what was moved. -/
theorem Moved.concat_idle {s : Entry} {ps : List Pass} {p : Pass} (h : s.Moved ps)
    (hsame : s.command.blocksMoved (ps ++ [p]) = s.command.blocksMoved ps)
    (hrecv : received p = []) (hsent : sent p = []) : s.Moved (ps ++ [p]) := by
  unfold Moved
  rw [Command.wordsMoved_congr hsame]
  refine Command.Moves.congr ?_ ?_ h
  · rw [List.flatten_append, List.flatten_singleton, received_append, hrecv, List.append_nil]
  · rw [List.flatten_append, List.flatten_singleton, sent_append, hsent, List.append_nil]

/-- As many words were read as have moved. -/
theorem Moved.length_received {s : Entry} {ps : List Pass} (h : s.Moved ps)
    (hdir : s.command.direction = .read) :
    (received ps.flatten).length = s.command.wordsMoved ps := by
  unfold Moved Command.Moves at h
  rw [hdir] at h
  exact h.1

/-- There are as many words as before. -/
theorem Moved.length_filled {s : Entry} {ps : List Pass} (hfits : s.command.Fits)
    (h : s.Moved ps) :
    (s.command.filled 0 (received ps.flatten)).length = s.command.words.length := by
  cases hdir : s.command.direction with
  | read =>
    refine Command.length_filled ?_
    rw [h.length_received hdir, Nat.zero_add]
    exact hfits.wordsMoved_le ps
  | write => rw [Command.filled_of_write hdir]

/-- There is room for the next block. -/
theorem Moved.room {s : Entry} {ps : List Pass} (hfits : s.command.Fits) (h : s.Moved ps)
    (hwords : s.command.usesWords = true) (hleft : 0 < s.blocksLeft ps) :
    s.command.wordsMoved ps + s.command.blockWords ≤
      (s.command.withWords (s.command.filled 0 (received ps.flatten))).words.length := by
  rw [Command.words_withWords _ _ hwords, h.length_filled hfits]
  refine hfits.room ?_
  unfold blocksLeft at hleft
  omega

end Entry

end SdHost
