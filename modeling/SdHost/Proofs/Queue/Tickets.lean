import Mathlib.Algebra.Group.Nat.Defs
import SdHost.Proofs.Controller.Submission

/-!
# Tickets in a row

A queue gives its tickets out one after the other, around the end of the numbers, and takes its
commands off in the same order.  So the tickets of the queued commands are always the last ones that
were given out, in their order, and no two of them are the same.

* `Ticket.before` — the last tickets before the next one; `Ticket.before_succ`: one more is given
  out; `Ticket.nodup_before`: they differ, unless there are more of them than numbers;
* `Queue.Call`, `Queue.call` — what can happen to a queue;
* `Queue.InRow` — the tickets in a queue are the last ones; `Queue.InRow.call`: what happens to a
  queue leaves them so, `Queue.inRow_foldl`: any number of times.
-/

namespace SdHost

namespace Ticket

/-- The last `count` tickets before the next one, the oldest first. -/
def before (next : Ticket) : Nat → List Ticket
  | 0 => []
  | count + 1 => (next - UInt32.ofNat (count + 1)) :: before next count

variable {next t : Ticket} {count : Nat}

/-- One more ticket is given out. -/
theorem before_succ (next : Ticket) (count : Nat) :
    before (next + 1) (count + 1) = before next count ++ [next] := by
  induction count with
  | zero => exact congrArg (· :: []) (UInt32.add_sub_cancel next 1)
  | succ count ih =>
    have hshift : ∀ x : Ticket, next + 1 - (x + 1) = next - x := fun x => by grind
    have hfirst : next + 1 - UInt32.ofNat (count + 1 + 1) = next - UInt32.ofNat (count + 1) := by
      rw [UInt32.ofNat_add (count + 1) 1]
      exact hshift _
    show (next + 1 - UInt32.ofNat (count + 1 + 1)) :: before (next + 1) (count + 1) = _
    rw [hfirst, ih]
    rfl

/-- Around the end of the numbers. -/
example : before 1 3 = [0xfffffffe, 0xffffffff, 0] := by decide

theorem mem_before (h : t ∈ before next count) :
    ∃ k, k < count ∧ t = next - UInt32.ofNat (k + 1) := by
  induction count with
  | zero => cases h
  | succ count ih =>
    rcases List.mem_cons.mp h with rfl | h
    · exact ⟨count, Nat.lt_succ_self count, rfl⟩
    · obtain ⟨k, hk, ht⟩ := ih h
      exact ⟨k, Nat.lt_succ_of_lt hk, ht⟩

/-- Tickets in a row differ, unless there are more of them than numbers. -/
theorem nodup_before (h : count ≤ 2 ^ 32) : (before next count).Nodup := by
  induction count with
  | zero => exact List.nodup_nil
  | succ count ih =>
    refine List.nodup_cons.mpr ⟨fun habs => ?_, ih (Nat.le_of_succ_le h)⟩
    obtain ⟨k, hk, hsame⟩ := mem_before habs
    have hoffset := (UInt32.sub_right_inj next).mp hsame
    have hnumber := congrArg UInt32.toNat hoffset
    rw [UInt32.toNat_ofNat', UInt32.toNat_ofNat'] at hnumber
    omega

/-- Of numbers that are counted from zero, the last ones. -/
theorem before_ofNat (first count : Nat) :
    before (UInt32.ofNat (first + count)) count =
      (List.range' first count).map UInt32.ofNat := by
  induction count generalizing first with
  | zero => rfl
  | succ count ih =>
    have hfirst : UInt32.ofNat (first + (count + 1)) - UInt32.ofNat (count + 1) =
        UInt32.ofNat first := by
      rw [UInt32.ofNat_add first, UInt32.add_sub_cancel]
    have hrest := ih (first + 1)
    rw [Nat.add_right_comm, Nat.add_assoc] at hrest
    show (_ - _) :: before _ count = _
    rw [hfirst, hrest, List.range'_succ, List.map_cons]

end Ticket

namespace Queue

variable {n : Nat} {q q' : Queue n} {command : Command} {callback : Option Callback} {token : Nat}

/-- The tickets in a queue, that of the head first. -/
def tickets (q : Queue n) : List Ticket := q.entries.map Entry.ticket

/-- What can happen to a queue. -/
inductive Call where
  /-- A command is appended, if there is room. -/
  | push (command : Command) (callback : Option Callback) (token : Nat)
  /-- The head is taken off, if there is one. -/
  | pop
  /-- The head is changed under its ticket. -/
  | modifyHead (f : Entry → Entry) (hf : ∀ e, (f e).ticket = e.ticket)

/-- The queue afterwards.  A command for which there is no room leaves it as it is. -/
def call (q : Queue n) : Call → Queue n
  | .push command callback token => (q.push command callback token).getD q
  | .pop => (q.pop.map Prod.snd).getD q
  | .modifyHead f _ => q.modifyHead f

/-- The tickets in the queue are the last ones that were given out. -/
def InRow (q : Queue n) : Prop := q.tickets = q.nextTicket.before q.size

theorem call_push_of_full (hfull : q.isFull = true) (command : Command)
    (callback : Option Callback) (token : Nat) :
    q.push command callback token = none ∧ q.call (.push command callback token) = q := by
  have hnone := (q.push_eq_none_iff command callback token).mpr hfull
  refine ⟨hnone, ?_⟩
  show (q.push command callback token).getD q = q
  rw [hnone]
  rfl

/-- Changes under a ticket leave the tickets. -/
theorem map_modifyHead_ticket {f : Entry → Entry} (hf : ∀ e, (f e).ticket = e.ticket)
    (es : List Entry) : (es.modifyHead f).map Entry.ticket = es.map Entry.ticket := by
  cases es with
  | nil => rfl
  | cons e es =>
    show (f e).ticket :: es.map Entry.ticket = _
    rw [hf e]
    rfl

namespace InRow

theorem push (h : q.InRow) (hpush : q.push command callback token = some q') : q'.InRow := by
  obtain ⟨hentries, hnext⟩ := push_eq_some hpush
  have hsize : q'.size = q.size + 1 := by
    rw [size, hentries, List.length_append]
    rfl
  show q'.entries.map Entry.ticket = q'.nextTicket.before q'.size
  rw [hsize, hnext, Ticket.before_succ, hentries, List.map_append, ← h]
  rfl

theorem tail (h : q.InRow) : q.tail.InRow := by
  have htail : q.tail.tickets = q.tickets.tail := List.map_tail
  have hsize : q.tail.size = q.size - 1 := List.length_tail
  show q.tail.tickets = q.nextTicket.before q.tail.size
  rw [htail, hsize, h]
  cases q.size with
  | zero => rfl
  | succ size => rfl

theorem modifyHead {f : Entry → Entry} (h : q.InRow) (hf : ∀ e, (f e).ticket = e.ticket) :
    (q.modifyHead f).InRow := by
  have htickets : (q.modifyHead f).tickets = q.tickets := map_modifyHead_ticket hf q.entries
  have hsize : (q.modifyHead f).size = q.size := List.length_modifyHead
  show (q.modifyHead f).tickets = q.nextTicket.before (q.modifyHead f).size
  rw [htickets, hsize]
  exact h

/-- **Whatever happens to a queue** leaves its tickets in a row. -/
theorem call (h : q.InRow) (next : Call) : (q.call next).InRow := by
  cases next with
  | push command callback token =>
    show ((q.push command callback token).getD q).InRow
    cases hpush : q.push command callback token with
    | none => exact h
    | some q' => exact h.push hpush
  | pop =>
    show ((q.pop.map Prod.snd).getD q).InRow
    unfold pop
    cases q.head? with
    | none => exact h
    | some e => exact h.tail
  | modifyHead f hf => exact h.modifyHead hf

/-- A queue has fewer entries than there are numbers, so no two of its tickets are the same. -/
theorem nodup (h : q.InRow) (hn : n ≤ 2 ^ 32) : q.tickets.Nodup := by
  rw [h]
  exact Ticket.nodup_before (Nat.le_trans q.size_le hn)

end InRow

/-- **After any calls** on an empty queue its tickets are in a row. -/
theorem inRow_foldl (calls : List Call) : (calls.foldl call (empty : Queue n)).InRow := by
  have hkept : ∀ q : Queue n, q.InRow → (calls.foldl call q).InRow := by
    induction calls with
    | nil => exact fun q h => h
    | cons next calls ih => exact fun q h => ih (q.call next) (h.call next)
  exact hkept empty rfl

end Queue

end SdHost
