import SdHost.Command.Basic

/-!
# The command queue

Commands wait in the order of their submission.  The head is the only one that may be on the
wire; every submission has a *ticket*, by which its submitter finds it again.

* `Entry` — a queued command with what is known about its progress;
* `Queue` — at most `capacity` entries and the next ticket;
* `push`, `head?`, `modifyHead`, `pop` — the operations, each with its effect on the entries.

A full queue refuses a command without giving out a ticket.
-/

namespace SdHost

/-- Names a submission. -/
abbrev Ticket := UInt32

/-- A completion handler, which its owner knows by a number. -/
structure Callback where
  id : Nat
  deriving DecidableEq, Repr

/-- A queued command and its progress. -/
structure Entry where
  command : Command
  /-- Who is told of the end; a blocking submission has no handler. -/
  callback : Option Callback
  /-- The submitter's own number, handed back with the command. -/
  token : Nat
  ticket : Ticket
  /-- The command is on the wire. -/
  issued : Bool := false
  /-- The response has arrived. -/
  commandDone : Bool := false
  /-- The data phase has ended. -/
  dataDone : Bool := false
  /-- The next word that the processor moves. -/
  wordOffset : Nat := 0
  deriving DecidableEq, Repr

/-- Entries in the order of submission, the head first, and the ticket of the next one. -/
structure Queue (capacity : Nat) where
  entries : List Entry := []
  nextTicket : Ticket := 0
  size_le : entries.length ≤ capacity := by exact Nat.zero_le _
  deriving DecidableEq

namespace Queue

variable {n : Nat}

/-- The queue without entries. -/
def empty : Queue n := {}

/-- The number of entries. -/
def size (q : Queue n) : Nat := q.entries.length

/-- Whether there is no entry. -/
def isEmpty (q : Queue n) : Bool := q.entries.isEmpty

/-- Whether there is no room. -/
def isFull (q : Queue n) : Bool := q.entries.length == n

/-- The oldest entry. -/
def head? (q : Queue n) : Option Entry := q.entries.head?

/-- Whether the submission of `ticket` is queued. -/
def contains (q : Queue n) (ticket : Ticket) : Bool := q.entries.any (·.ticket == ticket)

/-- Appends a command under the next ticket, if there is room. -/
def push (q : Queue n) (command : Command) (callback : Option Callback) (token : Nat) :
    Option (Queue n) :=
  if h : q.entries.length < n then
    some
      { entries := q.entries ++
          [{ command := command, callback := callback, token := token, ticket := q.nextTicket }]
        nextTicket := q.nextTicket + 1
        size_le := by simp only [List.length_append, List.length_singleton]; omega }
  else none

/-- Changes the head. -/
def modifyHead (q : Queue n) (f : Entry → Entry) : Queue n :=
  { q with
    entries := q.entries.modifyHead f
    size_le := by simpa using q.size_le }

/-- The queue without its head. -/
def tail (q : Queue n) : Queue n :=
  { q with
    entries := q.entries.tail
    size_le := by have := q.size_le; simp only [List.length_tail]; omega }

/-- Takes the head off. -/
def pop (q : Queue n) : Option (Entry × Queue n) := q.head?.map (·, q.tail)

@[simp] theorem entries_empty : (empty : Queue n).entries = [] := rfl

@[simp] theorem entries_tail (q : Queue n) : q.tail.entries = q.entries.tail := rfl

@[simp] theorem nextTicket_tail (q : Queue n) : q.tail.nextTicket = q.nextTicket := rfl

@[simp] theorem entries_modifyHead (q : Queue n) (f : Entry → Entry) :
    (q.modifyHead f).entries = q.entries.modifyHead f := rfl

theorem head?_of_nil {q : Queue n} (h : q.entries = []) : q.head? = none := by
  rw [head?, h]
  rfl

theorem head?_of_cons {q : Queue n} {e : Entry} {es : List Entry} (h : q.entries = e :: es) :
    q.head? = some e := by
  rw [head?, h]
  rfl

theorem isEmpty_of_cons {q : Queue n} {e : Entry} {es : List Entry} (h : q.entries = e :: es) :
    q.isEmpty = false := by
  rw [isEmpty, h]
  rfl

/-- A full queue takes nothing. -/
theorem push_eq_none_iff (q : Queue n) (c : Command) (cb : Option Callback) (token : Nat) :
    q.push c cb token = none ↔ q.isFull = true := by
  have := q.size_le
  by_cases h : q.entries.length < n
  · simp [push, isFull, h]; omega
  · simp [push, isFull, h]; omega

end Queue

end SdHost
