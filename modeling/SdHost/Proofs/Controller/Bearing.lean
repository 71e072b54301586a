import SdHost.Proofs.Dialogue.Coupling
import SdHost.Proofs.Turn.Coherence

/-!
# The status bits that bear on a command

Of a status word the engine acts on the bits that bear on the command on the wire: those that report
a failure, the end of the command, for a command with data the end of the data, and the buffer
events if the processor moves it.  Any other bit leads to a report at most.

* `Command.bearing` — the bits that bear on a command;
* `contains_congr`, `intersects_congr`, `classify_congr` — words that agree on some bits;
* `Deaf` — surroundings to which reports do not matter;
* `Deaf.advance`, `Deaf.serve` — words that agree on the bits that bear on the head come to the
  same.
-/

namespace SdHost

open Dialogue Dialogue.Coupling InterruptStatus

/-! ### Words that agree on some bits -/

/-- The status bits that bear on a command. -/
def Command.bearing (c : Command) : InterruptStatus :=
  InterruptStatus.errors ||| cardRemoval ||| commandComplete |||
    (if c.data.isSome then transferComplete else .empty) |||
    (if c.usesWords then bufferReady else .empty)

namespace InterruptStatus

variable {s s' m t : InterruptStatus}

theorem intersects_and (h : m.contains t = true) : (s &&& m).intersects t = s.intersects t := by
  have hbits : m.bits &&& t.bits = t.bits := eq_of_beq h
  unfold intersects
  rw [bits_and, UInt32.and_assoc, hbits]

theorem contains_congr (h : s &&& m = s' &&& m) (ht : m.contains t = true) :
    s.contains t = s'.contains t := by
  rw [← contains_and ht, h, contains_and ht]

theorem intersects_congr (h : s &&& m = s' &&& m) (ht : m.contains t = true) :
    s.intersects t = s'.intersects t := by
  rw [← intersects_and ht, h, intersects_and ht]

theorem and_congr (h : s &&& m = s' &&& m) (ht : m.contains t = true) : s &&& t = s' &&& t := by
  have hbits : m.bits &&& t.bits = t.bits := eq_of_beq ht
  have hand : ∀ u : InterruptStatus, u &&& m &&& t = u &&& t := by
    intro u
    show (⟨u.bits &&& m.bits &&& t.bits⟩ : InterruptStatus) = ⟨u.bits &&& t.bits⟩
    rw [UInt32.and_assoc, hbits]
  rw [← hand s, h, hand s']

/-- Bits that are added to both words do not matter. -/
theorem or_congr (h : s &&& m = s' &&& m) (t : InterruptStatus) :
    (s ||| t) &&& m = (s' ||| t) &&& m := by
  have hbits : s.bits &&& m.bits = s'.bits &&& m.bits := congrArg InterruptStatus.bits h
  have hor : ∀ u : InterruptStatus,
      (u ||| t) &&& m = (⟨u.bits &&& m.bits ||| t.bits &&& m.bits⟩ : InterruptStatus) :=
    fun u => congrArg InterruptStatus.mk (UInt32.toBitVec_inj.mp BitVec.and_or_distrib_right)
  rw [hor, hor, hbits]

theorem classify_congr (h : s &&& m = s' &&& m) (ht : m.contains (errors ||| cardRemoval) = true) :
    s.classify = s'.classify := by
  rw [← classify_restricted, and_congr h ht, classify_restricted]

end InterruptStatus

namespace Command

theorem bearing_failures (c : Command) :
    c.bearing.contains (InterruptStatus.errors ||| cardRemoval) = true := by
  unfold bearing
  cases c.data.isSome <;> cases c.usesWords <;> decide

theorem bearing_complete (c : Command) : c.bearing.contains commandComplete = true := by
  unfold bearing
  cases c.data.isSome <;> cases c.usesWords <;> decide

theorem bearing_transfer {c : Command} (h : c.data.isSome = true) :
    c.bearing.contains transferComplete = true := by
  unfold bearing
  rw [h]
  cases c.usesWords <;> decide

theorem bearing_buffer {c : Command} (h : c.usesWords = true) :
    c.bearing.contains bufferReady = true := by
  unfold bearing
  rw [h]
  cases c.data.isSome <;> decide

end Command

/-! ### The head behind its response -/

namespace Entry

/-- What a status word does to the data of the head. -/
def serveData (e : Entry) (status : InterruptStatus) (blocks : Nat) : Action Progress := do
  let (e, blocks) ←
    if status.intersects bufferReady then e.serveBuffer blocks else pure (e, blocks)
  let e ← if status.contains transferComplete then e.endTransfer else pure e
  e.conclude blocks

/-- The data comes behind the response, unless that is all there is to it. -/
theorem proceed_eq (e : Entry) (status : InterruptStatus) (blocks : Nat) :
    e.proceed status blocks =
      (if status.contains commandComplete then e.receiveResponse else pure e) >>= fun e =>
        if status.contains commandComplete && e.command.data.isNone then
          pure ⟨{ e with command := e.command.succeed }, blocks, true⟩
        else e.serveData status blocks := by
  unfold proceed
  cases status.contains commandComplete <;> rfl

variable {e e' : Entry} {es : List Exchange}

/-- A command whose data the processor moves keeps it. -/
theorem isSome_data_of_moveBlock (h : Path e.moveBlock es e') :
    e'.command.data.isSome = e.command.data.isSome := by
  unfold moveBlock at h
  cases hdata : e.command.data with
  | none =>
    simp only [hdata] at h
    rw [(path_done.mp h).2, hdata]
  | some d =>
    obtain ⟨size, count, buffer⟩ := d
    cases buffer with
    | dma address =>
      simp only [hdata] at h
      rw [(path_done.mp h).2, hdata]
    | words id contents =>
      simp only [hdata] at h
      split at h
      · obtain ⟨_, got, _, _, h₁, -⟩ := path_bind.mp h
        obtain ⟨_, ws, _, _, h₂, -⟩ := path_bind.mp h₁
        obtain ⟨_, _, rfl⟩ := path_bind_pure.mp h₂
        rfl
      · obtain ⟨_, _, _, _, h₁, -⟩ := path_bind.mp h
        obtain ⟨_, ws, _, _, h₂, -⟩ := path_bind.mp h₁
        obtain ⟨_, _, rfl⟩ := path_bind_pure.mp h₂
        rfl

theorem isSome_data_of_serveBuffer {blocks : Nat} {r : Entry × Nat}
    (h : Path (e.serveBuffer blocks) es r) : r.1.command.data.isSome = e.command.data.isSome := by
  unfold serveBuffer at h
  split at h
  · obtain ⟨moved, hmove, rfl⟩ := path_bind_pure.mp h
    exact isSome_data_of_moveBlock hmove
  · obtain ⟨_, _, rfl⟩ := path_bind_pure.mp h
    rfl

theorem data_of_receiveResponse (h : Path e.receiveResponse es e') :
    e'.command.data = e.command.data := by
  obtain ⟨c, hcapture, rfl⟩ := path_bind_pure.mp h
  rw [(Command.leads_captureResponse (leads_of_path hcapture)).1]

end Entry

/-! ### Surroundings to which reports do not matter -/

variable {σ : Type}

/-- The surroundings are the same on both sides, and reports do not matter to them. -/
structure Deaf (K : Coupling Request.Answer σ σ) : Prop where
  same : ∀ {α : Type} (d : Action α), K.Agree Eq d d
  report : ∀ (b b' : Bool) (m m' : Log.Message),
    K.Agree Eq (if b then SdHost.report m else pure ()) (if b' then SdHost.report m' else pure ())

namespace Deaf

variable {K : Coupling Request.Answer σ σ} {α α' : Type} {S : α → α' → Prop}

/-- Reports before what agrees. -/
theorem reports (hK : Deaf K) (b b' : Bool) (m m' : Log.Message) {d : Action α} {d' : Action α'}
    (h : K.Agree S d d') :
    K.Agree S (if b then SdHost.report m >>= fun _ => d else d)
      (if b' then SdHost.report m' >>= fun _ => d' else d') := by
  have hbind := agree_bind_eq (hK.report b b' m m') fun _ => h
  cases b <;> cases b' <;> exact hbind

/-- A result with what is known of it. -/
theorem known (hK : Deaf K) {d : Action α} {P : α → Prop} (hP : ∀ s, P (run K.left d s).1) :
    K.Agree (fun a a' => a = a' ∧ P a) d d := by
  intro s s' hs
  obtain ⟨hresult, hstates, htraces⟩ := hK.same d hs
  exact ⟨⟨hresult, hP s⟩, hstates, htraces⟩

variable (hK : Deaf K) {s s' : InterruptStatus}

include hK

/-! ### The head -/

theorem failWith (e : Entry) (cause : CommandError)
    (h : s &&& e.command.bearing = s' &&& e.command.bearing) :
    K.Agree Eq (e.failWith s cause) (e.failWith s' cause) := by
  have hfailures := and_congr h e.command.bearing_failures
  have hcomplete := contains_congr h e.command.bearing_complete
  have hrest : ∀ c : Command, K.Agree Eq
      (SdHost.report (.commandFailed c.index cause s) >>= fun _ =>
        pure { e with command := c.fail cause })
      (SdHost.report (.commandFailed c.index cause s') >>= fun _ =>
        pure { e with command := c.fail cause }) :=
    fun c => agree_bind_eq (hK.report true true _ _) fun _ => agree_pure rfl
  unfold Entry.failWith
  rw [hfailures, hcomplete]
  refine agree_ite _ ?_ (hrest _)
  exact agree_bind_eq (hK.same _) hrest

/-- Buffer events do not matter to a command whose data the processor does not move. -/
theorem serveBuffer (e : Entry) (blocks : Nat) {b b' : Bool}
    (hb : e.command.usesWords = true → b = b') (f f' : Entry × Nat → Action Progress)
    (hf : ∀ r : Entry × Nat, r.1.command.data.isSome = e.command.data.isSome →
      K.Agree Eq (f r) (f' r)) :
    K.Agree Eq (if b then e.serveBuffer blocks >>= f else f (e, blocks))
      (if b' then e.serveBuffer blocks >>= f' else f' (e, blocks)) := by
  cases hwords : e.command.usesWords with
  | true =>
    obtain rfl := hb hwords
    refine agree_ite _ ?_ (hf _ rfl)
    have hserve : K.Agree
        (fun r r' => r = r' ∧ r.1.command.data.isSome = e.command.data.isSome)
        (e.serveBuffer blocks) (e.serveBuffer blocks) :=
      hK.known fun s => Entry.isSome_data_of_serveBuffer (path_run K.left _ s)
    refine agree_bind hserve ?_
    rintro r _ ⟨rfl, hdata⟩
    exact hf r hdata
  | false =>
    have hserve : e.serveBuffer blocks =
        SdHost.report (.unexpectedBufferReady e.command.index) >>= fun _ => pure (e, blocks) := by
      unfold Entry.serveBuffer
      rw [hwords, Bool.and_false]
      rfl
    rw [hserve]
    exact hK.reports b b' _ _ (hf _ rfl)

/-- The end of the data does not matter to a command without data. -/
theorem finish (e : Entry) (blocks : Nat) {b b' : Bool}
    (hb : e.command.data.isSome = true → b = b') :
    K.Agree Eq (if b then e.endTransfer >>= fun e => e.conclude blocks else e.conclude blocks)
      (if b' then e.endTransfer >>= fun e => e.conclude blocks else e.conclude blocks) := by
  cases hdata : e.command.data.isSome with
  | true =>
    obtain rfl := hb hdata
    exact hK.same _
  | false =>
    have hend : e.endTransfer = pure e := by
      unfold Entry.endTransfer
      rw [hdata]
      rfl
    have hsame : ∀ b : Bool, (if b then e.endTransfer >>= fun e => e.conclude blocks
        else e.conclude blocks) = e.conclude blocks := by
      intro b
      rw [hend, pure_bind, ite_self]
    rw [hsame, hsame]
    exact hK.same _

/-- The data of a command. -/
theorem serveData (e : Entry) (blocks : Nat)
    (hbuffer : e.command.usesWords = true → s.intersects bufferReady = s'.intersects bufferReady)
    (htransfer : e.command.data.isSome = true →
      s.contains transferComplete = s'.contains transferComplete) :
    K.Agree Eq (e.serveData s blocks) (e.serveData s' blocks) := by
  refine hK.serveBuffer e blocks hbuffer
    (fun r => if s.contains transferComplete then
      r.1.endTransfer >>= fun e => e.conclude r.2 else r.1.conclude r.2)
    (fun r => if s'.contains transferComplete then
      r.1.endTransfer >>= fun e => e.conclude r.2 else r.1.conclude r.2) fun r hr => ?_
  exact hK.finish r.1 r.2 fun hdata => htransfer (hr ▸ hdata)

/-- **A status without errors** comes to the same. -/
theorem proceed (e : Entry) (blocks : Nat)
    (h : s &&& e.command.bearing = s' &&& e.command.bearing) :
    K.Agree Eq (e.proceed s blocks) (e.proceed s' blocks) := by
  rw [Entry.proceed_eq, Entry.proceed_eq, contains_congr h e.command.bearing_complete]
  have hreceive : K.Agree (fun e₁ e₁' => e₁ = e₁' ∧ e₁.command.data = e.command.data)
      (if s'.contains commandComplete then e.receiveResponse else pure e)
      (if s'.contains commandComplete then e.receiveResponse else pure e) :=
    agree_ite _ (hK.known fun s => Entry.data_of_receiveResponse (path_run K.left _ s))
      (agree_pure ⟨rfl, rfl⟩)
  refine agree_bind hreceive ?_
  rintro e₁ _ ⟨rfl, hdata⟩
  refine agree_ite _ (agree_pure rfl) (hK.serveData e₁ blocks ?_ ?_)
  · intro hwords
    refine intersects_congr h (e.command.bearing_buffer ?_)
    unfold Command.usesWords at hwords ⊢
    rw [← hdata]
    exact hwords
  · intro hsome
    refine contains_congr h (e.command.bearing_transfer ?_)
    rw [← hdata]
    exact hsome

/-- **The head** comes to the same. -/
theorem advance (e : Entry) (blocks : Nat)
    (h : s &&& e.command.bearing = s' &&& e.command.bearing) :
    K.Agree Eq (e.advance s blocks) (e.advance s' blocks) := by
  unfold Entry.advance
  rw [classify_congr h e.command.bearing_failures]
  cases s'.classify with
  | some cause => exact agree_bind_eq (hK.failWith e cause h) fun _ => agree_pure rfl
  | none => exact hK.proceed e blocks h

/-- Nothing comes of what is only reported. -/
theorem reportInformational (status : InterruptStatus) :
    K.Agree Eq (Controller.reportInformational status) (pure ()) := by
  have hinserted : ∀ b : Bool,
      K.Agree Eq (if b then SdHost.report .cardInserted else pure ()) (pure ()) :=
    fun b => hK.report b false .cardInserted .cardInserted
  have hseen : K.Agree Eq (SdHost.report (.statusReported (status &&& informational))) (pure ()) :=
    hK.report true false _ (.statusReported .empty)
  unfold Controller.reportInformational
  dsimp only
  cases (status &&& informational).isEmpty with
  | true => exact agree_pure rfl
  | false => exact agree_bind_eq hseen fun _ => hinserted _

/-- **The controller** comes to the same. -/
theorem serve {c : Controller} {head : Entry} {rest : List Entry}
    (hq : c.queue.entries = head :: rest)
    (h : s &&& head.command.bearing = s' &&& head.command.bearing) :
    K.Agree Eq (c.serve s) (c.serve s') := by
  unfold Controller.serve
  rw [Queue.head?_of_cons hq]
  exact agree_bind_eq (hK.advance head _ h) fun _ => hK.same _

end Deaf

end SdHost
