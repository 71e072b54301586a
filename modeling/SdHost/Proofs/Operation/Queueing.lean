import SdHost.Proofs.Bank
import SdHost.Proofs.Operation.Parking

/-!
# Queueing makes no difference

Some commands are submitted with their handlers to a controller at which nothing is queued: all at
once, before the controller is served, or one by one, each after the one before has come back.  On
registers that do not know of each other both ways do the same.

* `ServedUntil`, `AllAtOnce`, `OneByOne` — serving the controller until something holds, and the two
  ways;
* `ServedUntil.split` — a command that is submitted before some passes is served like one that is
  submitted once the others have come back;
* `OneByOne.agree` — the two ways agree, wherever handing back does not disturb the device;
* `queueing_transparent` — they agree on every bank of registers.
-/

namespace SdHost

open Dialogue (Path Surroundings path_of_run)

variable {σ : Type}

/-! ### The two ways -/

/-- Serving the controller until something holds takes so many passes. -/
inductive ServedUntil (reply : Surroundings Request.Answer σ) (stop : Controller → Bool) :
    Controller → σ → Nat → Controller → σ → Prop where
  | stopped {c : Controller} {w : σ} (h : stop c = true) : ServedUntil reply stop c w 0 c w
  | pass {c c₁ c' : Controller} {w w₁ w' : σ} {passes : Nat} (h : stop c = false)
      (hpass : Dialogue.run reply c.handleInterrupt w = (c₁, w₁))
      (hrest : ServedUntil reply stop c₁ w₁ passes c' w') :
      ServedUntil reply stop c w (passes + 1) c' w'

/-- Commands are submitted one after the other, with these results. -/
inductive Posted (reply : Surroundings Request.Answer σ) (c : Controller) (w : σ) :
    List Post → List (Except SubmitError Unit) → Controller → σ → Prop where
  | nil : Posted reply c w [] [] c w
  | snoc {ps : List Post} {p : Post} {rs : List (Except SubmitError Unit)}
      {r : Except SubmitError Unit} {c₁ c₂ : Controller} {w₁ w₂ : σ}
      (h : Posted reply c w ps rs c₁ w₁)
      (hpost : Dialogue.run reply (c₁.post p) w₁ = ((r, c₂), w₂)) :
      Posted reply c w (ps ++ [p]) (rs ++ [r]) c₂ w₂

/-- All commands are submitted, and then the controller is served until nothing is queued. -/
def AllAtOnce (reply : Surroundings Request.Answer σ) (c : Controller) (w : σ) (ps : List Post)
    (rs : List (Except SubmitError Unit)) (passes : Nat) (c' : Controller) (w' : σ) : Prop :=
  ∃ c₁ w₁, Posted reply c w ps rs c₁ w₁ ∧ ServedUntil reply Controller.isIdle c₁ w₁ passes c' w'

/-- Each command is submitted, and then the controller is served until that command has come back;
only then is the next one submitted. -/
inductive OneByOne (reply : Surroundings Request.Answer σ) (c : Controller) (w : σ) :
    List Post → List (Except SubmitError Unit) → Nat → Controller → σ → Prop where
  | nil : OneByOne reply c w [] [] 0 c w
  | snoc {ps : List Post} {p : Post} {rs : List (Except SubmitError Unit)}
      {r : Except SubmitError Unit} {before passes : Nat} {c₁ c₂ c₃ : Controller} {w₁ w₂ w₃ : σ}
      (h : OneByOne reply c w ps rs before c₁ w₁)
      (hpost : Dialogue.run reply (c₁.post p) w₁ = ((r, c₂), w₂))
      (hserve : ServedUntil reply (fun d => !d.isPending c₁.queue.nextTicket) c₂ w₂ passes c₃ w₃) :
      OneByOne reply c w (ps ++ [p]) (rs ++ [r]) (before + passes) c₃ w₃

/-! ### What is queued -/

namespace Reached

variable {ts : List Record} {c c₁ : Controller} {es : List Exchange}

/-- Only the head may be on the wire. -/
theorem fresh (h : Reached ts c) : c.queue.entries = [] ∨
    ∃ head rest, c.queue.entries = head :: rest ∧ ∀ s ∈ rest, s.Fresh := by
  have hheld := h.ledger.held
  have hrests := h.ledger.rests
  generalize (accepted ts).drop ((returned ts).map Prod.fst).length = held at hheld hrests
  cases hrests with
  | idle hq hb => exact .inl hq
  | onWire hq hb ha hm =>
    exact .inr ⟨_, _, hq, fun s hs => (hheld s (List.mem_cons_of_mem _ hs)).fresh⟩

/-- A pass is a turn that accepts nothing. -/
theorem pass (h : Reached ts c) (hpass : Path c.handleInterrupt es c₁) :
    ∃ us, Reached (ts ++ us) c₁ ∧ accepted us = [] :=
  ⟨_, h.append (Turns.one (Controller.path_turn_serve hpass)), rfl⟩

/-- A submission is a turn that accepts at most one command. -/
theorem post {p : Post} {r : Except SubmitError Unit} (h : Reached ts c)
    (hpost : Path (c.post p) es (r, c₁)) :
    ∃ us, Reached (ts ++ us) c₁ ∧ (accepted us).length ≤ 1 := by
  cases Controller.path_sendAsync hpost with
  | refused henqueue hresult hc =>
    obtain rfl : c₁ = c := hc
    exact ⟨[], by rwa [List.append_nil], Nat.zero_le 1⟩
  | queued hasync henqueue hresult =>
    exact ⟨_, h.append (Controller.turns_accepted henqueue), Nat.le_refl 1⟩
  | returned hblocking henqueue hpolls honly hes htake hresult => cases hblocking
  | gaveUp hblocking henqueue hpolls honly hes htake hlast hresult => cases hblocking

/-- A command that is alone is pending for as long as anything is queued. -/
theorem isPending_alone {n : Nat} (h : Reached ts c) (hback : n ≤ (returned ts).length)
    (hone : (accepted ts).length ≤ n + 1) : c.isPending (UInt32.ofNat n) = !c.isIdle := by
  have hlength := h.length_accepted
  cases hentries : c.queue.entries with
  | nil =>
    rw [Controller.isPending, Queue.contains, Controller.isIdle, Queue.isEmpty, hentries]
    rfl
  | cons e rest =>
    rw [hentries, List.length_cons] at hlength
    rw [h.isPending (by omega) (by omega), Controller.isIdle, Queue.isEmpty, hentries]
    rfl

end Reached

/-! ### Serving -/

section Serving

variable {reply : Surroundings Request.Answer σ} {stop : Controller → Bool} {ts : List Record}
  {c c₁ c₂ c' c'' : Controller} {w w₁ w' w'' : σ} {k k' : Nat} {p : Post}
  {r : Except SubmitError Unit}

/-- Serving ends where it is to end. -/
theorem ServedUntil.stops (h : ServedUntil reply stop c w k c' w') : stop c' = true := by
  induction h with
  | stopped h => exact h
  | pass h hpass hrest ih => exact ih

/-- Serving ends in one way. -/
theorem ServedUntil.agree (h : ServedUntil reply stop c w k c' w')
    (h' : ServedUntil reply stop c w k' c'' w'') : k = k' ∧ c' = c'' ∧ w' = w'' := by
  induction h generalizing k' with
  | stopped h =>
    cases h' with
    | stopped _ => exact ⟨rfl, rfl, rfl⟩
    | pass habs _ _ => cases h.symm.trans habs
  | pass h hpass hrest ih =>
    cases h' with
    | stopped habs => cases h.symm.trans habs
    | pass _ hpass' hrest' =>
      obtain ⟨rfl, rfl⟩ := Prod.mk.inj (hpass.symm.trans hpass')
      obtain ⟨rfl, hsame⟩ := ih hrest'
      exact ⟨rfl, hsame⟩

/-- Serving accepts nothing. -/
theorem ServedUntil.reached (h : ServedUntil reply stop c w k c' w') (hts : Reached ts c) :
    ∃ us, Reached (ts ++ us) c' ∧ accepted us = [] := by
  induction h generalizing ts with
  | stopped _ => exact ⟨[], by rwa [List.append_nil], rfl⟩
  | @pass c _ _ w _ _ _ h hpass hrest ih =>
    obtain ⟨us, hreached, hnone⟩ := hts.pass (path_of_run hpass)
    obtain ⟨more, hreached', hnone'⟩ := ih hreached
    rw [List.append_assoc] at hreached'
    refine ⟨us ++ more, hreached', ?_⟩
    rw [accepted_append, hnone, hnone']
    rfl

/-- Submissions are accepted once at most. -/
theorem Posted.reached {ps : List Post} {rs : List (Except SubmitError Unit)}
    (h : Posted reply c w ps rs c' w') (hts : Reached ts c) :
    ∃ us, Reached (ts ++ us) c' ∧ (accepted us).length ≤ ps.length := by
  induction h with
  | nil => exact ⟨[], by rwa [List.append_nil], Nat.le_refl 0⟩
  | @snoc ps p rs r c₁ c₂ w₁ w₂ _ hpost ih =>
    obtain ⟨us, hreached, hcount⟩ := ih
    obtain ⟨more, hreached', hone⟩ := hreached.post (path_of_run hpost)
    rw [List.append_assoc] at hreached'
    refine ⟨us ++ more, hreached', ?_⟩
    rw [accepted_append, List.length_append, List.length_append, List.length_singleton]
    omega

/-- For a command that is alone, serving until it has come back is serving until nothing is
queued. -/
theorem ServedUntil.idle_of_alone {n : Nat} (h : ServedUntil reply
      (fun d => !d.isPending (UInt32.ofNat n)) c w k c' w')
    (hts : Reached ts c) (hback : n ≤ (returned ts).length) (hone : (accepted ts).length ≤ n + 1) :
    ServedUntil reply Controller.isIdle c w k c' w' := by
  induction h generalizing ts with
  | stopped h =>
    rw [hts.isPending_alone hback hone, Bool.not_not] at h
    exact .stopped h
  | @pass c _ _ w _ _ _ h hpass hrest ih =>
    rw [hts.isPending_alone hback hone, Bool.not_not] at h
    obtain ⟨us, hreached, hnone⟩ := hts.pass (path_of_run hpass)
    refine .pass h hpass (ih hreached ?_ ?_)
    · rw [returned_append, List.length_append]
      omega
    · rw [accepted_append, hnone, List.append_nil]
      exact hone

/-! ### The two ways agree -/

theorem Controller.isIdle_iff : c.isIdle = true ↔ c.queue.entries = [] := List.isEmpty_iff

/-- A submission takes nothing off the queue. -/
theorem Controller.post_of_cons {head : Entry} {rest : List Entry}
    (hs : c.queue.entries = head :: rest) (hroom : c.queue.entries.length < queueDepth)
    (hpost : Dialogue.run reply (c.post p) w = ((r, c₁), w₁)) : c₁.isIdle = false := by
  have hempty : c.isIdle = false := Queue.isEmpty_of_cons hs
  have hjoined : (c.joined p.submission).isIdle = false := by
    rw [isIdle, Queue.isEmpty, joined]
    show ((c.queue.joined p.submission).entries).isEmpty = false
    rw [(Queue.entries_joined hroom p.submission).1, hs]
    rfl
  rw [post, sendAsync_eq hroom, Dialogue.run_bind] at hpost
  generalize Dialogue.run reply (inspect p.command) w = looked at hpost
  obtain ⟨verdict, w₂⟩ := looked
  cases verdict with
  | error err =>
    obtain ⟨hresult, rfl⟩ := Prod.mk.inj hpost
    obtain ⟨-, rfl⟩ := Prod.mk.inj hresult
    exact hempty
  | ok u =>
    have htaken := takeIn_cons hs p.submission
    change Dialogue.run reply (c.takeIn p.submission >>= _) w₂ = _ at hpost
    rw [htaken] at hpost
    obtain ⟨hresult, rfl⟩ := Prod.mk.inj hpost
    obtain ⟨-, rfl⟩ := Prod.mk.inj hresult
    exact hjoined

/-- **A command that is submitted before some passes** is served like one that is submitted once the
others have come back. -/
theorem ServedUntil.split (hu : Undisturbed reply)
    (h : ServedUntil reply Controller.isIdle c₁ w₁ k c' w') (hts : Reached ts c)
    (hroom : c.queue.entries.length < queueDepth)
    (hpost : Dialogue.run reply (c.post p) w = ((r, c₁), w₁)) :
    ∃ j i c₂ w₂ c₃ w₃, k = j + i ∧ ServedUntil reply Controller.isIdle c w j c₂ w₂ ∧
      Dialogue.run reply (c₂.post p) w₂ = ((r, c₃), w₃) ∧
      ServedUntil reply Controller.isIdle c₃ w₃ i c' w' := by
  -- the submission is moved behind one pass after the other, until nothing is queued before it
  induction h generalizing ts c w with
  | @stopped c₁ w₁ h =>
    rcases hts.fresh with hs | ⟨head, rest, hs, hfresh⟩
    · exact ⟨0, 0, c, w, c₁, w₁, rfl, .stopped (Controller.isIdle_iff.mpr hs), hpost, .stopped h⟩
    · cases h.symm.trans (Controller.post_of_cons hs hroom hpost)
  | @pass c₁ c₂ c' w₁ w₂ w' passes h hpass hrest ih =>
    rcases hts.fresh with hs | ⟨head, rest, hs, hfresh⟩
    · exact ⟨0, passes + 1, c, w, c₁, w₁, (Nat.zero_add _).symm,
        .stopped (Controller.isIdle_iff.mpr hs), hpost, .pass h hpass hrest⟩
    · have hbusy : c.isIdle = false := Queue.isEmpty_of_cons hs
      have hswap := Controller.run_post_swap hu hs hfresh hroom p (w := w)
      cases hc : Dialogue.run reply c.handleInterrupt w with | mk c₃ w₃ =>
      rw [hc] at hswap
      obtain ⟨us, hreached, hnone⟩ := hts.pass (path_of_run hc)
      -- nothing is accepted in a pass, so there is still room
      have hroom' : c₃.queue.entries.length < queueDepth := by
        have hbefore := hts.length_accepted
        have hafter := hreached.length_accepted
        rw [accepted_append, hnone, List.append_nil, returned_append, List.length_append] at hafter
        omega
      have hpost' : Dialogue.run reply (c₃.post p) w₃ = ((r, c₂), w₂) := by
        refine (hswap hroom').trans ?_
        rw [Dialogue.run_bind, hpost, Dialogue.run_bind, hpass]
        rfl
      obtain ⟨j, i, c₄, w₄, c₅, w₅, rfl, hbefore, hlate, hafter⟩ := ih hreached hroom' hpost'
      exact ⟨j + 1, i, c₄, w₄, c₅, w₅, by omega, .pass hbusy hc hbefore, hlate, hafter⟩

/-- After fewer submissions than there is room for, there is room. -/
theorem Posted.room {ps : List Post} {rs : List (Except SubmitError Unit)}
    (h : Posted reply c w ps rs c' w') (hts : Reached ts c) (hidle : c.isIdle = true)
    (hroom : ps.length < queueDepth) : c'.queue.entries.length < queueDepth := by
  obtain ⟨us, hreached, hcount⟩ := h.reached hts
  have hstart := hts.length_accepted
  have hend := hreached.length_accepted
  rw [Controller.isIdle_iff.mp hidle, List.length_nil] at hstart
  rw [accepted_append, returned_append, List.length_append, List.length_append] at hend
  omega

/-- A command that is submitted when nothing is queued is alone until it has come back. -/
theorem ServedUntil.idle_of_post (hts : Reached ts c) (hidle : c.isIdle = true)
    (hpost : Dialogue.run reply (c.post p) w = ((r, c₁), w₁))
    (h : ServedUntil reply (fun d => !d.isPending c.queue.nextTicket) c₁ w₁ k c' w') :
    ServedUntil reply Controller.isIdle c₁ w₁ k c' w' := by
  have halone := hts.length_accepted
  rw [Controller.isIdle_iff.mp hidle, List.length_nil] at halone
  obtain ⟨us, hreached, hone⟩ := hts.post (path_of_run hpost)
  rw [hts.ledger.next] at h
  refine h.idle_of_alone hreached ?_ ?_
  · rw [returned_append, List.length_append]
    omega
  · rw [accepted_append, List.length_append]
    omega

/-- **The two ways agree** wherever handing back does not disturb the device. -/
theorem OneByOne.agree {ps : List Post} {rs rs' : List (Except SubmitError Unit)}
    (hu : Undisturbed reply) (hts : Reached ts c) (hidle : c.isIdle = true)
    (h : OneByOne reply c w ps rs k c' w') (hroom : ps.length ≤ queueDepth)
    (h' : AllAtOnce reply c w ps rs' k' c'' w'') : rs' = rs ∧ k' = k ∧ c'' = c' ∧ w'' = w' := by
  -- on the commands; the last one is submitted after the others have come back
  induction h generalizing rs' k' c'' w'' with
  | nil =>
    obtain ⟨c₁, w₁, hposted, hserved⟩ := h'
    generalize hps : ([] : List Post) = ps at hposted
    cases hposted with
    | nil =>
      obtain ⟨rfl, rfl, rfl⟩ := hserved.agree (.stopped hidle)
      exact ⟨rfl, rfl, rfl, rfl⟩
    | snoc _ _ => exact absurd hps (List.concat_ne_nil _ _).symm
  | @snoc ps p rs r before passes c₁ c₂ c₃ w₁ w₂ w₃ hbefore hpost hserve ih =>
    obtain ⟨d₂, v₂, hposted, hserved⟩ := h'
    rw [List.length_append, List.length_singleton] at hroom
    generalize hps : ps ++ [p] = ps' at hposted
    cases hposted with
    | nil => exact absurd hps (List.concat_ne_nil _ _)
    | @snoc ps₁ p₁ rs₁ r₁ d₁ _ v₁ _ hposted hpost' =>
      obtain ⟨rfl, hp⟩ := List.append_inj' hps rfl
      obtain rfl := List.singleton_inj.mp hp
      obtain ⟨us, hreached, -⟩ := hposted.reached hts
      have hroom' := hposted.room hts hidle (Nat.lt_of_succ_le hroom)
      obtain ⟨j, i, c₄, w₄, c₅, w₅, rfl, hothers, hlate, hlast⟩ :=
        hserved.split hu hreached hroom' hpost'
      obtain ⟨rfl, rfl, rfl, rfl⟩ := ih (by omega) ⟨d₁, v₁, hposted, hothers⟩
      obtain ⟨hresult, rfl⟩ := Prod.mk.inj (hpost.symm.trans hlate)
      obtain ⟨rfl, rfl⟩ := Prod.mk.inj hresult
      -- now nothing is queued but the last command
      obtain ⟨us', hreached', -⟩ := hothers.reached hreached
      have hserve' := hserve.idle_of_post hreached' hothers.stops hpost
      obtain ⟨rfl, rfl, rfl⟩ := hlast.agree hserve'
      exact ⟨rfl, rfl, rfl, rfl⟩

end Serving

/-- **Queueing makes no difference** on a bank of registers.  If some commands, no more than the
queue holds, are submitted to a controller at which nothing is queued, then it does not matter
whether all are submitted at once or one by one: the same submissions are accepted, the controller
is served as often and ends in the same state, and so do the bank, the writes to it, and the
commands that were handed back. -/
theorem queueing_transparent {steps : List Step} {c cA cB : Controller} (h : Run steps c)
    (hidle : c.isIdle = true) {b : Bank} {w wA wB : b.World} {ps : List Post}
    (hroom : ps.length ≤ queueDepth) {rsA rsB : List (Except SubmitError Unit)} {kA kB : Nat}
    (hall : AllAtOnce b.reply c w ps rsA kA cA wA) (hone : OneByOne b.reply c w ps rsB kB cB wB) :
    rsA = rsB ∧ kA = kB ∧ cA = cB ∧ wA = wB := by
  obtain ⟨ts, htraced⟩ := h.trace
  exact hone.agree b.undisturbed htraced.reached hidle hroom hall

/-- The bank latches the two events of a read and one more; the third time, the lines are busy. -/
def Bank.threeEvents : Bank.latching.World where
  registers
    | .interruptStatus => (0, [0x21, 0x22, 0x1])
    | .presentState => (0, [0, 0, 1])
    | .response0 => (0x900, [])
    | .bufferAccess => (0, [7, 9])
    | _ => (0, [])
  writes := []
  deliveries := []

/-- A read, and two commands without data. -/
def threePosts : List Post :=
  [⟨.twoBlockRead, ⟨3⟩, 5⟩, ⟨.new 0 0 .none, ⟨4⟩, 6⟩, ⟨.new 0 0 .none, ⟨4⟩, 7⟩]

/-- The second of three commands meets busy lines. -/
theorem queueing_transparent_three : ∃ cA cB wA wB rsA rsB,
    AllAtOnce Bank.latching.reply .rested Bank.threeEvents threePosts rsA 3 cA wA ∧
    OneByOne Bank.latching.reply .rested Bank.threeEvents threePosts rsB 3 cB wB ∧
    wB.deliveries.map (fun d => d.1.command.completion) =
      [.succeeded, .failed .controllerBusy, .succeeded] ∧
    rsA = rsB ∧ cA = cB ∧ wA = wB := by
  have hall : AllAtOnce Bank.latching.reply .rested Bank.threeEvents threePosts _ 3 _ _ :=
    ⟨_, _, ((Posted.nil.snoc rfl).snoc rfl).snoc rfl,
      .pass rfl rfl (.pass rfl rfl (.pass rfl rfl (.stopped rfl)))⟩
  have hone : OneByOne Bank.latching.reply .rested Bank.threeEvents threePosts _ 3 _ _ :=
    ((OneByOne.nil.snoc rfl (.pass rfl rfl (.pass rfl rfl (.stopped rfl)))).snoc rfl
      (.stopped rfl)).snoc rfl (.pass rfl rfl (.stopped rfl))
  obtain ⟨hresults, -, hcontroller, hworld⟩ :=
    queueing_transparent run_rested rfl (by decide) hall hone
  exact ⟨_, _, _, _, _, _, hall, hone, rfl, hresults, hcontroller, hworld⟩

end SdHost
