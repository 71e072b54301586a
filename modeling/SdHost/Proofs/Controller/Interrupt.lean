import SdHost.Proofs.Controller.Dispatch

/-!
# The events of a pass

A pass reads the status, acknowledges it and serves the head.  Without a head nothing more happens.
With one, the head comes one pass further, or it ends and the next commands are dispatched.

* `Controller.leads_handleInterrupt_idle` — a pass without a head;
* `Controller.leads_handleInterrupt_onWire` — a pass over a command on the wire.
-/

namespace SdHost

open Register InterruptStatus

namespace Controller

variable {c c' : Controller} {s : Entry} {rest : List Entry} {ps : List Pass} {evs : List Event}

theorem quiet_reportInformational (status : InterruptStatus) :
    Quiet (reportInformational status) := by
  exact quiet_ite _ (quiet_pure _) (quiet_bind (quiet_report _) fun _ =>
    quiet_ite _ (quiet_report _) (quiet_pure _))

theorem leads_latchedStatus {status : InterruptStatus} (h : Leads latchedStatus evs status) :
    evs = [.status status.bits] := by
  obtain ⟨word, hr, rfl⟩ := leads_bind_pure.mp h
  rw [leads_read.mp hr]
  rfl

theorem leads_acknowledge {status : InterruptStatus} {u : Unit}
    (h : Leads (acknowledge status) evs u) : evs = [.acknowledged status.bits] := by
  rw [leads_write.mp h]
  rfl

/-- A pass reads the status first; a status that is not empty is acknowledged and served. -/
theorem leads_handleInterrupt (h : Leads c.handleInterrupt evs c') :
    (evs = [.status 0] ∧ c' = c) ∨
    ∃ word served, word ≠ 0 ∧ evs = .status word :: .acknowledged word :: served ∧
      Leads (c.serve ⟨word⟩) served c' := by
  obtain ⟨_, ⟨word⟩, _, hs, h₁, rfl⟩ := leads_bind.mp h
  rw [leads_latchedStatus hs]
  rcases leads_ite.mp h₁ with ⟨hempty, h₂⟩ | ⟨hempty, h₂⟩
  · obtain ⟨rfl, rfl⟩ := leads_done.mp h₂
    have hzero : word = 0 := by simpa [isEmpty] using hempty
    exact .inl ⟨by rw [hzero]; rfl, rfl⟩
  · obtain ⟨_, _, _, ha, h₃, rfl⟩ := leads_bind.mp h₂
    obtain ⟨_, _, served, hi, h₄, rfl⟩ := leads_bind.mp h₃
    have hword : word ≠ 0 := by simpa [isEmpty] using hempty
    rw [leads_acknowledge ha, quiet_reportInformational _ hi]
    exact .inr ⟨word, served, hword, rfl, h₄⟩

/-- A pass begins with the status, which is acknowledged unless it is empty.  No other is. -/
inductive Services : Pass → Prop where
  | empty : Services [.status 0]
  | status {word : UInt32} {later : List Event} (hword : word ≠ 0)
      (hlater : acknowledgements later = []) :
      Services (.status word :: .acknowledged word :: later)

/-- Without a head a status is dropped. -/
theorem leads_serve_idle {status : InterruptStatus} (hq : c.queue.entries = [])
    (h : Leads (c.serve status) evs c') : evs = [] ∧ c' = c := by
  have hhead := Queue.head?_of_nil hq
  unfold serve at h
  simp only [hhead] at h
  rcases leads_ite.mp h with ⟨_, h₁⟩ | ⟨_, h₁⟩
  · exact leads_report_pure h₁
  · exact leads_done.mp h₁

/-- **A pass without a head** reads and acknowledges, and changes nothing. -/
theorem leads_handleInterrupt_idle (hq : c.queue.entries = [])
    (h : Leads c.handleInterrupt evs c') :
    c' = c ∧ ∃ word, evs = .status word :: if word = 0 then [] else [.acknowledged word] := by
  rcases leads_handleInterrupt h with ⟨rfl, rfl⟩ | ⟨word, served, hword, rfl, hserve⟩
  · exact ⟨rfl, 0, rfl⟩
  · obtain ⟨rfl, rfl⟩ := leads_serve_idle hq hserve
    exact ⟨rfl, word, by rw [if_neg hword]⟩

/-- It begins as every pass does. -/
theorem services_idle (word : UInt32) :
    Services (.status word :: if word = 0 then [] else [.acknowledged word]) := by
  by_cases hword : word = 0
  · rw [hword]
    exact .empty
  · rw [if_neg hword]
    exact .status hword rfl

/-- A pass without a head hands nothing back. -/
theorem handed_idle (word : UInt32) :
    handed (.status word :: if word = 0 then [] else [.acknowledged word]) = [] := by
  split <;> rfl

/-- The controller after its head came one pass further. -/
def further (c : Controller) (s : Entry) (ps : List Pass) : Controller :=
  { c with
    queue := c.queue.modifyHead fun _ => s.inFlight ps
    blocksRemaining := s.blocksLeft ps }

theorem further_eq (hq : c.queue.entries = s.inFlight ps :: rest)
    (hb : c.blocksRemaining = s.blocksLeft ps) : c.further s ps = c := by
  obtain ⟨platform, version, irqs, config, ⟨entries, next, hsize⟩, blocks, waiting, finished⟩ := c
  obtain rfl : entries = s.inFlight ps :: rest := hq
  obtain rfl : blocks = s.blocksLeft ps := hb
  rfl

/-- The two ways in which a pass over a command on the wire ends: it goes on, or it has ended and
the next commands are dispatched.  Nothing follows the hand-back of a command that has ended, unless
another one is handed back. -/
inductive Passes (c : Controller) (s : Entry) (ps : List Pass) (evs : Pass) (c' : Controller) :
    Prop where
  | goesOn (ha : s.Aloft (ps ++ [evs])) (hc : c' = c.further s (ps ++ [evs]))
      (hhanded : handed evs = []) (hlatched : latched evs = []) (hstarts : starts evs = [])
      (hserves : Services evs)
  | ends {v : Completion} {e : Entry} {later : List Event} (hlands : s.Lands (ps ++ [evs]) v e)
      (hdispatches : Dispatches (c.popped.settle e) later c')
      (hhanded : handed evs = (e, c.routeOf e) :: handed later)
      (hlatched : latched evs = latched later) (hstarts : starts evs = starts later)
      (hserves : Services evs)
      (hnext : ∃ before after, evs = before ++ .handedBack e (c.routeOf e) :: after ∧
        handed before = [] ∧ (handed after = [] → after = []))

/-- **A pass over a command on the wire** takes it one pass further, or it ends and the next
commands are dispatched. -/
theorem leads_handleInterrupt_onWire (hq : c.queue.entries = s.inFlight ps :: rest)
    (hb : c.blocksRemaining = s.blocksLeft ps) (ha : s.Aloft ps) (hfresh : ∀ e ∈ rest, e.Fresh)
    (h : Leads c.handleInterrupt evs c') : c.Passes s ps evs c' := by
  have hhead := Queue.head?_of_cons hq
  rcases leads_handleInterrupt h with ⟨rfl, rfl⟩ | ⟨word, served, hword, rfl, hserve⟩
  · -- nothing was latched, which is what an empty status does
    have hempty : Leads ((s.inFlight ps).advance (serviced [.status 0]) (s.blocksLeft ps)) []
        ⟨s.inFlight ps, s.blocksLeft ps, false⟩ := by
      rw [show serviced [.status 0] = .empty from rfl, Entry.advance_empty ha]
      exact leads_done.mpr ⟨rfl, rfl⟩
    have hresp : responses [.status 0] = responses [] := rfl
    have hrecv : received [.status 0] = received [] := rfl
    have hsent : sent [.status 0] = sent [] := rfl
    obtain ⟨-, ⟨hup, hprogress⟩ | ⟨v, hended, -⟩⟩ :=
      Entry.leads_advance ha hresp hrecv hsent hempty
    · obtain ⟨hentry, hleft, -⟩ := Progress.mk.inj hprogress
      rw [hentry] at hq
      rw [hleft] at hb
      exact .goesOn hup (further_eq hq hb).symm rfl rfl rfl .empty
    · cases hended
  · unfold serve at hserve
    simp only [hhead, hb] at hserve
    obtain ⟨first, pr, second, hadvance, h₁, rfl⟩ := leads_bind.mp hserve
    rcases leads_ite.mp h₁ with ⟨hended, h₂⟩ | ⟨hended, h₂⟩
    · have hcomplete := leads_complete (by rw [hq]; exact hfresh) h₂
      have hresp : responses (.status word :: .acknowledged word :: (first ++ second)) =
          responses first := by
        show responses (first ++ second) = _
        rw [responses_append, hcomplete.only.responses, List.append_nil]
      have hrecv : received (.status word :: .acknowledged word :: (first ++ second)) =
          received first := by
        show received (first ++ second) = _
        rw [received_append, hcomplete.only.received, List.append_nil]
      have hsent : sent (.status word :: .acknowledged word :: (first ++ second)) = sent first := by
        show sent (first ++ second) = _
        rw [sent_append, hcomplete.only.sent, List.append_nil]
      obtain ⟨honly, ⟨-, hprogress⟩ | ⟨v, -, hlands⟩⟩ :=
        Entry.leads_advance ha hresp hrecv hsent hadvance
      · rw [hprogress] at hended
        cases hended
      · have hdone := hcomplete.only
        obtain @⟨attempt, later, _, hdispatches, hattempt, hlater⟩ := hcomplete
        refine .ends hlands hdispatches ?_ ?_ ?_ (.status hword ?_)
          ⟨.status word :: .acknowledged word :: (first ++ attempt), later, ?_, ?_, hlater⟩
        · show handed (first ++ (attempt ++ _ :: later)) = _
          rw [handed_append, handed_append, handed_append, honly.handed, hattempt]
          rfl
        · show latched (first ++ (attempt ++ _ :: later)) = _
          rw [latched_append, latched_append, latched_append, honly.latched]
          rfl
        · show starts (first ++ (attempt ++ _ :: later)) = _
          rw [starts_append, starts_append, starts_append, honly.starts]
          rfl
        · rw [acknowledgements_append, honly.acknowledgements, hdone.acknowledgements]
          rfl
        · rw [List.cons_append, List.cons_append, List.append_assoc]
        · show handed (first ++ attempt) = []
          rw [handed_append, honly.handed, hattempt]
          rfl
    · obtain ⟨rfl, rfl⟩ := leads_done.mp h₂
      rw [List.append_nil]
      have hresp : responses (.status word :: .acknowledged word :: first) = responses first := rfl
      have hrecv : received (.status word :: .acknowledged word :: first) = received first := rfl
      have hsent : sent (.status word :: .acknowledged word :: first) = sent first := rfl
      obtain ⟨honly, ⟨hup, hprogress⟩ | ⟨v, habs, -⟩⟩ :=
        Entry.leads_advance ha hresp hrecv hsent hadvance
      · rw [hprogress]
        exact .goesOn hup rfl honly.handed honly.latched honly.starts
          (.status hword honly.acknowledgements)
      · rw [hended] at habs
        cases habs

end Controller

end SdHost
