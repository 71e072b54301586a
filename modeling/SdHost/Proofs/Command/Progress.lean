import SdHost.Proofs.Flight

/-!
# One pass over the head

A status word takes the head one pass further: from the command after some passes to the command
after one pass more, or to its end.

* `Entry.leads_failWith`, `Entry.leads_receive`, `Entry.leads_serve`, `Entry.leads_endTransfer`,
  `Entry.leads_conclude` — the steps of a pass;
* `Entry.leads_advance` — the whole of it.
-/

namespace SdHost

open InterruptStatus

namespace Command

/-- A command that ends with the last of some passes. -/
def landed (c : Command) (ps : List Pass) (v : Completion) : Command :=
  { c.inFlight ps with
    completion := v
    errors :=
      match v, ps.getLast? with
      | .failed _, some p => c.errors ||| (serviced p &&& (InterruptStatus.errors ||| cardRemoval))
      | _, _ => c.errors }

end Command

namespace Entry

/-- A submitted entry on the wire, with what has arrived. -/
def aloft (s : Entry) (r : Response) (ws : List UInt32) (commandDone dataDone : Bool)
    (offset : Nat) : Entry :=
  { s with
    command := { s.command.withWords ws with response := r }
    issued := true
    commandDone := commandDone
    dataDone := dataDone
    wordOffset := offset }

theorem inFlight_eq_aloft (s : Entry) (ps : List Pass) :
    s.inFlight ps = s.aloft (s.command.responseAfter ps)
      (s.command.filled 0 (received ps.flatten))
      (ps.any fun p => (serviced p).contains commandComplete)
      (s.command.data.isSome && ps.any fun p => (serviced p).contains transferComplete)
      (s.command.wordsMoved ps) :=
  rfl

/-- Other words, and another place to go on from. -/
theorem aloft_withWords (s : Entry) (r : Response) (ws ws' : List UInt32) (cd dd : Bool)
    (offset offset' : Nat) :
    { s.aloft r ws cd dd offset with
      command := (s.aloft r ws cd dd offset).command.withWords ws'
      wordOffset := offset' } = s.aloft r ws' cd dd offset' := by
  have hcommand : (s.aloft r ws cd dd offset).command.withWords ws' =
      { (s.command.withWords ws).withWords ws' with response := r } := rfl
  rw [hcommand, Command.withWords_withWords]
  rfl

/-! ### The steps -/

variable {s e e' : Entry} {r : Response} {ws : List UInt32} {cd dd : Bool} {offset blocks : Nat}
  {status : InterruptStatus} {cause : CommandError} {evs : List Event}

/-- The response, if the status reports one. -/
theorem leads_failWith (h : Leads ((s.aloft r ws cd dd offset).failWith status cause) evs e) :
    e = { s with
        command :=
          { s.command.withWords ws with
            response := if status.contains commandComplete then s.command.responseIn evs r else r
            completion := .failed cause
            errors := s.command.errors ||| (status &&& (errors ||| cardRemoval)) }
        issued := true
        commandDone := cd
        dataDone := dd
        wordOffset := offset } ∧
      (responses evs).map Prod.fst = s.command.askedOn status ∧ OnlyTransfers evs ∧
      received evs = [] ∧ sent evs = [] := by
  unfold failWith at h
  by_cases hcc : status.contains commandComplete = true
  · simp only [hcc, if_true] at h
    obtain ⟨_, c, _, hc, h₁, rfl⟩ := leads_bind.mp h
    obtain ⟨rfl, rfl⟩ := leads_report_pure h₁
    obtain ⟨rfl, hasked, honly, hr, hs⟩ := Command.leads_captureResponse hc
    rw [List.append_nil, Command.askedOn, hcc]
    exact ⟨rfl, hasked, honly, hr, hs⟩
  · simp only [hcc] at h
    obtain ⟨_, c, _, hc, h₁, rfl⟩ := leads_bind.mp h
    obtain ⟨rfl, rfl⟩ := leads_report_pure h₁
    obtain ⟨rfl, rfl⟩ := leads_done.mp hc
    rw [Command.askedOn, if_neg hcc, if_neg hcc]
    exact ⟨rfl, rfl, by simp [OnlyTransfers], rfl, rfl⟩

theorem leads_receive
    (h : Leads (if status.contains commandComplete then
      (s.aloft r ws cd dd offset).receiveResponse else pure (s.aloft r ws cd dd offset)) evs e) :
    e = s.aloft (if status.contains commandComplete then s.command.responseIn evs r else r) ws
        (cd || status.contains commandComplete) dd offset ∧
      (responses evs).map Prod.fst = s.command.askedOn status ∧ OnlyTransfers evs ∧
      received evs = [] ∧ sent evs = [] := by
  unfold Command.askedOn
  by_cases hcc : status.contains commandComplete = true
  · simp only [hcc, if_true, Bool.or_true] at h ⊢
    obtain ⟨c, hc, rfl⟩ := leads_bind_pure.mp h
    obtain ⟨rfl, hasked, honly, hr, hs⟩ := Command.leads_captureResponse hc
    exact ⟨rfl, hasked, honly, hr, hs⟩
  · simp only [hcc, Bool.or_false] at h ⊢
    obtain ⟨rfl, rfl⟩ := leads_done.mp h
    exact ⟨rfl, rfl, by simp [OnlyTransfers], rfl, rfl⟩

/-- A block moves only if one is due. -/
theorem leads_serveBuffer {result : Entry × Nat}
    (hroom : 0 < blocks → e.command.usesWords = true →
      e.wordOffset + e.command.blockWords ≤ e.command.words.length)
    (h : Leads (e.serveBuffer blocks) evs result) :
    ((0 < blocks && e.command.usesWords) = false ∧ evs = [] ∧ result = (e, blocks)) ∨
    (0 < blocks ∧ e.command.usesWords = true ∧
      result = ({ e with
        command := e.command.withWords (e.command.filled e.wordOffset (received evs))
        wordOffset := e.wordOffset + e.command.blockWords }, blocks - 1) ∧
      e.command.Moves e.wordOffset e.command.blockWords evs ∧ OnlyTransfers evs ∧
      responses evs = []) := by
  unfold serveBuffer at h
  cases hdue : (decide (0 < blocks) && e.command.usesWords) with
  | true =>
    obtain ⟨hpos, hwords⟩ := by simpa using hdue
    simp only [hdue, if_true] at h
    obtain ⟨moved, hm, rfl⟩ := leads_bind_pure.mp h
    obtain ⟨rfl, hmoves, honly, hresp⟩ := leads_moveBlock hwords (hroom hpos hwords) hm
    exact .inr ⟨hpos, hwords, rfl, hmoves, honly, hresp⟩
  | false =>
    simp only [hdue] at h
    obtain ⟨rfl, rfl⟩ := leads_report_pure h
    exact .inl ⟨rfl, rfl, rfl⟩

theorem leads_endTransfer
    (h : Leads (if status.contains transferComplete then
      (s.aloft r ws cd dd offset).endTransfer else pure (s.aloft r ws cd dd offset)) evs e) :
    e = s.aloft r ws cd (dd || (s.command.data.isSome && status.contains transferComplete)) offset ∧
      evs = [] := by
  by_cases htc : status.contains transferComplete = true
  · simp only [htc, if_true, Bool.and_true] at h ⊢
    unfold endTransfer at h
    split at h
    · rename_i hdata
      replace hdata : s.command.data.isSome = true := by simpa [aloft] using hdata
      rw [hdata, Bool.or_true]
      split at h
      · obtain ⟨rfl, rfl⟩ := leads_done.mp h
        exact ⟨rfl, rfl⟩
      · obtain ⟨rfl, rfl⟩ := leads_report_pure h
        exact ⟨rfl, rfl⟩
    · rename_i hdata
      replace hdata : s.command.data.isSome = false := by simpa [aloft] using hdata
      rw [hdata, Bool.or_false]
      obtain ⟨rfl, rfl⟩ := leads_done.mp h
      exact ⟨rfl, rfl⟩
  · simp only [htc, Bool.and_false, Bool.or_false] at h ⊢
    obtain ⟨rfl, rfl⟩ := leads_done.mp h
    exact ⟨rfl, rfl⟩

theorem leads_conclude {pr : Progress} (h : Leads (e.conclude blocks) evs pr) :
    evs = [] ∧
      pr = if e.commandDone && e.dataDone then
          ⟨{ e with command := e.command.succeed }, blocks, true⟩
        else ⟨e, blocks, false⟩ := by
  unfold conclude at h
  cases hdone : e.commandDone && e.dataDone with
  | true =>
    simp only [hdone, if_true] at h ⊢
    split at h
    · exact leads_report_pure h
    · exact leads_done.mp h
  | false =>
    simp only [hdone] at h ⊢
    obtain ⟨rfl, rfl⟩ := leads_done.mp h
    exact ⟨rfl, rfl⟩

/-! ### The pass -/

variable {ps : List Pass} {p : Pass} {pr : Progress}

/-- What a pass does to the data of a command: it has the words and the counters of one pass more,
and no other word has moved. -/
structure Served (s : Entry) (ps : List Pass) (p : Pass) (r : Response) (cd dd : Bool)
    (evs : List Event) (result : Entry × Nat) : Prop where
  result : result = (s.aloft r (s.command.filled 0 (received ps.flatten ++ received evs)) cd dd
    (s.command.wordsMoved (ps ++ [p])), s.blocksLeft (ps ++ [p]))
  moves : s.command.Moves 0 (s.command.wordsMoved (ps ++ [p])) (ps.flatten ++ evs)
  only : OnlyTransfers evs
  responses : SdHost.responses evs = []

/-- A pass that moves no block leaves everything as it was. -/
theorem Moved.served_idle (hmoved : s.Moved ps)
    (hsame : s.command.blocksMoved (ps ++ [p]) = s.command.blocksMoved ps) :
    s.Served ps p r cd dd [] (s.aloft r (s.command.filled 0 (received ps.flatten)) cd dd
      (s.command.wordsMoved ps), s.blocksLeft ps) := by
  have hwords := Command.wordsMoved_congr hsame
  refine ⟨?_, ?_, by simp [OnlyTransfers], rfl⟩
  · rw [hwords, blocksLeft_congr hsame, show received [] = [] from rfl, List.append_nil]
  · rw [hwords, List.append_nil]
    exact hmoved

/-- A pass that moves a block adds its words. -/
theorem Moved.served_block (hmoved : s.Moved ps) (hwords : s.command.usesWords = true)
    (hmore : s.command.blocksMoved (ps ++ [p]) = s.command.blocksMoved ps + 1)
    (hmoves : (s.command.withWords (s.command.filled 0 (received ps.flatten))).Moves
      (s.command.wordsMoved ps) s.command.blockWords evs)
    (honly : OnlyTransfers evs) (hresp : responses evs = []) :
    s.Served ps p r cd dd evs
      (s.aloft r ((s.command.withWords (s.command.filled 0 (received ps.flatten))).filled
          (s.command.wordsMoved ps) (received evs)) cd dd
        (s.command.wordsMoved ps + s.command.blockWords), s.blocksLeft ps - 1) := by
  have hcount : s.command.wordsMoved (ps ++ [p]) =
      s.command.wordsMoved ps + s.command.blockWords := by
    rw [Command.wordsMoved, hmore, Nat.add_mul, Nat.one_mul]
    rfl
  have hleft : s.blocksLeft (ps ++ [p]) = s.blocksLeft ps - 1 := by
    unfold blocksLeft
    omega
  refine ⟨?_, ?_, honly, hresp⟩
  · rw [hcount, hleft, Command.filled_append _ hwords hmoved.length_received]
  · have hkept : s.command.direction = .write →
        s.command.filled 0 (received ps.flatten) = s.command.words :=
      fun hwrite => Command.filled_of_write hwrite _ _
    rw [← Nat.zero_add (s.command.wordsMoved ps)] at hmoves
    rw [hcount]
    exact hmoved.append hkept hwords hmoves

/-- The data of a pass without an error. -/
theorem leads_serve {result : Entry × Nat} (hfits : s.command.Fits) (hmoved : s.Moved ps)
    (hclass : (serviced p).classify = none)
    (h : Leads (if (serviced p).intersects bufferReady then
        (s.aloft r (s.command.filled 0 (received ps.flatten)) cd dd
          (s.command.wordsMoved ps)).serveBuffer (s.blocksLeft ps)
      else pure (s.aloft r (s.command.filled 0 (received ps.flatten)) cd dd
          (s.command.wordsMoved ps), s.blocksLeft ps)) evs result) :
    s.Served ps p r cd dd evs result := by
  have hcount := s.command.blocksMoved_concat ps p
  rw [hclass] at hcount
  rcases leads_ite.mp h with ⟨hready, h₁⟩ | ⟨hready, h₁⟩
  · have hkind : (s.aloft r (s.command.filled 0 (received ps.flatten)) cd dd
        (s.command.wordsMoved ps)).command.usesWords = s.command.usesWords :=
      Command.usesWords_withWords ..
    have hsize : (s.aloft r (s.command.filled 0 (received ps.flatten)) cd dd
        (s.command.wordsMoved ps)).command.blockWords = s.command.blockWords :=
      Command.blockWords_withWords ..
    rcases leads_serveBuffer (fun hleft hwords => by
        rw [hsize]
        exact hmoved.room hfits (hkind ▸ hwords) hleft) h₁ with
      ⟨hidle, rfl, rfl⟩ | ⟨hleft, hwords, rfl, hmoves, honly, hresp⟩
    · -- a block was announced, but none is left to move
      refine hmoved.served_idle ?_
      have hall : ¬s.command.blocksMoved ps < s.command.blocksToMove := by
        intro hlt
        have hleft : 0 < s.blocksLeft ps := Nat.sub_pos_of_lt hlt
        rw [hkind, decide_eq_true hleft, Bool.true_and] at hidle
        rw [Command.blocksToMove_eq_zero _ hidle] at hlt
        exact Nat.not_lt_zero _ hlt
      rw [hcount, if_neg (by simp [hall])]
      rfl
    · have hlt : s.command.blocksMoved ps < s.command.blocksToMove := by
        unfold blocksLeft at hleft
        omega
      rw [hkind] at hwords
      rw [hsize] at hmoves
      rw [hsize, aloft_withWords]
      refine hmoved.served_block hwords ?_ hmoves honly hresp
      rw [hcount, if_pos (by simp [hready, hlt])]
  · obtain ⟨rfl, rfl⟩ := leads_done.mp h₁
    refine hmoved.served_idle ?_
    rw [hcount]
    simp [hready]

/-- What holds of a command on the wire after some passes. -/
structure Aloft (s : Entry) (ps : List Pass) : Prop where
  pending : s.command.completion = .pending
  fits : s.command.Fits
  running : s.command.outcome ps = none
  heard : ∀ p ∈ ps, s.command.Hears p
  moved : s.Moved ps

namespace Aloft

variable {s : Entry} {ps : List Pass}

/-- The next pass decides whether a command on the wire ends. -/
theorem outcome_concat (ha : s.Aloft ps) (p : Pass) : s.command.outcome (ps ++ [p]) =
    (endsAt s.command.data.isSome ((ps ++ [p]).map serviced)).map (ps.length + 1, ·) := by
  unfold Command.outcome
  rw [List.map_append, List.map_singleton, outcome_concat_of_none ha.running, List.length_map]

/-- The two ends of a command on the wire have not both been reported. -/
theorem not_done (ha : s.Aloft ps) :
    ((s.inFlight ps).commandDone && (s.inFlight ps).dataDone) = false := by
  have hrun := (outcome_eq_none.mp ha.running).2
  rw [inFlight_eq_aloft]
  cases hdata : s.command.data.isSome with
  | true =>
    rw [hdata, if_pos rfl, List.any_map, List.any_map] at hrun
    simpa [aloft, hdata, Function.comp_def] using hrun
  | false => simp [aloft]

/-- One pass more has read its response as the passes before. -/
theorem heard_concat (ha : s.Aloft ps) {p : Pass} (hp : s.command.Hears p) :
    ∀ q ∈ ps ++ [p], s.command.Hears q := by
  intro q hq
  rcases List.mem_append.mp hq with hq | hq
  · exact ha.heard q hq
  · rw [List.mem_singleton.mp hq]
    exact hp

/-- Without data there is only the response to wait for. -/
theorem not_commandDone (ha : s.Aloft ps) (hdata : s.command.data = none) :
    (s.inFlight ps).commandDone = false := by
  have hrun := (outcome_eq_none.mp ha.running).2
  rw [hdata, Option.isSome_none, if_neg Bool.false_ne_true, List.any_map] at hrun
  exact hrun

end Aloft

/-- What has become of a submission that ended with the last of some passes. -/
structure Lands (s : Entry) (ps : List Pass) (v : Completion) (e : Entry) : Prop where
  outcome : s.command.outcome ps = some (ps.length, v)
  heard : ∀ p ∈ ps, s.command.Hears p
  moved : s.Moved ps
  entry : ∃ commandDone dataDone, e = { s with
    command := s.command.landed ps v
    issued := true
    commandDone := commandDone
    dataDone := dataDone
    wordOffset := s.command.wordsMoved ps }

/-- The status without a bit does nothing to a command on the wire. -/
theorem advance_empty (ha : s.Aloft ps) :
    (s.inFlight ps).advance .empty (s.blocksLeft ps) =
      pure ⟨s.inFlight ps, s.blocksLeft ps, false⟩ := by
  have hclass : InterruptStatus.empty.classify = none := by decide
  have hcc : InterruptStatus.empty.contains commandComplete = false := by decide
  have htc : InterruptStatus.empty.contains transferComplete = false := by decide
  have hready : InterruptStatus.empty.intersects bufferReady = false := by decide
  unfold advance proceed conclude
  simp only [hclass, hcc, htc, hready, ha.not_done, Bool.false_and, if_false, Bool.false_eq_true,
    pure_bind]

theorem inFlight_concat (hheard : s.command.Hears p) (ps : List Pass) :
    s.inFlight (ps ++ [p]) = s.aloft
      (if (serviced p).contains commandComplete then
        s.command.responseIn p (s.command.responseAfter ps)
      else s.command.responseAfter ps)
      (s.command.filled 0 (received ps.flatten ++ received p))
      ((ps.any fun p => (serviced p).contains commandComplete) ||
        (serviced p).contains commandComplete)
      ((s.command.data.isSome && ps.any fun p => (serviced p).contains transferComplete) ||
        (s.command.data.isSome && (serviced p).contains transferComplete))
      (s.command.wordsMoved (ps ++ [p])) := by
  rw [inFlight_eq_aloft, Command.responseAfter_concat hheard, List.flatten_append,
    List.flatten_singleton, received_append, List.any_append, List.any_append,
    Bool.and_or_distrib_left]
  simp only [List.any_cons, List.any_nil, Bool.or_false]

/-- A pass without an error. -/
theorem leads_proceed (hfits : s.command.Fits) (hmoved : s.Moved ps)
    (hclass : (serviced p).classify = none)
    (hresp : responses p = responses evs) (hrecv : received p = received evs)
    (hsent : sent p = sent evs)
    (h : Leads ((s.inFlight ps).proceed (serviced p) (s.blocksLeft ps)) evs pr) :
    OnlyTransfers evs ∧ s.command.Hears p ∧ s.Moved (ps ++ [p]) ∧
      pr = if (if s.command.data.isSome then
              (s.inFlight (ps ++ [p])).commandDone && (s.inFlight (ps ++ [p])).dataDone
            else (serviced p).contains commandComplete) then
          ⟨{ s.inFlight (ps ++ [p]) with command := (s.command.inFlight (ps ++ [p])).succeed },
            s.blocksLeft (ps ++ [p]), true⟩
        else ⟨s.inFlight (ps ++ [p]), s.blocksLeft (ps ++ [p]), false⟩ := by
  rw [inFlight_eq_aloft] at h
  unfold proceed at h
  obtain ⟨first, e, _, hf, h₁, rfl⟩ := leads_ite_bind.mp h
  obtain ⟨rfl, hasked, honly, hr, hs⟩ := leads_receive hf
  rcases leads_ite.mp h₁ with ⟨hlast, h₂⟩ | ⟨hlast, h₂⟩
  · -- the response ends a command without data before its buffer is looked at
    obtain ⟨rfl, rfl⟩ := leads_done.mp h₂
    rw [List.append_nil] at hresp hrecv hsent ⊢
    rw [hr] at hrecv
    rw [hs] at hsent
    obtain ⟨hcc, hnone⟩ := Bool.and_eq_true_iff.mp hlast
    have hdata : s.command.data = none := by
      simpa [aloft, Command.withWords] using hnone
    have hidle := Command.blocksMoved_eq_zero (s.command.usesWords_of_data_eq_none hdata)
    have hsame : s.command.blocksMoved (ps ++ [p]) = s.command.blocksMoved ps := by
      rw [hidle, hidle]
    have hheard := Command.hears_of_responses hresp hasked
    have hstate := inFlight_concat hheard ps
    rw [s.command.responseIn_congr hresp, hrecv, List.append_nil, Command.wordsMoved_congr hsame,
      hdata] at hstate
    refine ⟨honly, hheard, hmoved.concat_idle hsame hrecv hsent, ?_⟩
    have hcommand : s.command.inFlight (ps ++ [p]) = (s.inFlight (ps ++ [p])).command := rfl
    rw [hcommand, hstate, hdata, hcc, blocksLeft_congr hsame]
    rfl
  · obtain ⟨second, ⟨e, left⟩, _, hserve, h₃, rfl⟩ := leads_ite_bind.mp h₂
    obtain ⟨hresult, hmoves, honly', hresp'⟩ := leads_serve hfits hmoved hclass hserve
    obtain ⟨rfl, rfl⟩ := Prod.mk.inj hresult
    obtain ⟨_, e', _, hend, h₄, rfl⟩ := leads_ite_bind.mp h₃
    obtain ⟨rfl, rfl⟩ := leads_endTransfer hend
    obtain ⟨rfl, rfl⟩ := leads_conclude h₄
    have hresponse : responses p = responses first := by
      simpa [hresp'] using hresp
    have hreceived : received p = received second := by
      simpa [hr] using hrecv
    have hsent' : sent p = sent second := by
      simpa [hs] using hsent
    have hheard := Command.hears_of_responses hresponse hasked
    have hstate := inFlight_concat hheard ps
    rw [s.command.responseIn_congr hresponse, hreceived] at hstate
    have hcommand : s.command.inFlight (ps ++ [p]) = (s.inFlight (ps ++ [p])).command := rfl
    rw [hcommand, hstate]
    refine ⟨?_, hheard, ?_, ?_⟩
    · intro ev hev
      simp only [List.append_nil, List.mem_append] at hev
      exact hev.elim (honly ev) (honly' ev)
    · unfold Moved
      refine Command.Moves.congr ?_ ?_ hmoves
      · rw [List.flatten_append, List.flatten_singleton, received_append, received_append,
          hreceived]
      · rw [List.flatten_append, List.flatten_singleton, sent_append, sent_append, hsent']
    · cases hdata : s.command.data.isSome with
      | true => rfl
      | false =>
        have hnone : s.command.data = none := by simpa using hdata
        have hcc : (serviced p).contains commandComplete = false := by
          simpa [aloft, Command.withWords, hnone] using hlast
        simp [aloft, hcc]

/-- An error ends the command at once. -/
theorem leads_advance_error (ha : s.Aloft ps) (hclass : (serviced p).classify = some cause)
    (hresp : responses p = responses evs) (hrecv : received p = received evs)
    (hsent : sent p = sent evs)
    (h : Leads ((s.inFlight ps).advance (serviced p) (s.blocksLeft ps)) evs pr) :
    OnlyTransfers evs ∧ pr.ended = true ∧ s.Lands (ps ++ [p]) (.failed cause) pr.entry := by
  unfold advance at h
  simp only [hclass] at h
  obtain ⟨_, e, _, hf, h₁, rfl⟩ := leads_bind.mp h
  obtain ⟨rfl, rfl⟩ := leads_done.mp h₁
  rw [inFlight_eq_aloft] at hf
  obtain ⟨rfl, hasked, honly, hr, hs⟩ := leads_failWith hf
  rw [List.append_nil] at hresp hrecv hsent ⊢
  rw [hr] at hrecv
  rw [hs] at hsent
  have hheard := Command.hears_of_responses hresp hasked
  have hsame := s.command.blocksMoved_concat_of_error ps p hclass
  refine ⟨honly, rfl, ?_, ha.heard_concat hheard, ha.moved.concat_idle hsame hrecv hsent,
    ps.any fun p => (serviced p).contains commandComplete,
    s.command.data.isSome && ps.any fun p => (serviced p).contains transferComplete, ?_⟩
  · rw [ha.outcome_concat, List.map_append, List.map_singleton, endsAt_concat_of_error hclass,
      List.length_append]
    rfl
  · unfold Command.landed Command.inFlight
    rw [Command.responseAfter_concat hheard, s.command.responseIn_congr hresp,
      Command.wordsMoved_congr hsame, List.flatten_append, List.flatten_singleton, received_append,
      hrecv, List.append_nil, List.getLast?_concat]

/-- Whether a pass without an error ends the command is the same question for its flags and for the
statuses. -/
theorem done_inFlight (s : Entry) (ps : List Pass) (p : Pass) :
    (if s.command.data.isSome then
        (s.inFlight (ps ++ [p])).commandDone && (s.inFlight (ps ++ [p])).dataDone
      else (serviced p).contains commandComplete) =
    if s.command.data.isSome then
      (ps.map serviced ++ [serviced p]).any (·.contains commandComplete) &&
        (ps.map serviced ++ [serviced p]).any (·.contains transferComplete)
    else (serviced p).contains commandComplete := by
  have hany : ∀ f : InterruptStatus → Bool,
      (ps.map serviced ++ [serviced p]).any f = (ps ++ [p]).any fun p => f (serviced p) := by
    intro f
    rw [List.any_append, List.any_append, List.any_map]
    rfl
  rw [hany, hany]
  cases hdata : s.command.data.isSome with
  | true => simp only [inFlight, hdata, Bool.true_and]
  | false => rfl

/-- **One pass over the head.**  A status takes the command one pass further or ends it, as the
statuses so far say. -/
theorem leads_advance (ha : s.Aloft ps) (hresp : responses p = responses evs)
    (hrecv : received p = received evs) (hsent : sent p = sent evs)
    (h : Leads ((s.inFlight ps).advance (serviced p) (s.blocksLeft ps)) evs pr) :
    OnlyTransfers evs ∧
      ((s.Aloft (ps ++ [p]) ∧ pr = ⟨s.inFlight (ps ++ [p]), s.blocksLeft (ps ++ [p]), false⟩) ∨
        ∃ v, pr.ended = true ∧ s.Lands (ps ++ [p]) v pr.entry) := by
  cases hclass : (serviced p).classify with
  | some cause =>
    obtain ⟨honly, hended, hlands⟩ := leads_advance_error ha hclass hresp hrecv hsent h
    exact ⟨honly, .inr ⟨_, hended, hlands⟩⟩
  | none =>
    have houtcome := ha.outcome_concat p
    rw [List.map_append, List.map_singleton, endsAt_concat_of_clean hclass,
      ← done_inFlight] at houtcome
    unfold advance at h
    simp only [hclass] at h
    obtain ⟨honly, hheard, hmoved, rfl⟩ :=
      leads_proceed ha.fits ha.moved hclass hresp hrecv hsent h
    refine ⟨honly, ?_⟩
    -- the flags and the statuses are two answers to one question; both are decided here
    revert houtcome
    cases (if s.command.data.isSome then
        (s.inFlight (ps ++ [p])).commandDone && (s.inFlight (ps ++ [p])).dataDone
      else (serviced p).contains commandComplete) with
    | true =>
      intro houtcome
      have hpending : (s.command.inFlight (ps ++ [p])).completion = .pending := ha.pending
      have hsucceed : (s.command.inFlight (ps ++ [p])).succeed =
          s.command.landed (ps ++ [p]) .succeeded := by
        rw [Command.succeed, hpending]
        rfl
      have hlength : ps.length + 1 = (ps ++ [p]).length := by
        rw [List.length_append]
        rfl
      rw [hlength] at houtcome
      refine .inr ⟨.succeeded, rfl, houtcome, ha.heard_concat hheard, hmoved,
        (s.inFlight (ps ++ [p])).commandDone, (s.inFlight (ps ++ [p])).dataDone, ?_⟩
      rw [if_pos rfl, hsucceed]
      rfl
    | false =>
      intro houtcome
      exact .inl ⟨⟨ha.pending, ha.fits, houtcome, ha.heard_concat hheard, hmoved⟩, rfl⟩

end Entry

end SdHost
