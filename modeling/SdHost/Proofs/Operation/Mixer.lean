import SdHost.Proofs.Command.TransferMode
import SdHost.Proofs.Controller.Coupling

/-!
# One engine for all versions

The versions of a controller differ in where the transfer mode is written: version 1 has a register
of its own for it, the mixer control, and in later ones it rides in the transfer type.  Nothing else
in the engine depends on the version.  A session with a controller of version 1 and one with a later
controller come to the same, and the same is done, once each write of the mixer control is merged
into the write of the transfer type behind it.

* `merged` — what is done, with the mixer control merged into the transfer type;
* `Merges` — the same as a relation, which can be followed piece by piece;
* `Host`, `Host.versions` — the same hardware with two versions;
* `Host.drives_versions` — the engines of version 1 and of a later one do alike there;
* `session_versions` — so do whole sessions.
-/

namespace SdHost

open Dialogue Dialogue.Coupling Register Request Controller

variable {σ : Type}

/-! ### Merging -/

namespace Exchange

/-- The word written to the mixer control. -/
def mixer? : Exchange → Option UInt32
  | ⟨.write r w, _⟩ => if r = mixerControl then some w else none
  | _ => none

/-- The word written to the transfer type. -/
def transfer? : Exchange → Option UInt32
  | ⟨.write r w, _⟩ => if r = transferType then some w else none
  | _ => none

end Exchange

/-- A write of a register. -/
def written (r : Register) (w : UInt32) : Exchange := ⟨.write r w, ()⟩

/-- What is done, with each write of the mixer control merged into the write of the transfer type
right behind it. -/
def merged : List Exchange → List Exchange
  | x :: y :: es =>
    match x.mixer?, y.transfer? with
    | some w, some word => written transferType (word ||| w) :: merged es
    | _, _ => x :: merged (y :: es)
  | es => es

/-- What is done on the left is done on the right with the mixer control merged in. -/
inductive Merges : List Exchange → List Exchange → Prop where
  | nil : Merges [] []
  | same {x : Exchange} {es es' : List Exchange} (hx : x.mixer? = none) (h : Merges es es') :
      Merges (x :: es) (x :: es')
  | pair (w word : UInt32) {es es' : List Exchange} (h : Merges es es') :
      Merges (written mixerControl w :: written transferType word :: es)
        (written transferType (word ||| w) :: es')

namespace Merges

variable {es es' more more' : List Exchange}

theorem append (h : Merges es es') (h' : Merges more more') :
    Merges (es ++ more) (es' ++ more') := by
  induction h with
  | nil => exact h'
  | same hx _ ih => exact .same hx ih
  | pair w word _ ih => exact .pair w word ih

theorem merged_cons {x : Exchange} (hx : x.mixer? = none) (es : List Exchange) :
    merged (x :: es) = x :: merged es := by
  cases es with
  | nil => rfl
  | cons y es => simp only [merged, hx]

theorem merged_eq (h : Merges es es') : merged es = es' := by
  induction h with
  | nil => rfl
  | same hx _ ih => rw [merged_cons hx, ih]
  | pair w word _ ih =>
    show written transferType (word ||| w) :: merged _ = _
    rw [ih]

end Merges

/-! ### Two versions of one hardware -/

theorem DataPhase.asks_program (d : DataPhase) (direction : Direction) :
    Asks Request.neutral (d.program direction) := by
  have hcontrol : systemControl ∉ versioned := by decide
  have hattributes : blockAttributes ∉ versioned := by decide
  have hwatermark : Register.watermark ∉ versioned := by decide
  have haddress : dmaAddress ∉ versioned := by decide
  refine asks_bind (asks_bind (asks_question hcontrol) fun _ => asks_question hcontrol) fun _ => ?_
  refine asks_bind (asks_question hattributes) fun _ => ?_
  refine asks_bind (asks_question hwatermark) fun _ => ?_
  cases d.buffer with
  | dma address => exact asks_question haddress
  | words id contents => exact asks_pure _

/-- The version that the word of the version register stands for. -/
def SpecVersion.ofWord (word : UInt32) : SpecVersion := .ofRaw (HostVersion.specification.get word)

/-- The words of the mixer control and of the transfer type. -/
structure ModeWords where
  mixer : UInt32
  transfer : UInt32

/-- Hardware apart from its version.  It may do anything, but it is not told by which word a command
is started. -/
structure Host (σ : Type) where
  /-- What becomes of it when a command is started. -/
  launch : σ → σ
  reply : Surroundings Answer σ

namespace Host

/-- The hardware with a version.  The mixer control and the transfer type are only stored, and the
log is no part of the hardware. -/
def withVersion (h : Host σ) (version : UInt32) : Surroundings Answer (σ × ModeWords)
  | .read r, (s, m) =>
    if r = hostVersion then (version, (s, m))
    else if r = mixerControl then (m.mixer, (s, m))
    else if r = transferType then (m.transfer, (s, m))
    else ((h.reply (.read r) s).1, ((h.reply (.read r) s).2, m))
  | .write r w, (s, m) =>
    if r = mixerControl then ((), (s, { m with mixer := w }))
    else if r = transferType then ((), (h.launch s, { m with transfer := w }))
    else ((), ((h.reply (.write r w) s).2, m))
  | .report _, (s, m) => ((), (s, m))
  | q, (s, m) => ((h.reply q s).1, ((h.reply q s).2, m))

/-- The same hardware with two versions. -/
def versions (h : Host σ) (version version' : UInt32) :
    Coupling Answer (σ × ModeWords) (σ × ModeWords) where
  left := h.withVersion version
  right := h.withVersion version'
  States s s' := s.1 = s'.1
  Traces es es' := Merges (doings es) (doings es')
  nil := .nil
  append hes hmore := by
    rw [doings_append, doings_append]
    exact hes.append hmore

variable {h : Host σ} {version version' : UInt32}

theorem withVersion_read {r : Register} (hr : r ∉ versioned) (s : σ) (m : ModeWords) :
    h.withVersion version (.read r) (s, m) =
      ((h.reply (.read r) s).1, ((h.reply (.read r) s).2, m)) := by
  simp only [versioned, List.mem_cons, List.not_mem_nil, or_false, not_or] at hr
  obtain ⟨hversion, hmixer, htransfer⟩ := hr
  unfold withVersion
  simp only [if_neg hversion, if_neg hmixer, if_neg htransfer]

theorem withVersion_write {r : Register} (hr : r ∉ versioned) (w : UInt32) (s : σ)
    (m : ModeWords) :
    h.withVersion version (.write r w) (s, m) = ((), ((h.reply (.write r w) s).2, m)) := by
  simp only [versioned, List.mem_cons, List.not_mem_nil, or_false, not_or] at hr
  obtain ⟨-, hmixer, htransfer⟩ := hr
  unfold withVersion
  simp only [if_neg hmixer, if_neg htransfer]

/-- What has nothing to do with the version is answered alike, and leaves the mixer control
alone. -/
theorem indifferent_versions {q : Request} (hq : q.neutral) :
    (h.versions version version').Indifferent q := by
  rintro ⟨s, m⟩ ⟨s', m'⟩ hs
  obtain rfl : s = s' := hs
  cases q with
  | keeps level => exact hq.elim
  | read r =>
    refine ⟨?_, ?_, .nil⟩
    · show (h.withVersion version (.read r) (s, m)).1 = (h.withVersion version' (.read r) (s, m')).1
      rw [withVersion_read hq, withVersion_read hq]
    · show (h.withVersion version (.read r) (s, m)).2.1 =
        (h.withVersion version' (.read r) (s, m')).2.1
      rw [withVersion_read hq, withVersion_read hq]
  | write r w =>
    have hmixer : r ≠ mixerControl := by
      rintro rfl
      exact hq (by decide)
    refine ⟨rfl, ?_, .same (if_neg hmixer) .nil⟩
    show (h.withVersion version (.write r w) (s, m)).2.1 =
      (h.withVersion version' (.write r w) (s, m')).2.1
    rw [withVersion_write hq, withVersion_write hq]
  | report m => exact ⟨rfl, rfl, .nil⟩
  | _ => exact ⟨rfl, rfl, .same rfl .nil⟩

/-- A word that starts a command is as good as any other. -/
theorem agree_transfer (word : UInt32) :
    (h.versions version version').Agree Eq (transferType.write word) (transferType.write word) := by
  rintro ⟨s, m⟩ ⟨s', m'⟩ hs
  obtain rfl : s = s' := hs
  exact ⟨rfl, rfl, .same rfl .nil⟩

/-- The mixer control is written and the command started, or the command is started by the word
that has both. -/
theorem agree_mixer (w word : UInt32) :
    (h.versions version version').Agree Eq
      (mixerControl.write w >>= fun _ => transferType.write word)
      (transferType.write (word ||| w)) := by
  rintro ⟨s, m⟩ ⟨s', m'⟩ hs
  obtain rfl : s = s' := hs
  exact ⟨rfl, rfl, .pair w word .nil⟩

section Later

variable {v v' : SpecVersion} (hv : v.hasSeparateMixer = true) (hv' : v'.hasSeparateMixer = false)

include hv hv'

/-- **Starting a command** comes to the same. -/
theorem agree_start (platform : Platform) (command : Command) :
    (h.versions version version').Agree Eq (command.start platform v)
      (command.start platform v') := by
  have hargument : commandArgument ∉ versioned := by decide
  have hneutral : ∀ {α : Type} {d : Action α}, Asks Request.neutral d →
      (h.versions version version').Agree Eq d d :=
    fun hd => agree_of_asks (hd.mono fun _ => indifferent_versions)
  refine agree_bind_eq (hneutral (asks_question trivial)) fun _ => ?_
  refine agree_bind_eq (hneutral (asks_question trivial)) fun _ => ?_
  refine agree_bind_eq (hneutral (asks_question hargument)) fun _ => ?_
  cases hdata : command.data with
  | none =>
    show (h.versions version version').Agree Eq (transferType.write (command.transferWord v))
      (transferType.write (command.transferWord v'))
    rw [command.transferWord_no_data v v' hdata]
    exact agree_transfer _
  | some d =>
    show (h.versions version version').Agree Eq
      (Command.programData v command.direction d >>= fun _ => _)
      (Command.programData v' command.direction d >>= fun _ => _)
    rw [Command.programData_eq, Command.programData_eq, bind_assoc, bind_assoc, hv, hv',
      Command.transferWord_later hv hv' hdata]
    exact agree_bind_eq (hneutral (d.asks_program _)) fun _ => agree_mixer _ _

theorem drives_versions : Drives (h.versions version version') v v' where
  neutral _ hq := indifferent_versions hq
  start := agree_start hv hv'

end Later

/-! ### Looking at the version -/

theorem look_versioned {r : Register} (hr : r ∈ versioned) (s : σ) (m : ModeWords) :
    (h.withVersion version (.read r) (s, m)).2.1 = s := by
  simp only [versioned, List.mem_cons, List.not_mem_nil, or_false] at hr
  rcases hr with rfl | rfl | rfl <;> rfl

/-- A look at any register leaves the hardware alike, whatever it shows. -/
theorem agree_look (r : Register) :
    (h.versions version version').Agree (fun _ _ => True) r.read r.read := by
  rintro ⟨s, m⟩ ⟨s', m'⟩ hs
  obtain rfl : s = s' := hs
  refine ⟨trivial, ?_, .nil⟩
  show (h.withVersion version (.read r) (s, m)).2.1 = (h.withVersion version' (.read r) (s, m')).2.1
  by_cases hr : r ∈ versioned
  · rw [look_versioned hr, look_versioned hr]
  · rw [withVersion_read hr, withVersion_read hr]

/-- Any report is as good as any other. -/
theorem agree_report (m m' : Log.Message) :
    (h.versions version version').Agree Eq (report m) (report m') :=
  fun _ _ hs => ⟨rfl, hs, .nil⟩

theorem agree_keeps (level : Log.Level) :
    (h.versions version version').Agree Eq (keeps level) (keeps level) := by
  rintro ⟨s, m⟩ ⟨s', m'⟩ hs
  obtain rfl : s = s' := hs
  exact ⟨rfl, rfl, .nil⟩

theorem agree_takeOver (platform : Platform) (irqs : List UInt32) (config : Config) :
    (h.versions version version').Agree
      (Results (Alike (.ofWord version) (.ofWord version')))
      (takeOver platform irqs config).run (takeOver platform irqs config).run := by
  have henable : interruptStatusEnable ∉ versioned := by decide
  have hsignal : interruptSignalEnable ∉ versioned := by decide
  have hstatus : interruptStatus ∉ versioned := by decide
  have hneutral : ∀ {α : Type} {d : Action α}, Asks Request.neutral d →
      (h.versions version version').Agree Eq d d :=
    fun hd => agree_of_asks (hd.mono fun _ => indifferent_versions)
  have hversion : (h.versions version version').Agree
      (fun raw raw' => SpecVersion.ofRaw raw = SpecVersion.ofWord version ∧
        SpecVersion.ofRaw raw' = SpecVersion.ofWord version') rawVersion rawVersion :=
    fun _ _ hs => ⟨⟨rfl, rfl⟩, hs, .nil⟩
  have hlatched : Asks Request.neutral latchedStatus :=
    asks_bind (asks_question hstatus) fun _ => asks_pure _
  unfold takeOver
  split
  · exact agree_run_bind (agree_run_lift (agree_report _ _)) fun _ _ _ =>
      agree_pure (Results.error ControllerError.tooManyIrqs)
  · refine agree_run_bind (agree_run_lift hversion) fun raw raw' hraw => ?_
    refine agree_run_bind (agree_run_lift (hneutral (asks_question henable))) fun _ _ _ => ?_
    refine agree_run_bind (agree_run_lift (hneutral (asks_question hsignal))) fun _ _ _ => ?_
    refine agree_run_bind (agree_run_lift (hneutral hlatched)) fun status _ hstatus' => ?_
    obtain rfl := hstatus'
    refine agree_run_bind (agree_run_lift (hneutral (asks_question hstatus))) fun _ _ _ => ?_
    refine agree_run_bind (agree_run_lift (agree_report _ _)) fun _ _ _ => ?_
    refine agree_run_pure ⟨hraw.1, ?_⟩
    rw [← hraw.2]
    rfl

end Host

/-! ### Sessions -/

/-- A call that the versions carry out alike: a submission, a pass, a question that has nothing to
do with the version, or a dump. -/
def Call.shared : Call → Prop
  | operation (.query .dumpRegisters) => True
  | call => call.neutral

namespace Host

variable {h : Host σ} {version version' : UInt32}

section Later

variable (hfirst : SpecVersion.ofWord version = .v1) (hlater : SpecVersion.ofWord version' ≠ .v1)
  (budget : Nat)

include hfirst hlater

theorem drives_of_later :
    Drives (h.versions version version') (.ofWord version) (.ofWord version') := by
  refine drives_versions ?_ ?_
  · rw [hfirst]
    rfl
  · cases hv : SpecVersion.ofWord version' with
    | v1 => exact (hlater hv).elim
    | v2 => rfl
    | v3 => rfl

theorem agree_call {call : Call} (hcall : call.shared) {c c' : Controller}
    (hc : Alike (.ofWord version) (.ofWord version') c c') :
    (h.versions version version').Agree
      (AlikeWith (.ofWord version) (.ofWord version')) (c.call budget call)
      (c'.call budget call) := by
  have hneutral := (drives_of_later (h := h) hfirst hlater).call budget hc call
  cases call with
  | operation op =>
    cases op with
    | query q =>
      cases q with
      | dumpRegisters =>
        refine agree_bind_eq ?_ fun _ => agree_pure (.intro _ hc)
        exact agree_bind_eq (agree_dumpRegisters agree_keeps agree_look agree_report) fun _ =>
          agree_pure rfl
      | _ => exact hneutral hcall
    | _ => exact hneutral hcall
  | _ => exact hneutral hcall

theorem agree_session (platform : Platform) (irqs : List UInt32) (config : Config)
    {calls : List Call} (hcalls : ∀ call ∈ calls, call.shared) :
    (h.versions version version').Agree
      (Results (AlikeWith (.ofWord version) (.ofWord version')))
      (session budget platform irqs config calls) (session budget platform irqs config calls) := by
  refine agree_bind (agree_takeOver platform irqs config) ?_
  rintro _ _ (hc | e)
  · refine agree_bind (agree_callAll budget (fun call hcall _ _ =>
      agree_call hfirst hlater budget (hcalls call hcall)) hc) ?_
    rintro _ _ ⟨replies, hd⟩
    exact agree_pure (.ok (.intro _ hd))
  · exact agree_pure (.error e)

end Later

end Host

/-- **One engine for all versions.**  On the same hardware a controller of version 1 and a later one
come to the same answers and differ in their versions only, the hardware ends alike, and what was
done to it, deliveries and all, is the same once the mixer control is merged into the transfer
type. -/
theorem session_versions (h : Host σ) (version version' : UInt32)
    (hfirst : SpecVersion.ofWord version = .v1) (hlater : SpecVersion.ofWord version' ≠ .v1)
    (budget : Nat) (platform : Platform) (irqs : List UInt32) (config : Config)
    (calls : List Call) (hcalls : ∀ call ∈ calls, call.shared) (s : σ) (m m' : ModeWords) :
    let d := session budget platform irqs config calls
    (run (h.withVersion version') d (s, m')).1 =
      (run (h.withVersion version) d (s, m)).1.map
        (fun r => (r.1, r.2.ofVersion (.ofWord version'))) ∧
    (run (h.withVersion version') d (s, m')).2.1 = (run (h.withVersion version) d (s, m)).2.1 ∧
    doings (exchanges (h.withVersion version') d (s, m')) =
      merged (doings (exchanges (h.withVersion version) d (s, m))) := by
  intro d
  have hstates : (h.versions version version').States (s, m) (s, m') := rfl
  obtain ⟨hresult, hend, hdoings⟩ :=
    Host.agree_session hfirst hlater budget platform irqs config hcalls hstates
  refine ⟨?_, hend.symm, hdoings.merged_eq.symm⟩
  have hmap : ∀ {r r' : Except ControllerError (List Reply × Controller)},
      Results (AlikeWith (.ofWord version) (.ofWord version')) r r' →
      r' = r.map (fun r => (r.1, r.2.ofVersion (.ofWord version'))) := by
    rintro _ _ (⟨replies, hc⟩ | e)
    · rw [hc.other]
      rfl
    · rfl
  exact hmap hresult

/-- One block is read by DMA, on hardware that has moved it as soon as the command is started, by
versions 1 and 2. -/
theorem session_versions_read :
    let h : Host Bench.RegisterFile :=
      { launch := fun f => { f with events := f.events ++ [0x3] }
        reply := Bench.RegisterFile.answer }
    let block : DataPhase := { blockSize := 512, blocks := 1, buffer := .dma 0x1000 }
    let command := (Command.new CommandIndex.readSingleBlock 0 .r1).withData block
    let calls : List Call := [.operation (.send command)]
    let d := session 2 .imx6 [86] { spinLimit := 1 } calls
    let f := Bench.RegisterFile.initial
    SpecVersion.ofWord 0 = .v1 ∧ SpecVersion.ofWord 0x10000 ≠ .v1 ∧
    (∀ call ∈ calls, call.shared) ∧
    (doings (exchanges (h.withVersion 0) d (f, ⟨0, 0⟩))).filterMap Exchange.mixer? = [0x13] ∧
    doings (exchanges (h.withVersion 0x10000) d (f, ⟨0, 0⟩)) =
      merged (doings (exchanges (h.withVersion 0) d (f, ⟨0, 0⟩))) := by
  intro h block command calls d f
  have hcalls : ∀ call ∈ calls, call.shared :=
    List.forall_mem_cons.mpr ⟨trivial, List.forall_mem_nil _⟩
  obtain ⟨-, -, hdoings⟩ := session_versions h 0 0x10000 rfl
    (by decide) 2 .imx6 [86] { spinLimit := 1 } calls hcalls f ⟨0, 0⟩ ⟨0, 0⟩
  exact ⟨rfl, by decide, hcalls, by decide +kernel, hdoings⟩

end SdHost
