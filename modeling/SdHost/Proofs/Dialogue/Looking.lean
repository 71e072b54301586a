import SdHost.Proofs.Dialogue.Asks
import SdHost.Proofs.Event

/-!
# What is written and what is seen

A step of the driver is known by the registers it writes and by what it has seen when it goes on.

* `writes` — the words that are written, with their registers, in their order; `changing` — a
  register that is read and written back;
* `stored` — the registers after some exchanges, if they keep what is written;
* `Sees` — an action that looks at a register once, and whose result tells what it saw;
* `Watched`, `watched_of_path` — a wait: it ends with the first word that has the property, or has
  looked as often as it may and seen none; `Watched.unique` — the exchanges tell which;
* `Waited`, `waited_of_path` — a wait that fails with a report then.
-/

namespace SdHost

open Dialogue Register

variable {α β ε : Type} {es : List Exchange}

/-- What stands in two lists one after the other stands in one of them. -/
theorem split_append {α : Type} {first second before after : List α} {x : α}
    (h : first ++ second = before ++ x :: after) :
    (∃ between, before = first ++ between ∧ second = between ++ x :: after) ∨
      ∃ later, first = before ++ x :: later := by
  rcases List.append_eq_append_iff.mp h with ⟨between, hbefore, hsecond⟩ | ⟨later, hfirst, hlater⟩
  · exact .inl ⟨between, hbefore, hsecond⟩
  · cases later with
    | nil =>
      rw [List.append_nil] at hfirst
      exact .inl ⟨[], by rw [hfirst, List.append_nil], hlater.symm⟩
    | cons y later =>
      obtain ⟨rfl, -⟩ := List.cons.inj hlater
      exact .inr ⟨later, hfirst⟩

/-! ### Writes -/

/-- The word that an exchange writes, with its register. -/
def Exchange.write? : Exchange → Option (Register × UInt32)
  | ⟨.write r w, _⟩ => some (r, w)
  | _ => none

/-- The words that are written, with their registers. -/
def writes (es : List Exchange) : List (Register × UInt32) := es.filterMap Exchange.write?

@[simp] theorem writes_nil : writes [] = [] := rfl

@[simp] theorem writes_append (first second : List Exchange) :
    writes (first ++ second) = writes first ++ writes second :=
  List.filterMap_append

theorem unwritten_append {first second : List Exchange} (h : writes first = [])
    (h' : writes second = []) : writes (first ++ second) = [] := by
  rw [writes_append, h, h', List.append_nil]

/-- A question that does not write a register. -/
def Request.unwritten : Request → Prop
  | write _ _ => False
  | _ => True

theorem writes_eq_nil (h : ∀ e ∈ es, e.question.unwritten) : writes es = [] := by
  refine List.filterMap_eq_nil_iff.mpr fun e he => ?_
  have hq := h e he
  obtain ⟨question, answer⟩ := e
  cases question with
  | write r w => exact hq.elim
  | _ => rfl

/-- What is written was asked for. -/
theorem forall_writes {P : Request → Prop} {R : Register → Prop} (hP : ∀ r w, P (.write r w) → R r)
    (h : ∀ e ∈ es, P e.question) : ∀ p ∈ writes es, R p.1 := by
  intro p hp
  obtain ⟨e, he, hwrite⟩ := List.mem_filterMap.mp hp
  have hq := h e he
  obtain ⟨question, answer⟩ := e
  cases question with
  | write r w =>
    obtain rfl := Option.some.inj hwrite
    exact hP r w hq
  | _ => cases hwrite

/-- An action that asks for nothing else writes nothing. -/
theorem writes_of_asks {d : Action α} {a : α} (h : Asks Request.unwritten d) (hpath : Path d es a) :
    writes es = [] :=
  writes_eq_nil (h hpath)

/-- The exchanges that change a register: it is read, and written back. -/
def changing {r : Register} (f : FieldValue r) (old : UInt32) : List Exchange :=
  [⟨.read r, old⟩, ⟨.write r (f.applyTo old), ()⟩]

@[simp] theorem writes_changing {r : Register} (f : FieldValue r) (old : UInt32) :
    writes (changing f old) = [(r, f.applyTo old)] := rfl

theorem path_modify {r : Register} {f : FieldValue r} {u : Unit}
    (h : Path (Register.modify f) es u) : ∃ old, es = changing f old := by
  obtain ⟨_, old, _, hread, hwrite, rfl⟩ := path_bind.mp h
  refine ⟨old, ?_⟩
  rw [path_question.mp hread, path_question.mp hwrite]
  rfl

/-! ### Registers that keep what is written -/

/-- The registers after an exchange, if they keep what is written. -/
def Exchange.store (regs : Register → UInt32) : Exchange → Register → UInt32
  | ⟨.write r w, _⟩, r' => if r' = r then w else regs r'
  | _, r' => regs r'

/-- The registers after some exchanges, if they keep what is written. -/
def stored (regs : Register → UInt32) (es : List Exchange) : Register → UInt32 :=
  es.foldl Exchange.store regs

theorem stored_append (regs : Register → UInt32) (first second : List Exchange) :
    stored regs (first ++ second) = stored (stored regs first) second :=
  List.foldl_append

/-- What is written last is there, and nothing else has changed. -/
theorem stored_concat_write (regs : Register → UInt32) (es : List Exchange) (r r' : Register)
    (w : UInt32) :
    stored regs (es ++ [⟨.write r w, ()⟩]) r' = if r' = r then w else stored regs es r' := by
  rw [stored_append]
  rfl

/-- A register that is not written stays as it is. -/
theorem stored_of_apart (regs : Register → UInt32) {r : Register} (h : ∀ p ∈ writes es, p.1 ≠ r) :
    stored regs es r = regs r := by
  induction es generalizing regs with
  | nil => rfl
  | cons x es ih =>
    obtain ⟨question, answer⟩ := x
    cases question with
    | write r' w =>
      obtain ⟨hfirst, hrest⟩ := List.forall_mem_cons.mp h
      exact (ih _ hrest).trans (if_neg (Ne.symm hfirst))
    | _ => exact ih _ h

theorem stored_of_unwritten (regs : Register → UInt32) (h : writes es = []) :
    stored regs es = regs := by
  funext r
  apply stored_of_apart
  rw [h]
  exact List.forall_mem_nil _

/-- What was written to a register last is there. -/
theorem stored_of_writes (regs : Register → UInt32) {r : Register} {w : UInt32}
    (first : List (Register × UInt32)) {last : List (Register × UInt32)}
    (h : writes es = first ++ (r, w) :: last) (hlast : ∀ p ∈ last, p.1 ≠ r) :
    stored regs es r = w := by
  induction es generalizing regs first with
  | nil => exact absurd h (by simp)
  | cons x es ih =>
    obtain ⟨question, answer⟩ := x
    cases question with
    | write r' w' =>
      cases first with
      | nil =>
        obtain ⟨hthis, rfl⟩ := List.cons.inj h
        obtain ⟨rfl, rfl⟩ := Prod.mk.inj hthis
        exact (stored_of_apart _ hlast).trans (if_pos rfl)
      | cons p first => exact ih _ first (List.cons.inj h).2
    | _ => exact ih _ first h

/-- What becomes of a register depends on nothing but its word before. -/
theorem stored_congr {regs regs' : Register → UInt32} {r : Register} (h : regs r = regs' r)
    (es : List Exchange) : stored regs es r = stored regs' es r := by
  induction es generalizing regs regs' with
  | nil => exact h
  | cons x es ih =>
    refine ih ?_
    obtain ⟨question, answer⟩ := x
    cases question with
    | write r' w =>
      show (if r = r' then w else regs r) = if r = r' then w else regs' r
      rw [h]
    | _ => exact h

/-! ### Failing with a report -/

/-- A failure that is reported first. -/
theorem path_report_throw {m : Log.Message} {cause : ε} {out : Except ε α}
    (h : Path ((liftM (report m) : ExceptT ε Action Unit) >>= fun _ => throw cause).run es out) :
    es = [⟨.report m, ()⟩] ∧ out = .error cause := by
  obtain ⟨_, _, _, htold, hthrow, rfl⟩ := path_run_lift_bind.mp h
  obtain rfl := path_question.mp htold
  obtain ⟨rfl, rfl⟩ := path_run_throw.mp hthrow
  exact ⟨rfl, rfl⟩

/-! ### Looking once -/

/-- The reads of one register that gave these words. -/
def readings (r : Register) (words : List UInt32) : List Exchange :=
  words.map fun word => ⟨.read r, word⟩

@[simp] theorem writes_readings (r : Register) (words : List UInt32) :
    writes (readings r words) = [] := by
  refine writes_eq_nil fun e he => ?_
  obtain ⟨word, -, rfl⟩ := List.mem_map.mp he
  trivial

/-- The action looks at the register once, and its result is what it makes of the word. -/
def Sees (r : Register) (f : UInt32 → α) (d : Action α) : Prop :=
  ∀ ⦃es a⦄, Path d es a → ∃ word, es = readings r [word] ∧ a = f word

theorem sees_read (r : Register) : Sees r id r.read :=
  fun _ a h => ⟨a, path_question.mp h, rfl⟩

theorem sees_map {r : Register} {f : UInt32 → α} {d : Action α} (h : Sees r f d) (g : α → β) :
    Sees r (fun word => g (f word)) (d >>= fun a => pure (g a)) := by
  intro es b hpath
  obtain ⟨a, ha, rfl⟩ := path_bind_pure.mp hpath
  obtain ⟨word, rfl, rfl⟩ := h ha
  exact ⟨word, rfl, rfl⟩

theorem sees_reads {r : Register} (f : Field r) : Sees r f.isSet (Register.reads f) :=
  sees_map (sees_read r) f.isSet

theorem sees_run_lift {r : Register} {f : UInt32 → α} {d : Action α} (h : Sees r f d) :
    Sees r (fun word => .ok (f word)) (liftM d : ExceptT ε Action α).run :=
  sees_map h Except.ok

theorem sees_run_map {r : Register} {f : UInt32 → α} {d : ExceptT ε Action α}
    (h : Sees r (fun word => .ok (f word)) d.run) (g : α → β) :
    Sees r (fun word => .ok (g (f word))) (d >>= fun a => pure (g a)).run := by
  intro es out hpath
  rcases path_run_bind.mp hpath with ⟨first, a, second, hfirst, hsecond, rfl⟩ | ⟨e, hfail, -⟩
  · obtain ⟨rfl, rfl⟩ := path_run_pure.mp hsecond
    obtain ⟨word, rfl, ha⟩ := h hfirst
    obtain rfl := Except.ok.inj ha
    exact ⟨word, List.append_nil _, rfl⟩
  · obtain ⟨word, -, habs⟩ := h hfail
    cases habs

/-! ### Waiting -/

/-- The register was watched: its words did not have the property up to the last, which has it, or
the register was looked at as often as `limit` says, and at least once, and no word had it. -/
inductive Watched (r : Register) (holds : UInt32 → Bool) (limit : Nat) :
    List Exchange → Bool → Prop where
  | seen {misses : List UInt32} {last : UInt32} (hlimit : misses.length < max limit 1)
      (hmisses : ∀ word ∈ misses, holds word = false) (hlast : holds last = true) :
      Watched r holds limit (readings r (misses ++ [last])) true
  | unseen {words : List UInt32} (hlimit : words.length = max limit 1)
      (hwords : ∀ word ∈ words, holds word = false) : Watched r holds limit (readings r words) false

theorem Watched.writes {r : Register} {holds : UInt32 → Bool} {limit : Nat} {b : Bool}
    (h : Watched r holds limit es b) : writes es = [] := by
  cases h with
  | seen _ _ _ => exact writes_readings _ _
  | unseen _ _ => exact writes_readings _ _

/-- Two waits that begin the same exchanges come to the same. -/
theorem Watched.unique {r : Register} {holds : UInt32 → Bool} {limit : Nat} {b b' : Bool}
    {first second rest rest' : List Exchange} (h : Watched r holds limit first b)
    (h' : Watched r holds limit second b') (hsplit : first ++ rest = second ++ rest') : b = b' := by
  -- a wait that saw the property is not longer than one that did not
  have hclash : ∀ {misses words : List UInt32} {last : UInt32} {rest rest' : List Exchange},
      misses.length < max limit 1 → holds last = true → words.length = max limit 1 →
      (∀ word ∈ words, holds word = false) →
      readings r (misses ++ [last]) ++ rest = readings r words ++ rest' → False := by
    intro misses words last rest rest' hmisses hlast hwords hnone heq
    have hseen : (⟨.read r, last⟩ : Exchange) ∈
        (readings r (misses ++ [last]) ++ rest).take words.length := by
      rw [List.take_append, List.take_of_length_le]
      · exact List.mem_append_left _ (List.mem_map.mpr ⟨last, by simp, rfl⟩)
      · simp [readings]
        omega
    have hlength : (readings r words).length = words.length := List.length_map _
    rw [heq, ← hlength, List.take_left] at hseen
    obtain ⟨word, hword, hsame⟩ := List.mem_map.mp hseen
    obtain ⟨-, hanswer⟩ := Exchange.mk.inj hsame
    have hlast' := hnone word hword
    rw [eq_of_heq hanswer, hlast] at hlast'
    cases hlast'
  cases h with
  | seen hlimit _ hlast =>
    cases h' with
    | seen _ _ _ => rfl
    | unseen hwords hnone => exact (hclash hlimit hlast hwords hnone hsplit).elim
  | unseen hwords hnone =>
    cases h' with
    | seen hlimit _ hlast => exact (hclash hlimit hlast hwords hnone hsplit.symm).elim
    | unseen _ _ => rfl

/-- A condition that is looked at up to some times: the words seen do not have the property, up to
the last if that one has it. -/
theorem path_lookUpTo {r : Register} {holds : UInt32 → Bool} {tries : Nat}
    {condition : ExceptT ε Action Bool} {out : Except ε Bool}
    (hsees : Sees r (fun word => .ok (holds word)) condition.run)
    (h : Path (lookUpTo condition tries).run es out) :
    (out = .ok true ∧ ∃ misses last, es = readings r (misses ++ [last]) ∧ misses.length < tries ∧
      (∀ word ∈ misses, holds word = false) ∧ holds last = true) ∨
    (out = .ok false ∧ ∃ words, es = readings r words ∧ words.length = tries ∧
      ∀ word ∈ words, holds word = false) := by
  induction tries generalizing es with
  | zero =>
    obtain ⟨rfl, rfl⟩ := path_run_pure.mp h
    exact .inr ⟨rfl, [], rfl, rfl, List.forall_mem_nil _⟩
  | succ tries ih =>
    rcases path_run_bind.mp h with ⟨first, b, second, hfirst, hsecond, rfl⟩ | ⟨e, hfail, -⟩
    · obtain ⟨word, rfl, hb⟩ := hsees hfirst
      obtain rfl := Except.ok.inj hb
      cases hword : holds word with
      | true =>
        rw [hword, if_pos rfl] at hsecond
        obtain ⟨rfl, rfl⟩ := path_run_pure.mp hsecond
        exact .inl ⟨rfl, [], word, rfl, Nat.succ_pos _, List.forall_mem_nil _, hword⟩
      | false =>
        rw [hword, if_neg Bool.false_ne_true] at hsecond
        rcases ih hsecond with ⟨hout, misses, last, rfl, hlength, hmisses, hlast⟩ |
          ⟨hout, words, rfl, hlength, hwords⟩
        · exact .inl ⟨hout, word :: misses, last, rfl, Nat.succ_lt_succ hlength,
            List.forall_mem_cons.mpr ⟨hword, hmisses⟩, hlast⟩
        · exact .inr ⟨hout, word :: words, rfl, congrArg Nat.succ hlength,
            List.forall_mem_cons.mpr ⟨hword, hwords⟩⟩
    · obtain ⟨word, -, habs⟩ := hsees hfail
      cases habs

/-- **A wait** watches its register, and its result is whether the property was seen. -/
theorem watched_of_path {r : Register} {holds : UInt32 → Bool} {limit : Nat}
    {condition : ExceptT ε Action Bool} {out : Except ε Bool}
    (hsees : Sees r (fun word => .ok (holds word)) condition.run)
    (h : Path (waitFor limit condition).run es out) :
    ∃ b, out = .ok b ∧ Watched r holds limit es b := by
  rcases path_lookUpTo hsees h with ⟨hout, misses, last, rfl, hlength, hmisses, hlast⟩ |
    ⟨hout, words, rfl, hlength, hwords⟩
  · exact ⟨true, hout, .seen hlength hmisses hlast⟩
  · exact ⟨false, hout, .unseen hlength hwords⟩

/-- A register was watched, and if the property was not seen this was reported, which is a
failure. -/
inductive Waited (r : Register) (holds : UInt32 → Bool) (limit : Nat) (m : Log.Message)
    (cause : ε) : List Exchange → Except ε Unit → Prop where
  | came {watch : List Exchange} (h : Watched r holds limit watch true) :
      Waited r holds limit m cause watch (.ok ())
  | never {watch : List Exchange} (h : Watched r holds limit watch false) :
      Waited r holds limit m cause (watch ++ [⟨.report m, ()⟩]) (.error cause)

theorem Waited.writes {r : Register} {holds : UInt32 → Bool} {limit : Nat} {m : Log.Message}
    {cause : ε} {out : Except ε Unit} (h : Waited r holds limit m cause es out) :
    writes es = [] := by
  cases h with
  | came h => exact h.writes
  | never h => exact unwritten_append h.writes rfl

/-- **A wait that may fail** watches its register. -/
theorem waited_of_path {r : Register} {holds : UInt32 → Bool} {limit : Nat} {m : Log.Message}
    {cause : ε} {condition : ExceptT ε Action Bool} {out : Except ε Unit}
    (hsees : Sees r (fun word => .ok (holds word)) condition.run)
    (h : Path (waitFor limit condition >>= fun b =>
      if b then pure () else (liftM (report m) : ExceptT ε Action Unit) >>= fun _ =>
        throw cause).run es out) :
    Waited r holds limit m cause es out := by
  rcases path_run_bind.mp h with ⟨watch, b, rest, hwatch, hrest, rfl⟩ | ⟨e, hwatch, -⟩
  · obtain ⟨seen, hseen, hwatched⟩ := watched_of_path hsees hwatch
    obtain rfl := Except.ok.inj hseen
    cases b with
    | true =>
      obtain ⟨rfl, rfl⟩ := path_run_pure.mp hrest
      rw [List.append_nil]
      exact .came hwatched
    | false =>
      obtain ⟨rfl, rfl⟩ := path_report_throw hrest
      exact .never hwatched
  · obtain ⟨seen, hseen, -⟩ := watched_of_path hsees hwatch
    cases hseen

/-! ### The lines -/

/-- Whether a word of the present state says that the command and data lines are free. -/
def PresentState.free (word : UInt32) : Bool :=
  !(PresentState.commandInhibit.isSet word || PresentState.dataInhibit.isSet word)

theorem sees_linesFree : Sees presentState PresentState.free linesFree :=
  sees_map (sees_map (sees_read presentState) _) _

/-- Whether a word of the present state says that no data line is active. -/
def PresentState.quiet (word : UInt32) : Bool := !PresentState.dataLineActive.isSet word

theorem sees_dataLineQuiet : Sees presentState PresentState.quiet dataLineQuiet :=
  sees_map (sees_reads _) _

end SdHost
