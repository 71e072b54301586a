import SdHost.Action
import SdHost.Proofs.Dialogue.Path

/-!
# What is asked

Which questions a dialogue can ask, whatever the answers, is read off its parts.

* `Asks` — every question of a dialogue has a property;
* `asks_bind`, `asks_run_bind`, … — one rule for each way in which dialogues are put together;
* `asks_report_throw`, `asks_refuse` — a failure that is reported.
-/

namespace SdHost.Dialogue

variable {Q : Type} {A : Q → Type} {α β ε σ : Type} {P P' : Q → Prop}

/-- Every question of the dialogue has the property, whatever the answers. -/
def Asks (P : Q → Prop) (d : Dialogue A α) : Prop := Always (fun x => P x.question) d

/-- The first question has the property, if the surroundings can answer it. -/
theorem Asks.question {q : Q} {k : A q → Dialogue A α} (h : Asks P (ask q k))
    (reply : Surroundings A σ) (s : σ) : P q := by
  have hpath := path_run reply (ask q k) s
  exact h hpath _ List.mem_cons_self

/-- The questions after the first have the property. -/
theorem Asks.next {q : Q} {k : A q → Dialogue A α} (h : Asks P (ask q k)) (x : A q) :
    Asks P (k x) := by
  intro es a hpath y hy
  exact h (.ask hpath) y (List.mem_cons_of_mem _ hy)

theorem Asks.mono {d : Dialogue A α} (h : Asks P d) (hP : ∀ q, P q → P' q) : Asks P' d :=
  fun _ _ hpath x hx => hP _ (h hpath x hx)

theorem asks_pure (a : α) : Asks P (pure a : Dialogue A α) := always_pure a

theorem asks_question {q : Q} (h : P q) : Asks P (Dialogue.question (A := A) q) :=
  always_question fun _ => h

theorem asks_bind {d : Dialogue A α} {f : α → Dialogue A β} (hd : Asks P d)
    (hf : ∀ a, Asks P (f a)) : Asks P (d >>= f) :=
  always_bind hd hf

theorem asks_ite {d e : Dialogue A α} (b : Bool) (hd : Asks P d) (he : Asks P e) :
    Asks P (if b then d else e) :=
  always_ite b hd he

/-- Two beginnings with the same end. -/
theorem asks_ite_bind {d e : Dialogue A α} {f : α → Dialogue A β} (b : Bool) (hd : Asks P d)
    (he : Asks P e) (hf : ∀ a, Asks P (f a)) : Asks P (if b then d >>= f else e >>= f) :=
  asks_ite b (asks_bind hd hf) (asks_bind he hf)

/-! ### Dialogues that may fail -/

theorem asks_run_pure (a : α) : Asks P (pure a : ExceptT ε (Dialogue A) α).run := asks_pure _

theorem asks_run_throw (e : ε) : Asks P (throw e : ExceptT ε (Dialogue A) α).run := asks_pure _

theorem asks_run_lift {d : Dialogue A α} (h : Asks P d) :
    Asks P (liftM d : ExceptT ε (Dialogue A) α).run :=
  asks_bind h fun _ => asks_pure _

theorem asks_run_bind {d : ExceptT ε (Dialogue A) α} {f : α → ExceptT ε (Dialogue A) β}
    (hd : Asks P d.run) (hf : ∀ a, Asks P (f a).run) : Asks P (d >>= f).run := by
  refine asks_bind hd fun r => ?_
  cases r with
  | ok a => exact hf a
  | error e => exact asks_pure _

theorem asks_run_ite {d e : ExceptT ε (Dialogue A) α} (b : Bool) (hd : Asks P d.run)
    (he : Asks P e.run) : Asks P (if b then d else e).run := by
  cases b
  · exact he
  · exact hd

/-- Nothing is asked after a failure. -/
theorem asks_run_throw_bind {e : ε} {f : α → ExceptT ε (Dialogue A) β} :
    Asks P ((throw e : ExceptT ε (Dialogue A) α) >>= f).run :=
  asks_pure _

theorem asks_run_unless {b : Bool} {d : ExceptT ε (Dialogue A) Unit} {e : ExceptT ε (Dialogue A) α}
    (hd : Asks P d.run) (he : Asks P e.run) :
    Asks P (if b then e else d >>= fun _ => e).run :=
  asks_run_ite b he (asks_run_bind hd fun _ => he)

theorem asks_run_waitFor {condition : ExceptT ε (Dialogue A) Bool} (limit : Nat)
    (h : Asks P condition.run) : Asks P (waitFor limit condition).run := by
  rw [waitFor]
  induction max limit 1 with
  | zero => exact asks_run_pure _
  | succ tries ih => exact asks_run_bind h fun b => asks_run_ite b (asks_run_pure _) ih

/-! ### Failures -/

variable {P : Request → Prop}

/-- A failure is reported, and nothing is asked afterwards. -/
theorem asks_report_throw (m : Log.Message) (hm : P (.report m)) (cause : ε)
    {f : α → ExceptT ε Action β} :
    Asks P ((liftM (report m) : ExceptT ε Action Unit) >>= fun _ => throw cause >>= f).run :=
  asks_run_bind (asks_run_lift (asks_question hm)) fun _ => asks_run_throw_bind

/-- A failure is reported at the end. -/
theorem asks_refuse (m : Log.Message) (hm : P (.report m)) (cause : ε) :
    Asks P ((liftM (report m) : ExceptT ε Action Unit) >>= fun _ => throw (α := α) cause).run :=
  asks_run_bind (asks_run_lift (asks_question hm)) fun _ => asks_run_throw _

end SdHost.Dialogue
