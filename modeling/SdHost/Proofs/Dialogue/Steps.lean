import SdHost.Proofs.Dialogue.Looking

/-!
# Steps that may fail

Steps that are made one after the other end with the first that fails.

* `Course`, `Follows` — how a step may go, and an action that goes like that;
* `InOrder`, `follows_bind` — steps in their order, up to the first that fails;
  `InOrder.exists_failed` — that one is the last, and all before it were made;
* `Halts` — a failure leaves these exchanges at the end; one rule for each way in which actions are
  put together.
-/

namespace SdHost

open Dialogue Register

variable {α β ε : Type} {es : List Exchange}

/-! ### Courses -/

/-- How a step may go: what is exchanged, and what comes of it. -/
abbrev Course (ε : Type) := List Exchange → Except ε Unit → Prop

/-- A step that does not fail, with what is exchanged. -/
def Course.sure (done : List Exchange → Prop) : Course ε := fun es out => done es ∧ out = .ok ()

/-- The action goes like that, whatever the answers. -/
def Follows (d : ExceptT ε Action Unit) (course : Course ε) : Prop :=
  ∀ ⦃es out⦄, Path d.run es out → course es out

/-- Steps are made in their order, up to the first that fails. -/
inductive InOrder : List (Course ε) → Course ε where
  /-- No step is left. -/
  | finished : InOrder [] [] (.ok ())
  /-- A step is made, and then the others. -/
  | made {course : Course ε} {courses : List (Course ε)} {first rest : List Exchange}
      {out : Except ε Unit} (h : course first (.ok ())) (hrest : InOrder courses rest out) :
      InOrder (course :: courses) (first ++ rest) out
  /-- A step fails, and that is the end. -/
  | failed {course : Course ε} {courses : List (Course ε)} {first : List Exchange} {e : ε}
      (h : course first (.error e)) : InOrder (course :: courses) first (.error e)

theorem follows_lift {d : Action Unit} {done : List Exchange → Prop}
    (h : ∀ ⦃es⦄, Path d es () → done es) :
    Follows (liftM d : ExceptT ε Action Unit) (Course.sure done) := by
  intro es out hpath
  obtain ⟨u, hd, rfl⟩ := path_bind_pure.mp hpath
  exact ⟨h hd, rfl⟩

/-- One step is a step and no other. -/
theorem follows_one {d : ExceptT ε Action Unit} {course : Course ε} (hd : Follows d course) :
    Follows d (InOrder [course]) := by
  intro es out hpath
  cases out with
  | ok u =>
    rw [← List.append_nil es]
    exact .made (hd hpath) .finished
  | error e => exact .failed (hd hpath)

namespace InOrder

variable {courses more : List (Course ε)} {first second : List Exchange} {out : Except ε Unit}
  {e : ε}

/-- Steps that were made, and steps after them. -/
theorem append (h : InOrder courses first (.ok ())) (hmore : InOrder more second out) :
    InOrder (courses ++ more) (first ++ second) out := by
  generalize hout : (Except.ok () : Except ε Unit) = ended at h
  induction h with
  | finished => exact hmore
  | made hcourse _ ih =>
    rw [List.append_assoc]
    exact .made hcourse (ih hout)
  | failed _ => cases hout

/-- No step follows one that fails. -/
theorem append_failed (h : InOrder courses es (.error e)) :
    InOrder (courses ++ more) es (.error e) := by
  generalize hout : (Except.error e : Except ε Unit) = ended at h
  induction h with
  | finished => cases hout
  | made hcourse _ ih => exact .made hcourse (ih hout)
  | failed hcourse => exact .failed hcourse

/-- Steps that all were made. -/
theorem cons_ok {course : Course ε} (h : InOrder (course :: courses) es (.ok ())) :
    ∃ first rest, es = first ++ rest ∧ course first (.ok ()) ∧ InOrder courses rest (.ok ()) := by
  cases h with
  | made hcourse hrest => exact ⟨_, _, rfl, hcourse, hrest⟩

theorem nil_ok (h : InOrder [] es (.ok () : Except ε Unit)) : es = [] := by
  cases h
  rfl

/-- **A step that fails** is the last that is made; all before it were made. -/
theorem exists_failed (h : InOrder courses es (.error e)) :
    ∃ before course after earlier last, courses = before ++ course :: after ∧
      es = earlier ++ last ∧ InOrder before earlier (.ok ()) ∧ course last (.error e) := by
  generalize hout : (Except.error e : Except ε Unit) = ended at h
  induction h with
  | finished => cases hout
  | @made course courses first rest _ hcourse _ ih =>
    obtain ⟨before, failing, after, earlier, last, rfl, rfl, hbefore, hfailing⟩ := ih hout
    exact ⟨course :: before, failing, after, first ++ earlier, last, rfl,
      (List.append_assoc _ _ _).symm, .made hcourse hbefore, hfailing⟩
  | @failed course courses first _ hcourse =>
    obtain rfl := Except.error.inj hout
    exact ⟨[], course, courses, [], first, rfl, rfl, .finished, hcourse⟩

end InOrder

/-- **Steps and what follows them** are made in their order. -/
theorem follows_bind {d : ExceptT ε Action Unit} {rest : Unit → ExceptT ε Action Unit}
    {courses more : List (Course ε)} (hd : Follows d (InOrder courses))
    (hrest : Follows (rest ()) (InOrder more)) :
    Follows (d >>= rest) (InOrder (courses ++ more)) := by
  intro es out hpath
  rcases path_run_bind.mp hpath with ⟨first, u, second, hfirst, hsecond, rfl⟩ | ⟨e, hfirst, rfl⟩
  · exact (hd hfirst).append (hrest hsecond)
  · exact (hd hfirst).append_failed

/-! ### Waits -/

/-- A wait with its failure, and what follows it. -/
theorem wait_bind (limit : Nat) (condition : ExceptT ε Action Bool) (m : Log.Message) (cause : ε)
    (rest : Unit → ExceptT ε Action α) :
    (waitFor limit condition >>= fun b =>
      if b then rest () else
        (liftM (report m) : ExceptT ε Action Unit) >>= fun _ => throw cause >>= rest) =
    (waitFor limit condition >>= fun b =>
      if b then pure () else
        (liftM (report m) : ExceptT ε Action Unit) >>= fun _ => throw cause) >>= rest := by
  rw [bind_assoc]
  apply congrArg
  funext b
  cases b with
  | true => rw [if_pos rfl, if_pos rfl, pure_bind]
  | false => rw [if_neg Bool.false_ne_true, if_neg Bool.false_ne_true, bind_assoc]

/-- **A wait that may fail** takes its course. -/
theorem follows_wait {r : Register} {holds : UInt32 → Bool} {limit : Nat} {m : Log.Message}
    {cause : ε} {condition : ExceptT ε Action Bool}
    (hsees : Sees r (fun word => .ok (holds word)) condition.run) :
    Follows (waitFor limit condition >>= fun b =>
      if b then pure () else (liftM (report m) : ExceptT ε Action Unit) >>= fun _ => throw cause)
      (Waited r holds limit m cause) :=
  fun _ _ hpath => waited_of_path hsees hpath

theorem follows_wait_bind {r : Register} {holds : UInt32 → Bool} {limit : Nat} {m : Log.Message}
    {cause : ε} {condition : ExceptT ε Action Bool} {rest : Unit → ExceptT ε Action Unit}
    {courses : List (Course ε)} (hsees : Sees r (fun word => .ok (holds word)) condition.run)
    (hrest : Follows (rest ()) (InOrder courses)) :
    Follows (waitFor limit condition >>= fun b =>
      if b then rest () else
        (liftM (report m) : ExceptT ε Action Unit) >>= fun _ => throw cause >>= rest)
      (InOrder (Waited r holds limit m cause :: courses)) := by
  rw [wait_bind]
  exact follows_bind (follows_one (follows_wait hsees)) hrest

/-! ### The end of a failure -/

/-- The exchanges of an action that fails end like that, whatever the answers. -/
def Halts (ends : List Exchange → ε → Prop) (d : ExceptT ε Action α) : Prop :=
  ∀ ⦃es e⦄, Path d.run es (.error e) → ∃ earlier last, es = earlier ++ last ∧ ends last e

section Halts

variable {ends : List Exchange → ε → Prop}

theorem halts_pure (a : α) : Halts ends (pure a : ExceptT ε Action α) := by
  intro es e hpath
  obtain ⟨-, habs⟩ := path_run_pure.mp hpath
  cases habs

theorem halts_throw {e : ε} (h : ends [] e) : Halts ends (throw e : ExceptT ε Action α) := by
  intro es e' hpath
  obtain ⟨rfl, hout⟩ := path_run_throw.mp hpath
  obtain rfl := Except.error.inj hout
  exact ⟨[], [], rfl, h⟩

theorem halts_lift (d : Action α) : Halts ends (liftM d : ExceptT ε Action α) := by
  intro es e hpath
  obtain ⟨a, -, habs⟩ := path_bind_pure.mp hpath
  cases habs

theorem halts_bind {d : ExceptT ε Action α} {f : α → ExceptT ε Action β} (hd : Halts ends d)
    (hf : ∀ a, Halts ends (f a)) : Halts ends (d >>= f) := by
  intro es e hpath
  rcases path_run_bind.mp hpath with ⟨first, a, second, -, hsecond, rfl⟩ | ⟨e', hfirst, hout⟩
  · obtain ⟨earlier, last, rfl, hends⟩ := hf a hsecond
    exact ⟨first ++ earlier, last, (List.append_assoc _ _ _).symm, hends⟩
  · obtain rfl := Except.error.inj hout
    exact hd hfirst

theorem halts_ite {d e : ExceptT ε Action α} (b : Bool) (hd : Halts ends d) (he : Halts ends e) :
    Halts ends (if b then d else e) := by
  cases b
  · exact he
  · exact hd

/-- A step that is made unless it need not be. -/
theorem halts_unless {b : Bool} {d : ExceptT ε Action Unit} {e : ExceptT ε Action α}
    (hd : Halts ends d) (he : Halts ends e) :
    Halts ends (if b then e else d >>= fun _ => e) :=
  halts_ite b he (halts_bind hd fun _ => he)

/-- A wait that fails has looked as often as it may, and says so. -/
theorem halts_wait {r : Register} {holds : UInt32 → Bool} {limit : Nat} {m : Log.Message}
    {cause : ε} {condition : ExceptT ε Action Bool}
    (hsees : Sees r (fun word => .ok (holds word)) condition.run)
    (hends : ∀ {watch}, Watched r holds limit watch false →
      ends (watch ++ [⟨.report m, ()⟩]) cause) :
    Halts ends (waitFor limit condition >>= fun b =>
      if b then pure () else
        (liftM (report m) : ExceptT ε Action Unit) >>= fun _ => throw cause) := by
  intro es e hpath
  cases waited_of_path hsees hpath with
  | never hwatched => exact ⟨[], _, rfl, hends hwatched⟩

theorem halts_wait_bind {r : Register} {holds : UInt32 → Bool} {limit : Nat} {m : Log.Message}
    {cause : ε} {condition : ExceptT ε Action Bool} {rest : Unit → ExceptT ε Action α}
    (hsees : Sees r (fun word => .ok (holds word)) condition.run)
    (hends : ∀ {watch}, Watched r holds limit watch false →
      ends (watch ++ [⟨.report m, ()⟩]) cause) (hrest : Halts ends (rest ())) :
    Halts ends (waitFor limit condition >>= fun b =>
      if b then rest () else
        (liftM (report m) : ExceptT ε Action Unit) >>= fun _ => throw cause >>= rest) := by
  rw [wait_bind]
  exact halts_bind (halts_wait hsees hends) fun _ => hrest

/-- A failure that is seen in one word, and reported. -/
theorem halts_check {r : Register} {f : Field r} {m : Log.Message} {cause : ε}
    {rest : Unit → ExceptT ε Action α} (hrest : Halts ends (rest ()))
    (hends : ∀ {word}, f.isSet word = false →
      ends (readings r [word] ++ [⟨.report m, ()⟩]) cause) :
    Halts ends ((liftM (Register.reads f) : ExceptT ε Action Bool) >>= fun b =>
      if b then rest () else
        (liftM (report m) : ExceptT ε Action Unit) >>= fun _ => throw cause >>= rest) := by
  intro es e hpath
  obtain ⟨first, b, second, hlook, hsecond, rfl⟩ := path_run_lift_bind.mp hpath
  obtain ⟨word, rfl, rfl⟩ := sees_reads f hlook
  cases hword : f.isSet word with
  | true =>
    rw [hword, if_pos rfl] at hsecond
    obtain ⟨earlier, last, rfl, hlast⟩ := hrest hsecond
    exact ⟨readings r [word] ++ earlier, last, (List.append_assoc _ _ _).symm, hlast⟩
  | false =>
    rw [hword, if_neg Bool.false_ne_true] at hsecond
    obtain ⟨told, u, last, htold, hlast, rfl⟩ := path_run_lift_bind.mp hsecond
    obtain rfl := path_question.mp htold
    obtain ⟨rfl, hout⟩ := path_run_throw.mp hlast
    obtain rfl := Except.error.inj hout
    exact ⟨[], _, rfl, hends hword⟩

end Halts

end SdHost
