import SdHost.Proofs.Dialogue.Asks

/-!
# Dialogues in two surroundings

The same dialogue, or two that resemble each other, can be held in two surroundings.  A *coupling*
says which states of the two correspond and which exchanges do; dialogues *agree* if they lead from
states that correspond to states that correspond, by exchanges that correspond, with results that
are related.

* `Coupling` — two surroundings and what corresponds in them; `besideItself` — the same twice;
* `Coupling.Agree` — dialogues that agree;
* `agree_bind`, `agree_ite`, `agree_run_bind`, … — one rule for each way in which dialogues are put
  together;
* `agree_of_asks` — a dialogue agrees with itself if all its questions do.
-/

namespace SdHost.Dialogue

variable {Q : Type} {A : Q → Type} {α α' β β' ε σ σ' : Type}

/-- Two surroundings, and what corresponds in them. -/
structure Coupling (A : Q → Type) (σ σ' : Type) where
  left : Surroundings A σ
  right : Surroundings A σ'
  /-- The states correspond. -/
  States : σ → σ' → Prop
  /-- What was asked and answered corresponds. -/
  Traces : List (Exchange A) → List (Exchange A) → Prop
  nil : Traces [] []
  append : ∀ {es es' more more'}, Traces es es' → Traces more more' →
    Traces (es ++ more) (es' ++ more')

namespace Coupling

/-- Surroundings beside themselves, in states that are the same. -/
def besideItself (reply : Surroundings A σ) (same : σ → σ → Prop) : Coupling A σ σ where
  left := reply
  right := reply
  States := same
  Traces := Eq
  nil := rfl
  append h h' := by rw [h, h']

variable (K : Coupling A σ σ')

/-- How two dialogues end that were begun in two states. -/
structure Ends (S : α → α' → Prop) (d : Dialogue A α) (d' : Dialogue A α') (s : σ) (s' : σ') :
    Prop where
  result : S (run K.left d s).1 (run K.right d' s').1
  states : K.States (run K.left d s).2 (run K.right d' s').2
  traces : K.Traces (exchanges K.left d s) (exchanges K.right d' s')

/-- From states that correspond, the dialogues come to results that are related, in states that
correspond, by exchanges that correspond. -/
def Agree (S : α → α' → Prop) (d : Dialogue A α) (d' : Dialogue A α') : Prop :=
  ∀ ⦃s s'⦄, K.States s s' → K.Ends S d d' s s'

/-- The question has the same answer in states that correspond. -/
def Indifferent (q : Q) : Prop := K.Agree Eq (question (A := A) q) (question q)

variable {K} {S S' : α → α' → Prop} {T : β → β' → Prop}

theorem Agree.mono {d : Dialogue A α} {d' : Dialogue A α'} (h : K.Agree S d d')
    (hS : ∀ a a', S a a' → S' a a') : K.Agree S' d d' := by
  intro s s' hs
  obtain ⟨hresult, hstates, htraces⟩ := h hs
  exact ⟨hS _ _ hresult, hstates, htraces⟩

theorem agree_pure {a : α} {a' : α'} (h : S a a') :
    K.Agree S (pure a : Dialogue A α) (pure a' : Dialogue A α') :=
  fun _ _ hs => ⟨h, hs, K.nil⟩

/-- **Parts agree one after the other.** -/
theorem agree_bind {d : Dialogue A α} {d' : Dialogue A α'} {f : α → Dialogue A β}
    {f' : α' → Dialogue A β'} (hd : K.Agree S d d')
    (hf : ∀ a a', S a a' → K.Agree T (f a) (f' a')) :
    K.Agree T (d >>= f) (d' >>= f') := by
  intro s s' hs
  obtain ⟨hresult, hstates, htraces⟩ := hd hs
  obtain ⟨hresult', hstates', htraces'⟩ := hf _ _ hresult hstates
  refine ⟨?_, ?_, ?_⟩
  · rw [run_bind, run_bind]
    exact hresult'
  · rw [run_bind, run_bind]
    exact hstates'
  · rw [exchanges_bind, exchanges_bind]
    exact K.append htraces htraces'

/-- What follows on equal results. -/
theorem agree_bind_eq {d d' : Dialogue A α} {f : α → Dialogue A β} {f' : α → Dialogue A β'}
    (hd : K.Agree Eq d d') (hf : ∀ a, K.Agree T (f a) (f' a)) :
    K.Agree T (d >>= f) (d' >>= f') := by
  refine agree_bind hd fun a a' h => ?_
  rw [← h]
  exact hf a

theorem agree_ite {d e : Dialogue A α} {d' e' : Dialogue A α'} (b : Bool) (hd : K.Agree S d d')
    (he : K.Agree S e e') : K.Agree S (if b then d else e) (if b then d' else e') := by
  cases b
  · exact he
  · exact hd

/-- **A dialogue agrees with itself** if all its questions do. -/
theorem agree_of_asks {d : Dialogue A α} (h : Asks K.Indifferent d) : K.Agree Eq d d := by
  induction d with
  | done a => exact agree_pure rfl
  | ask q k ih =>
    intro s s' hs
    have hq : K.Indifferent q := h.question K.left s
    have hrest : K.Agree Eq (question q >>= k) (question q >>= k) :=
      agree_bind_eq hq fun x => ih x (h.next x)
    exact hrest hs

/-! ### Dialogues that may fail -/

/-- Two results that may be failures are related: both are results that are, or the same failure. -/
inductive Results (S : α → α' → Prop) : Except ε α → Except ε α' → Prop where
  | ok {a : α} {a' : α'} (h : S a a') : Results S (.ok a) (.ok a')
  | error (e : ε) : Results S (.error e) (.error e)

theorem agree_run_pure {a : α} {a' : α'} (h : S a a') :
    K.Agree (Results S) (pure a : ExceptT ε (Dialogue A) α).run
      (pure a' : ExceptT ε (Dialogue A) α').run :=
  agree_pure (.ok h)

theorem agree_run_throw (e : ε) :
    K.Agree (Results S) (throw e : ExceptT ε (Dialogue A) α).run
      (throw e : ExceptT ε (Dialogue A) α').run :=
  agree_pure (.error e)

theorem agree_run_lift {d : Dialogue A α} {d' : Dialogue A α'} (h : K.Agree S d d') :
    K.Agree (Results S) (liftM d : ExceptT ε (Dialogue A) α).run
      (liftM d' : ExceptT ε (Dialogue A) α').run :=
  agree_bind h fun _ _ ha => agree_pure (.ok ha)

/-- **Parts agree one after the other**, until one fails. -/
theorem agree_run_bind {d : ExceptT ε (Dialogue A) α} {d' : ExceptT ε (Dialogue A) α'}
    {f : α → ExceptT ε (Dialogue A) β} {f' : α' → ExceptT ε (Dialogue A) β'}
    (hd : K.Agree (Results S) d.run d'.run)
    (hf : ∀ a a', S a a' → K.Agree (Results T) (f a).run (f' a').run) :
    K.Agree (Results T) (d >>= f).run (d' >>= f').run := by
  refine agree_bind hd fun r r' h => ?_
  cases h with
  | ok h => exact hf _ _ h
  | error e => exact agree_pure (.error e)

theorem agree_run_ite {d e : ExceptT ε (Dialogue A) α} {d' e' : ExceptT ε (Dialogue A) α'}
    (b : Bool) (hd : K.Agree (Results S) d.run d'.run) (he : K.Agree (Results S) e.run e'.run) :
    K.Agree (Results S) (if b then d else e).run (if b then d' else e').run := by
  cases b
  · exact he
  · exact hd

/-- Equal results are related. -/
theorem agree_results {d d' : Dialogue A (Except ε α)} (h : K.Agree Eq d d') :
    K.Agree (Results Eq) d d' := by
  refine h.mono fun r r' hr => ?_
  rw [← hr]
  cases r with
  | ok a => exact .ok rfl
  | error e => exact .error e

/-- Results that are related by equality are equal. -/
theorem agree_of_results {d d' : Dialogue A (Except ε α)} (h : K.Agree (Results Eq) d d') :
    K.Agree Eq d d' := by
  refine h.mono fun r r' hr => ?_
  cases hr with
  | ok h => rw [h]
  | error e => rfl

end Coupling

end SdHost.Dialogue
