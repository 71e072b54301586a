import SdHost.Dialogue

/-!
# Paths through a dialogue

A statement about all surroundings is a statement about all answers.  A *path* is one way through a
dialogue: the questions that were asked, each with its answer, and the result at the end.

* `Dialogue.Exchange` — a question with its answer;
* `Dialogue.Path` — some answers lead through these exchanges to this result;
* `Path.unique` — the answers lead one way;
* `path_bind` — the paths of a composed dialogue are those of its parts, one after the other, and
  `path_run_bind` — until one of them fails;
* `Always` — what holds of every exchange on every path;
* `path_run` — what happens in given surroundings is a path.
-/

namespace SdHost.Dialogue

variable {Q : Type} {A : Q → Type} {α β σ : Type}

/-- A question with its answer. -/
structure Exchange (A : Q → Type) where
  question : Q
  answer : A question

/-- Some answers lead through the exchanges to the result. -/
inductive Path : Dialogue A α → List (Exchange A) → α → Prop where
  | done (a : α) : Path (done a) [] a
  | ask {q : Q} {k : A q → Dialogue A α} {x : A q} {es : List (Exchange A)} {a : α} :
      Path (k x) es a → Path (ask q k) (⟨q, x⟩ :: es) a

@[simp] theorem path_done {a b : α} {es : List (Exchange A)} :
    Path (done a) es b ↔ es = [] ∧ b = a := by
  constructor
  · intro h
    cases h
    exact ⟨rfl, rfl⟩
  · rintro ⟨rfl, rfl⟩
    exact .done _

@[simp] theorem path_ask {q : Q} {k : A q → Dialogue A α} {es : List (Exchange A)} {a : α} :
    Path (ask q k) es a ↔ ∃ x rest, es = ⟨q, x⟩ :: rest ∧ Path (k x) rest a := by
  constructor
  · intro h
    cases h with
    | ask h => exact ⟨_, _, rfl, h⟩
  · rintro ⟨x, rest, rfl, h⟩
    exact .ask h

/-- **The answers lead one way**: of two paths that begin the same exchanges, neither goes on where
the other ends. -/
theorem Path.unique {d : Dialogue A α} {es es' rest rest' : List (Exchange A)} {a a' : α}
    (h : Path d es a) (h' : Path d es' a') (hsplit : es ++ rest = es' ++ rest') :
    es = es' ∧ a = a' := by
  induction h generalizing es' with
  | done a =>
    cases h' with
    | done => exact ⟨rfl, rfl⟩
  | @ask q k x es a _ ih =>
    cases h' with
    | @ask _ _ x' es' _ h' =>
      obtain ⟨hfirst, hrest⟩ := List.cons.inj hsplit
      obtain rfl : x = x' := eq_of_heq (Exchange.mk.inj hfirst).2
      obtain ⟨rfl, rfl⟩ := ih h' hrest
      exact ⟨rfl, rfl⟩

/-- **The paths of a composed dialogue** are the paths of its parts, one after the other. -/
theorem path_bind {d : Dialogue A α} {f : α → Dialogue A β} {es : List (Exchange A)} {b : β} :
    Path (d >>= f) es b ↔
      ∃ first a second, Path d first a ∧ Path (f a) second b ∧ es = first ++ second := by
  induction d generalizing es with
  | done a =>
    constructor
    · intro h
      exact ⟨[], a, es, .done a, h, rfl⟩
    · rintro ⟨first, a', second, hd, hf, rfl⟩
      obtain ⟨rfl, rfl⟩ := path_done.mp hd
      exact hf
  | ask q k ih =>
    rw [ask_bind, path_ask]
    constructor
    · rintro ⟨x, rest, rfl, h⟩
      obtain ⟨first, a, second, hk, hf, rfl⟩ := (ih x).mp h
      exact ⟨⟨q, x⟩ :: first, a, second, .ask hk, hf, rfl⟩
    · rintro ⟨first, a, second, hd, hf, rfl⟩
      obtain ⟨x, rest, rfl, hk⟩ := path_ask.mp hd
      exact ⟨x, rest ++ second, rfl, (ih x).mpr ⟨rest, a, second, hk, hf, rfl⟩⟩

/-- What is made of a result leaves no exchange. -/
theorem path_bind_pure {d : Dialogue A α} {f : α → β} {es : List (Exchange A)} {b : β} :
    Path (d >>= fun a => pure (f a)) es b ↔ ∃ a, Path d es a ∧ b = f a := by
  rw [path_bind]
  constructor
  · rintro ⟨first, a, second, hd, hf, rfl⟩
    obtain ⟨rfl, rfl⟩ := path_done.mp hf
    rw [List.append_nil]
    exact ⟨a, hd, rfl⟩
  · rintro ⟨a, hd, rfl⟩
    exact ⟨es, a, [], hd, .done _, (List.append_nil es).symm⟩

/-- What follows a dialogue matters only where the dialogue can lead. -/
theorem bind_congr_path {d : Dialogue A α} {f g : α → Dialogue A β}
    (h : ∀ es a, Path d es a → f a = g a) : d >>= f = d >>= g := by
  induction d with
  | done a => exact h [] a (.done a)
  | ask q k ih =>
    rw [ask_bind, ask_bind]
    exact congrArg (ask q) (funext fun x => ih x fun es a hpath => h _ a (.ask hpath))

/-- A question is asked once. -/
theorem path_question {q : Q} {es : List (Exchange A)} {x : A q} :
    Path (question q) es x ↔ es = [⟨q, x⟩] := by
  constructor
  · intro h
    obtain ⟨y, rest, rfl, hrest⟩ := path_ask.mp h
    obtain ⟨rfl, rfl⟩ := path_done.mp hrest
    rfl
  · rintro rfl
    exact .ask (.done x)

/-! ### Dialogues that may fail -/

section Failing

variable {ε : Type} {es : List (Exchange A)}

theorem path_run_pure {a : α} {r : Except ε α} :
    Path (pure a : ExceptT ε (Dialogue A) α).run es r ↔ es = [] ∧ r = .ok a :=
  path_done

theorem path_run_throw {e : ε} {r : Except ε α} :
    Path (throw e : ExceptT ε (Dialogue A) α).run es r ↔ es = [] ∧ r = .error e :=
  path_done

/-- A dialogue that may fail goes on only after a success. -/
theorem path_run_bind {d : ExceptT ε (Dialogue A) α} {f : α → ExceptT ε (Dialogue A) β}
    {r : Except ε β} :
    Path (d >>= f).run es r ↔
      (∃ first a second, Path d.run first (.ok a) ∧ Path (f a).run second r ∧
        es = first ++ second) ∨
      ∃ e, Path d.run es (.error e) ∧ r = .error e := by
  rw [ExceptT.run_bind]
  constructor
  · intro h
    obtain ⟨first, x, second, hd, hf, rfl⟩ := path_bind.mp h
    cases x with
    | ok a => exact .inl ⟨first, a, second, hd, hf, rfl⟩
    | error e =>
      obtain ⟨rfl, rfl⟩ := path_done.mp hf
      rw [List.append_nil]
      exact .inr ⟨e, hd, rfl⟩
  · rintro (⟨first, a, second, hd, hf, rfl⟩ | ⟨e, hd, rfl⟩)
    · exact path_bind.mpr ⟨first, .ok a, second, hd, hf, rfl⟩
    · exact path_bind.mpr ⟨es, .error e, [], hd, .done _, (List.append_nil es).symm⟩

/-- A dialogue that cannot fail before one that may. -/
theorem path_run_lift_bind {d : Dialogue A α} {f : α → ExceptT ε (Dialogue A) β}
    {r : Except ε β} :
    Path ((liftM d : ExceptT ε (Dialogue A) α) >>= f).run es r ↔
      ∃ first a second, Path d first a ∧ Path (f a).run second r ∧ es = first ++ second := by
  have hrun : ((liftM d : ExceptT ε (Dialogue A) α) >>= f).run = d >>= fun a => (f a).run :=
    ExceptT.run_bind_lift d f
  rw [hrun, path_bind]

end Failing

/-! ### What holds of every exchange -/

/-- Every exchange of the dialogue has the property, whatever the answers. -/
def Always (P : Exchange A → Prop) (d : Dialogue A α) : Prop :=
  ∀ ⦃es a⦄, Path d es a → ∀ x ∈ es, P x

section Always

variable {P : Exchange A → Prop}

theorem always_pure (a : α) : Always P (pure a : Dialogue A α) := by
  intro es b h x hx
  obtain ⟨rfl, _⟩ := path_done.mp h
  cases hx

theorem always_question {q : Q} (h : ∀ x, P ⟨q, x⟩) : Always P (question (A := A) q) := by
  intro es a hpath x hx
  obtain ⟨answer, rest, rfl, hrest⟩ := path_ask.mp hpath
  obtain ⟨rfl, _⟩ := path_done.mp hrest
  obtain rfl := List.mem_singleton.mp hx
  exact h answer

theorem always_bind {d : Dialogue A α} {f : α → Dialogue A β} (hd : Always P d)
    (hf : ∀ a, Always P (f a)) : Always P (d >>= f) := by
  intro es b h x hx
  obtain ⟨first, a, second, h₁, h₂, rfl⟩ := path_bind.mp h
  rcases List.mem_append.mp hx with hx | hx
  · exact hd h₁ x hx
  · exact hf a h₂ x hx

theorem always_ite {d e : Dialogue A α} (b : Bool) (hd : Always P d) (he : Always P e) :
    Always P (if b then d else e) := by
  cases b
  · exact he
  · exact hd

end Always

/-! ### In given surroundings -/

/-- The exchanges of a dialogue in given surroundings. -/
def exchanges (reply : Surroundings A σ) : Dialogue A α → σ → List (Exchange A)
  | done _, _ => []
  | ask q k, s => ⟨q, (reply q s).1⟩ :: exchanges reply (k (reply q s).1) (reply q s).2

/-- The exchanges of a composed dialogue are those of its parts, one after the other. -/
theorem exchanges_bind (reply : Surroundings A σ) (d : Dialogue A α) (f : α → Dialogue A β)
    (s : σ) : exchanges reply (d >>= f) s =
      exchanges reply d s ++ exchanges reply (f (run reply d s).1) (run reply d s).2 := by
  induction d generalizing s with
  | done a => rfl
  | ask q k ih => exact congrArg (List.cons _) (ih _ _)

/-- What happens in given surroundings is a path. -/
theorem path_run (reply : Surroundings A σ) (d : Dialogue A α) (s : σ) :
    Path d (exchanges reply d s) (run reply d s).1 := by
  induction d generalizing s with
  | done a => exact .done a
  | ask q k ih => exact .ask (ih _ _)

/-- A question is answered by the surroundings in one of their states. -/
theorem answer_of_mem {reply : Surroundings A σ} {d : Dialogue A α} {s : σ} {e : Exchange A}
    (h : e ∈ exchanges reply d s) : ∃ s', e.answer = (reply e.question s').1 := by
  induction d generalizing s with
  | done a => cases h
  | ask q k ih =>
    rcases List.mem_cons.mp h with rfl | h
    · exact ⟨s, rfl⟩
    · exact ih _ h

theorem path_of_run {reply : Surroundings A σ} {d : Dialogue A α} {a : α} {s s' : σ}
    (h : run reply d s = (a, s')) : Path d (exchanges reply d s) a := by
  have hpath := path_run reply d s
  rw [h] at hpath
  exact hpath

end SdHost.Dialogue
