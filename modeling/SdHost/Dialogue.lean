/-!
# Dialogues

A computation that depends on its surroundings is a *dialogue*: it ends with a result, or asks a
question and goes on with the answer.  Nothing else reaches it from outside, so a statement about
all answers is a statement about all surroundings, and every dialogue ends after finitely many
questions.

* `Dialogue` — the tree of questions, a lawful monad;
* `Dialogue.run` — the result in surroundings that answer from a state, and the state they end in;
  `run_bind` says that parts run one after the other in the same surroundings.
-/

namespace SdHost

/-- A computation that asks questions of type `Q`, the answer to `q` being of type `A q`. -/
inductive Dialogue {Q : Type} (A : Q → Type) (α : Type) where
  /-- The end, with a result. -/
  | done (result : α)
  /-- A question and what follows on its answer. -/
  | ask (question : Q) (next : A question → Dialogue A α)

namespace Dialogue

variable {Q : Type} {A : Q → Type} {α β σ : Type}

/-- Goes on with `f` after the end of a dialogue. -/
def bind : Dialogue A α → (α → Dialogue A β) → Dialogue A β
  | done a, f => f a
  | ask q k, f => ask q fun x => bind (k x) f

instance : Monad (Dialogue A) where
  pure := done
  bind := bind

/-- Asks one question and ends with its answer. -/
def question (q : Q) : Dialogue A (A q) := ask q done

@[simp] theorem pure_eq (a : α) : (pure a : Dialogue A α) = done a := rfl

@[simp] theorem done_bind (a : α) (f : α → Dialogue A β) : (done a >>= f) = f a := rfl

@[simp] theorem ask_bind (q : Q) (k : A q → Dialogue A α) (f : α → Dialogue A β) :
    (ask q k >>= f) = ask q fun x => k x >>= f := rfl

instance : LawfulMonad (Dialogue A) :=
  LawfulMonad.mk' _
    (fun d => by
      induction d with
      | done a => rfl
      | ask q k ih => exact congrArg (ask q) (funext ih))
    (fun _ _ => rfl)
    (fun d f g => by
      induction d with
      | done a => rfl
      | ask q k ih => exact congrArg (ask q) (funext ih))

/-! ### Surroundings -/

/-- Surroundings that answer each question from a state and change the state. -/
abbrev Surroundings (A : Q → Type) (σ : Type) := (q : Q) → σ → A q × σ

/-- The result of a dialogue in given surroundings, and the state they end in. -/
def run (reply : Surroundings A σ) : Dialogue A α → σ → α × σ
  | done a, s => (a, s)
  | ask q k, s =>
    let (x, s) := reply q s
    run reply (k x) s

@[simp] theorem run_done (reply : Surroundings A σ) (a : α) (s : σ) :
    run reply (done a) s = (a, s) := rfl

@[simp] theorem run_ask (reply : Surroundings A σ) (q : Q) (k : A q → Dialogue A α) (s : σ) :
    run reply (ask q k) s = run reply (k (reply q s).1) (reply q s).2 := rfl

/-- Parts of a dialogue run one after the other, the second from the state the first ends in. -/
@[simp] theorem run_bind (reply : Surroundings A σ) (d : Dialogue A α) (f : α → Dialogue A β)
    (s : σ) :
    run reply (d >>= f) s = run reply (f (run reply d s).1) (run reply d s).2 := by
  induction d generalizing s with
  | done a => rfl
  | ask q k ih => exact ih _ _

end Dialogue

end SdHost
