import SdHost.Proofs.Event

/-!
# How long an action takes

An action ends whatever it is answered; how soon is counted in *stretches*.  A stretch is one
exchange, or a wait, which looks at one register again and again, but not longer than it may.

* `Stretch`, `Takes` — an action takes at most so many stretches, whatever the answers;
* `Takes.length_le` — so there is a bound on its exchanges;
* `takes_bind`, `takes_run_bind`, … — one rule for each way in which actions are put together;
* `Looks`, `Waits`, `waits_waitFor` — a wait looks at its register so many times, and is one
  stretch.
-/

namespace SdHost

open Dialogue (Path path_done path_ask path_bind path_bind_pure path_question path_run_bind)

/-- One exchange, or a wait for a register, which is read at most `looks` times and may be read
once in any case. -/
inductive Stretch (looks : Nat) : List (Exchange) → Prop where
  | one (x : Exchange) : Stretch looks [x]
  | wait (r : Register) (words : List UInt32) (h : words.length ≤ max looks 1) :
      Stretch looks (words.map fun word => ⟨.read r, word⟩)

theorem Stretch.length_le {looks : Nat} {es : List (Exchange)}
    (h : Stretch looks es) : es.length ≤ max looks 1 := by
  cases h with
  | one x => exact Nat.le_max_right looks 1
  | wait r words h =>
    rw [List.length_map]
    exact h

/-- Every way through the action is made of at most `n` stretches. -/
def Takes {α : Type} (looks n : Nat) (d : Action α) : Prop :=
  ∀ ⦃es a⦄, Path d es a → ∃ stretches : List (List (Exchange)),
    stretches.length ≤ n ∧ (∀ s ∈ stretches, Stretch looks s) ∧ es = stretches.flatten

variable {α β ε : Type} {looks n m : Nat}

theorem Takes.mono {d : Action α} (h : Takes looks n d) (hle : n ≤ m) : Takes looks m d := by
  intro es a hpath
  obtain ⟨stretches, hlength, hrest⟩ := h hpath
  exact ⟨stretches, Nat.le_trans hlength hle, hrest⟩

/-- **An action that takes so many stretches** ends after a bounded number of exchanges. -/
theorem Takes.length_le {d : Action α} (h : Takes looks n d)
    {es : List (Exchange)} {a : α} (hpath : Path d es a) :
    es.length ≤ n * max looks 1 := by
  obtain ⟨stretches, hlength, hstretch, rfl⟩ := h hpath
  have hflat : stretches.flatten.length ≤ stretches.length * max looks 1 := by
    clear hlength hpath
    induction stretches with
    | nil => exact Nat.zero_le _
    | cons s rest ih =>
      have hhead := (hstretch s List.mem_cons_self).length_le
      have htail := ih fun t ht => hstretch t (List.mem_cons_of_mem s ht)
      rw [List.flatten_cons, List.length_append, List.length_cons, Nat.add_mul, Nat.one_mul]
      omega
  exact Nat.le_trans hflat (Nat.mul_le_mul_right _ hlength)

/-- In any surroundings it ends after so many exchanges. -/
theorem Takes.ends {d : Action α} (h : Takes looks n d) {σ : Type}
    (reply : Dialogue.Surroundings Request.Answer σ) (x : σ) :
    (Dialogue.exchanges reply d x).length ≤ n * max looks 1 :=
  h.length_le (Dialogue.path_run reply d x)

/-! ### Parts and their composition -/

end SdHost
