import SdHost.Controller.Interrupt

/-!
# Whose command it is

What a status word does to the head of the queue does not depend on whose command it is: who is told
of the end, with which token, and under which ticket.

* `Label`, `Entry.label` — whose command it is;
* `Natural` — a dialogue whose result is that of another one, changed in a fixed way;
* `Entry.natural_advance` — the head goes on in the same way under any label.
-/

namespace SdHost

variable {α β : Type}

/-- Whose command a queued command is. -/
structure Label where
  callback : Option Callback
  token : Nat
  ticket : Ticket
  deriving DecidableEq

namespace Entry

/-- Whose command it is. -/
def label (e : Entry) : Label := ⟨e.callback, e.token, e.ticket⟩

/-- The same command, of somebody else. -/
def withLabel (l : Label) (e : Entry) : Entry :=
  { e with callback := l.callback, token := l.token, ticket := l.ticket }

@[simp] theorem label_withLabel (l : Label) (e : Entry) : (e.withLabel l).label = l := rfl

@[simp] theorem withLabel_label (e : Entry) : e.withLabel e.label = e := rfl

end Entry

/-- Progress of the same command, of somebody else. -/
def Progress.withLabel (l : Label) (p : Progress) : Progress :=
  { p with entry := p.entry.withLabel l }

/-! ### Results that are changed -/

/-- The second dialogue ends with what `f` makes of the result of the first. -/
def Natural (f : α → β) (d : Action α) (d' : Action β) : Prop := d' = f <$> d

section Natural

variable {γ δ : Type} {f : α → β} {g : γ → δ}

theorem natural_pure (a : α) : Natural f (pure a) (pure (f a)) := rfl

/-- A dialogue that stays the same. -/
theorem natural_same (d : Action α) : Natural id d d := (id_map d).symm

/-- What follows on the results. -/
theorem natural_bind {d : Action α} {d' : Action β} {k : α → Action γ} {k' : β → Action δ}
    (hd : Natural f d d') (hk : ∀ a, Natural g (k a) (k' (f a))) :
    Natural g (d >>= k) (d' >>= k') := by
  have hd : d' = f <$> d := hd
  show d' >>= k' = g <$> (d >>= k)
  rw [hd, bind_map_left, map_bind]
  congr 1
  funext a
  exact hk a

/-- What follows on the same dialogue. -/
theorem natural_after (d : Action α) {k : α → Action γ} {k' : α → Action δ}
    (hk : ∀ a, Natural g (k a) (k' a)) : Natural g (d >>= k) (d >>= k') :=
  natural_bind (natural_same d) hk

theorem natural_ite {d e : Action α} {d' e' : Action β} (b : Bool) (hd : Natural f d d')
    (he : Natural f e e') : Natural f (if b then d else e) (if b then d' else e') := by
  cases b
  · exact he
  · exact hd

/-- Two beginnings with the same end. -/
theorem natural_ite_bind {d e : Action α} {d' e' : Action β} {k : α → Action γ} {k' : β → Action δ}
    (b : Bool) (hd : Natural f d d') (he : Natural f e e')
    (hk : ∀ a, Natural g (k a) (k' (f a))) :
    Natural g (if b then d >>= k else e >>= k) (if b then d' >>= k' else e' >>= k') :=
  natural_ite b (natural_bind hd hk) (natural_bind he hk)

end Natural

/-! ### Serving the head -/

namespace Entry

variable (l : Label) (e : Entry)

theorem natural_moveBlock : Natural (withLabel l) e.moveBlock (e.withLabel l).moveBlock := by
  have hmoved : ∀ (m : Log.Message) (e : Entry),
      Natural (withLabel l) (report m >>= fun _ => pure e)
        (report m >>= fun _ => pure (e.withLabel l)) :=
    fun m e => natural_after _ fun _ => natural_pure e
  obtain ⟨⟨index, argument, kind, data, response, completion, errors⟩, _, _, _, _, _, _, first⟩ := e
  rcases data with _ | ⟨size, blocks, address | ⟨id, contents⟩⟩
  · exact natural_pure _
  · exact natural_pure _
  · unfold moveBlock
    dsimp only [withLabel]
    cases Command.direction _ with
    | read => exact natural_after _ fun _ => natural_after _ fun _ => hmoved _ _
    | write => exact natural_after _ fun _ => natural_after _ fun _ => hmoved _ _

theorem natural_receiveResponse :
    Natural (withLabel l) e.receiveResponse (e.withLabel l).receiveResponse :=
  natural_after _ fun _ => natural_pure _

theorem natural_serveBuffer (blocks : Nat) :
    Natural (fun r => (r.1.withLabel l, r.2)) (e.serveBuffer blocks)
      ((e.withLabel l).serveBuffer blocks) :=
  natural_ite _ (natural_bind (e.natural_moveBlock l) fun _ => natural_pure _)
    (natural_after _ fun _ => natural_pure _)

theorem natural_endTransfer : Natural (withLabel l) e.endTransfer (e.withLabel l).endTransfer := by
  refine natural_ite _ ?_ (natural_pure _)
  exact natural_ite _ (natural_pure _) (natural_after _ fun _ => natural_pure _)

theorem natural_conclude (blocks : Nat) :
    Natural (Progress.withLabel l) (e.conclude blocks) ((e.withLabel l).conclude blocks) := by
  refine natural_ite _ ?_ (natural_pure _)
  by_cases hblocks : 0 < blocks
  · simp only [hblocks, if_true]
    exact natural_after _ fun _ => natural_pure _
  · simp only [hblocks, if_false]
    exact natural_pure _

theorem natural_proceed (status : InterruptStatus) (blocks : Nat) :
    Natural (Progress.withLabel l) (e.proceed status blocks)
      ((e.withLabel l).proceed status blocks) := by
  refine natural_ite_bind _ (e.natural_receiveResponse l) (natural_pure _) fun e₁ => ?_
  refine natural_ite _ (natural_pure _) ?_
  refine natural_ite_bind _ (e₁.natural_serveBuffer l blocks) (natural_pure (_, _)) fun r => ?_
  exact natural_ite_bind _ (r.1.natural_endTransfer l) (natural_pure _) fun e₂ =>
    e₂.natural_conclude l _

theorem natural_failWith (status : InterruptStatus) (cause : CommandError) :
    Natural (withLabel l) (e.failWith status cause) ((e.withLabel l).failWith status cause) :=
  natural_ite_bind _ (natural_same _) (natural_same _) fun _ =>
    natural_after _ fun _ => natural_pure _

/-- **The head goes on in the same way** under any label. -/
theorem natural_advance (status : InterruptStatus) (blocks : Nat) :
    Natural (Progress.withLabel l) (e.advance status blocks)
      ((e.withLabel l).advance status blocks) := by
  unfold advance
  cases status.classify with
  | none => exact e.natural_proceed l status blocks
  | some cause => exact natural_bind (e.natural_failWith l status cause) fun _ => natural_pure _

end Entry

end SdHost
