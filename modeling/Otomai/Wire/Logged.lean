import Otomai.Wire.Ends

/-!
# Readers that keep a log

A reader may note what it meets on its way.  Without its log it is a reader like any other, and what its entries say
can be compared with the way in which it ends.

* `LogReader.unlogged`: the reader without its log, which composes along `>>=`.
* `LogReader.Explains Q r`: every entry of the log of `r` stands in the relation `Q` to the end of the whole reading.
-/

namespace Wire

/-- A reader that notes entries of a log. -/
def LogReader (ε l α : Type) := Cursor → List l × Outcome ε (α × Cursor)

/-- How a computation ends, whatever its value. -/
def Outcome.ending {ε α : Type} : Outcome ε α → Outcome ε Unit
  | .ok _ => .ok ()
  | .err e => .err e
  | .panic => .panic
  | .exhausted => .exhausted

namespace LogReader

variable {ε l α β γ : Type}

/-- Goes on behind what was read; the new entries come after the old ones. -/
def goOn (k : α → LogReader ε l β) : List l × Outcome ε (α × Cursor) → List l × Outcome ε (β × Cursor)
  | (entries, .ok (a, c)) => (entries ++ (k a c).1, (k a c).2)
  | (entries, .err e) => (entries, .err e)
  | (entries, .panic) => (entries, .panic)
  | (entries, .exhausted) => (entries, .exhausted)

instance : Monad (LogReader ε l) where
  pure a := fun c => ([], .ok (a, c))
  bind r k := fun c => goOn k (r c)

theorem bind_apply (r : LogReader ε l α) (k : α → LogReader ε l β) (c : Cursor) : (r >>= k) c = goOn k (r c) := rfl

/-- A reader that notes nothing. -/
def silent (r : Reader ε α) : LogReader ε l α := fun c => ([], r c)

/-- Notes where `r` begins and how it ends, before what `r` itself notes. -/
def noting (entry : Cursor → Outcome ε Unit → l) (r : LogReader ε l α) : LogReader ε l α := fun c =>
  (entry c (r c).2.ending :: (r c).1, (r c).2)

/-- `n` values one after the other. -/
def replicate (r : LogReader ε l α) : Nat → LogReader ε l (List α)
  | 0 => pure []
  | n + 1 => do
    let a ← r
    let as ← replicate r n
    pure (a :: as)

/-- One value for each description of a list. -/
def forEach (r : γ → LogReader ε l α) : List γ → LogReader ε l (List α)
  | [] => pure []
  | b :: bs => do
    let a ← r b
    let as ← forEach r bs
    pure (a :: as)

/-! ### Without the log -/

def unlogged (r : LogReader ε l α) : Reader ε α := fun c => (r c).2

@[simp] theorem unlogged_pure (a : α) : (pure a : LogReader ε l α).unlogged = pure a := rfl

@[simp] theorem unlogged_silent (r : Reader ε α) : (silent r : LogReader ε l α).unlogged = r := rfl

@[simp] theorem unlogged_noting (entry : Cursor → Outcome ε Unit → l) (r : LogReader ε l α) :
    (noting entry r).unlogged = r.unlogged := rfl

@[simp] theorem unlogged_bind (r : LogReader ε l α) (k : α → LogReader ε l β) :
    (r >>= k).unlogged = r.unlogged >>= fun a => (k a).unlogged := by
  funext c
  change (goOn k (r c)).2 = (r c).2 >>= fun x => (k x.1 x.2).2
  obtain ⟨entries, ending⟩ := r c
  cases ending <;> rfl

@[simp] theorem unlogged_replicate (r : LogReader ε l α) (n : Nat) :
    (replicate r n).unlogged = Reader.replicate r.unlogged n := by
  induction n with
  | zero => rfl
  | succ n ih => simp only [replicate, Reader.replicate, unlogged_bind, unlogged_pure, ih]

@[simp] theorem unlogged_forEach (r : γ → LogReader ε l α) (bs : List γ) :
    (forEach r bs).unlogged = Reader.forEach (fun b => (r b).unlogged) bs := by
  induction bs with
  | nil => rfl
  | cons b bs ih => simp only [forEach, Reader.forEach, unlogged_bind, unlogged_pure, ih]

/-! ### What the entries say -/

/-- Every entry stands in the relation `Q` to the way in which the reading ends. -/
def Explains (Q : l → Outcome ε Unit → Prop) (r : LogReader ε l α) : Prop :=
  ∀ c, ∀ entry ∈ (r c).1, Q entry (r c).2.ending

/-- What may be said of an entry when all went well stays true however the reading goes on. -/
def Lasts (Q : l → Outcome ε Unit → Prop) : Prop := ∀ entry ending, Q entry (.ok ()) → Q entry ending

namespace Explains

variable {Q : l → Outcome ε Unit → Prop}

theorem silent (r : Reader ε α) : Explains Q (silent r) := fun _ _ h => absurd h List.not_mem_nil

theorem pure (a : α) : Explains Q (pure a) := fun _ _ h => absurd h List.not_mem_nil

theorem bind (hQ : Lasts Q) {r : LogReader ε l α} {k : α → LogReader ε l β} (h : Explains Q r)
    (hk : ∀ a, Explains Q (k a)) : Explains Q (r >>= k) := by
  intro c entry hentry
  have hr := h c
  rw [bind_apply] at hentry ⊢
  rcases hend : r c with ⟨entries, x | e | _ | _⟩
  · rw [hend] at hr hentry
    rcases List.mem_append.1 hentry with hfirst | hrest
    · exact hQ entry _ (hr entry hfirst)
    · exact hk x.1 x.2 entry hrest
  · rw [hend] at hr hentry
    exact hr entry hentry
  · rw [hend] at hr hentry
    exact hr entry hentry
  · rw [hend] at hr hentry
    exact hr entry hentry

theorem replicate (hQ : Lasts Q) {r : LogReader ε l α} (h : Explains Q r) (n : Nat) :
    Explains Q (LogReader.replicate r n) := by
  induction n with
  | zero => exact pure []
  | succ n ih => exact bind hQ h fun _ => bind hQ ih fun _ => pure _

theorem forEach (hQ : Lasts Q) {r : γ → LogReader ε l α} {bs : List γ} (h : ∀ b ∈ bs, Explains Q (r b)) :
    Explains Q (LogReader.forEach r bs) := by
  induction bs with
  | nil => exact pure []
  | cons b bs ih =>
    exact bind hQ (h b List.mem_cons_self) fun _ =>
      bind hQ (ih fun b' hb' => h b' (List.mem_cons_of_mem b hb')) fun _ => pure _

theorem noting {entry : Cursor → Outcome ε Unit → l} {r : LogReader ε l α} (h : Explains Q r)
    (hentry : ∀ c, Q (entry c (r.unlogged c).ending) (r.unlogged c).ending) : Explains Q (noting entry r) := by
  intro c e he
  rcases List.mem_cons.1 he with rfl | he
  · exact hentry c
  · exact h c e he

end Explains

end LogReader

end Wire
