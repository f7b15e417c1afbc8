import Otomai.Trace.Program

/-!
# What a program leaves unchanged

* `Leaves k p s`: started in `s`, the program `p` leaves `k` of the state as it is, however it ends.
* `Keeps k p s`: it also returns.
-/

namespace Trace

section

variable {σ A α β κ : Type} [Acts σ A] {k : σ → κ} {p : Program σ A α} {s : σ}

def Leaves (k : σ → κ) (p : Program σ A α) (s : σ) : Prop := k (after s (p s).trace) = k s

namespace Leaves

open Program

protected theorem pure (a : α) : Leaves k (pure a : Program σ A α) s := rfl

theorem get_bind {f : σ → Program σ A β} (h : Leaves k (f s) s) : Leaves k (Program.get >>= f) s := h

protected theorem perform {a : A} (h : k (act s a) = k s) : Leaves k (perform a : Program σ A Unit) s := h

protected theorem ofOption (o : Option α) : Leaves k (ofOption o : Program σ A α) s := by
  cases o <;> rfl

protected theorem ofEnding (e : Ending α) : Leaves k (ofEnding e : Program σ A α) s := rfl

/-- The second program starts in a state that is the same as far as `k` goes. -/
protected theorem bind {f : α → Program σ A β} (hp : Leaves k p s) (hf : ∀ a s', k s' = k s → Leaves k (f a) s') :
    Leaves k (p >>= f) s := by
  unfold Leaves
  rw [bind_run]
  cases (p s).ending with
  | value a =>
    have hrest := hf a _ hp
    dsimp only
    rw [after_append]
    exact hrest.trans hp
  | panic => exact hp
  | exhausted => exact hp

protected theorem when {c : Prop} [Decidable c] {p : Program σ A Unit} (hp : c → Leaves k p s) :
    Leaves k (when c p) s := by
  unfold Program.when
  split
  · exact hp ‹_›
  · exact .pure ()

theorem forM {xs : List β} {f : β → Program σ A PUnit}
    (hf : ∀ x ∈ xs, ∀ s', k s' = k s → Leaves k (f x) s') : Leaves k (xs.forM f) s := by
  induction xs generalizing s with
  | nil => exact .pure _
  | cons x xs ih =>
    refine .bind (hf x List.mem_cons_self s rfl) fun _ s' hs' => ih fun y hy s'' hs'' => ?_
    exact hf y (List.mem_cons_of_mem x hy) s'' (hs''.trans hs')

/-- What a program leaves behind, if one that leaves it unchanged follows. -/
theorem after_bind {f : α → Program σ A β} (hf : ∀ a, Leaves k (f a) (after s (p s).trace)) :
    k (after s ((p >>= f) s).trace) = k (after s (p s).trace) := by
  rw [bind_run]
  cases (p s).ending with
  | value a =>
    dsimp only
    rw [after_append]
    exact hf a
  | panic => rfl
  | exhausted => rfl

end Leaves

structure Keeps (k : σ → κ) (p : Program σ A α) (s : σ) : Prop where
  returns : ∃ a, (p s).ending = .value a
  same : k (after s (p s).trace) = k s

namespace Keeps

open Program

theorem leaves (h : Keeps k p s) : Leaves k p s := h.same

protected theorem pure (a : α) : Keeps k (pure a : Program σ A α) s := ⟨⟨a, rfl⟩, rfl⟩

theorem get_bind {f : σ → Program σ A β} (h : Keeps k (f s) s) : Keeps k (Program.get >>= f) s :=
  ⟨h.returns, h.same⟩

protected theorem perform {a : A} (h : k (act s a) = k s) : Keeps k (perform a : Program σ A Unit) s := ⟨⟨(), rfl⟩, h⟩

/-- The second program starts in a state that is the same as far as `k` goes. -/
protected theorem bind {f : α → Program σ A β} (hp : Keeps k p s) (hf : ∀ a s', k s' = k s → Keeps k (f a) s') :
    Keeps k (p >>= f) s := by
  obtain ⟨a, ha⟩ := hp.returns
  have hrest := hf a _ hp.same
  obtain ⟨b, hb⟩ := hrest.returns
  have hrun : (p >>= f) s = ⟨(p s).trace ++ (f a (after s (p s).trace)).trace, .value b⟩ := by
    rw [bind_run, ha, ← hb]
  refine ⟨⟨b, ?_⟩, ?_⟩
  · rw [hrun]
  · rw [hrun, after_append, hrest.same, hp.same]

protected theorem when {c : Prop} [Decidable c] {p : Program σ A Unit} (hp : c → Keeps k p s) :
    Keeps k (when c p) s := by
  unfold Program.when
  split
  · exact hp ‹_›
  · exact .pure ()

theorem forM {xs : List β} {f : β → Program σ A PUnit}
    (hf : ∀ x ∈ xs, ∀ s', k s' = k s → Keeps k (f x) s') : Keeps k (xs.forM f) s := by
  induction xs generalizing s with
  | nil => exact .pure _
  | cons x xs ih =>
    refine .bind (hf x List.mem_cons_self s rfl) fun _ s' hs' => ih fun y hy s'' hs'' => ?_
    exact hf y (List.mem_cons_of_mem x hy) s'' (hs''.trans hs')

/-- What a program leaves behind, if one that leaves it unchanged follows. -/
theorem after_bind {a : α} {f : α → Program σ A β} (hp : (p s).ending = .value a)
    (hf : Keeps k (f a) (after s (p s).trace)) : k (after s ((p >>= f) s).trace) = k (after s (p s).trace) := by
  rw [bind_run, hp, after_append, hf.same]

end Keeps

end

end Trace
