import Otomai.Trace.Program

/-!
# What a program may do at all

`Only P p`: from whatever state it is started, the program `p` performs only actions that satisfy `P`.  A program of
blocks is then one of blocks of such actions (`Ensures.only`).
-/

namespace Trace

section

variable {σ A α β : Type} [Acts σ A] {P : A → Prop} {p : Program σ A α}

structure Only (P : A → Prop) (p : Program σ A α) : Prop where
  mem : ∀ s, ∀ a ∈ (p s).trace, P a

namespace Only

open Program

protected theorem pure (a : α) : Only P (pure a : Program σ A α) := ⟨fun _ _ h => by cases h⟩

omit [Acts σ A] in
protected theorem perform {a : A} (h : P a) : Only P (perform a : Program σ A Unit) := by
  refine ⟨fun s b hb => ?_⟩
  rw [List.mem_singleton.1 hb]
  exact h

protected theorem ofOption (o : Option α) : Only P (ofOption o : Program σ A α) := by
  cases o with
  | none => exact ⟨fun _ _ h => by cases h⟩
  | some a => exact .pure a

omit [Acts σ A] in
protected theorem ofEnding (e : Ending α) : Only P (ofEnding e : Program σ A α) := ⟨fun _ _ h => by cases h⟩

theorem get_bind {k : σ → Program σ A β} (hk : ∀ s, Only P (k s)) : Only P (Program.get >>= k) :=
  ⟨fun s => (hk s).mem s⟩

protected theorem bind {k : α → Program σ A β} (hp : Only P p) (hk : ∀ a, Only P (k a)) : Only P (p >>= k) := by
  refine ⟨fun s b hb => ?_⟩
  have hfirst := hp.mem s b
  rw [bind_run] at hb
  cases hend : (p s).ending with
  | value a =>
    simp only [hend, List.mem_append] at hb
    rcases hb with hb | hb
    · exact hfirst hb
    · exact (hk a).mem _ b hb
  | panic =>
    simp only [hend] at hb
    exact hfirst hb
  | exhausted =>
    simp only [hend] at hb
    exact hfirst hb

protected theorem when {c : Prop} [Decidable c] {p : Program σ A Unit} (hp : Only P p) : Only P (when c p) := by
  unfold Program.when
  split
  · exact hp
  · exact .pure ()

theorem forM {xs : List β} {f : β → Program σ A PUnit} (hf : ∀ x, Only P (f x)) : Only P (xs.forM f) := by
  induction xs with
  | nil => exact .pure _
  | cons x xs ih => exact .bind (hf x) fun _ => ih

end Only

variable {B : σ → List A → Prop} {F : σ → Prop} {s : σ} {t : List A} {Q : α → σ → Prop}

theorem Composed.only (h : Composed B s t) (ht : ∀ a ∈ t, P a) :
    Composed (fun s b => B s b ∧ ∀ a ∈ b, P a) s t := by
  induction h with
  | nil s => exact .nil s
  | cons hb _ ih =>
    have hfirst := fun a ha => ht a (List.mem_append_left _ ha)
    have hrest := fun a ha => ht a (List.mem_append_right _ ha)
    exact .cons ⟨hb, hfirst⟩ (ih hrest)

/-- The blocks of a program are made of what it may do. -/
theorem Ensures.only (h : Ensures B F p s Q) (hp : Only P p) :
    Ensures (fun s b => B s b ∧ ∀ a ∈ b, P a) F p s Q where
  composed := h.composed.only (hp.mem s)
  fault := h.fault
  post := h.post

end

end Trace
