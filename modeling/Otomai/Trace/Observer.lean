import Otomai.Trace.Program

/-!
# Observers

An observer of a program writes a note down at every action.  The note and the state together are a state again, on
which the same actions act, so a property of traces may speak of the note too.

`Observed K P p x Q`: along a trace that satisfies `K` the actions of the program `p` satisfy `P`, which may speak of
the note, and it returns only values, notes and states satisfying `Q`.
-/

namespace Trace

/-- At an action an observer turns its note into another one. -/
class Observes (γ σ : Type) (A : outParam Type) where
  note : γ → σ → A → γ

export Observes (note)

section

variable {γ σ A α β : Type} [Acts σ A] [Observes γ σ A]

/-- The note and the state. -/
instance : Acts (γ × σ) A where
  act x a := (note x.1 x.2 a, act x.2 a)

@[simp] theorem act_observed (g : γ) (s : σ) (a : A) : act (g, s) a = (note g s a, act s a) := rfl

variable {x : γ × σ} {t : List A}

/-- An observer changes nothing. -/
@[simp] theorem after_observed : (after x t).2 = after x.2 t := by
  induction t generalizing x with
  | nil => rfl
  | cons a t ih => exact ih

theorem along_observed {K : σ → A → Prop} : Along (fun x a => K x.2 a) x t ↔ Along K x.2 t := by
  induction t generalizing x with
  | nil => exact Iff.rfl
  | cons a t ih => exact and_congr_right fun _ => ih

/-- Blocks are blocks for an observer too. -/
theorem Composed.observed {B : σ → List A → Prop} (h : Composed B x.2 t) : Composed (fun x b => B x.2 b) x t := by
  generalize hs : x.2 = s at h
  induction h generalizing x with
  | nil s => exact .nil x
  | cons hb _ ih =>
    subst hs
    exact .cons hb (ih after_observed)

/-- Along a trace that satisfies `K` every action of the program satisfies `P`, and it returns only values, notes and
states that satisfy `Q`. -/
def Observed (K : σ → A → Prop) (P : γ × σ → A → Prop) (p : Program σ A α) (x : γ × σ) (Q : α → γ × σ → Prop) :
    Prop :=
  Along K x.2 (p x.2).trace →
    Along P x (p x.2).trace ∧ ∀ a, (p x.2).ending = .value a → Q a (after x (p x.2).trace)

namespace Observed

open Program

variable {K : σ → A → Prop} {P : γ × σ → A → Prop} {p : Program σ A α} {Q R : α → γ × σ → Prop}

protected theorem pure {a : α} (h : Q a x) : Observed K P (pure a) x Q := by
  refine fun _ => ⟨trivial, fun b hb => ?_⟩
  cases hb
  exact h

theorem get_bind {k : σ → Program σ A β} {R : β → γ × σ → Prop} (hk : Observed K P (k x.2) x R) :
    Observed K P (Program.get >>= k) x R := hk

protected theorem perform {a : A} {Q : Unit → γ × σ → Prop} (h : K x.2 a → P x a ∧ Q () (act x a)) :
    Observed K P (perform a) x Q :=
  fun halong => ⟨⟨(h halong.1).1, trivial⟩, fun _ _ => (h halong.1).2⟩

theorem perform_bind {a : A} {k : Unit → Program σ A β} {R : β → γ × σ → Prop}
    (hk : K x.2 a → P x a ∧ Observed K P (k ()) (act x a) R) : Observed K P (Program.perform a >>= k) x R := by
  intro halong
  obtain ⟨ha, hrest⟩ := hk halong.1
  obtain ⟨htrace, hpost⟩ := hrest halong.2
  exact ⟨⟨ha, htrace⟩, hpost⟩

protected theorem ofOption {o : Option α} (h : ∀ a, o = some a → Q a x) : Observed K P (ofOption o) x Q := by
  cases o with
  | none => exact fun _ => ⟨trivial, nofun⟩
  | some a => exact .pure (h a rfl)

protected theorem ofEnding {e : Ending α} (h : ∀ a, e = .value a → Q a x) : Observed K P (ofEnding e) x Q :=
  fun _ => ⟨trivial, h⟩

protected theorem exhausted : Observed K P exhausted x Q := fun _ => ⟨trivial, nofun⟩

protected theorem bind {k : α → Program σ A β} {R : β → γ × σ → Prop} (hp : Observed K P p x Q)
    (hk : ∀ a x', Q a x' → Observed K P (k a) x' R) : Observed K P (p >>= k) x R := by
  intro halong
  obtain ⟨hfirst, hrest⟩ := along_bind halong
  obtain ⟨htrace, hpost⟩ := hp hfirst
  rw [bind_run]
  cases hend : (p x.2).ending with
  | value a =>
    have hnext := hk a _ (hpost a hend)
    unfold Observed at hnext
    rw [after_observed] at hnext
    obtain ⟨hnext, hlast⟩ := hnext (hrest a hend)
    refine ⟨along_append.2 ⟨htrace, hnext⟩, fun b hb => ?_⟩
    rw [after_append]
    exact hlast b hb
  | panic => exact ⟨htrace, nofun⟩
  | exhausted => exact ⟨htrace, nofun⟩

protected theorem when {c : Prop} [Decidable c] {p : Program σ A Unit} {Q : Unit → γ × σ → Prop}
    (hp : c → Observed K P p x Q) (hskip : ¬c → Q () x) : Observed K P (when c p) x Q := by
  unfold Program.when
  split
  · exact hp ‹_›
  · exact .pure (hskip ‹_›)

/-- Programs that run alike in a state. -/
theorem congr {q : Program σ A α} (h : p x.2 = q x.2) (hq : Observed K P q x Q) : Observed K P p x Q := by
  unfold Observed
  rw [h]
  exact hq

theorem mono (hp : Observed K P p x Q) (hQ : ∀ a x', Q a x' → R a x') : Observed K P p x R := by
  intro halong
  obtain ⟨htrace, hpost⟩ := hp halong
  exact ⟨htrace, fun a ha => hQ a _ (hpost a ha)⟩

theorem forM {xs : List β} {f : β → Program σ A PUnit} {J : γ × σ → Prop} (hJ : J x)
    (hf : ∀ y x, J x → Observed K P (f y) x fun _ x' => J x') : Observed K P (xs.forM f) x fun _ x' => J x' := by
  induction xs generalizing x with
  | nil => exact .pure hJ
  | cons y ys ih => exact .bind (hf y x hJ) fun _ x' hx' => ih hx'

/-- A program of blocks whose actions satisfy `P` and that keep an invariant of the note and the state. -/
theorem of_ensures {B : σ → List A → Prop} {F : σ → Prop} {Q : α → σ → Prop} {I : γ × σ → Prop}
    (hp : Ensures B F p x.2 Q)
    (hB : ∀ x b, I x → B x.2 b → Along K x.2 b → Along P x b ∧ I (after x b)) (hI : I x) :
    Observed K P p x fun a x' => Q a x'.2 ∧ I x' := by
  intro halong
  have hrun := hp.composed.observed.along_invariant (P := fun x a => K x.2 a)
    (fun x b hI hb hK => hB x b hI hb (along_observed.1 hK)) (along_observed.2 halong) hI
  refine ⟨hrun.1, fun a ha => ⟨?_, hrun.2⟩⟩
  rw [after_observed]
  exact hp.post a ha

end Observed

end

end Trace
