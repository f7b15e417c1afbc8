import Mathlib.Data.List.Basic

/-!
# Programs that act on a state and leave a trace

A program reads the state and performs actions, each of which changes the state and is recorded, in order.  Its run
consists of that trace and of how it ended.  The state after the run is the one the actions of the trace lead to, so
whatever is known of the trace is known of every state the run goes through.

* `Along P s t`: every action of the trace `t` satisfies `P` in the state it is performed in, starting from `s`.
* `Composed B s t`: `t` is a sequence of blocks, each of which satisfies `B` in the state it starts from.
* `Ensures B F p s Q`: the program `p`, started in `s`, leaves a trace composed of blocks, panics only in states
  satisfying `F`, and returns only values and states satisfying `Q`.
* `Returns K p s Q`: the program `p` ends, along a trace that satisfies `K`, with values and states satisfying `Q`.

A program is verified once, against its blocks; an invariant then needs to be checked for the blocks only
(`Composed.invariant`).
-/

namespace Trace

/-- How a program ends: with a value, with a panic, or not at all within the number of nested calls it was given. -/
inductive Ending (α : Type) where
  | value (a : α)
  | panic
  | exhausted
  deriving DecidableEq, Repr

/-- The trace of a program and its end. -/
structure Run (A α : Type) where
  trace : List A
  ending : Ending α
  deriving DecidableEq, Repr

/-- Actions change the state. -/
class Acts (σ : Type) (A : outParam Type) where
  act : σ → A → σ

export Acts (act)

/-- A program over the states `σ` with the actions `A`. -/
def Program (σ A α : Type) := σ → Run A α

section

variable {σ A α β γ : Type} [Acts σ A]

/-! ### Traces -/

/-- The state a trace leads to. -/
def after (s : σ) : List A → σ
  | [] => s
  | a :: t => after (act s a) t

@[simp] theorem after_nil (s : σ) : after s ([] : List A) = s := rfl
@[simp] theorem after_cons (s : σ) (a : A) (t : List A) : after s (a :: t) = after (act s a) t := rfl

@[simp] theorem after_append (s : σ) (t u : List A) : after s (t ++ u) = after (after s t) u := by
  induction t generalizing s with
  | nil => rfl
  | cons a t ih => exact ih (act s a)

/-- Every action of the trace satisfies `P` in the state it is performed in. -/
def Along (P : σ → A → Prop) : σ → List A → Prop
  | _, [] => True
  | s, a :: t => P s a ∧ Along P (act s a) t

variable {P P' : σ → A → Prop} {s : σ} {t u : List A}

@[simp] theorem along_nil : Along P s [] := trivial

@[simp] theorem along_cons {a : A} : Along P s (a :: t) ↔ P s a ∧ Along P (act s a) t := Iff.rfl

@[simp] theorem along_append : Along P s (t ++ u) ↔ Along P s t ∧ Along P (after s t) u := by
  induction t generalizing s with
  | nil => simp
  | cons a t ih =>
    have h := ih (s := act s a)
    simp only [List.cons_append, along_cons, after_cons, h, and_assoc]

instance decidableAlong [∀ s a, Decidable (P s a)] : (s : σ) → (t : List A) → Decidable (Along P s t)
  | _, [] => .isTrue trivial
  | s, a :: t =>
    have := decidableAlong (act s a) t
    inferInstanceAs (Decidable (P s a ∧ Along P (act s a) t))

theorem along_true : Along (fun _ _ => True) s t := by
  induction t generalizing s with
  | nil => trivial
  | cons a t ih => exact ⟨trivial, ih⟩

theorem Along.imp (himp : ∀ s a, P s a → P' s a) (h : Along P s t) : Along P' s t := by
  induction t generalizing s with
  | nil => trivial
  | cons a t ih => exact ⟨himp s a h.1, ih h.2⟩

theorem Along.and (h : Along P s t) (h' : Along P' s t) : Along (fun s a => P s a ∧ P' s a) s t := by
  induction t generalizing s with
  | nil => trivial
  | cons a t ih => exact ⟨⟨h.1, h'.1⟩, ih h.2 h'.2⟩

/-- What holds at the start and is preserved by every action that satisfies `P` holds before every action and at the
end. -/
theorem Along.invariant {I : σ → Prop} (hstep : ∀ s a, I s → P s a → I (act s a)) (h : Along P s t) (hI : I s) :
    Along (fun s _ => I s) s t ∧ I (after s t) := by
  induction t generalizing s with
  | nil => exact ⟨trivial, hI⟩
  | cons a t ih =>
    have hrest := ih h.2 (hstep s a hI h.1)
    exact ⟨⟨hI, hrest.1⟩, hrest.2⟩

/-! ### Blocks -/

/-- A trace made of blocks, each of which may occur in the state it starts from. -/
inductive Composed (B : σ → List A → Prop) : σ → List A → Prop where
  | nil (s : σ) : Composed B s []
  | cons {s : σ} {b t : List A} (hb : B s b) (ht : Composed B (after s b) t) : Composed B s (b ++ t)

namespace Composed

variable {B B' : σ → List A → Prop}

theorem single (hb : B s t) : Composed B s t := by
  have h := cons hb (nil (after s t))
  rwa [List.append_nil] at h

theorem append (ht : Composed B s t) (hu : Composed B (after s t) u) : Composed B s (t ++ u) := by
  induction ht with
  | nil s => exact hu
  | cons hb _ ih =>
    rw [List.append_assoc]
    rw [after_append] at hu
    exact cons hb (ih hu)

theorem mono (hB : ∀ s b, B s b → B' s b) (h : Composed B s t) : Composed B' s t := by
  induction h with
  | nil s => exact nil s
  | cons hb _ ih => exact cons (hB _ _ hb) ih

/-- Blocks that are made of blocks. -/
theorem flatten (hB : ∀ s b, B s b → Composed B' s b) (h : Composed B s t) : Composed B' s t := by
  induction h with
  | nil s => exact nil s
  | cons hb _ ih => exact append (hB _ _ hb) ih

theorem along (hB : ∀ s b, B s b → Along P s b) (h : Composed B s t) : Along P s t := by
  induction h with
  | nil s => trivial
  | cons hb _ ih => exact along_append.2 ⟨hB _ _ hb, ih⟩

theorem preserves {I : σ → Prop} (hstep : ∀ s b, I s → B s b → I (after s b)) (h : Composed B s t) (hI : I s) :
    I (after s t) := by
  induction h with
  | nil s => exact hI
  | cons hb _ ih =>
    rw [after_append]
    exact ih (hstep _ _ hI hb)

/-- An invariant that every block preserves, given that its actions satisfy `P`. -/
theorem invariant {I : σ → Prop} (hstep : ∀ s b, I s → B s b → Along P s b → I (after s b))
    (h : Composed B s t) (hP : Along P s t) (hI : I s) : I (after s t) := by
  induction h with
  | nil s => exact hI
  | cons hb _ ih =>
    have hP' := along_append.1 hP
    rw [after_append]
    exact ih hP'.2 (hstep _ _ hI hb hP'.1)

/-- What every block has along it, started in a state of an invariant that it preserves. -/
theorem along_invariant {I : σ → Prop} (hstep : ∀ s b, I s → B s b → Along P s b → Along P' s b ∧ I (after s b))
    (h : Composed B s t) (hP : Along P s t) (hI : I s) : Along P' s t ∧ I (after s t) := by
  induction h with
  | nil s => exact ⟨trivial, hI⟩
  | cons hb _ ih =>
    have hparts := along_append.1 hP
    obtain ⟨hblock, hafter⟩ := hstep _ _ hI hb hparts.1
    obtain ⟨hrest, hend⟩ := ih hparts.2 hafter
    rw [after_append]
    exact ⟨along_append.2 ⟨hblock, hrest⟩, hend⟩

end Composed

/-! ### Programs -/

namespace Program

instance : Monad (Program σ A) where
  pure a := fun _ => ⟨[], .value a⟩
  bind p k := fun s =>
    match (p s).ending with
    | .value a => ⟨(p s).trace ++ (k a (after s (p s).trace)).trace, (k a (after s (p s).trace)).ending⟩
    | .panic => ⟨(p s).trace, .panic⟩
    | .exhausted => ⟨(p s).trace, .exhausted⟩

/-- Read the state. -/
def get : Program σ A σ := fun s => ⟨[], .value s⟩

/-- Perform an action. -/
def perform (a : A) : Program σ A Unit := fun _ => ⟨[a], .value ()⟩

def panic : Program σ A α := fun _ => ⟨[], .panic⟩

def exhausted : Program σ A α := fun _ => ⟨[], .exhausted⟩

/-- Run the program if the condition holds. -/
def when (c : Prop) [Decidable c] (p : Program σ A Unit) : Program σ A Unit := if c then p else pure ()

/-- The value, or a panic. -/
def ofOption : Option α → Program σ A α
  | some a => pure a
  | none => panic

/-- What a computation without actions ends with. -/
def ofEnding (e : Ending α) : Program σ A α := fun _ => ⟨[], e⟩

@[simp] theorem pure_run (a : α) (s : σ) : (pure a : Program σ A α) s = ⟨[], .value a⟩ := rfl
omit [Acts σ A] in
@[simp] theorem get_run (s : σ) : (get : Program σ A σ) s = ⟨[], .value s⟩ := rfl

omit [Acts σ A] in
@[simp] theorem perform_run (a : A) (s : σ) : perform a s = ⟨[a], .value ()⟩ := rfl

omit [Acts σ A] in
@[simp] theorem panic_run (s : σ) : (panic : Program σ A α) s = ⟨[], .panic⟩ := rfl

omit [Acts σ A] in
@[simp] theorem exhausted_run (s : σ) : (exhausted : Program σ A α) s = ⟨[], .exhausted⟩ := rfl

@[simp] theorem ofOption_some (a : α) : (ofOption (some a) : Program σ A α) = pure a := rfl
@[simp] theorem ofOption_none : (ofOption none : Program σ A α) = panic := rfl

theorem bind_run (p : Program σ A α) (k : α → Program σ A β) (s : σ) :
    (p >>= k) s = match (p s).ending with
      | .value a => ⟨(p s).trace ++ (k a (after s (p s).trace)).trace, (k a (after s (p s).trace)).ending⟩
      | .panic => ⟨(p s).trace, .panic⟩
      | .exhausted => ⟨(p s).trace, .exhausted⟩ := rfl

theorem bind_run_value {p : Program σ A α} {a : α} (h : p s = ⟨t, .value a⟩) (k : α → Program σ A β) :
    (p >>= k) s = ⟨t ++ (k a (after s t)).trace, (k a (after s t)).ending⟩ := by
  rw [bind_run, h]

@[simp] theorem pure_bind_run (a : α) (k : α → Program σ A β) (s : σ) : (pure a >>= k) s = k a s := rfl

@[simp] theorem get_bind_run (k : σ → Program σ A β) (s : σ) : (get >>= k) s = k s s := rfl

@[simp] theorem perform_bind_run (a : A) (k : Unit → Program σ A β) (s : σ) :
    (perform a >>= k) s = ⟨a :: (k () (act s a)).trace, (k () (act s a)).ending⟩ := rfl

@[simp] theorem panic_bind_run (k : α → Program σ A β) (s : σ) :
    ((panic : Program σ A α) >>= k) s = ⟨[], .panic⟩ := rfl

@[simp] theorem exhausted_bind_run (k : α → Program σ A β) (s : σ) :
    ((exhausted : Program σ A α) >>= k) s = ⟨[], .exhausted⟩ := rfl

theorem forM_cons_run (f : β → Program σ A PUnit) (x : β) (xs : List β) (s : σ) :
    (x :: xs).forM f s = (f x >>= fun _ => xs.forM f) s := rfl

/-- What does nothing for any element does nothing for a list. -/
theorem forM_silent {f : β → Program σ A PUnit} {xs : List β} (h : ∀ x ∈ xs, f x s = ⟨[], .value ()⟩) :
    xs.forM f s = ⟨[], .value ()⟩ := by
  induction xs with
  | nil => rfl
  | cons x xs ih =>
    rw [forM_cons_run, bind_run_value (h x List.mem_cons_self), after_nil,
      ih fun y hy => h y (List.mem_cons_of_mem x hy)]
    rfl

theorem forM_perform_trace (g : β → A) (xs : List β) (s : σ) :
    (xs.forM (fun x => perform (g x)) s).trace = xs.map g := by
  induction xs generalizing s with
  | nil => rfl
  | cons x xs ih => rw [forM_cons_run, perform_bind_run, ih, List.map_cons]

/-- What holds along a program followed by another one holds along both. -/
theorem along_bind {P : σ → A → Prop} {p : Program σ A α} {k : α → Program σ A β}
    (h : Along P s ((p >>= k) s).trace) :
    Along P s (p s).trace ∧
      ∀ a, (p s).ending = .value a → Along P (after s (p s).trace) (k a (after s (p s).trace)).trace := by
  rw [bind_run] at h
  cases hp : (p s).ending with
  | value a =>
    rw [hp] at h
    have hparts := along_append.1 h
    refine ⟨hparts.1, fun b hb => ?_⟩
    cases hb
    exact hparts.2
  | panic =>
    rw [hp] at h
    exact ⟨h, nofun⟩
  | exhausted =>
    rw [hp] at h
    exact ⟨h, nofun⟩

end Program

/-! ### Rules -/

/-- The program leaves a trace of blocks, panics only in states that satisfy `F`, and returns only values and states
that satisfy `Q`. -/
structure Ensures (B : σ → List A → Prop) (F : σ → Prop) (p : Program σ A α) (s : σ) (Q : α → σ → Prop) : Prop where
  composed : Composed B s (p s).trace
  fault : (p s).ending = .panic → F (after s (p s).trace)
  post : ∀ a, (p s).ending = .value a → Q a (after s (p s).trace)

namespace Ensures

open Program

variable {B : σ → List A → Prop} {F F' : σ → Prop} {p : Program σ A α} {Q R : α → σ → Prop}

protected theorem pure {a : α} (h : Q a s) : Ensures B F (pure a) s Q where
  composed := .nil s
  fault h := nomatch h
  post _ ha := by cases ha; exact h

protected theorem get {Q : σ → σ → Prop} (h : Q s s) : Ensures B F get s Q where
  composed := .nil s
  fault h := nomatch h
  post _ ha := by cases ha; exact h

protected theorem perform {a : A} {Q : Unit → σ → Prop} (ha : B s [a]) (h : Q () (act s a)) :
    Ensures B F (perform a) s Q where
  composed := .single ha
  fault h := nomatch h
  post _ _ := h

protected theorem panic (h : F s) : Ensures B F panic s Q where
  composed := .nil s
  fault _ := h
  post _ ha := nomatch ha

protected theorem exhausted : Ensures B F exhausted s Q where
  composed := .nil s
  fault h := nomatch h
  post _ ha := nomatch ha

protected theorem ofOption {o : Option α} (hnone : o = none → F s) (hsome : ∀ a, o = some a → Q a s) :
    Ensures B F (ofOption o) s Q := by
  cases o with
  | none => exact .panic (hnone rfl)
  | some a => exact .pure (hsome a rfl)

protected theorem ofEnding {e : Ending α} (hpanic : e = .panic → F s) (hvalue : ∀ a, e = .value a → Q a s) :
    Ensures B F (ofEnding e) s Q where
  composed := .nil s
  fault := hpanic
  post := hvalue

protected theorem when {c : Prop} [Decidable c] {p : Program σ A Unit} {Q : Unit → σ → Prop}
    (hp : c → Ensures B F p s Q) (hskip : ¬c → Q () s) : Ensures B F (when c p) s Q := by
  unfold Program.when
  split
  · exact hp ‹_›
  · exact .pure (hskip ‹_›)

/-- A program whose whole trace is one block. -/
theorem block (hb : B s (p s).trace) (hp : (p s).ending ≠ .panic)
    (hQ : ∀ a, (p s).ending = .value a → Q a (after s (p s).trace)) : Ensures B F p s Q where
  composed := .single hb
  fault h := absurd h hp
  post := hQ

/-- A program that starts with the actions of a block. -/
theorem cons {b : List A} {q : Program σ A α} (hb : B s b)
    (hrun : p s = ⟨b ++ (q (after s b)).trace, (q (after s b)).ending⟩) (hq : Ensures B F q (after s b) Q) :
    Ensures B F p s Q := by
  refine ⟨?_, ?_, ?_⟩ <;> rw [hrun]
  · exact .cons hb hq.composed
  · rw [after_append]
    exact hq.fault
  · rw [after_append]
    exact hq.post

protected theorem bind {k : α → Program σ A β} {R : β → σ → Prop} (hp : Ensures B F p s Q)
    (hk : ∀ a s', Q a s' → Ensures B F (k a) s' R) : Ensures B F (p >>= k) s R := by
  have hcomposed := hp.composed
  have hfault := hp.fault
  have hpost := hp.post
  rcases hrun : p s with ⟨t, ending⟩
  rw [hrun] at hcomposed hfault hpost
  cases ending with
  | value a =>
    have hrest := hk a (after s t) (hpost a rfl)
    refine ⟨?_, ?_, ?_⟩ <;> rw [bind_run_value hrun]
    · exact hcomposed.append hrest.composed
    · rw [after_append]
      exact hrest.fault
    · rw [after_append]
      exact hrest.post
  | panic =>
    have hbind : (p >>= k) s = ⟨t, .panic⟩ := by rw [bind_run, hrun]
    refine ⟨?_, ?_, ?_⟩ <;> rw [hbind]
    · exact hcomposed
    · exact fun _ => hfault rfl
    · exact fun _ h => nomatch h
  | exhausted =>
    have hbind : (p >>= k) s = ⟨t, .exhausted⟩ := by rw [bind_run, hrun]
    refine ⟨?_, ?_, ?_⟩ <;> rw [hbind]
    · exact hcomposed
    · exact fun h => nomatch h
    · exact fun _ h => nomatch h

theorem get_bind {k : σ → Program σ A β} {R : β → σ → Prop} (hk : Ensures B F (k s) s R) :
    Ensures B F (Program.get >>= k) s R :=
  .bind (Q := fun a s' => a = s ∧ s' = s) (.get ⟨rfl, rfl⟩) fun _ _ h => by
    obtain ⟨rfl, rfl⟩ := h
    exact hk

theorem perform_bind {a : A} {k : Unit → Program σ A β} {R : β → σ → Prop} (ha : B s [a])
    (hk : Ensures B F (k ()) (act s a) R) : Ensures B F (Program.perform a >>= k) s R :=
  .bind (Q := fun _ s' => s' = act s a) (.perform ha rfl) fun _ _ h => h ▸ hk

theorem mono (hp : Ensures B F p s Q) (hQ : ∀ a s', Q a s' → R a s') : Ensures B F p s R where
  composed := hp.composed
  fault := hp.fault
  post a ha := hQ _ _ (hp.post a ha)

theorem mono_block {B' : σ → List A → Prop} (hB : ∀ s b, B s b → B' s b) (hp : Ensures B F p s Q) :
    Ensures B' F p s Q where
  composed := hp.composed.mono hB
  fault := hp.fault
  post := hp.post

/-- What every block of a program preserves holds where it returns. -/
theorem frame {I : σ → Prop} (hB : ∀ s b, I s → B s b → I (after s b)) (hp : Ensures B F p s Q) (hI : I s) :
    Ensures B F p s fun a s' => Q a s' ∧ I s' where
  composed := hp.composed
  fault := hp.fault
  post a ha := ⟨hp.post a ha, hp.composed.preserves hB hI⟩

/-- A loop over a list keeps what each of its turns keeps. -/
theorem forM {xs : List β} {f : β → Program σ A PUnit} {J : σ → Prop} (hJ : J s)
    (hf : ∀ x ∈ xs, ∀ s, J s → Ensures B F (f x) s fun _ s' => J s') :
    Ensures B F (xs.forM f) s fun _ s' => J s' := by
  induction xs generalizing s with
  | nil => exact .pure hJ
  | cons x xs ih =>
    have hx := hf x List.mem_cons_self s hJ
    exact .bind hx fun _ s' hs' => ih hs' fun y hy => hf y (List.mem_cons_of_mem x hy)

end Ensures

/-! ### Programs that end -/

open Program

/-- The program does not run out of calls. -/
def Settles (p : Program σ A α) : Prop := ∀ s, (p s).ending ≠ .exhausted

namespace Settles

protected theorem pure (a : α) : Settles (pure a : Program σ A α) := fun _ => nofun

omit [Acts σ A] in
protected theorem perform (a : A) : Settles (perform a : Program σ A Unit) := fun _ => nofun

protected theorem bind {p : Program σ A α} {k : α → Program σ A β} (hp : Settles p) (hk : ∀ a, Settles (k a)) :
    Settles (p >>= k) := by
  intro s
  rw [bind_run]
  cases hend : (p s).ending with
  | value a => exact hk a _
  | panic => nofun
  | exhausted => exact absurd hend (hp s)

theorem get_bind {k : σ → Program σ A β} (hk : ∀ s, Settles (k s)) : Settles (Program.get >>= k) := fun s => hk s s

protected theorem when {c : Prop} [Decidable c] {p : Program σ A Unit} (hp : Settles p) : Settles (when c p) := by
  unfold Program.when
  split
  · exact hp
  · exact .pure ()

theorem forM {xs : List β} {f : β → Program σ A PUnit} (hf : ∀ x, Settles (f x)) : Settles (xs.forM f) := by
  induction xs with
  | nil => exact .pure _
  | cons x xs ih => exact .bind (hf x) fun _ => ih

end Settles

/-- The program `p'` does what `p` does, wherever `p` does not run out of calls. -/
def Extends (p' p : Program σ A α) : Prop := ∀ s, (p s).ending ≠ .exhausted → p' s = p s

namespace Extends

omit [Acts σ A] in
protected theorem refl (p : Program σ A α) : Extends p p := fun _ _ => rfl

theorem bind {p : Program σ A α} {k' k : α → Program σ A β} (hk : ∀ a, Extends (k' a) (k a)) :
    Extends (p >>= k') (p >>= k) := by
  intro s hs
  rw [bind_run, bind_run]
  rw [bind_run] at hs
  cases hend : (p s).ending with
  | value a =>
    rw [hend] at hs
    have hrest := hk a (after s (p s).trace) hs
    simp only [hrest]
  | panic => rfl
  | exhausted => rfl

end Extends

/-- Along a trace that satisfies `K` the program ends with a value, and in a state, that satisfy `Q`. -/
def Returns (K : σ → A → Prop) (p : Program σ A α) (s : σ) (Q : α → σ → Prop) : Prop :=
  Along K s (p s).trace → ∃ a, (p s).ending = .value a ∧ Q a (after s (p s).trace)

namespace Returns

variable {K : σ → A → Prop} {B : σ → List A → Prop} {F : σ → Prop} {p : Program σ A α} {Q R : α → σ → Prop}

protected theorem pure {a : α} (h : Q a s) : Returns K (pure a) s Q := fun _ => ⟨a, rfl, h⟩

theorem get_bind {k : σ → Program σ A β} {R : β → σ → Prop} (hk : Returns K (k s) s R) :
    Returns K (Program.get >>= k) s R := hk

protected theorem perform {a : A} {Q : Unit → σ → Prop} (h : K s a → Q () (act s a)) : Returns K (perform a) s Q :=
  fun halong => ⟨(), rfl, h halong.1⟩

theorem perform_bind {a : A} {k : Unit → Program σ A β} {R : β → σ → Prop}
    (hk : K s a → Returns K (k ()) (act s a) R) : Returns K (Program.perform a >>= k) s R :=
  fun halong => hk halong.1 halong.2

protected theorem bind {k : α → Program σ A β} {R : β → σ → Prop} (hp : Returns K p s Q)
    (hk : ∀ a s', Q a s' → Returns K (k a) s' R) : Returns K (p >>= k) s R := by
  intro halong
  obtain ⟨hfirst, hrest⟩ := along_bind halong
  obtain ⟨a, hvalue, hQ⟩ := hp hfirst
  obtain ⟨b, hend, hR⟩ := hk a _ hQ (hrest a hvalue)
  refine ⟨b, ?_, ?_⟩
  · rw [bind_run, hvalue]
    exact hend
  · rw [bind_run, hvalue]
    simpa using hR

protected theorem when {c : Prop} [Decidable c] {p : Program σ A Unit} {Q : Unit → σ → Prop}
    (hp : c → Returns K p s Q) (hskip : ¬c → Q () s) : Returns K (when c p) s Q := by
  unfold Program.when
  split
  · exact hp ‹_›
  · exact .pure (hskip ‹_›)

theorem mono (hp : Returns K p s Q) (hQ : ∀ a s', Q a s' → R a s') : Returns K p s R := by
  intro halong
  obtain ⟨a, hvalue, h⟩ := hp halong
  exact ⟨a, hvalue, hQ a _ h⟩

theorem forM {xs : List β} {f : β → Program σ A PUnit} {J : σ → Prop} (hJ : J s)
    (hf : ∀ x s, J s → Returns K (f x) s fun _ s' => J s') : Returns K (xs.forM f) s fun _ s' => J s' := by
  induction xs generalizing s with
  | nil => exact .pure hJ
  | cons x xs ih => exact .bind (hf x s hJ) fun _ s' hs' => ih hs'

/-- A program of blocks that keep an invariant without faults returns, if it does not run out of calls. -/
theorem of_ensures {I : σ → Prop} (hp : Ensures B F p s Q) (hsettles : Settles p)
    (hB : ∀ s b, I s → B s b → Along K s b → I (after s b)) (hF : ∀ s, I s → ¬F s) (hI : I s) :
    Returns K p s fun a s' => Q a s' ∧ I s' := by
  intro halong
  have hafter := hp.composed.invariant hB halong hI
  cases hend : (p s).ending with
  | value a => exact ⟨a, rfl, hp.post a hend, hafter⟩
  | panic => exact absurd (hp.fault hend) (hF _ hafter)
  | exhausted => exact absurd hend (hsettles s)

end Returns

end

end Trace
