import Otomai.Trace.Program

/-!
# Calls that may fail

A computation on a state makes calls, each of which changes the state or fails; a failed call ends the computation,
and leaves the state as the calls before it have made it.  Which calls fail is not known to the computation.  The
calls are recorded, the latest first, with whether they succeeded.

* `call c`: makes a call.
* `attempt p`: what `p` returns, or that it failed.
* `Leaves f p`: the computation `p` leaves `f` of the state as it is.
* `Triple P p Q E`: from states and records that satisfy `P`, the computation `p` ends with a result in states and
  records that satisfy `Q`, or with an error in states and records that satisfy `E`.
* `Makes P p`: the computation makes calls that satisfy `P` and changes the state by them only.
* `Succeeds p s Q`: if no call fails, the computation has a result.

Triples compose along `>>=` and along loops, so a computation is verified part by part.
-/

namespace Fallible

open Trace

/-- The state, the calls that were made, and which of the next calls will fail; none of those after the last one
told. -/
structure Stage (σ C : Type) where
  state : σ
  calls : List (C × Bool)
  faults : List Bool

end Fallible

/-- A computation on the states `σ` with the calls `C`. -/
def Fallible (σ C α : Type) := Fallible.Stage σ C → Option α × Fallible.Stage σ C

namespace Fallible

open Trace

section

variable {σ C α β : Type}

instance : Monad (Fallible σ C) where
  pure a := fun s => (some a, s)
  bind p k := fun s =>
    match p s with
    | (some a, s') => k a s'
    | (none, s') => (none, s')

/-- Make a call. -/
def call [Acts σ C] (c : C) : Fallible σ C Unit := fun s =>
  if s.faults.headD false then (none, { s with calls := (c, false) :: s.calls, faults := s.faults.tail })
  else (some (), { state := act s.state c, calls := (c, true) :: s.calls, faults := s.faults.tail })

/-- Whether a call fails, the next one being that of number 0. -/
def failsAt : List Bool → Nat → Bool
  | faults, 0 => faults.headD false
  | faults, n + 1 => failsAt faults.tail n

/-- None of the next calls fails. -/
def Pass (faults : List Bool) (n : Nat) : Prop := ∀ k < n, failsAt faults k = false

instance (faults : List Bool) (n : Nat) : Decidable (Pass faults n) :=
  inferInstanceAs (Decidable (∀ k < n, failsAt faults k = false))

theorem pass_zero {faults : List Bool} : Pass faults 0 := fun _ hk => absurd hk (Nat.not_lt_zero _)

theorem pass_succ {faults : List Bool} {n : Nat} :
    Pass faults (n + 1) ↔ failsAt faults 0 = false ∧ Pass faults.tail n := by
  constructor
  · intro h
    exact ⟨h 0 (Nat.succ_pos n), fun k hk => h (k + 1) (Nat.succ_lt_succ hk)⟩
  · rintro ⟨hhead, htail⟩ k hk
    cases k with
    | zero => exact hhead
    | succ k => exact htail k (Nat.lt_of_succ_lt_succ hk)

/-- What is to be found in the state. -/
def read (f : σ → α) : Fallible σ C α := fun s => (some (f s.state), s)

/-- Go on after an error. -/
def attempt (p : Fallible σ C α) : Fallible σ C (Option α) := fun s => (some (p s).1, (p s).2)

theorem bind_run (p : Fallible σ C α) (k : α → Fallible σ C β) (s : Stage σ C) :
    (p >>= k) s = match p s with
      | (some a, s') => k a s'
      | (none, s') => (none, s') := rfl

theorem bind_assoc {γ : Type} (p : Fallible σ C α) (k : α → Fallible σ C β) (l : β → Fallible σ C γ) :
    p >>= k >>= l = p >>= fun a => k a >>= l := by
  funext s
  rw [bind_run, bind_run, bind_run]
  cases p s with
  | mk r s' => cases r <;> rfl

theorem pure_bind (a : α) (k : α → Fallible σ C β) : pure a >>= k = k a := rfl

theorem read_bind (f : σ → β) (k : β → Fallible σ C α) (s : Stage σ C) : (read f >>= k) s = k (f s.state) s := rfl

section

variable [Acts σ C] {c : C} {s : Stage σ C}

theorem state_call : (call c s).2.state = if failsAt s.faults 0 = true then s.state else act s.state c := by
  by_cases h : s.faults.headD false = true
  · rw [call, if_pos h]
    exact (if_pos h).symm
  · rw [call, if_neg h]
    exact (if_neg h).symm

theorem call_bind_of_fault (k : Unit → Fallible σ C α) (h : failsAt s.faults 0 = true) : (call c >>= k) s =
    (none, { s with calls := (c, false) :: s.calls, faults := s.faults.tail }) := by
  have hhead : s.faults.headD false = true := h
  rw [bind_run, call, if_pos hhead]

theorem call_bind (k : Unit → Fallible σ C α) (h : failsAt s.faults 0 = false) : (call c >>= k) s =
    k () { state := act s.state c, calls := (c, true) :: s.calls, faults := s.faults.tail } := by
  have hhead : s.faults.headD false = false := h
  rw [bind_run, call, hhead, if_neg (by decide)]

theorem attempt_call_bind_of_fault (k : Option Unit → Fallible σ C α) (h : failsAt s.faults 0 = true) :
    (attempt (call c) >>= k) s = k none { s with calls := (c, false) :: s.calls, faults := s.faults.tail } := by
  have hhead : s.faults.headD false = true := h
  rw [bind_run, attempt, call, if_pos hhead]

theorem attempt_call_bind (k : Option Unit → Fallible σ C α) (h : failsAt s.faults 0 = false) :
    (attempt (call c) >>= k) s =
      k (some ()) { state := act s.state c, calls := (c, true) :: s.calls, faults := s.faults.tail } := by
  have hhead : s.faults.headD false = false := h
  rw [bind_run, attempt, call, hhead, if_neg (by decide)]

end

/-- From states and records that satisfy `P` the computation ends in some that satisfy `Q`, or with an error in some
that satisfy `E`, whichever of its calls fail. -/
def Triple (P : σ → List (C × Bool) → Prop) (p : Fallible σ C α) (Q : α → σ → List (C × Bool) → Prop)
    (E : σ → List (C × Bool) → Prop) : Prop :=
  ∀ s, P s.state s.calls → match p s with
    | (some a, s') => Q a s'.state s'.calls
    | (none, s') => E s'.state s'.calls

variable {P P' : σ → List (C × Bool) → Prop} {p : Fallible σ C α} {k : α → Fallible σ C β}
  {Q Q' : α → σ → List (C × Bool) → Prop} {R : β → σ → List (C × Bool) → Prop} {E E' : σ → List (C × Bool) → Prop}

namespace Triple

protected theorem pure {a : α} (h : ∀ s t, P s t → Q a s t) : Triple P (pure a : Fallible σ C α) Q E :=
  fun s hs => h s.state s.calls hs

protected theorem bind (hp : Triple P p Q E) (hk : ∀ a, Triple (Q a) (k a) R E) : Triple P (p >>= k) R E := by
  intro s hs
  have h := hp s hs
  rw [bind_run]
  cases hrun : p s with
  | mk r s' =>
    rw [hrun] at h
    cases r with
    | none => exact h
    | some a => exact hk a s' h

protected theorem call [Acts σ C] {c : C} {Q : Unit → σ → List (C × Bool) → Prop}
    (hok : ∀ s t, P s t → Q () (act s c) ((c, true) :: t)) (hfail : ∀ s t, P s t → E s ((c, false) :: t)) :
    Triple P (call c) Q E := by
  intro s hs
  by_cases hfault : s.faults.headD false = true
  · rw [Fallible.call, if_pos hfault]
    exact hfail _ _ hs
  · rw [Fallible.call, if_neg hfault]
    exact hok _ _ hs

protected theorem read {f : σ → α} (h : ∀ s t, P s t → Q (f s) s t) : Triple P (read f) Q E :=
  fun s hs => h s.state s.calls hs

protected theorem attempt {Q : Option α → σ → List (C × Bool) → Prop}
    (hp : Triple P p (fun a => Q (some a)) (Q none)) : Triple P (attempt p) Q E := by
  intro s hs
  have h := hp s hs
  show Q (p s).1 (p s).2.state (p s).2.calls
  cases hrun : p s with
  | mk r s' =>
    rw [hrun] at h
    cases r <;> exact h

theorem mono (hp : Triple P p Q E) (hP : ∀ s t, P' s t → P s t) (hQ : ∀ a s t, Q a s t → Q' a s t)
    (hE : ∀ s t, E s t → E' s t) : Triple P' p Q' E' := by
  intro s hs
  have h := hp s (hP _ _ hs)
  cases hrun : p s with
  | mk r s' =>
    rw [hrun] at h
    cases r with
    | none => exact hE _ _ h
    | some a => exact hQ a _ _ h

theorem pre (hp : Triple P p Q E) (hP : ∀ s t, P' s t → P s t) : Triple P' p Q E :=
  hp.mono hP (fun _ _ _ h => h) fun _ _ h => h

/-- What holds however the computation ends. -/
theorem result {R : σ → List (C × Bool) → Prop} {s : Stage σ C} (hp : Triple P p (fun _ => R) R)
    (hs : P s.state s.calls) : R (p s).2.state (p s).2.calls := by
  have h := hp s hs
  cases hrun : p s with
  | mk r s' =>
    rw [hrun] at h
    cases r <;> exact h

/-- What is known besides the states and the records. -/
theorem of_imp {c : Prop} (h : c → Triple P p Q E) : Triple (fun s t => c ∧ P s t) p Q E :=
  fun s hs => h hs.1 s hs.2

theorem of_exists {ι : Type} {P : ι → σ → List (C × Bool) → Prop} (h : ∀ i, Triple (P i) p Q E) :
    Triple (fun s t => ∃ i, P i s t) p Q E := by
  intro s hs
  obtain ⟨i, hi⟩ := hs
  exact h i s hi

/-- A loop, with what holds before each of its rounds. -/
theorem forM {xs : List β} {f : β → Fallible σ C PUnit} {J : List β → σ → List (C × Bool) → Prop}
    (hf : ∀ x rest, Triple (J (x :: rest)) (f x) (fun _ => J rest) E) :
    Triple (J xs) (xs.forM f) (fun _ => J []) E := by
  induction xs with
  | nil => exact .pure fun s t h => h
  | cons x rest ih => exact (hf x rest).bind fun _ => ih

end Triple

/-! ### What a computation leaves unchanged -/

variable {κ : Type} {f : σ → κ} {k : α → Fallible σ C β}

/-- The computation leaves a part of the state as it is, however it ends. -/
def Leaves (f : σ → κ) (p : Fallible σ C α) : Prop := ∀ s, f (p s).2.state = f s.state

namespace Leaves

protected theorem pure (a : α) : Leaves f (pure a : Fallible σ C α) := fun _ => rfl

/-- What a computation does, if one that leaves it unchanged follows. -/
theorem bind_run (hk : ∀ a, Leaves f (k a)) (s : Stage σ C) : f ((p >>= k) s).2.state = f (p s).2.state := by
  rw [Fallible.bind_run]
  cases hrun : p s with
  | mk r s' =>
    cases r with
    | none => rfl
    | some a => exact hk a s'

protected theorem bind (hp : Leaves f p) (hk : ∀ a, Leaves f (k a)) : Leaves f (p >>= k) :=
  fun s => (bind_run hk s).trans (hp s)

protected theorem call [Acts σ C] {c : C} (h : ∀ s, f (act s c) = f s) : Leaves f (call c) := by
  intro s
  rw [Fallible.call]
  split
  · rfl
  · exact h s.state

protected theorem attempt (hp : Leaves f p) : Leaves f (attempt p) := hp

protected theorem ite {c : Prop} [Decidable c] {p q : Fallible σ C α} (hp : Leaves f p) (hq : Leaves f q) :
    Leaves f (if c then p else q) := by
  split
  · exact hp
  · exact hq

end Leaves

/-! ### Which calls are made -/

section

variable [Acts σ C]

/-- The state after some calls, the latest first. -/
def afterCalls (s : σ) (u : List (C × Bool)) : σ := u.foldr (fun c x => if c.2 then act x c.1 else x) s

theorem afterCalls_append (s : σ) (u v : List (C × Bool)) : afterCalls s (v ++ u) = afterCalls (afterCalls s u) v :=
  List.foldr_append

/-- The calls of the computation satisfy `P`, the state changes by them only, and there is a result if none fails. -/
def Makes (P : C → Prop) (p : Fallible σ C α) : Prop :=
  ∀ s, ∃ u, (∀ c ∈ u, P c.1) ∧ (p s).2.calls = u ++ s.calls ∧ (p s).2.state = afterCalls s.state u ∧
    (s.faults = [] → (p s).1.isSome = true ∧ (p s).2.faults = [])

namespace Makes

variable {P P' : C → Prop} {p : Fallible σ C α} {k : α → Fallible σ C β}

protected theorem pure (a : α) : Makes P (pure a : Fallible σ C α) :=
  fun _ => ⟨[], fun _ hc => absurd hc List.not_mem_nil, rfl, rfl, fun h => ⟨rfl, h⟩⟩

protected theorem call {c : C} (hc : P c) : Makes P (call c : Fallible σ C Unit) := by
  intro s
  by_cases hfault : s.faults.headD false = true
  · refine ⟨[(c, false)], fun d hd => ?_, ?_, ?_, fun hnone => ?_⟩
    · rw [List.mem_singleton.1 hd]
      exact hc
    · rw [Fallible.call, if_pos hfault]
      rfl
    · rw [Fallible.call, if_pos hfault]
      rfl
    · rw [hnone] at hfault
      cases hfault
  · refine ⟨[(c, true)], fun d hd => ?_, ?_, ?_, fun hnone => ?_⟩
    · rw [List.mem_singleton.1 hd]
      exact hc
    · rw [Fallible.call, if_neg hfault]
      rfl
    · rw [Fallible.call, if_neg hfault]
      rfl
    · rw [Fallible.call, if_neg hfault, hnone]
      exact ⟨rfl, rfl⟩

protected theorem read (f : σ → α) : Makes P (read f : Fallible σ C α) :=
  fun _ => ⟨[], fun _ hc => absurd hc List.not_mem_nil, rfl, rfl, fun h => ⟨rfl, h⟩⟩

protected theorem bind (hp : Makes P p) (hk : ∀ a, Makes P (k a)) : Makes P (p >>= k) := by
  intro s
  obtain ⟨u, hu, hcalls, hstate, hend⟩ := hp s
  rw [bind_run]
  cases hrun : p s with
  | mk r s' =>
    rw [hrun] at hcalls hstate hend
    cases r with
    | none =>
      refine ⟨u, hu, hcalls, hstate, fun hnone => ?_⟩
      have hsome := (hend hnone).1
      cases hsome
    | some a =>
      obtain ⟨v, hv, hcalls', hstate', hend'⟩ := hk a s'
      refine ⟨v ++ u, fun c hc => ?_, ?_, ?_, fun hnone => hend' (hend hnone).2⟩
      · exact (List.mem_append.1 hc).elim (hv c) (hu c)
      · rw [hcalls', hcalls, List.append_assoc]
      · rw [hstate', hstate, afterCalls_append]

protected theorem attempt (hp : Makes P p) : Makes P (attempt p) := by
  intro s
  obtain ⟨u, hu, hcalls, hstate, hend⟩ := hp s
  exact ⟨u, hu, hcalls, hstate, fun hnone => ⟨rfl, (hend hnone).2⟩⟩

protected theorem ite {c : Prop} [Decidable c] {q : Fallible σ C α} (hp : Makes P p) (hq : Makes P q) :
    Makes P (if c then p else q) := by
  split
  · exact hp
  · exact hq

protected theorem forM {xs : List β} {f : β → Fallible σ C PUnit} (hf : ∀ x ∈ xs, Makes P (f x)) :
    Makes P (xs.forM f) := by
  induction xs with
  | nil => exact .pure _
  | cons x xs ih => exact (hf x List.mem_cons_self).bind fun _ => ih fun y hy => hf y (List.mem_cons_of_mem x hy)

theorem mono (hp : Makes P p) (h : ∀ c, P c → P' c) : Makes P' p := by
  intro s
  obtain ⟨u, hu, hrest⟩ := hp s
  exact ⟨u, fun c hc => h c.1 (hu c hc), hrest⟩

/-- Whatever the calls are, the state changes by them only. -/
theorem any (hp : Makes P p) : Makes (fun _ => True) p := hp.mono fun _ _ => trivial

/-- What the calls preserve holds however the computation ends. -/
theorem invariant {I : σ → Prop} (hp : Makes P p) (hI : ∀ s c, P c → I s → I (act s c)) {s : Stage σ C}
    (hs : I s.state) : I (p s).2.state := by
  obtain ⟨u, hu, -, hstate, -⟩ := hp s
  rw [hstate]
  clear hstate
  induction u with
  | nil => exact hs
  | cons c u ih =>
    have hrest := ih fun d hd => hu d (List.mem_cons_of_mem c hd)
    show I (if c.2 then act (afterCalls s.state u) c.1 else afterCalls s.state u)
    split
    · exact hI _ _ (hu c List.mem_cons_self) hrest
    · exact hrest

end Makes

end

/-! ### Without failures -/

/-- If no call fails, the computation has a result, which satisfies `Q` with the state and the calls, the latest
first. -/
def Succeeds (p : Fallible σ C α) (s : σ) (Q : α → σ → List (C × Bool) → Prop) : Prop :=
  ∀ t, ∃ a s' u, p ⟨s, t, []⟩ = (some a, ⟨s', u ++ t, []⟩) ∧ Q a s' u

namespace Succeeds

variable {p : Fallible σ C α} {k : α → Fallible σ C β} {s : σ} {Q Q' : α → σ → List (C × Bool) → Prop}
  {R : β → σ → List (C × Bool) → Prop}

protected theorem pure {a : α} (h : Q a s []) : Succeeds (pure a : Fallible σ C α) s Q :=
  fun _ => ⟨a, s, [], rfl, h⟩

protected theorem call [Acts σ C] {c : C} {Q : Unit → σ → List (C × Bool) → Prop} (h : Q () (act s c) [(c, true)]) :
    Succeeds (call c) s Q :=
  fun _ => ⟨(), act s c, [(c, true)], rfl, h⟩

protected theorem read {f : σ → α} (h : Q (f s) s []) : Succeeds (read f) s Q := fun _ => ⟨f s, s, [], rfl, h⟩

protected theorem bind (hp : Succeeds p s fun a s' u => Succeeds (k a) s' fun b s'' v => R b s'' (v ++ u)) :
    Succeeds (p >>= k) s R := by
  intro t
  obtain ⟨a, s', u, hrun, hk⟩ := hp t
  obtain ⟨b, s'', v, hrun', hR⟩ := hk (u ++ t)
  refine ⟨b, s'', v ++ u, ?_, hR⟩
  rw [bind_run, hrun]
  show k a ⟨s', u ++ t, []⟩ = _
  rw [hrun', List.append_assoc]

protected theorem attempt {Q : Option α → σ → List (C × Bool) → Prop}
    (hp : Succeeds p s fun a s' u => Q (some a) s' u) : Succeeds (attempt p) s Q := by
  intro t
  obtain ⟨a, s', u, hrun, hQ⟩ := hp t
  refine ⟨some a, s', u, ?_, hQ⟩
  rw [Fallible.attempt, hrun]

theorem mono (hp : Succeeds p s Q) (h : ∀ a s' u, Q a s' u → Q' a s' u) : Succeeds p s Q' := by
  intro t
  obtain ⟨a, s', u, hrun, hQ⟩ := hp t
  exact ⟨a, s', u, hrun, h a s' u hQ⟩

/-- A loop, with what holds before each of its rounds of the calls so far. -/
theorem forM {xs : List β} {f : β → Fallible σ C PUnit} {J : List β → σ → List (C × Bool) → Prop}
    (hf : ∀ x rest s u, J (x :: rest) s u → Succeeds (f x) s fun _ s' v => J rest s' (v ++ u)) {u : List (C × Bool)}
    (h : J xs s u) : Succeeds (xs.forM f) s fun _ s' v => J [] s' (v ++ u) := by
  induction xs generalizing s u with
  | nil => exact .pure h
  | cons x rest ih =>
    refine .bind ((hf x rest s u h).mono fun _ s' v hv => ?_)
    refine (ih hv).mono fun _ s'' w hw => ?_
    rw [List.append_assoc]
    exact hw

theorem of_makes [Acts σ C] {P : C → Prop} (hp : Makes P p) : Succeeds p s fun _ _ u => ∀ c ∈ u, P c.1 := by
  intro t
  obtain ⟨u, hu, hcalls, -, hend⟩ := hp ⟨s, t, []⟩
  obtain ⟨hsome, hfaults⟩ := hend rfl
  cases hrun : p ⟨s, t, []⟩ with
  | mk r s' =>
    rw [hrun] at hcalls hsome hfaults
    obtain ⟨a, rfl⟩ := Option.isSome_iff_exists.1 hsome
    refine ⟨a, s'.state, u, ?_, hu⟩
    rw [← hfaults, ← hcalls]

end Succeeds

end

end Fallible
