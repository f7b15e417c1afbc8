import Mathlib.Data.List.AList
import Otomai.Wire.Ends

/-!
# Shared tables of results

Some threads compute a function and share a table of its results.  A thread looks a key up, computes the result if it
is not there, and stores it; between any two of these steps other threads may take theirs, so a result may be computed
more than once.

* `Inv.run`: the table holds results of the function only, and every answer is one.
* `lookup_run`: what is in the table stays.
* `ended_of_turns`: a thread is done after three steps, whatever the others do.
-/

namespace Memo

open Wire (Outcome)

variable {κ β ε : Type} [DecidableEq κ] (f : κ → Outcome ε β)

/-- How far a thread is. -/
inductive Thread (κ β : Type) where
  | asked (key : κ)
  | missed (key : κ)
  | computed (key : κ) (value : β)
  | answered (key : κ) (answer : Option β)
  | failed (key : κ)

structure Table (κ β : Type) where
  stored : AList fun _ : κ => β
  threads : List (Thread κ β)

inductive Event (κ : Type) where
  | ask (key : κ)
  | turn (i : Nat)

/-- The next step of a thread. -/
def advance (stored : AList fun _ : κ => β) : Thread κ β → (AList fun _ : κ => β) × Thread κ β
  | .asked key =>
    match stored.lookup key with
    | some value => (stored, .answered key (some value))
    | none => (stored, .missed key)
  | .missed key =>
    match f key with
    | .ok value => (stored, .computed key value)
    | .err _ => (stored, .answered key none)
    | .panic | .exhausted => (stored, .failed key)
  | .computed key value => (stored.insert key value, .answered key (some value))
  | .answered key answer => (stored, .answered key answer)
  | .failed key => (stored, .failed key)

def step (s : Table κ β) : Event κ → Table κ β
  | .ask key => { s with threads := s.threads ++ [.asked key] }
  | .turn i =>
    match s.threads[i]? with
    | some t => ⟨(advance f s.stored t).1, s.threads.set i (advance f s.stored t).2⟩
    | none => s

def run (s : Table κ β) (es : List (Event κ)) : Table κ β := es.foldl (step f) s

/-- The answer to a key. -/
def Answers (key : κ) : Option β → Prop
  | some value => f key = .ok value
  | none => ∃ e, f key = .err e

/-- The results in the table are those of the function. -/
def Sound (stored : AList fun _ : κ => β) : Prop := ∀ key value, stored.lookup key = some value → f key = .ok value

/-- What a thread knows. -/
def Thread.Holds : Thread κ β → Prop
  | .asked _ => True
  | .missed _ => True
  | .computed key value => f key = .ok value
  | .answered key answer => Answers f key answer
  | .failed key => ¬(f key).Ends

structure Inv (s : Table κ β) : Prop where
  sound : Sound f s.stored
  threads : ∀ t ∈ s.threads, t.Holds f

variable {f} {s : Table κ β} {stored : AList fun _ : κ => β} {t : Thread κ β}

theorem Sound.insert (h : Sound f stored) {key : κ} {value : β} (hvalue : f key = .ok value) :
    Sound f (stored.insert key value) := by
  intro k v hv
  by_cases hk : k = key
  · subst hk
    rw [AList.lookup_insert] at hv
    obtain rfl := Option.some.inj hv
    exact hvalue
  · rw [AList.lookup_insert_ne hk] at hv
    exact h k v hv

theorem Sound.advance (h : Sound f stored) (ht : t.Holds f) :
    Sound f (advance f stored t).1 ∧ (advance f stored t).2.Holds f := by
  cases t with
  | asked key =>
    simp only [Memo.advance]
    split
    · exact ⟨h, h key _ ‹_›⟩
    · exact ⟨h, trivial⟩
  | missed key =>
    simp only [Memo.advance]
    split
    · exact ⟨h, ‹_›⟩
    · exact ⟨h, _, ‹_›⟩
    · rename_i hkey
      refine ⟨h, ?_⟩
      show ¬(f key).Ends
      rw [hkey]
      exact Outcome.not_ends_panic
    · rename_i hkey
      refine ⟨h, ?_⟩
      show ¬(f key).Ends
      rw [hkey]
      exact Outcome.not_ends_exhausted
  | computed key value => exact ⟨h.insert ht, ht⟩
  | answered key answer => exact ⟨h, ht⟩
  | failed key => exact ⟨h, ht⟩

theorem Inv.step (h : Inv f s) (e : Event κ) : Inv f (step f s e) := by
  cases e with
  | ask key =>
    refine ⟨h.sound, fun t ht => ?_⟩
    rcases List.mem_append.1 ht with ht | ht
    · exact h.threads t ht
    · rw [List.mem_singleton.1 ht]
      trivial
  | turn i =>
    simp only [Memo.step]
    split
    · rename_i t hi
      obtain ⟨hsound, hholds⟩ := h.sound.advance (h.threads t (List.mem_of_getElem? hi))
      refine ⟨hsound, fun u hu => ?_⟩
      rcases List.mem_or_eq_of_mem_set hu with hu | rfl
      · exact h.threads u hu
      · exact hholds
    · exact h

theorem Inv.run (h : Inv f s) (es : List (Event κ)) : Inv f (run f s es) := by
  induction es generalizing s with
  | nil => exact h
  | cons e es ih => exact ih (h.step e)

/-! ### The table only grows -/

theorem Sound.lookup_advance (h : Sound f stored) (ht : t.Holds f) {key : κ} {value : β}
    (hvalue : stored.lookup key = some value) : (Memo.advance f stored t).1.lookup key = some value := by
  cases t with
  | asked k =>
    simp only [Memo.advance]
    split <;> exact hvalue
  | missed k =>
    simp only [Memo.advance]
    split <;> exact hvalue
  | computed k v =>
    show (stored.insert k v).lookup key = some value
    by_cases hk : key = k
    · subst hk
      -- the function has one result, so a second store changes nothing
      have hsame : Outcome.ok v = Outcome.ok value := ht.symm.trans (h key value hvalue)
      rw [AList.lookup_insert, Outcome.ok.inj hsame]
    · rw [AList.lookup_insert_ne hk]
      exact hvalue
  | answered k answer => exact hvalue
  | failed k => exact hvalue

theorem lookup_step (h : Inv f s) (e : Event κ) {key : κ} {value : β} (hvalue : s.stored.lookup key = some value) :
    (step f s e).stored.lookup key = some value := by
  cases e with
  | ask k => exact hvalue
  | turn i =>
    simp only [step]
    split
    · rename_i t hi
      exact h.sound.lookup_advance (h.threads t (List.mem_of_getElem? hi)) hvalue
    · exact hvalue

theorem lookup_run (h : Inv f s) (es : List (Event κ)) {key : κ} {value : β}
    (hvalue : s.stored.lookup key = some value) : (run f s es).stored.lookup key = some value := by
  induction es generalizing s with
  | nil => exact hvalue
  | cons e es ih => exact ih (h.step e) (lookup_step h e hvalue)

/-- A table that holds results of the function only is not larger than a set of keys that have any. -/
theorem Sound.length_le (h : Sound f stored) {keys : List κ} (hkeys : ∀ key value, f key = .ok value → key ∈ keys) :
    stored.keys.length ≤ keys.length := by
  refine (List.subperm_of_subset stored.keys_nodup fun key hkey => ?_).length_le
  obtain ⟨value, hvalue⟩ := Option.isSome_iff_exists.1 (AList.lookup_isSome.2 (AList.mem_keys.2 hkey))
  exact hkeys key value (h key value hvalue)

/-! ### Every thread comes to its end -/

/-- How many steps a thread has before it at most. -/
def Thread.left : Thread κ β → Nat
  | .asked _ => 3
  | .missed _ => 2
  | .computed _ _ => 1
  | .answered _ _ => 0
  | .failed _ => 0

def Thread.key : Thread κ β → κ
  | .asked key => key
  | .missed key => key
  | .computed key _ => key
  | .answered key _ => key
  | .failed key => key

theorem key_advance : (advance f stored t).2.key = t.key := by
  cases t with
  | asked key =>
    simp only [advance]
    split <;> rfl
  | missed key =>
    simp only [advance]
    split <;> rfl
  | _ => rfl

theorem left_advance : (advance f stored t).2.left ≤ t.left - 1 := by
  cases t with
  | asked key =>
    simp only [advance]
    split <;> simp [Thread.left]
  | missed key =>
    simp only [advance]
    split <;> simp [Thread.left]
  | _ => simp [advance, Thread.left]

def turns (i : Nat) (es : List (Event κ)) : Nat :=
  es.countP fun e =>
    match e with
    | .ask _ => false
    | .turn j => i = j

/-- A thread loses a step with each of its turns, and the others do not touch it. -/
theorem exists_left_run {i : Nat} (hi : s.threads[i]? = some t) (es : List (Event κ)) :
    ∃ t', (run f s es).threads[i]? = some t' ∧ t'.key = t.key ∧ t'.left ≤ t.left - turns i es := by
  induction es generalizing s t with
  | nil => exact ⟨t, hi, rfl, Nat.le_refl _⟩
  | cons e es ih =>
    have hlt : i < s.threads.length := (List.getElem?_eq_some_iff.1 hi).1
    by_cases he : ∃ j, e = .turn j ∧ i = j
    · obtain ⟨j, rfl, rfl⟩ := he
      have hnext : (step f s (.turn i)).threads[i]? = some (advance f s.stored t).2 := by
        simp only [step, hi]
        exact List.getElem?_set_self hlt
      have hturns : turns i (Event.turn i :: es) = turns i es + 1 := by simp [turns]
      obtain ⟨t', ht', hkey, hleft⟩ := ih hnext
      have hone := @left_advance κ β ε _ f s.stored t
      refine ⟨t', ht', hkey.trans key_advance, ?_⟩
      rw [hturns]
      omega
    · have hnext : (step f s e).threads[i]? = some t := by
        cases e with
        | ask key =>
          show (s.threads ++ [Thread.asked key])[i]? = some t
          rw [List.getElem?_append_left hlt]
          exact hi
        | turn j =>
          have hne : j ≠ i := fun hj => he ⟨j, rfl, hj.symm⟩
          simp only [step]
          split
          · exact (List.getElem?_set_ne hne).trans hi
          · exact hi
      have hturns : turns i (e :: es) = turns i es := by
        cases e with
        | ask key => simp [turns]
        | turn j =>
          have hne : i ≠ j := fun hj => he ⟨j, rfl, hj⟩
          simp [turns, hne]
      rw [hturns]
      exact ih hnext

/-- After three steps of its own a thread has an answer, or computing it has failed. -/
theorem ended_of_turns {i : Nat} (hi : s.threads[i]? = some t) {es : List (Event κ)} (hturns : 3 ≤ turns i es) :
    (∃ answer, (run f s es).threads[i]? = some (.answered t.key answer)) ∨
      (run f s es).threads[i]? = some (.failed t.key) := by
  obtain ⟨t', ht', hkey, hleft⟩ := exists_left_run (f := f) hi es
  have hmost : t.left ≤ 3 := by cases t <;> simp [Thread.left]
  have hnone : t'.left = 0 := by omega
  rw [ht', ← hkey]
  cases t' with
  | answered key answer => exact .inl ⟨answer, rfl⟩
  | failed key => exact .inr rfl
  | _ => cases hnone

end Memo
