import Otomai.Wire.Numeral
import Otomai.Wire.Table

/-!
# Ending with a value or an error

When a computation ends without a panic and within its nested calls, as an equivalence that is taken apart along its
steps.

* `ends_bind`: each step ends in the states that the steps before it lead to.
* `Guards x y`: `x` panics or does the same as `y`, as an addition with a check of its overflow does; `Checks` for
  readers.
* `Checks.ends_replicate`: repeated reading ends if each repetition that is reached does.
* `Shrinks n r`: `r` takes at least `n` bytes when it returns a value.
-/

namespace Wire

variable {ε α β : Type}

namespace Outcome

/-- The computation ends with a value or an error. -/
def Ends (x : Outcome ε α) : Prop := x.Returns fun _ => True

@[simp] theorem ends_ok (a : α) : (ok a : Outcome ε α).Ends := trivial

@[simp] theorem ends_err (e : ε) : (err e : Outcome ε α).Ends := trivial

@[simp] theorem not_ends_panic : ¬(panic : Outcome ε α).Ends := id

@[simp] theorem not_ends_exhausted : ¬(exhausted : Outcome ε α).Ends := id

instance : (x : Outcome ε α) → Decidable x.Ends
  | ok _ => .isTrue trivial
  | err _ => .isTrue trivial
  | panic => .isFalse id
  | exhausted => .isFalse id

theorem ends_iff {x : Outcome ε α} : x.Ends ↔ (∃ a, x = ok a) ∨ ∃ e, x = err e := by
  cases x <;> simp

theorem ends_bind {x : Outcome ε α} {k : α → Outcome ε β} :
    (x >>= k).Ends ↔ x.Ends ∧ ∀ a, x = ok a → (k a).Ends := by
  cases x with
  | ok a =>
    rw [ok_bind]
    constructor
    · rintro h
      refine ⟨trivial, fun b hb => ?_⟩
      obtain rfl := ok.inj hb
      exact h
    · rintro ⟨-, h⟩
      exact h a rfl
  | err e => exact iff_of_true trivial ⟨trivial, fun a h => by cases h⟩
  | panic => exact iff_of_false id fun h => h.1
  | exhausted => exact iff_of_false id fun h => h.1

@[simp] theorem ends_mapErr {ε' : Type} {f : ε → ε'} {x : Outcome ε α} : (x.mapErr f).Ends ↔ x.Ends := by
  cases x <;> exact Iff.rfl

end Outcome

open Outcome

/-- From every cursor the reader ends with a value or an error. -/
def AlwaysEnds (r : Reader ε α) : Prop := ∀ c, (r c).Ends

namespace AlwaysEnds

theorem pure (a : α) : AlwaysEnds (pure a : Reader ε α) := fun _ => trivial

theorem fail (e : ε) : AlwaysEnds (Reader.fail e : Reader ε α) := fun _ => trivial

theorem bind {r : Reader ε α} {k : α → Reader ε β} (h : AlwaysEnds r) (hk : ∀ a, AlwaysEnds (k a)) :
    AlwaysEnds (r >>= k) := by
  intro c
  rw [Reader.bind_apply, ends_bind]
  exact ⟨h c, fun x _ => hk x.1 x.2⟩

theorem next (eof : ε) : AlwaysEnds (Reader.next eof) := by
  rintro ⟨p, u⟩
  cases u with
  | nil => trivial
  | cons b u => trivial

theorem take (eof : ε) (n : Nat) : AlwaysEnds (Reader.take eof n) := by
  intro c
  unfold Reader.take
  split <;> trivial

theorem bigEndianFrom (eof : ε) (acc n : Nat) : AlwaysEnds (Reader.bigEndianFrom eof acc n) := by
  induction n generalizing acc with
  | zero => exact pure _
  | succ n ih => exact (next eof).bind fun _ => ih _

theorem replicate {r : Reader ε α} (h : AlwaysEnds r) (n : Nat) : AlwaysEnds (Reader.replicate r n) := by
  induction n with
  | zero => exact pure []
  | succ n ih => exact h.bind fun _ => ih.bind fun _ => pure _

end AlwaysEnds

/-! ### Repetitions -/

theorem Reader.length_of_replicate {r : Reader ε α} {n : Nat} {c c' : Cursor} {as : List α}
    (h : Reader.replicate r n c = .ok (as, c')) : as.length = n := by
  induction n generalizing c c' as with
  | zero =>
    obtain ⟨rfl, -⟩ := Prod.mk.inj (Outcome.ok.inj h)
    rfl
  | succ n ih =>
    obtain ⟨⟨b, d⟩, hb, h⟩ := Outcome.bind_eq_ok.1 h
    obtain ⟨⟨bs, d'⟩, hbs, h⟩ := Outcome.bind_eq_ok.1 h
    obtain ⟨rfl, -⟩ := Prod.mk.inj (Outcome.ok.inj h)
    have hlen : bs.length = n := ih hbs
    rw [List.length_cons, hlen]

/-! ### Checks -/

/-- A computation with more checks than another: it panics, or it does the same. -/
def Outcome.Guards (x y : Outcome ε α) : Prop := x = .panic ∨ x = y

namespace Outcome.Guards

theorem refl (x : Outcome ε α) : x.Guards x := .inr rfl

theorem ok {x y : Outcome ε α} (h : x.Guards y) {a : α} (hx : x = .ok a) : y = .ok a := by
  rcases h with hpanic | heq
  · rw [hpanic] at hx
    cases hx
  · rw [← heq, hx]

theorem eq_of_ends {x y : Outcome ε α} (h : x.Guards y) (hends : x.Ends) : x = y := by
  rcases h with hpanic | heq
  · rw [hpanic] at hends
    exact absurd hends id
  · exact heq

theorem bind {x y : Outcome ε α} {k k' : α → Outcome ε β} (h : x.Guards y) (hk : ∀ a, (k a).Guards (k' a)) :
    (x >>= k).Guards (y >>= k') := by
  rcases h with rfl | rfl
  · left
    rw [Outcome.panic_bind]
  · cases x with
    | ok a => exact hk a
    | err e => exact refl _
    | panic => exact refl _
    | exhausted => exact refl _

theorem mapErr {ε' : Type} (f : ε → ε') {x y : Outcome ε α} (h : x.Guards y) : (x.mapErr f).Guards (y.mapErr f) := by
  rcases h with rfl | rfl
  · exact .inl rfl
  · exact refl _

end Outcome.Guards

/-- A reader with more checks than another. -/
def Checks (r r' : Reader ε α) : Prop := ∀ c, (r c).Guards (r' c)

namespace Checks

variable {r r' : Reader ε α}

theorem refl (r : Reader ε α) : Checks r r := fun c => Outcome.Guards.refl (r c)

theorem bind {k k' : α → Reader ε β} (h : Checks r r') (hk : ∀ a, Checks (k a) (k' a)) :
    Checks (r >>= k) (r' >>= k') :=
  fun c => (h c).bind fun x => hk x.1 x.2

theorem replicate (h : Checks r r') (n : Nat) : Checks (Reader.replicate r n) (Reader.replicate r' n) := by
  induction n with
  | zero => exact refl _
  | succ n ih => exact h.bind fun _ => ih.bind fun _ => refl _

/-- Repeated reading ends if and only if each repetition that is reached does. -/
theorem ends_replicate (h : Checks r r') {n : Nat} {c : Cursor} :
    (Reader.replicate r n c).Ends ↔
      ∀ k < n, ∀ as c', Reader.replicate r' k c = .ok (as, c') → (r c').Ends := by
  induction n generalizing c with
  | zero => exact iff_of_true trivial fun k hk => absurd hk (Nat.not_lt_zero k)
  | succ n ih =>
    rw [Reader.replicate, Reader.bind_apply, ends_bind]
    constructor
    · rintro ⟨hfirst, hrest⟩ k hk as c' has
      cases k with
      | zero =>
        obtain ⟨-, rfl⟩ := Prod.mk.inj (Outcome.ok.inj has)
        exact hfirst
      | succ k =>
        obtain ⟨⟨b, d⟩, hb, has⟩ := Outcome.bind_eq_ok.1 has
        obtain ⟨⟨bs, d'⟩, hbs, has⟩ := Outcome.bind_eq_ok.1 has
        obtain ⟨-, rfl⟩ := Prod.mk.inj (Outcome.ok.inj has)
        -- the first repetition ends, so the checks did not see it
        rw [← (h c).eq_of_ends hfirst] at hb
        have hends := hrest (b, d) hb
        rw [Reader.bind_apply, ends_bind] at hends
        exact ih.1 hends.1 k (Nat.lt_of_succ_lt_succ hk) bs d' hbs
    · intro hall
      refine ⟨hall 0 (Nat.succ_pos n) [] c rfl, fun x hx => ?_⟩
      rw [Reader.bind_apply, ends_bind]
      refine ⟨ih.2 fun k hk as c' has => ?_, fun _ _ => trivial⟩
      refine hall (k + 1) (Nat.succ_lt_succ hk) (x.1 :: as) c' ?_
      rw [Reader.replicate, Reader.bind_apply, (h c).ok hx, Outcome.ok_bind, Reader.bind_apply, has, Outcome.ok_bind]
      rfl

end Checks

/-! ### Bytes that are taken -/

/-- A value is returned only after at least `n` bytes were taken. -/
def Shrinks (n : Nat) (r : Reader ε α) : Prop :=
  ∀ c a c', r c = .ok (a, c') → c'.unread.length + n ≤ c.unread.length

namespace Shrinks

theorem pure (a : α) : Shrinks 0 (pure a : Reader ε α) := by
  intro c b c' h
  obtain ⟨-, rfl⟩ := Prod.mk.inj (Outcome.ok.inj h)
  exact Nat.le_refl _

theorem fail (n : Nat) (e : ε) : Shrinks n (Reader.fail e : Reader ε α) := fun _ _ _ h => by cases h

theorem panic (n : Nat) : Shrinks n (Reader.panic : Reader ε α) := fun _ _ _ h => by cases h

theorem exhausted (n : Nat) : Shrinks n (Reader.exhausted : Reader ε α) := fun _ _ _ h => by cases h

theorem bind {r : Reader ε α} {k : α → Reader ε β} {n m : Nat} (h : Shrinks n r) (hk : ∀ a, Shrinks m (k a)) :
    Shrinks (n + m) (r >>= k) := by
  intro c b c' hb
  obtain ⟨⟨a, d⟩, ha, hb⟩ := Outcome.bind_eq_ok.1 hb
  have hfirst := h c a d ha
  have hrest := hk a d b c' hb
  omega

theorem mono {r : Reader ε α} {n m : Nat} (h : Shrinks n r) (hle : m ≤ n) : Shrinks m r := by
  intro c a c' hr
  have hlen := h c a c' hr
  omega

theorem next (eof : ε) : Shrinks 1 (Reader.next eof) := by
  rintro ⟨p, u⟩ b c' h
  cases u with
  | nil => cases h
  | cons x u =>
    obtain ⟨-, rfl⟩ := Prod.mk.inj (Outcome.ok.inj h)
    exact Nat.le_refl _

theorem take (eof : ε) (n : Nat) : Shrinks n (Reader.take eof n) := by
  rintro ⟨p, u⟩ w c' h
  unfold Reader.take at h
  by_cases hn : n ≤ u.length
  · rw [if_pos hn] at h
    obtain ⟨-, rfl⟩ := Prod.mk.inj (Outcome.ok.inj h)
    show (u.drop n).length + n ≤ u.length
    rw [List.length_drop]
    omega
  · rw [if_neg hn] at h
    cases h

/-- A list of values takes no bytes back if no value does. -/
theorem forEach {γ : Type} {r : γ → Reader ε α} (h : ∀ b, Shrinks 0 (r b)) (bs : List γ) :
    Shrinks 0 (Reader.forEach r bs) := by
  induction bs with
  | nil => exact pure []
  | cons b bs ih => exact @bind _ _ _ _ _ 0 0 (h b) fun _ => @bind _ _ _ _ _ 0 0 ih fun _ => pure _

theorem replicate {r : Reader ε α} (h : Shrinks 0 r) (n : Nat) : Shrinks 0 (Reader.replicate r n) := by
  induction n with
  | zero => exact pure []
  | succ n ih => exact @bind _ _ _ _ _ 0 0 h fun _ => @bind _ _ _ _ _ 0 0 ih fun _ => pure _

/-- Values that take bytes take together as many times as many. -/
theorem replicate_mul {r : Reader ε α} {m : Nat} (h : Shrinks m r) (n : Nat) :
    Shrinks (n * m) (Reader.replicate r n) := by
  induction n with
  | zero => exact (pure []).mono (Nat.le_of_eq (Nat.zero_mul m))
  | succ n ih =>
    refine (@bind _ _ _ _ _ m (n * m) h fun _ => @bind _ _ _ _ _ (n * m) 0 ih fun _ => pure _).mono (Nat.le_of_eq ?_)
    rw [Nat.succ_mul, Nat.add_comm]

/-- A list of values takes what one of them takes. -/
theorem forEach_of_mem {γ : Type} {r : γ → Reader ε α} {n : Nat} (h : ∀ b, Shrinks 0 (r b)) {bs : List γ} {b : γ}
    (hb : b ∈ bs) (hn : Shrinks n (r b)) : Shrinks n (Reader.forEach r bs) := by
  induction bs with
  | nil => exact absurd hb List.not_mem_nil
  | cons b' bs ih =>
    rcases List.mem_cons.1 hb with rfl | hb
    · exact @bind _ _ _ _ _ n 0 hn fun _ => @bind _ _ _ _ _ 0 0 (forEach h bs) fun _ => pure _
    · refine (@bind _ _ _ _ _ 0 n (h b') fun _ => @bind _ _ _ _ _ n 0 (ih hb) fun _ => pure _).mono ?_
      rw [Nat.zero_add]

theorem bigEndianFrom (eof : ε) (acc n : Nat) : Shrinks n (Reader.bigEndianFrom eof acc n) := by
  induction n generalizing acc with
  | zero => exact pure _
  | succ n ih => exact ((next eof).bind fun _ => ih _).mono (Nat.le_of_eq (Nat.add_comm n 1))

end Shrinks

/-- Values that end on the bytes that are left end one after the other. -/
theorem ends_forEach {γ : Type} {r : γ → Reader ε α} {limit : Nat} (hshrinks : ∀ b, Shrinks 0 (r b)) {bs : List γ}
    (hends : ∀ b ∈ bs, ∀ c, c.unread.length ≤ limit → (r b c).Ends) {c : Cursor} (hc : c.unread.length ≤ limit) :
    (Reader.forEach r bs c).Ends := by
  induction bs generalizing c with
  | nil => trivial
  | cons b bs ih =>
    rw [Reader.forEach, Reader.bind_apply, ends_bind]
    refine ⟨hends b List.mem_cons_self c hc, fun x hx => ?_⟩
    have hlen := hshrinks b c x.1 x.2 hx
    have hrest : (Reader.forEach r bs x.2).Ends :=
      ih (fun b' hb' => hends b' (List.mem_cons_of_mem b hb')) (by omega)
    rw [Reader.bind_apply, ends_bind]
    exact ⟨hrest, fun _ _ => trivial⟩

theorem ends_replicate_of_le {r : Reader ε α} {limit : Nat} (hshrinks : Shrinks 0 r)
    (hends : ∀ c, c.unread.length ≤ limit → (r c).Ends) (n : Nat) {c : Cursor} (hc : c.unread.length ≤ limit) :
    (Reader.replicate r n c).Ends := by
  rw [(Checks.refl r).ends_replicate]
  intro k _ as c' has
  have hlen := hshrinks.replicate k c as c' has
  exact hends c' (by omega)

/-- A table whose entries take a byte each is read within as many entries as there are bytes. -/
theorem ends_upTo {r : Reader ε α} {stop : Nat} (hr : AlwaysEnds r) (hshrinks : Shrinks 1 r) {fuel : Nat} {c : Cursor}
    (hfuel : c.unread.length < fuel) : (Reader.upTo stop r fuel c).Ends := by
  induction fuel generalizing c with
  | zero => omega
  | succ fuel ih =>
    by_cases hlt : c.position < stop
    · rw [Reader.upTo_of_lt hlt, ends_bind]
      refine ⟨hr c, fun x hx => ?_⟩
      have hlen := hshrinks c x.1 x.2 hx
      rw [ends_bind]
      exact ⟨ih (by omega), fun _ _ => trivial⟩
    · rw [Reader.upTo_of_le (Nat.not_lt.1 hlt)]
      trivial

end Wire
