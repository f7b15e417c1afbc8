import Mathlib.Data.List.Basic

/-!
# Readers over a byte cursor

A reader consumes bytes from a cursor and returns a value, an error of its caller's choosing, or panics.

* `Reads r w v`: wherever the bytes `w` come next, `r` consumes exactly `w` and returns `v`, whatever follows.
* `Starves eof r w`: on every proper prefix of `w` the reader reports the end of its input.
* `Returns P r Q`: from a cursor satisfying `P` the reader ends without a panic, and a returned value satisfies `Q`.

* `Extends r r'`: wherever `r` ends within the nested calls it was given, `r'` ends the same way.

They compose along `>>=`, which is how statements about a long reader are assembled from statements about
its parts.
-/

namespace Wire

/-- How a computation ends: with a value, with an error handed to the caller, with a panic, or not at all within
the number of nested calls it was given. -/
inductive Outcome (ε α : Type) where
  | ok (a : α)
  | err (e : ε)
  | panic
  | exhausted
  deriving DecidableEq, Repr

namespace Outcome

variable {ε α β : Type}

def bind : Outcome ε α → (α → Outcome ε β) → Outcome ε β
  | ok a, k => k a
  | err e, _ => err e
  | panic, _ => panic
  | exhausted, _ => exhausted

instance : Monad (Outcome ε) where
  pure := ok
  bind := bind

@[simp] theorem pure_eq (a : α) : (pure a : Outcome ε α) = ok a := rfl
@[simp] theorem ok_bind (a : α) (k : α → Outcome ε β) : (ok a >>= k) = k a := rfl
@[simp] theorem err_bind (e : ε) (k : α → Outcome ε β) : (err e >>= k) = err e := rfl
@[simp] theorem panic_bind (k : α → Outcome ε β) : ((panic : Outcome ε α) >>= k) = panic := rfl
@[simp] theorem exhausted_bind (k : α → Outcome ε β) : ((exhausted : Outcome ε α) >>= k) = exhausted := rfl

theorem bind_eq_ok {x : Outcome ε α} {k : α → Outcome ε β} {b : β} :
    (x >>= k) = ok b ↔ ∃ a, x = ok a ∧ k a = ok b := by
  cases x <;> simp

/-- The computation with its error told in another way. -/
def mapErr {ε' : Type} (f : ε → ε') : Outcome ε α → Outcome ε' α
  | ok a => ok a
  | err e => err (f e)
  | panic => panic
  | exhausted => exhausted

@[simp] theorem mapErr_ok {ε' : Type} (f : ε → ε') (a : α) : (ok a : Outcome ε α).mapErr f = ok a := rfl

@[simp] theorem mapErr_eq_ok {ε' : Type} {f : ε → ε'} {x : Outcome ε α} {a : α} : x.mapErr f = ok a ↔ x = ok a := by
  cases x <;> simp [mapErr]

/-- The value, if there is one. -/
def toOption : Outcome ε α → Option α
  | ok a => some a
  | _ => none

theorem toOption_eq_some {x : Outcome ε α} {a : α} : x.toOption = some a ↔ x = ok a := by
  cases x <;> simp [toOption]

/-- The computation ends with a value or an error, and a value satisfies `Q`. -/
def Returns (Q : α → Prop) : Outcome ε α → Prop
  | ok a => Q a
  | err _ => True
  | panic => False
  | exhausted => False

end Outcome

/-- A position in a byte string: how many bytes were consumed and which ones are left. -/
structure Cursor where
  position : Nat
  unread : List UInt8
  deriving DecidableEq, Repr

namespace Cursor

def ofBytes (data : List UInt8) : Cursor := ⟨0, data⟩

@[simp] theorem unread_ofBytes (data : List UInt8) : (ofBytes data).unread = data := rfl
@[simp] theorem position_ofBytes (data : List UInt8) : (ofBytes data).position = 0 := rfl

end Cursor

def Reader (ε α : Type) := Cursor → Outcome ε (α × Cursor)

namespace Reader

variable {ε α β : Type}

instance : Monad (Reader ε) where
  pure a := fun c => .ok (a, c)
  bind r k := fun c => r c >>= fun x => k x.1 x.2

theorem pure_apply (a : α) (c : Cursor) : (pure a : Reader ε α) c = .ok (a, c) := rfl

theorem bind_apply (r : Reader ε α) (k : α → Reader ε β) (c : Cursor) :
    (r >>= k) c = r c >>= fun x => k x.1 x.2 := rfl

instance : LawfulMonad (Reader ε) := by
  refine LawfulMonad.mk' _ (fun r => funext fun c => ?_) (fun _ _ => rfl) (fun r k k' => funext fun c => ?_)
  · show r c >>= _ = r c
    cases r c <;> rfl
  · simp only [bind_apply]
    cases r c <;> rfl

def fail (e : ε) : Reader ε α := fun _ => .err e

def panic : Reader ε α := fun _ => .panic

def exhausted : Reader ε α := fun _ => .exhausted

/-- The next byte, or the error `eof` at the end of the input. -/
def next (eof : ε) : Reader ε UInt8 := fun c =>
  match c.unread with
  | [] => .err eof
  | b :: rest => .ok (b, ⟨c.position + 1, rest⟩)

/-- The next `n` bytes, or the error `eof` when fewer are left. -/
def take (eof : ε) (n : Nat) : Reader ε (List UInt8) := fun c =>
  if n ≤ c.unread.length then .ok (c.unread.take n, ⟨c.position + n, c.unread.drop n⟩) else .err eof

/-- `n` values one after the other. -/
def replicate (r : Reader ε α) : Nat → Reader ε (List α)
  | 0 => pure []
  | n + 1 => do
    let a ← r
    let as ← replicate r n
    pure (a :: as)

/-- One value for each description of a list. -/
def forEach (r : β → Reader ε α) : List β → Reader ε (List α)
  | [] => pure []
  | b :: bs => do
    let a ← r b
    let as ← forEach r bs
    pure (a :: as)

end Reader

theorem Reader.replicate_map {ε α β : Type} (f : α → β) (r : Reader ε α) (n : Nat) :
    Reader.replicate (f <$> r) n = List.map f <$> Reader.replicate r n := by
  induction n with
  | zero => rfl
  | succ n ih => simp [Reader.replicate, ih]

theorem Reader.forEach_map {ε α β γ : Type} (f : α → β) (r : γ → Reader ε α) (cs : List γ) :
    Reader.forEach (fun c => f <$> r c) cs = List.map f <$> Reader.forEach r cs := by
  induction cs with
  | nil => rfl
  | cons c cs ih => simp [Reader.forEach, ih]

/-- Where every value is read the same way up to `f`, a list of them is. -/
theorem Reader.replicate_ok_map {ε α β : Type} {f : α → β} {r : Reader ε α} {r' : Reader ε β}
    (h : ∀ c a c', r c = .ok (a, c') → r' c = .ok (f a, c')) (n : Nat) : ∀ {c c' : Cursor} {as : List α},
    Reader.replicate r n c = .ok (as, c') → Reader.replicate r' n c = .ok (as.map f, c') := by
  induction n with
  | zero =>
    intro c c' as has
    obtain ⟨rfl, rfl⟩ := Prod.mk.inj (Outcome.ok.inj has)
    rfl
  | succ n ih =>
    intro c c' as has
    obtain ⟨⟨a, d⟩, ha, has⟩ := Outcome.bind_eq_ok.1 has
    obtain ⟨⟨as', d'⟩, has', has⟩ := Outcome.bind_eq_ok.1 has
    obtain ⟨rfl, rfl⟩ := Prod.mk.inj (Outcome.ok.inj has)
    rw [Reader.replicate, Reader.bind_apply, h c a d ha, Outcome.ok_bind, Reader.bind_apply, ih has', Outcome.ok_bind]
    rfl

/-! ### Reading back what was written -/

section Reads

variable {ε α β γ : Type}

/-- Wherever `w` comes next, `r` consumes exactly `w` and returns `v`. -/
def Reads (r : Reader ε α) (w : List UInt8) (v : α) : Prop :=
  ∀ p rest, r ⟨p, w ++ rest⟩ = .ok (v, ⟨p + w.length, rest⟩)

theorem Reads.pure (v : α) : Reads (pure v : Reader ε α) [] v := fun _ _ => rfl

theorem Reads.bind {r : Reader ε α} {k : α → Reader ε β} {w w' : List UInt8} {v : α} {v' : β}
    (h : Reads r w v) (h' : Reads (k v) w' v') : Reads (r >>= k) (w ++ w') v' := by
  intro p rest
  rw [Reader.bind_apply, List.append_assoc, h p, Outcome.ok_bind, h' _ rest, List.length_append, Nat.add_assoc]

/-- What follows a reader goes on behind what it has read. -/
theorem Reads.bind_eq {r : Reader ε α} {k : α → Reader ε β} {w : List UInt8} {v : α} (h : Reads r w v) (p : Nat)
    (rest : List UInt8) : (r >>= k) ⟨p, w ++ rest⟩ = k v ⟨p + w.length, rest⟩ := by
  rw [Reader.bind_apply, h p rest, Outcome.ok_bind]

/-- A reader followed by a computation that consumes nothing. -/
theorem Reads.map {r : Reader ε α} {k : α → Reader ε β} {w : List UInt8} {v : α} {v' : β}
    (h : Reads r w v) (h' : Reads (k v) [] v') : Reads (r >>= k) w v' := by
  simpa using h.bind h'

theorem Reads.next (eof : ε) (b : UInt8) : Reads (Reader.next eof) [b] b := fun _ _ => rfl

theorem Reads.take (eof : ε) (w : List UInt8) : Reads (Reader.take eof w.length) w w := by
  intro p rest
  simp [Reader.take]

/-- Values written one after the other are read back, each as `f` tells. -/
theorem Reads.replicate_map {r : Reader ε α} {w : β → List UInt8} {f : β → α} (vs : List β)
    (h : ∀ v ∈ vs, Reads r (w v) (f v)) : Reads (Reader.replicate r vs.length) (vs.flatMap w) (vs.map f) := by
  induction vs with
  | nil => exact Reads.pure []
  | cons v vs ih =>
    have hv := h v (List.mem_cons_self ..)
    have hvs := ih fun u hu => h u (List.mem_cons_of_mem _ hu)
    rw [List.flatMap_cons]
    exact hv.bind (hvs.map (Reads.pure _))

theorem Reads.replicate {r : Reader ε α} {w : α → List UInt8} (vs : List α) (h : ∀ v ∈ vs, Reads r (w v) v) :
    Reads (Reader.replicate r vs.length) (vs.flatMap w) vs := by
  have hmap := Reads.replicate_map (f := id) vs h
  rwa [List.map_id] at hmap

theorem Reads.forEach_cons {r : β → Reader ε α} {b : β} {bs : List β} {w w' : List UInt8} {v : α} {vs : List α}
    (h : Reads (r b) w v) (h' : Reads (Reader.forEach r bs) w' vs) :
    Reads (Reader.forEach r (b :: bs)) (w ++ w') (v :: vs) :=
  h.bind (h'.map (Reads.pure _))

/-- One value for each description, each written in turn. -/
theorem Reads.forEach_zip {r : β → Reader ε α} {w : α → List UInt8} {bs : List β} {vs : List α}
    (hlength : bs.length = vs.length) (h : ∀ p ∈ bs.zip vs, Reads (r p.1) (w p.2) p.2) :
    Reads (Reader.forEach r bs) (vs.flatMap w) vs := by
  induction bs generalizing vs with
  | nil =>
    obtain rfl := List.length_eq_zero_iff.1 hlength.symm
    exact Reads.pure []
  | cons b bs ih =>
    cases vs with
    | nil => cases hlength
    | cons v vs =>
      rw [List.flatMap_cons]
      exact Reads.forEach_cons (h (b, v) List.mem_cons_self)
        (ih (Nat.succ.inj hlength) fun p hp => h p (List.mem_cons_of_mem _ hp))

theorem Reader.forEach_append (r : β → Reader ε α) (as bs : List β) (c : Cursor) :
    Reader.forEach r (as ++ bs) c = Reader.forEach r as c >>= fun x =>
      Reader.forEach r bs x.2 >>= fun y => .ok (x.1 ++ y.1, y.2) := by
  induction as generalizing c with
  | nil => cases h : Reader.forEach r bs c <;> simp [Reader.forEach, Reader.pure_apply, h]
  | cons a as ih =>
    simp only [List.cons_append, Reader.forEach, Reader.bind_apply, ih]
    cases r a c with
    | ok x =>
      simp only [Outcome.ok_bind]
      cases Reader.forEach r as x.2 with
      | ok y =>
        simp only [Outcome.ok_bind, Reader.pure_apply]
        cases Reader.forEach r bs y.2 <;> rfl
      | _ => rfl
    | _ => rfl

theorem Reads.forEach_append {r : β → Reader ε α} {as bs : List β} {w w' : List UInt8} {us vs : List α}
    (h : Reads (Reader.forEach r as) w us) (h' : Reads (Reader.forEach r bs) w' vs) :
    Reads (Reader.forEach r (as ++ bs)) (w ++ w') (us ++ vs) := by
  intro p rest
  rw [Reader.forEach_append, List.append_assoc, h p, Outcome.ok_bind, h' _ rest, Outcome.ok_bind, List.length_append,
    Nat.add_assoc]

end Reads

/-! ### Reading a list -/

section ReadingLists

variable {ε α β : Type}

/-- Every element `forEach` returned was read by the reader of its description. -/
theorem Reader.forEach_eq_ok {r : β → Reader ε α} {bs : List β} : ∀ {c c' : Cursor} {vs : List α},
    Reader.forEach r bs c = .ok (vs, c') →
    ∀ {i : Nat} {b : β}, bs[i]? = some b → ∃ v d d', vs[i]? = some v ∧ r b d = .ok (v, d') := by
  induction bs with
  | nil => simp
  | cons b bs ih =>
    intro c c' vs h i b' hi
    obtain ⟨⟨v, c₁⟩, hv, h⟩ := Outcome.bind_eq_ok.1 h
    obtain ⟨⟨us, c₂⟩, hus, h⟩ := Outcome.bind_eq_ok.1 h
    obtain ⟨rfl, -⟩ := Prod.mk.inj (Outcome.ok.inj h)
    cases i with
    | zero =>
      obtain rfl : b = b' := by simpa using hi
      exact ⟨v, c, c₁, rfl, hv⟩
    | succ i => exact ih hus (by simpa using hi)

/-- Every element `replicate` returned was read by its reader. -/
theorem Reader.replicate_eq_ok {r : Reader ε α} {P : α → Prop} (h : ∀ c v c', r c = .ok (v, c') → P v) {n : Nat} :
    ∀ {c c' : Cursor} {vs : List α}, Reader.replicate r n c = .ok (vs, c') → vs.length = n ∧ ∀ v ∈ vs, P v := by
  induction n with
  | zero =>
    intro c c' vs hr
    obtain ⟨rfl, -⟩ := Prod.mk.inj (Outcome.ok.inj hr)
    exact ⟨rfl, fun v hv => absurd hv List.not_mem_nil⟩
  | succ n ih =>
    intro c c' vs hr
    obtain ⟨⟨v, c₁⟩, hv, hr⟩ := Outcome.bind_eq_ok.1 hr
    obtain ⟨⟨us, c₂⟩, hus, hr⟩ := Outcome.bind_eq_ok.1 hr
    obtain ⟨rfl, -⟩ := Prod.mk.inj (Outcome.ok.inj hr)
    obtain ⟨hlen, hall⟩ := ih hus
    exact ⟨congrArg (· + 1) hlen, List.forall_mem_cons.2 ⟨h c v c₁ hv, hall⟩⟩

theorem Reader.replicate_next_eq_ok {eof : ε} {n : Nat} : ∀ {c c' : Cursor} {vs : List UInt8},
    Reader.replicate (Reader.next eof) n c = .ok (vs, c') → vs = c.unread.take n := by
  induction n with
  | zero =>
    intro c c' vs h
    obtain ⟨rfl, -⟩ := Prod.mk.inj (Outcome.ok.inj h)
    rfl
  | succ n ih =>
    rintro ⟨p, u⟩ c' vs h
    obtain ⟨⟨b, c₁⟩, hb, h⟩ := Outcome.bind_eq_ok.1 h
    obtain ⟨⟨bs, c₂⟩, hbs, h⟩ := Outcome.bind_eq_ok.1 h
    obtain ⟨rfl, -⟩ := Prod.mk.inj (Outcome.ok.inj h)
    cases u with
    | nil => cases hb
    | cons x u =>
      obtain ⟨rfl, rfl⟩ := Prod.mk.inj (Outcome.ok.inj hb)
      rw [ih hbs]
      rfl

end ReadingLists

/-! ### Running out of input -/

section Starves

variable {ε α β : Type} {eof : ε}

/-- On every proper prefix of `w` the reader reports the end of its input. -/
def Starves (eof : ε) (r : Reader ε α) (w : List UInt8) : Prop :=
  ∀ p u t, t ≠ [] → u ++ t = w → r ⟨p, u⟩ = .err eof

theorem Starves.nil (r : Reader ε α) : Starves eof r [] := by
  intro p u t ht h
  exact absurd (List.append_eq_nil_iff.1 h).2 ht

theorem Starves.bind {r : Reader ε α} {k : α → Reader ε β} {w w' : List UInt8} {v : α}
    (h : Starves eof r w) (hr : Reads r w v) (h' : Starves eof (k v) w') : Starves eof (r >>= k) (w ++ w') := by
  intro p u t ht hu
  rw [Reader.bind_apply]
  rcases List.append_eq_append_iff.1 hu with ⟨s, rfl, rfl⟩ | ⟨s, rfl, rfl⟩
  · rcases s with _ | ⟨b, s⟩
    · simp only [List.append_nil] at hr
      rw [show (⟨p, u⟩ : Cursor) = ⟨p, u ++ []⟩ by simp, hr p [], Outcome.ok_bind]
      exact h' _ [] w' ht (by simp)
    · rw [h p u (b :: s) (by simp) rfl, Outcome.err_bind]
  · rw [hr p s, Outcome.ok_bind]
    exact h' _ s t ht rfl

/-- A reader followed by a computation that consumes nothing. -/
theorem Starves.map {r : Reader ε α} {k : α → Reader ε β} {w : List UInt8} {v : α} (hr : Reads r w v)
    (h : Starves eof r w) : Starves eof (r >>= k) w := by
  simpa using Starves.bind h hr (Starves.nil (k v))

theorem Starves.next (b : UInt8) : Starves eof (Reader.next eof) [b] := by
  intro p u t ht hu
  rcases u with _ | ⟨c, u⟩
  · rfl
  · rw [List.cons_append, List.cons.injEq] at hu
    exact absurd (List.append_eq_nil_iff.1 hu.2).2 ht

end Starves

/-! ### Ending without a panic -/

section Returns

variable {ε α β : Type}

/-- From every cursor satisfying `P` the reader ends with an error or with a value and a cursor satisfying `Q`. -/
def Returns (P : Cursor → Prop) (r : Reader ε α) (Q : α → Cursor → Prop) : Prop :=
  ∀ c, P c → (r c).Returns fun x => Q x.1 x.2

theorem Returns.pure {P : Cursor → Prop} {Q : α → Cursor → Prop} {a : α} (h : ∀ c, P c → Q a c) :
    Returns P (pure a : Reader ε α) Q := fun c hc => h c hc

theorem Returns.fail {P : Cursor → Prop} {Q : α → Cursor → Prop} (e : ε) :
    Returns P (Reader.fail e : Reader ε α) Q := fun _ _ => trivial

theorem Returns.bind {P : Cursor → Prop} {R : α → Cursor → Prop} {Q : β → Cursor → Prop} {r : Reader ε α}
    {k : α → Reader ε β} (h : Returns P r R) (h' : ∀ a, Returns (R a) (k a) Q) : Returns P (r >>= k) Q := by
  intro c hc
  have hr := h c hc
  rw [Reader.bind_apply]
  cases hx : r c with
  | ok x => rw [hx] at hr; exact h' x.1 x.2 hr
  | err e => trivial
  | panic => rw [hx] at hr; exact hr.elim
  | exhausted => rw [hx] at hr; exact hr.elim

theorem Returns.mono {P P' : Cursor → Prop} {Q Q' : α → Cursor → Prop} {r : Reader ε α} (h : Returns P r Q)
    (hp : ∀ c, P' c → P c) (hq : ∀ a c, Q a c → Q' a c) : Returns P' r Q' := by
  intro c hc
  have hr := h c (hp c hc)
  cases hx : r c with
  | ok x => rw [hx] at hr; exact hq _ _ hr
  | err e => trivial
  | panic => rw [hx] at hr; exact hr.elim
  | exhausted => rw [hx] at hr; exact hr.elim

/-- At most `n` bytes are unread. -/
def Unread (n : Nat) (c : Cursor) : Prop := c.unread.length ≤ n

/-- A byte that is read is consumed. -/
theorem Returns.next (eof : ε) (n : Nat) :
    Returns (Unread n) (Reader.next eof) fun _ c => c.unread.length < n := by
  rintro ⟨p, u⟩ hc
  cases u with
  | nil => trivial
  | cons b u => exact hc

theorem Returns.take (eof : ε) (n k : Nat) : Returns (Unread n) (Reader.take eof k) fun _ => Unread n := by
  rintro ⟨p, u⟩ hc
  unfold Reader.take
  split
  · show (u.drop k).length ≤ n
    rw [List.length_drop]
    exact Nat.le_trans (Nat.sub_le ..) hc
  · trivial

theorem Returns.replicate {P : Cursor → Prop} {r : Reader ε α} (h : Returns P r fun _ => P) (n : Nat) :
    Returns P (Reader.replicate r n) fun _ => P := by
  induction n with
  | zero => exact Returns.pure fun _ hc => hc
  | succ n ih => exact h.bind fun _ => ih.bind fun _ => Returns.pure fun _ hc => hc

theorem Returns.forEach {P : Cursor → Prop} {r : β → Reader ε α} {bs : List β}
    (h : ∀ b ∈ bs, Returns P (r b) fun _ => P) : Returns P (Reader.forEach r bs) fun _ => P := by
  induction bs with
  | nil => exact Returns.pure fun _ hc => hc
  | cons b bs ih =>
    exact (h b (List.mem_cons_self ..)).bind fun _ =>
      (ih fun d hd => h d (List.mem_cons_of_mem _ hd)).bind fun _ => Returns.pure fun _ hc => hc

end Returns

/-! ### More nested calls -/

section Extends

variable {ε α β : Type}

/-- Wherever `r` ends within its nested calls, `r'` ends the same way. -/
def Extends (r r' : Reader ε α) : Prop := ∀ c, r c ≠ .exhausted → r' c = r c

theorem Extends.refl (r : Reader ε α) : Extends r r := fun _ _ => rfl

theorem Extends.exhausted (r : Reader ε α) : Extends Reader.exhausted r := fun _ h => absurd rfl h

theorem Extends.bind {r r' : Reader ε α} {k k' : α → Reader ε β} (h : Extends r r') (h' : ∀ a, Extends (k a) (k' a)) :
    Extends (r >>= k) (r' >>= k') := by
  intro c hc
  rw [Reader.bind_apply] at hc ⊢
  rw [Reader.bind_apply]
  have hr : r c ≠ .exhausted := by
    intro e
    rw [e] at hc
    exact hc rfl
  rw [h c hr]
  cases hx : r c with
  | ok x =>
    rw [hx] at hc
    exact h' x.1 x.2 hc
  | _ => rfl

theorem Extends.replicate {r r' : Reader ε α} (h : Extends r r') (n : Nat) :
    Extends (Reader.replicate r n) (Reader.replicate r' n) := by
  induction n with
  | zero => exact Extends.refl _
  | succ n ih => exact h.bind fun _ => ih.bind fun _ => Extends.refl _

theorem Extends.forEach {r r' : β → Reader ε α} (h : ∀ b, Extends (r b) (r' b)) (bs : List β) :
    Extends (Reader.forEach r bs) (Reader.forEach r' bs) := by
  induction bs with
  | nil => exact Extends.refl _
  | cons b bs ih => exact (h b).bind fun _ => ih.bind fun _ => Extends.refl _

end Extends

end Wire
