import Mathlib.Data.List.Forall2
import Otomai.Wire.Ends
import Otomai.Wire.Numeral

/-!
# Readers and formats

A format relates texts to the values that they stand for.

* `Parses r F`: `r` returns a value exactly where a text of the value comes next, and takes that text.
* `Recognizes r P`: `r` returns some value exactly where a text in `P` comes next, and takes that text.
* `Many P n`: `n` texts one after the other.

What a reader of a format returns does not depend on where the text stands (`Parses.anywhere`).
-/

namespace Wire

open Outcome

variable {ε α β : Type}

/-- What `r` takes where it returns is a text of the value, and it returns wherever such a text comes next. -/
structure Parses (r : Reader ε α) (F : List UInt8 → α → Prop) : Prop where
  sound : ∀ c v c', r c = .ok (v, c') → ∃ w, c.unread = w ++ c'.unread ∧ F w v
  complete : ∀ w v, F w v → Reads r w v

/-- What `r` takes where it returns is in `P`, and it returns wherever such a text comes next. -/
def Recognizes (r : Reader ε α) (P : List UInt8 → Prop) : Prop := ∃ F, Parses r F ∧ ∀ w, P w ↔ ∃ v, F w v

/-- One text after the other. -/
def Many (P : List UInt8 → Prop) (n : Nat) (w : List UInt8) : Prop :=
  ∃ items : List (List UInt8), w = items.flatten ∧ items.length = n ∧ ∀ item ∈ items, P item

/-- A number and its rest by `256 ^ n` have the same `n` low bytes. -/
theorem bigEndian_mod (n v : Nat) : bigEndian n (v % 256 ^ n) = bigEndian n v := by
  induction n generalizing v with
  | zero => rfl
  | succ n ih =>
    have hhead : v % 256 ^ (n + 1) / 256 ^ n = v / 256 ^ n % 256 := by rw [Nat.pow_succ, Nat.mod_mul_right_div_self]
    have htail : bigEndian n (v % 256 ^ (n + 1)) = bigEndian n v := by
      rw [← ih (v % 256 ^ (n + 1)), Nat.pow_succ, Nat.mod_mul_right_mod, ih]
    rw [bigEndian, bigEndian, hhead, htail]
    congr 1
    exact UInt8.toNat_inj.1 (by simp)

/-- Bytes are the numeral of a number. -/
theorem exists_bigEndian (w : List UInt8) : ∃ v < 256 ^ w.length, w = bigEndian w.length v := by
  induction w with
  | nil => exact ⟨0, Nat.one_pos, rfl⟩
  | cons b w ih =>
    obtain ⟨x, hx, hw⟩ := ih
    have hpos : 0 < 256 ^ w.length := Nat.zero_lt_of_lt hx
    have hb : b.toNat + 1 ≤ 256 := b.toNat_lt
    have hdiv : (256 ^ w.length * b.toNat + x) / 256 ^ w.length = b.toNat := by
      rw [Nat.mul_add_div hpos, Nat.div_eq_of_lt hx, Nat.add_zero]
    have hmod : (256 ^ w.length * b.toNat + x) % 256 ^ w.length = x := by
      rw [Nat.mul_add_mod, Nat.mod_eq_of_lt hx]
    refine ⟨256 ^ w.length * b.toNat + x, ?_, ?_⟩
    · calc 256 ^ w.length * b.toNat + x < 256 ^ w.length * b.toNat + 256 ^ w.length := Nat.add_lt_add_left hx _
        _ = 256 ^ w.length * (b.toNat + 1) := (Nat.mul_succ _ _).symm
        _ ≤ 256 ^ w.length * 256 := Nat.mul_le_mul_left _ hb
        _ = 256 ^ (b :: w).length := (Nat.pow_succ ..).symm
    · rw [List.length_cons, bigEndian, hdiv, UInt8.ofNat_toNat, ← bigEndian_mod, hmod, ← hw]

namespace Parses

variable {r : Reader ε α} {F : List UInt8 → α → Prop}

theorem of_iff {G : List UInt8 → α → Prop} (h : Parses r F) (hG : ∀ w v, F w v ↔ G w v) : Parses r G where
  sound c v c' hr := by
    obtain ⟨w, hw, hv⟩ := h.sound c v c' hr
    exact ⟨w, hw, (hG w v).1 hv⟩
  complete w v hv := h.complete w v ((hG w v).2 hv)

theorem ok_iff (h : Parses r F) {p : Nat} {u : List UInt8} {v : α} {c : Cursor} :
    r ⟨p, u⟩ = .ok (v, c) ↔ ∃ w rest, u = w ++ rest ∧ c = ⟨p + w.length, rest⟩ ∧ F w v := by
  constructor
  · intro hr
    obtain ⟨w, hw, hv⟩ := h.sound _ _ _ hr
    refine ⟨w, c.unread, hw, ?_, hv⟩
    have hread := h.complete w v hv p c.unread
    rw [← hw] at hread
    exact (Prod.mk.inj (Outcome.ok.inj (hr.symm.trans hread))).2
  · rintro ⟨w, rest, rfl, rfl, hv⟩
    exact h.complete w v hv p rest

/-- A reader that ends returns the same wherever its input stands. -/
theorem anywhere (h : Parses r F) (hends : AlwaysEnds r) (p q : Nat) (u : List UInt8) :
    (∃ v c c', r ⟨p, u⟩ = .ok (v, c) ∧ r ⟨q, u⟩ = .ok (v, c')) ∨ ∃ e e', r ⟨p, u⟩ = .err e ∧ r ⟨q, u⟩ = .err e' := by
  have hmove {p q : Nat} {v : α} {c : Cursor} (hr : r ⟨p, u⟩ = .ok (v, c)) : ∃ c', r ⟨q, u⟩ = .ok (v, c') := by
    obtain ⟨w, rest, hu, -, hv⟩ := h.ok_iff.1 hr
    exact ⟨_, h.ok_iff.2 ⟨w, rest, hu, rfl, hv⟩⟩
  rcases Outcome.ends_iff.1 (hends ⟨p, u⟩) with ⟨⟨v, c⟩, hp⟩ | ⟨e, hp⟩
  · obtain ⟨c', hq⟩ := @hmove p q v c hp
    exact .inl ⟨v, c, c', hp, hq⟩
  · rcases Outcome.ends_iff.1 (hends ⟨q, u⟩) with ⟨⟨v, c⟩, hq⟩ | ⟨e', hq⟩
    · obtain ⟨c', hp'⟩ := @hmove q p v c hq
      rw [hp] at hp'
      cases hp'
    · exact .inr ⟨e, e', hp, hq⟩

theorem pure (a : α) : Parses (Pure.pure a : Reader ε α) fun w b => w = [] ∧ b = a where
  sound c v c' h := by
    obtain ⟨rfl, rfl⟩ := Prod.mk.inj (Outcome.ok.inj h)
    exact ⟨[], rfl, rfl, rfl⟩
  complete w v h := by
    obtain ⟨rfl, rfl⟩ := h
    exact Reads.pure v

theorem fail (e : ε) : Parses (Reader.fail e : Reader ε α) fun _ _ => False where
  sound _ _ _ h := by cases h
  complete _ _ h := h.elim

theorem bind {k : α → Reader ε β} {G : α → List UInt8 → β → Prop} (h : Parses r F) (hk : ∀ a, Parses (k a) (G a)) :
    Parses (r >>= k) fun w b => ∃ w₁ w₂ a, w = w₁ ++ w₂ ∧ F w₁ a ∧ G a w₂ b where
  sound c b c' hb := by
    obtain ⟨⟨a, d⟩, ha, hb⟩ := Outcome.bind_eq_ok.1 hb
    obtain ⟨w₁, hw₁, hF⟩ := h.sound _ _ _ ha
    obtain ⟨w₂, hw₂, hG⟩ := (hk a).sound _ _ _ hb
    refine ⟨w₁ ++ w₂, ?_, w₁, w₂, a, rfl, hF, hG⟩
    rw [hw₁, hw₂, List.append_assoc]
  complete w b hb := by
    obtain ⟨w₁, w₂, a, rfl, hF, hG⟩ := hb
    exact (h.complete _ _ hF).bind ((hk a).complete _ _ hG)

theorem map (h : Parses r F) (f : α → β) :
    Parses (r >>= fun a => Pure.pure (f a)) fun w b => ∃ a, F w a ∧ b = f a := by
  refine (h.bind fun a => pure (f a)).of_iff fun w b => ?_
  constructor
  · rintro ⟨w₁, _, a, rfl, ha, rfl, rfl⟩
    rw [List.append_nil]
    exact ⟨a, ha, rfl⟩
  · rintro ⟨a, ha, rfl⟩
    exact ⟨w, [], a, (List.append_nil w).symm, ha, rfl, rfl⟩

theorem mapErr {ε' : Type} (h : Parses r F) (f : ε → ε') :
    Parses (fun c => (r c).mapErr f : Reader ε' α) F where
  sound c v c' hr := h.sound c v c' (Outcome.mapErr_eq_ok.1 hr)
  complete w v hv p rest := by
    show (r ⟨p, w ++ rest⟩).mapErr f = _
    rw [h.complete w v hv p rest]
    rfl

theorem next (eof : ε) : Parses (Reader.next eof) fun w b => w = [b] where
  sound := by
    rintro ⟨p, u⟩ b c' h
    cases u with
    | nil => cases h
    | cons x u =>
      obtain ⟨rfl, rfl⟩ := Prod.mk.inj (Outcome.ok.inj h)
      exact ⟨[x], rfl, rfl⟩
  complete w b h := by
    obtain rfl := h
    exact Reads.next eof b

theorem take (eof : ε) (n : Nat) : Parses (Reader.take eof n) fun w v => w.length = n ∧ v = w where
  sound := by
    rintro ⟨p, u⟩ v c' h
    unfold Reader.take at h
    by_cases hn : n ≤ u.length
    · rw [if_pos hn] at h
      obtain ⟨rfl, rfl⟩ := Prod.mk.inj (Outcome.ok.inj h)
      exact ⟨u.take n, (List.take_append_drop n u).symm, List.length_take_of_le hn, rfl⟩
    · rw [if_neg hn] at h
      cases h
  complete w v h := by
    obtain ⟨rfl, rfl⟩ := h
    exact Reads.take eof v

theorem bigEndian (eof : ε) (n : Nat) :
    Parses (Reader.bigEndian eof n) fun w v => v < 256 ^ n ∧ w = Wire.bigEndian n v where
  sound := by
    rintro ⟨p, u⟩ v c' h
    have hlen := Shrinks.bigEndianFrom eof 0 n _ _ _ h
    have htake : (u.take n).length = n := List.length_take_of_le (Nat.le_of_add_left_le hlen)
    obtain ⟨x, hx, hbytes⟩ := exists_bigEndian (u.take n)
    rw [htake] at hx hbytes
    have hread := reads_bigEndian eof hx p (u.drop n)
    rw [← hbytes, List.take_append_drop, h] at hread
    obtain ⟨rfl, rfl⟩ := Prod.mk.inj (Outcome.ok.inj hread)
    exact ⟨u.take n, (List.take_append_drop n u).symm, hx, hbytes⟩
  complete w v h := by
    obtain ⟨hv, rfl⟩ := h
    exact reads_bigEndian eof hv

theorem replicate (h : Parses r F) (n : Nat) :
    Parses (Reader.replicate r n) fun w as =>
      ∃ items : List (List UInt8), w = items.flatten ∧ as.length = n ∧ List.Forall₂ F items as := by
  induction n with
  | zero =>
    refine (pure []).of_iff fun w as => ?_
    constructor
    · rintro ⟨rfl, rfl⟩
      exact ⟨[], rfl, rfl, .nil⟩
    · rintro ⟨items, rfl, hlen, hall⟩
      obtain rfl := List.length_eq_zero_iff.1 hlen
      cases hall
      exact ⟨rfl, rfl⟩
  | succ n ih =>
    refine (h.bind fun a => ih.map (a :: ·)).of_iff fun w as => ?_
    constructor
    · rintro ⟨w₁, _, a, rfl, ha, as, ⟨items, rfl, hlen, hall⟩, rfl⟩
      exact ⟨w₁ :: items, rfl, congrArg (· + 1) hlen, .cons ha hall⟩
    · rintro ⟨_, rfl, hlen, _ | ⟨ha, hall⟩⟩
      · cases hlen
      · exact ⟨_, _, _, rfl, ha, _, ⟨_, rfl, Nat.succ.inj hlen, hall⟩, rfl⟩

end Parses

namespace Recognizes

variable {r : Reader ε α} {P Q : List UInt8 → Prop}

theorem of_parses {F : List UInt8 → α → Prop} (h : Parses r F) (hP : ∀ w, P w ↔ ∃ v, F w v) : Recognizes r P :=
  ⟨F, h, hP⟩

theorem of_iff (h : Recognizes r P) (hQ : ∀ w, P w ↔ Q w) : Recognizes r Q := by
  obtain ⟨F, hF, hP⟩ := h
  exact ⟨F, hF, fun w => (hQ w).symm.trans (hP w)⟩

theorem bind {k : α → Reader ε β} (h : Recognizes r P) (hk : ∀ a, Recognizes (k a) Q) :
    Recognizes (r >>= k) fun w => ∃ w₁ w₂, w = w₁ ++ w₂ ∧ P w₁ ∧ Q w₂ := by
  obtain ⟨F, hF, hP⟩ := h
  choose G hG hQ using hk
  refine ⟨_, hF.bind hG, fun w => ?_⟩
  constructor
  · rintro ⟨w₁, w₂, rfl, hw₁, hw₂⟩
    obtain ⟨a, ha⟩ := (hP w₁).1 hw₁
    obtain ⟨b, hb⟩ := (hQ a w₂).1 hw₂
    exact ⟨b, w₁, w₂, a, rfl, ha, hb⟩
  · rintro ⟨b, w₁, w₂, a, rfl, ha, hb⟩
    exact ⟨w₁, w₂, rfl, (hP w₁).2 ⟨a, ha⟩, (hQ a w₂).2 ⟨b, hb⟩⟩

/-- What was read decides what follows. -/
theorem after {k : α → Reader ε β} {F : List UInt8 → α → Prop} {G : α → List UInt8 → Prop} (h : Parses r F)
    (hk : ∀ a, Recognizes (k a) (G a)) :
    Recognizes (r >>= k) fun w => ∃ w₁ w₂ a, w = w₁ ++ w₂ ∧ F w₁ a ∧ G a w₂ := by
  choose H hH hG using hk
  refine ⟨_, h.bind hH, fun w => ?_⟩
  constructor
  · rintro ⟨w₁, w₂, a, rfl, ha, hw₂⟩
    obtain ⟨b, hb⟩ := (hG a w₂).1 hw₂
    exact ⟨b, w₁, w₂, a, rfl, ha, hb⟩
  · rintro ⟨b, w₁, w₂, a, rfl, ha, hb⟩
    exact ⟨w₁, w₂, a, rfl, ha, (hG a w₂).2 ⟨b, hb⟩⟩

/-- What was read is not used. -/
theorem before {k : Reader ε β} {G : List UInt8 → β → Prop} (h : Recognizes r P) (hk : Parses k G) :
    Parses (r >>= fun _ => k) fun w b => ∃ w₁ w₂, w = w₁ ++ w₂ ∧ P w₁ ∧ G w₂ b := by
  obtain ⟨F, hF, hP⟩ := h
  refine (hF.bind fun _ => hk).of_iff fun w b => ?_
  constructor
  · rintro ⟨w₁, w₂, a, rfl, ha, hb⟩
    exact ⟨w₁, w₂, rfl, (hP w₁).2 ⟨a, ha⟩, hb⟩
  · rintro ⟨w₁, w₂, rfl, hw₁, hb⟩
    obtain ⟨a, ha⟩ := (hP w₁).1 hw₁
    exact ⟨w₁, w₂, a, rfl, ha, hb⟩

theorem pure (a : α) : Recognizes (Pure.pure a : Reader ε α) (· = []) :=
  ⟨_, Parses.pure a, fun _ => ⟨fun h => ⟨a, h, rfl⟩, fun ⟨_, h, _⟩ => h⟩⟩

theorem fail (e : ε) : Recognizes (Reader.fail e : Reader ε α) fun _ => False :=
  ⟨_, Parses.fail e, fun _ => ⟨False.elim, fun ⟨_, h⟩ => h⟩⟩

private theorem exists_values {F : List UInt8 → α → Prop} (hP : ∀ w, P w ↔ ∃ v, F w v) (items : List (List UInt8)) :
    (∀ item ∈ items, P item) ↔ ∃ as, List.Forall₂ F items as := by
  induction items with
  | nil => exact iff_of_true (fun _ h => absurd h List.not_mem_nil) ⟨[], .nil⟩
  | cons item items ih =>
    rw [List.forall_mem_cons, ih, hP]
    constructor
    · rintro ⟨⟨a, ha⟩, as, has⟩
      exact ⟨a :: as, .cons ha has⟩
    · rintro ⟨_, _ | ⟨ha, has⟩⟩
      exact ⟨⟨_, ha⟩, _, has⟩

theorem replicate (h : Recognizes r P) (n : Nat) : Recognizes (Reader.replicate r n) (Many P n) := by
  obtain ⟨F, hF, hP⟩ := h
  refine ⟨_, hF.replicate n, fun w => ?_⟩
  constructor
  · rintro ⟨items, rfl, hlen, hall⟩
    obtain ⟨as, has⟩ := (exists_values hP items).1 hall
    exact ⟨as, items, rfl, has.length_eq.symm.trans hlen, has⟩
  · rintro ⟨as, items, rfl, hlen, hall⟩
    exact ⟨items, rfl, hall.length_eq.trans hlen, (exists_values hP items).2 ⟨as, hall⟩⟩

theorem mapErr {ε' : Type} (h : Recognizes r P) (f : ε → ε') :
    Recognizes (fun c => (r c).mapErr f : Reader ε' α) P := by
  obtain ⟨F, hF, hP⟩ := h
  exact ⟨F, hF.mapErr f, hP⟩

/-! ### Texts of one length -/

/-- The reader takes `n` bytes, whatever they are. -/
abbrev Skips (n : Nat) (r : Reader ε α) : Prop := Recognizes r fun w => w.length = n

theorem skips_pure (a : α) : Skips 0 (Pure.pure a : Reader ε α) :=
  (pure a).of_iff fun _ => List.length_eq_zero_iff.symm

theorem skips_bind {k : α → Reader ε β} {n m : Nat} (h : Skips n r) (hk : ∀ a, Skips m (k a)) :
    Skips (n + m) (r >>= k) := by
  refine (h.bind hk).of_iff fun w => ?_
  constructor
  · rintro ⟨w₁, w₂, rfl, rfl, rfl⟩
    exact List.length_append
  · intro hlen
    refine ⟨w.take n, w.drop n, (List.take_append_drop n w).symm, List.length_take_of_le (by omega), ?_⟩
    rw [List.length_drop]
    omega

theorem skips_map {n : Nat} (h : Skips n r) (f : α → β) : Skips n (r >>= fun a => Pure.pure (f a)) :=
  skips_bind h fun a => skips_pure (f a)

theorem skips_next (eof : ε) : Skips 1 (Reader.next eof) :=
  of_parses (Parses.next eof) fun _ => List.length_eq_one_iff

theorem skips_bigEndian (eof : ε) (n : Nat) : Skips n (Reader.bigEndian eof n) := by
  refine of_parses (Parses.bigEndian eof n) fun w => ?_
  constructor
  · rintro rfl
    exact exists_bigEndian w
  · rintro ⟨v, -, rfl⟩
    exact length_bigEndian n v

/-- Bytes that are not used before others that are not used. -/
theorem skips_before {k : Reader ε β} {G : List UInt8 → β → Prop} {n m : Nat} (h : Skips n r)
    (hk : Parses k fun w b => ∃ w₁ w₂, w = w₁ ++ w₂ ∧ w₁.length = m ∧ G w₂ b) :
    Parses (r >>= fun _ => k) fun w b => ∃ w₁ w₂, w = w₁ ++ w₂ ∧ w₁.length = n + m ∧ G w₂ b := by
  refine (h.before hk).of_iff fun w b => ?_
  constructor
  · rintro ⟨w₁, _, rfl, rfl, w₂, w₃, rfl, rfl, hb⟩
    exact ⟨w₁ ++ w₂, w₃, (List.append_assoc ..).symm, List.length_append, hb⟩
  · rintro ⟨w, w₃, rfl, hlen, hb⟩
    refine ⟨w.take n, w.drop n ++ w₃, ?_, List.length_take_of_le (by omega), w.drop n, w₃, rfl, ?_, hb⟩
    · rw [← List.append_assoc, List.take_append_drop]
    · rw [List.length_drop]
      omega

theorem skips_replicate (h : Skips 1 r) (n : Nat) : Skips n (Reader.replicate r n) := by
  induction n with
  | zero => exact skips_pure []
  | succ n ih =>
    refine (skips_bind h fun a => skips_map ih (a :: ·)).of_iff fun w => ?_
    rw [Nat.add_comm]

end Recognizes

end Wire
