import Otomai.Wire.Reader

/-!
# Bytes at a position

Formats with a table of contents are read by seeking: the table tells where the bytes of an item begin.

* `Cursor.seek data position`: the cursor over `data` at a position.
* `place write position items`: the items written one after the other, each with the position at which it begins.
* `Reader.upTo stop r`: entries are read one after the other until the position reaches `stop`.

An item that was placed is found again at its position (`place_prefix`), and a table that was written entry by entry
is read back entry by entry (`upTo_flatMap`).  A table whose length is told too short is not read to its end
(`upTo_short`).
-/

namespace Wire

variable {ε α : Type}

/-- The cursor over `data` at a position, which may lie beyond the end. -/
def Cursor.seek (data : List UInt8) (position : Nat) : Cursor := ⟨position, data.drop position⟩

@[simp] theorem Cursor.position_seek (data : List UInt8) (position : Nat) :
    (seek data position).position = position :=
  rfl

/-- What stands at a position is read there, and the cursor stops behind it. -/
theorem Reads.seek {r : Reader ε α} {w data : List UInt8} {v : α} {position : Nat} (h : Reads r w v)
    (hw : w <+: data.drop position) :
    r (Cursor.seek data position) = .ok (v, Cursor.seek data (position + w.length)) := by
  obtain ⟨rest, hrest⟩ := hw
  have hr := h position rest
  rw [hrest] at hr
  unfold Cursor.seek
  rw [hr, ← List.drop_drop, ← hrest, List.drop_left]

/-- Two strings of bytes stand one after the other. -/
theorem append_prefix_drop {w w' data : List UInt8} {position : Nat} :
    w ++ w' <+: data.drop position ↔ w <+: data.drop position ∧ w' <+: data.drop (position + w.length) := by
  constructor
  · rintro ⟨rest, hrest⟩
    refine ⟨⟨w' ++ rest, by rw [← hrest, List.append_assoc]⟩, ⟨rest, ?_⟩⟩
    rw [← List.drop_drop, ← hrest, List.append_assoc, List.drop_left]
  · rintro ⟨⟨rest, hrest⟩, h⟩
    rw [← List.drop_drop, ← hrest, List.drop_left] at h
    rw [← hrest]
    exact (List.prefix_append_right_inj w).2 h

/-! ### Items with their positions -/

/-- The items written one after the other from a position on, each with the position at which it begins. -/
def place (write : α → List UInt8) : Nat → List α → List (α × Nat)
  | _, [] => []
  | position, a :: as => (a, position) :: place write (position + (write a).length) as

section place

variable {write : α → List UInt8}

@[simp] theorem map_fst_place (as : List α) (position : Nat) : (place write position as).map Prod.fst = as := by
  induction as generalizing position with
  | nil => rfl
  | cons a as ih => rw [place, List.map_cons, ih]

@[simp] theorem length_place (as : List α) (position : Nat) : (place write position as).length = as.length := by
  rw [← List.length_map (f := Prod.fst), map_fst_place]

/-- An item that was placed stands at its position, between the first and the last byte written. -/
theorem place_prefix {as : List α} {a : α} {data : List UInt8} : ∀ {position offset : Nat},
    as.flatMap write <+: data.drop position → (a, offset) ∈ place write position as →
    write a <+: data.drop offset ∧ position ≤ offset ∧
      offset + (write a).length ≤ position + (as.flatMap write).length := by
  induction as with
  | nil => exact fun _ h => absurd h List.not_mem_nil
  | cons b as ih =>
    intro position offset hw hmem
    rw [List.flatMap_cons, append_prefix_drop] at hw
    rw [List.flatMap_cons, List.length_append]
    rcases List.mem_cons.1 hmem with h | h
    · obtain ⟨rfl, rfl⟩ := Prod.mk.inj h
      exact ⟨hw.1, Nat.le_refl _, by omega⟩
    · obtain ⟨hpre, hle, hend⟩ := ih hw.2 h
      exact ⟨hpre, by omega, by omega⟩

end place

/-! ### What is read was unread -/

/-- The bytes a reader steps over are those it takes from the unread ones. -/
def Consumes (r : Reader ε α) : Prop :=
  ∀ c a c', r c = .ok (a, c') → c'.position + c'.unread.length = c.position + c.unread.length

section Consumes

variable {β : Type}

theorem Consumes.pure (a : α) : Consumes (pure a : Reader ε α) := by
  intro c b c' h
  obtain ⟨-, rfl⟩ := Prod.mk.inj (Outcome.ok.inj h)
  rfl

theorem Consumes.fail (e : ε) : Consumes (Reader.fail e : Reader ε α) := fun _ _ _ h => nomatch h

theorem Consumes.panic : Consumes (Reader.panic : Reader ε α) := fun _ _ _ h => nomatch h

theorem Consumes.bind {r : Reader ε α} {k : α → Reader ε β} (h : Consumes r) (h' : ∀ a, Consumes (k a)) :
    Consumes (r >>= k) := by
  intro c b c' hb
  obtain ⟨⟨a, d⟩, ha, hb⟩ := Outcome.bind_eq_ok.1 hb
  exact (h' a d b c' hb).trans (h c a d ha)

theorem Consumes.next (eof : ε) : Consumes (Reader.next eof) := by
  rintro ⟨p, u⟩ b c' h
  cases u with
  | nil => cases h
  | cons x u =>
    obtain ⟨-, rfl⟩ := Prod.mk.inj (Outcome.ok.inj h)
    show p + 1 + u.length = p + (u.length + 1)
    omega

theorem Consumes.take (eof : ε) (n : Nat) : Consumes (Reader.take eof n) := by
  rintro ⟨p, u⟩ b c' h
  unfold Reader.take at h
  split at h
  · rename_i hn
    obtain ⟨-, rfl⟩ := Prod.mk.inj (Outcome.ok.inj h)
    show p + n + (u.drop n).length = p + u.length
    rw [List.length_drop]
    have : n ≤ u.length := hn
    omega
  · cases h

end Consumes

/-! ### Tables -/

namespace Reader

/-- Entries are read while the position is below `stop`, one unit of fuel for each of them. -/
def upTo (stop : Nat) (r : Reader ε α) : Nat → Reader ε (List α)
  | 0 => exhausted
  | fuel + 1 => fun c =>
    if c.position < stop then
      (do
        let a ← r
        let as ← upTo stop r fuel
        pure (a :: as) : Reader ε (List α)) c
    else .ok ([], c)

variable {r : Reader ε α} {stop : Nat}

theorem upTo_of_le {c : Cursor} (h : stop ≤ c.position) (fuel : Nat) : upTo stop r (fuel + 1) c = .ok ([], c) :=
  if_neg (Nat.not_lt.2 h)

theorem upTo_of_lt {c : Cursor} (h : c.position < stop) (fuel : Nat) :
    upTo stop r (fuel + 1) c = r c >>= fun x => upTo stop r fuel x.2 >>= fun y => .ok (x.1 :: y.1, y.2) :=
  if_pos h

end Reader

section upTo

open Reader

variable {r : Reader ε α} {write : α → List UInt8} {stop : Nat}

/-- Items that take at least one byte each are no more than their bytes. -/
theorem length_le_flatMap {as : List α} (hne : ∀ a ∈ as, write a ≠ []) : as.length ≤ (as.flatMap write).length := by
  induction as with
  | nil => exact Nat.le_refl _
  | cons a as ih =>
    have ha := List.length_pos_of_ne_nil (hne a List.mem_cons_self)
    have has := ih fun b hb => hne b (List.mem_cons_of_mem _ hb)
    rw [List.flatMap_cons, List.length_append, List.length_cons]
    omega

/-- A table is read back entry by entry. -/
theorem upTo_flatMap {as : List α} (hreads : ∀ a ∈ as, Reads r (write a) a) (hne : ∀ a ∈ as, write a ≠ []) :
    ∀ {fuel position : Nat} (rest : List UInt8), as.length < fuel →
    upTo (position + (as.flatMap write).length) r fuel ⟨position, as.flatMap write ++ rest⟩ =
      .ok (as, ⟨position + (as.flatMap write).length, rest⟩) := by
  induction as with
  | nil =>
    intro fuel position rest hfuel
    obtain ⟨n, rfl⟩ := Nat.exists_eq_add_one_of_ne_zero (Nat.ne_of_gt hfuel)
    exact upTo_of_le (Nat.le_refl _) n
  | cons a as ih =>
    intro fuel position rest hfuel
    obtain ⟨n, rfl⟩ := Nat.exists_eq_add_one_of_ne_zero (Nat.ne_of_gt (Nat.zero_lt_of_lt hfuel))
    have hpos : 0 < (write a).length := List.length_pos_of_ne_nil (hne a List.mem_cons_self)
    have hread := hreads a List.mem_cons_self position (as.flatMap write ++ rest)
    have htail := @ih (fun b hb => hreads b (List.mem_cons_of_mem _ hb))
      (fun b hb => hne b (List.mem_cons_of_mem _ hb))
      n (position + (write a).length) rest (Nat.lt_of_succ_lt_succ hfuel)
    rw [List.flatMap_cons, List.length_append, List.append_assoc, ← Nat.add_assoc,
      upTo_of_lt (show position < _ by omega), hread, Outcome.ok_bind, htail, Outcome.ok_bind]

/-- A table whose length is told shorter, by more than its longest entry, is left before its last entry. -/
theorem upTo_short {as : List α} {longest : Nat} (hreads : ∀ a ∈ as, Reads r (write a) a)
    (hlongest : ∀ a ∈ as, (write a).length ≤ longest) :
    ∀ {fuel position : Nat} {rest : List UInt8} {bs : List α} {c : Cursor}, as ≠ [] →
    stop + longest ≤ position + (as.flatMap write).length →
    upTo stop r fuel ⟨position, as.flatMap write ++ rest⟩ = .ok (bs, c) → bs <+: as ∧ bs.length < as.length := by
  induction as with
  | nil => exact fun h => absurd rfl h
  | cons a as ih =>
    intro fuel position rest bs c hne hstop h
    cases fuel with
    | zero => cases h
    | succ fuel =>
      by_cases hlt : position < stop
      · have hread := hreads a List.mem_cons_self position (as.flatMap write ++ rest)
        rw [List.flatMap_cons, List.append_assoc, upTo_of_lt hlt, hread, Outcome.ok_bind] at h
        obtain ⟨⟨bs', c'⟩, hrest, h⟩ := Outcome.bind_eq_ok.1 h
        obtain ⟨rfl, rfl⟩ := Prod.mk.inj (Outcome.ok.inj h)
        rw [List.flatMap_cons, List.length_append] at hstop
        have ha := hlongest a List.mem_cons_self
        have hne' : as ≠ [] := by
          rintro rfl
          simp only [List.flatMap_nil, List.length_nil] at hstop
          omega
        obtain ⟨hpre, hlength⟩ := ih (fun b hb => hreads b (List.mem_cons_of_mem _ hb))
          (fun b hb => hlongest b (List.mem_cons_of_mem _ hb)) hne' (by omega) hrest
        exact ⟨List.prefix_cons_inj a |>.2 hpre, Nat.succ_lt_succ hlength⟩
      · rw [upTo_of_le (Nat.not_lt.1 hlt)] at h
        obtain ⟨rfl, rfl⟩ := Prod.mk.inj (Outcome.ok.inj h)
        exact ⟨List.nil_prefix, Nat.zero_lt_succ _⟩

/-- A table is read up to its end, and no further than its data go. -/
theorem upTo_stops (hr : Consumes r) : ∀ {fuel : Nat} {c c' : Cursor} {as : List α},
    upTo stop r fuel c = .ok (as, c') →
    c'.position + c'.unread.length = c.position + c.unread.length ∧ stop ≤ c'.position := by
  intro fuel
  induction fuel with
  | zero => exact fun h => nomatch h
  | succ fuel ih =>
    intro c c' as h
    by_cases hlt : c.position < stop
    · rw [upTo_of_lt hlt] at h
      obtain ⟨⟨a, d⟩, ha, h⟩ := Outcome.bind_eq_ok.1 h
      obtain ⟨⟨as', d'⟩, has, h⟩ := Outcome.bind_eq_ok.1 h
      obtain ⟨rfl, rfl⟩ := Prod.mk.inj (Outcome.ok.inj h)
      obtain ⟨htotal, hstop⟩ := ih has
      exact ⟨htotal.trans (hr c a d ha), hstop⟩
    · rw [upTo_of_le (Nat.not_lt.1 hlt)] at h
      obtain ⟨rfl, rfl⟩ := Prod.mk.inj (Outcome.ok.inj h)
      exact ⟨rfl, Nat.not_lt.1 hlt⟩

/-- What is known of every value a reader returns is known of the entries of a table. -/
theorem upTo_forall {Q : α → Prop} (hr : ∀ c a c', r c = .ok (a, c') → Q a) :
    ∀ {fuel : Nat} {c c' : Cursor} {as : List α}, upTo stop r fuel c = .ok (as, c') → ∀ a ∈ as, Q a := by
  intro fuel
  induction fuel with
  | zero => exact fun h => nomatch h
  | succ fuel ih =>
    intro c c' as h
    by_cases hlt : c.position < stop
    · rw [upTo_of_lt hlt] at h
      obtain ⟨⟨a, d⟩, ha, h⟩ := Outcome.bind_eq_ok.1 h
      obtain ⟨⟨as', d'⟩, has, h⟩ := Outcome.bind_eq_ok.1 h
      obtain ⟨rfl, -⟩ := Prod.mk.inj (Outcome.ok.inj h)
      exact List.forall_mem_cons.2 ⟨hr c a d ha, ih has⟩
    · rw [upTo_of_le (Nat.not_lt.1 hlt)] at h
      obtain ⟨rfl, -⟩ := Prod.mk.inj (Outcome.ok.inj h)
      exact fun a ha => absurd ha List.not_mem_nil

end upTo

end Wire
