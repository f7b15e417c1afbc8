import Otomai.Wire.Numeral

/-!
# Slices

Parts of a byte string by their offsets.  A slice that reaches behind the end panics, and so does an index; a check of
the length before it is what keeps a parser that works with offsets from doing so.

* `slice_eq`, `index_eq`: a part of known length at a known offset.
* `exists_split`: a byte string that is long enough has a part of a length.
* `ofBigEndian_bigEndian`: the number that the bytes of a numeral make.
-/

namespace Wire

variable {ε : Type}

/-- `&data[start..stop]`. -/
def slice (data : List UInt8) (start stop : Nat) : Outcome ε (List UInt8) :=
  if start ≤ stop ∧ stop ≤ data.length then .ok ((data.drop start).take (stop - start)) else .panic

/-- `data[i]`. -/
def index (data : List UInt8) (i : Nat) : Outcome ε UInt8 :=
  match data[i]? with
  | some b => .ok b
  | none => .panic

/-- The number that some bytes make, the most significant one first. -/
def ofBigEndian (w : List UInt8) : Nat := w.foldl (fun acc b => acc * 256 + b.toNat) 0

theorem slice_eq {data a b c : List UInt8} {start stop : Nat} (hdata : data = a ++ (b ++ c))
    (hstart : a.length = start)
    (hstop : start + b.length = stop) : slice data start stop = (.ok b : Outcome ε (List UInt8)) := by
  subst hdata hstart hstop
  have hfits : a.length ≤ a.length + b.length ∧ a.length + b.length ≤ (a ++ (b ++ c)).length := by
    simp only [List.length_append]
    omega
  rw [slice, if_pos hfits, List.drop_left, Nat.add_sub_cancel_left, List.take_left]

theorem index_eq {data a c : List UInt8} {b : UInt8} {i : Nat} (hdata : data = a ++ b :: c) (hi : a.length = i) :
    index data i = (.ok b : Outcome ε UInt8) := by
  subst hdata hi
  rw [index, List.getElem?_append_right (Nat.le_refl _), Nat.sub_self]
  rfl

theorem exists_split {data : List UInt8} {n : Nat} (h : n ≤ data.length) : ∃ a b, data = a ++ b ∧ a.length = n :=
  ⟨data.take n, data.drop n, (List.take_append_drop n data).symm, List.length_take_of_le h⟩

theorem ofBigEndian_bigEndian (n v : Nat) : ofBigEndian (bigEndian n v) = v % 256 ^ n := by
  have hfold : ∀ acc, (bigEndian n v).foldl (fun acc b => acc * 256 + b.toNat) acc = acc * 256 ^ n + v % 256 ^ n := by
    induction n with
    | zero => simp [bigEndian, Nat.mod_one]
    | succ n ih =>
      intro acc
      have hb : (UInt8.ofNat (v / 256 ^ n)).toNat = v / 256 ^ n % 256 := by simp
      rw [bigEndian, List.foldl_cons, ih, hb, Nat.pow_succ, Nat.mod_mul]
      ring
  simpa [ofBigEndian] using hfold 0

end Wire
