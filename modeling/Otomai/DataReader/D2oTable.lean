import Mathlib.Data.List.Perm.Subperm
import Otomai.DataReader.D2oRoundTrip
import Otomai.Io.Ends

/-!
# The class table of a file

The classes of a file are read back as they were written, and whatever table was read can be written again.

* `reads_classDef`: a class is read back.
* `rewrites_classDef`: a class that was read is written with the bytes that it was read from.
* `exists_table`: the table of a file that was read is written, with no more bytes than the file has.
-/

namespace Otomai.DataReader

open Wire BigEndianReader BigEndianWriter

/-- The type is one that a file can declare. -/
def D2OFieldType.Valid : D2OFieldType → Prop
  | .vector _ inner => inner.Valid
  | .object classId => 0 < classId
  | _ => True

/-- The class is one that a file can hold under the id. -/
def D2OClassDef.Valid (classDef : D2OClassDef) : Prop :=
  classDef.fields.length < 2 ^ 31 ∧ ∀ field ∈ classDef.fields, field.fieldType.Valid

theorem valid_of_readFieldTypeFrom (fuel : Nat) : ∀ c fieldType c',
    readFieldTypeFrom fuel c = .ok (fieldType, c') → fieldType.Valid := by
  induction fuel with
  | zero => exact fun _ _ _ h => absurd h (by simp [readFieldTypeFrom, Wire.Reader.exhausted])
  | succ fuel ih =>
    intro c fieldType c' h
    obtain ⟨⟨typeId, d⟩, -, h⟩ := Outcome.bind_eq_ok.1 h
    dsimp only at h
    split_ifs at h with h₁ h₂ h₃ h₄ h₅ h₆ h₇ h₈
    · obtain ⟨rfl, -⟩ := Prod.mk.inj (Outcome.ok.inj h)
      trivial
    · obtain ⟨rfl, -⟩ := Prod.mk.inj (Outcome.ok.inj h)
      trivial
    · obtain ⟨rfl, -⟩ := Prod.mk.inj (Outcome.ok.inj h)
      trivial
    · obtain ⟨rfl, -⟩ := Prod.mk.inj (Outcome.ok.inj h)
      trivial
    · obtain ⟨rfl, -⟩ := Prod.mk.inj (Outcome.ok.inj h)
      trivial
    · obtain ⟨rfl, -⟩ := Prod.mk.inj (Outcome.ok.inj h)
      trivial
    · obtain ⟨⟨name, d'⟩, -, h⟩ := Outcome.bind_eq_ok.1 h
      obtain ⟨⟨inner, d''⟩, hinner, h⟩ := Outcome.bind_eq_ok.1 h
      obtain ⟨rfl, -⟩ := Prod.mk.inj (Outcome.ok.inj h)
      have hvalid := ih _ _ _ hinner
      exact hvalid
    · obtain ⟨rfl, -⟩ := Prod.mk.inj (Outcome.ok.inj h)
      exact h₈
    · cases h

theorem valid_of_readClassDef (c : Cursor) (classDef : D2OClassDef) (c' : Cursor)
    (h : readClassDef c = .ok (classDef, c')) : classDef.Valid := by
  obtain ⟨⟨classId, c₁⟩, -, h⟩ := Outcome.bind_eq_ok.1 h
  obtain ⟨⟨name, c₂⟩, -, h⟩ := Outcome.bind_eq_ok.1 h
  obtain ⟨⟨package, c₃⟩, -, h⟩ := Outcome.bind_eq_ok.1 h
  obtain ⟨⟨fieldCount, c₄⟩, -, h⟩ := Outcome.bind_eq_ok.1 h
  obtain ⟨⟨fields, c₅⟩, hfields, h⟩ := Outcome.bind_eq_ok.1 h
  obtain ⟨rfl, -⟩ := Prod.mk.inj (Outcome.ok.inj h)
  dsimp only at hfields
  unfold readCounted at hfields
  split at hfields
  · cases hfields
  obtain ⟨hlength, hall⟩ := forall_replicate (Q := fun field : D2OFieldDef => field.fieldType.Valid)
    (fun c field c' hfield => by
      obtain ⟨⟨name, d⟩, -, hfield⟩ := Outcome.bind_eq_ok.1 hfield
      obtain ⟨⟨fieldType, d'⟩, htype, hfield⟩ := Outcome.bind_eq_ok.1 hfield
      obtain ⟨rfl, -⟩ := Prod.mk.inj (Outcome.ok.inj hfield)
      exact valid_of_readFieldTypeFrom _ _ _ _ htype) hfields
  have hlt := fieldCount.toInt_lt
  refine ⟨?_, hall⟩
  dsimp only
  omega

theorem writeUtfChecked_eq_ok_iff {s : String} {w : List UInt8} :
    writeUtfChecked s = .ok w ↔ Fits s ∧ writeUtf s = w := by
  unfold writeUtfChecked Fits
  split
  · simp only [false_iff, reduceCtorEq]
    omega
  · rw [Outcome.ok.injEq]
    exact ⟨fun h => ⟨by omega, h⟩, fun h => h.2⟩

/-- A type is read back, with more fuel than bytes. -/
theorem reads_fieldTypeFrom {fieldType : D2OFieldType} (hvalid : fieldType.Valid) : ∀ {w : List UInt8} {fuel : Nat},
    writeFieldType fieldType = .ok w → w.length < fuel → Reads (readFieldTypeFrom fuel) w fieldType := by
  have hfuel : ∀ {w : List UInt8} {fuel : Nat}, w.length < fuel → ∃ n, fuel = n + 1 := fun {w fuel} h =>
    Nat.exists_eq_add_one_of_ne_zero (Nat.ne_of_gt (Nat.zero_lt_of_lt h))
  induction fieldType with
  | vector typeName inner ih =>
    intro w fuel hw h
    obtain ⟨n, rfl⟩ := hfuel h
    obtain ⟨name, hname, hw⟩ := Outcome.bind_eq_ok.1 hw
    obtain ⟨inner', hinner, hw⟩ := Outcome.bind_eq_ok.1 hw
    obtain rfl := Outcome.ok.inj hw
    obtain ⟨hfits, rfl⟩ := writeUtfChecked_eq_ok_iff.1 hname
    rw [List.length_append, List.length_append, length_writeInt] at h
    refine (reads_io (reads_int _)).bind ?_
    exact (reads_io (reads_utf hfits)).bind ((ih hvalid hinner (by omega)).map (Reads.pure _))
  | object classId =>
    intro w fuel hw h
    obtain ⟨n, rfl⟩ := hfuel h
    obtain rfl := Outcome.ok.inj hw
    have hpos : 0 < classId.toInt := Int32.lt_iff_toInt_lt.1 hvalid
    have hgt : 0 < classId := hvalid
    have hne : ∀ k : Int32, k.toInt < 0 → classId ≠ k := by
      rintro k hk rfl
      omega
    refine (reads_io (reads_int classId)).map ?_
    -- the codes of the other types are negative
    rw [if_neg (hne _ (by decide)), if_neg (hne _ (by decide)), if_neg (hne _ (by decide)),
      if_neg (hne _ (by decide)), if_neg (hne _ (by decide)), if_neg (hne _ (by decide)),
      if_neg (hne _ (by decide)), if_pos hgt]
    exact Reads.pure _
  | _ =>
    intro w fuel hw h
    obtain ⟨n, rfl⟩ := hfuel h
    obtain rfl := Outcome.ok.inj hw
    exact (reads_io (reads_int _)).map (Reads.pure _)

theorem reads_fieldDef {field : D2OFieldDef} (hvalid : field.fieldType.Valid) {w : List UInt8}
    (hw : writeFieldDef field = .ok w) : Reads readFieldDef w field := by
  obtain ⟨name, hname, hw⟩ := Outcome.bind_eq_ok.1 hw
  obtain ⟨fieldType, htype, hw⟩ := Outcome.bind_eq_ok.1 hw
  obtain rfl := Outcome.ok.inj hw
  obtain ⟨hfits, rfl⟩ := writeUtfChecked_eq_ok_iff.1 hname
  refine (reads_io (reads_utf hfits)).bind (Reads.map (fun pos rest => ?_) (Reads.pure _))
  refine reads_fieldTypeFrom hvalid htype ?_ pos rest
  rw [List.length_append]
  omega

/-- What was written one after the other is read one after the other. -/
theorem reads_replicate_writeEach {α β : Type} {write : α → Outcome D2OError (List UInt8)} {r : D2OCursor β}
    {f : α → β} {as : List α} : ∀ {ws : List UInt8}, writeEach write as = .ok ws →
    (∀ a ∈ as, ∀ w, write a = .ok w → Reads r w (f a)) →
    Reads (Wire.Reader.replicate r as.length) ws (as.map f) := by
  induction as with
  | nil =>
    intro ws hws _
    obtain rfl := Outcome.ok.inj hws
    exact Reads.pure []
  | cons a as ih =>
    intro ws hws h
    obtain ⟨w, ws', hw, hws', rfl⟩ := writeEach_cons_eq_ok.1 hws
    exact (h a List.mem_cons_self w hw).bind
      ((ih hws' fun b hb => h b (List.mem_cons_of_mem _ hb)).map (Reads.pure _))

theorem reads_classDef {p : Int32 × D2OClassDef} (hid : p.1 = p.2.classId) (hvalid : p.2.Valid) {w : List UInt8}
    (hw : writeClassDef p = .ok w) : Reads readClassDef w p.2 := by
  obtain ⟨name, hname, hw⟩ := Outcome.bind_eq_ok.1 hw
  obtain ⟨package, hpackage, hw⟩ := Outcome.bind_eq_ok.1 hw
  obtain ⟨fields, hfields, hw⟩ := Outcome.bind_eq_ok.1 hw
  obtain rfl := Outcome.ok.inj hw
  obtain ⟨hnameFits, rfl⟩ := writeUtfChecked_eq_ok_iff.1 hname
  obtain ⟨hpackageFits, rfl⟩ := writeUtfChecked_eq_ok_iff.1 hpackage
  rw [hid]
  refine (reads_io (reads_int _)).bind ((reads_io (reads_utf hnameFits)).bind
    ((reads_io (reads_utf hpackageFits)).bind ((reads_io (reads_int _)).bind ?_)))
  have hcount : (Int32.ofNat p.2.fields.length).toInt = p.2.fields.length := Int32.toInt_ofNat_of_lt hvalid.1
  rw [hcount, readCounted, if_neg (by omega), Int.toNat_natCast]
  have hread := reads_replicate_writeEach (f := id) hfields fun field hfield w hw =>
    reads_fieldDef (hvalid.2 field hfield) hw
  rw [List.map_id] at hread
  exact hread.map (Reads.pure _)

/-! ### What is read can be written -/

/-- Whatever is read is written with the bytes that it was read from. -/
def Rewrites {α : Type} (r : D2OCursor α) (write : α → Outcome D2OError (List UInt8)) : Prop :=
  ∀ c a c', r c = .ok (a, c') → ∃ w, write a = .ok w ∧ c.unread = w ++ c'.unread

theorem unread_of_readInt {c c' : Cursor} {n : Int32} (h : io readInt c = .ok (n, c')) :
    c.unread = writeInt n ++ c'.unread := by
  obtain ⟨w, hw, rfl⟩ := parses_readInt.sound _ _ _ (io_eq_ok.1 h)
  exact hw

theorem rewrites_utf : Rewrites (io readUtf) writeUtfChecked := by
  intro c s c' h
  have hread := io_eq_ok.1 h
  refine ⟨writeUtf s, writeUtfChecked_eq_ok_iff.2 ⟨fits_of_readUtf hread, rfl⟩, ?_⟩
  obtain ⟨⟨length, d⟩, hlength, hread⟩ := Outcome.bind_eq_ok.1 hread
  obtain ⟨⟨buf, d'⟩, hbuf, hread⟩ := Outcome.bind_eq_ok.1 hread
  obtain ⟨w, hw, rfl⟩ := parses_readUshort.sound _ _ _ hlength
  dsimp only at hbuf hread
  have hbytes := length_of_readBytes hbuf
  have htaken : d.unread = buf ++ d'.unread := by
    unfold readBytes at hbuf
    split at hbuf
    · cases hbuf
    · unfold Wire.Reader.take at hbuf
      split at hbuf
      · obtain ⟨rfl, rfl⟩ := Prod.mk.inj (Outcome.ok.inj hbuf)
        exact (List.take_append_drop _ _).symm
      · cases hbuf
  cases hs : String.fromUTF8? ⟨buf.toArray⟩ with
  | none =>
    rw [hs] at hread
    cases hread
  | some s' =>
    rw [hs] at hread
    obtain ⟨rfl, rfl⟩ := Prod.mk.inj (Outcome.ok.inj hread)
    have hsame : UInt16.ofNat buf.length = length := by rw [hbytes, UInt16.ofNat_toNat]
    rw [hw, htaken, writeUtf, asBytes_of_fromUTF8? hs, hsame, List.append_assoc]

theorem rewrites_replicate {α : Type} {r : D2OCursor α} {write : α → Outcome D2OError (List UInt8)}
    (h : Rewrites r write) (n : Nat) : Rewrites (Wire.Reader.replicate r n) (writeEach write) := by
  induction n with
  | zero =>
    intro c as c' has
    obtain ⟨rfl, rfl⟩ := Prod.mk.inj (Outcome.ok.inj has)
    exact ⟨[], rfl, rfl⟩
  | succ n ih =>
    intro c as c' has
    obtain ⟨⟨a, d⟩, ha, has⟩ := Outcome.bind_eq_ok.1 has
    obtain ⟨⟨as', d'⟩, has', has⟩ := Outcome.bind_eq_ok.1 has
    obtain ⟨rfl, rfl⟩ := Prod.mk.inj (Outcome.ok.inj has)
    obtain ⟨w, hw, hc⟩ := h _ _ _ ha
    obtain ⟨ws, hws, hd⟩ := ih _ _ _ has'
    refine ⟨w ++ ws, writeEach_cons_eq_ok.2 ⟨w, ws, hw, hws, rfl⟩, ?_⟩
    rw [hc, hd, List.append_assoc]

theorem rewrites_fieldTypeFrom (fuel : Nat) : Rewrites (readFieldTypeFrom fuel) writeFieldType := by
  induction fuel with
  | zero => exact fun _ _ _ h => absurd h (by simp [readFieldTypeFrom, Wire.Reader.exhausted])
  | succ fuel ih =>
    intro c fieldType c' h
    obtain ⟨⟨typeId, d⟩, hid, h⟩ := Outcome.bind_eq_ok.1 h
    have hc := unread_of_readInt hid
    dsimp only at h
    split_ifs at h with h₁ h₂ h₃ h₄ h₅ h₆ h₇ h₈
    · obtain ⟨rfl, rfl⟩ := Prod.mk.inj (Outcome.ok.inj h)
      exact ⟨_, rfl, h₁ ▸ hc⟩
    · obtain ⟨rfl, rfl⟩ := Prod.mk.inj (Outcome.ok.inj h)
      exact ⟨_, rfl, h₂ ▸ hc⟩
    · obtain ⟨rfl, rfl⟩ := Prod.mk.inj (Outcome.ok.inj h)
      exact ⟨_, rfl, h₃ ▸ hc⟩
    · obtain ⟨rfl, rfl⟩ := Prod.mk.inj (Outcome.ok.inj h)
      exact ⟨_, rfl, h₄ ▸ hc⟩
    · obtain ⟨rfl, rfl⟩ := Prod.mk.inj (Outcome.ok.inj h)
      exact ⟨_, rfl, h₅ ▸ hc⟩
    · obtain ⟨rfl, rfl⟩ := Prod.mk.inj (Outcome.ok.inj h)
      exact ⟨_, rfl, h₆ ▸ hc⟩
    · obtain ⟨⟨name, d'⟩, hname, h⟩ := Outcome.bind_eq_ok.1 h
      obtain ⟨⟨inner, d''⟩, hinner, h⟩ := Outcome.bind_eq_ok.1 h
      obtain ⟨rfl, rfl⟩ := Prod.mk.inj (Outcome.ok.inj h)
      obtain ⟨w, hw, hd⟩ := rewrites_utf _ _ _ hname
      obtain ⟨w', hw', hd'⟩ := ih _ _ _ hinner
      refine ⟨writeInt (-99) ++ (w ++ w'), ?_, ?_⟩
      · rw [writeFieldType, hw, Outcome.ok_bind, hw', Outcome.ok_bind]
      · rw [hc, hd, hd', h₇, List.append_assoc, List.append_assoc]
    · obtain ⟨rfl, rfl⟩ := Prod.mk.inj (Outcome.ok.inj h)
      exact ⟨_, rfl, hc⟩
    · cases h

theorem rewrites_fieldDef : Rewrites readFieldDef writeFieldDef := by
  intro c field c' h
  obtain ⟨⟨name, d⟩, hname, h⟩ := Outcome.bind_eq_ok.1 h
  obtain ⟨⟨fieldType, d'⟩, htype, h⟩ := Outcome.bind_eq_ok.1 h
  obtain ⟨rfl, rfl⟩ := Prod.mk.inj (Outcome.ok.inj h)
  obtain ⟨w, hw, hc⟩ := rewrites_utf _ _ _ hname
  obtain ⟨w', hw', hd⟩ := rewrites_fieldTypeFrom _ _ _ _ htype
  refine ⟨w ++ w', ?_, ?_⟩
  · rw [writeFieldDef, hw, Outcome.ok_bind, hw', Outcome.ok_bind]
  · rw [hc, hd, List.append_assoc]

theorem rewrites_classDef : Rewrites readClassDef fun d => writeClassDef (d.classId, d) := by
  intro c classDef c' h
  obtain ⟨⟨classId, c₁⟩, hid, h⟩ := Outcome.bind_eq_ok.1 h
  obtain ⟨⟨name, c₂⟩, hname, h⟩ := Outcome.bind_eq_ok.1 h
  obtain ⟨⟨package, c₃⟩, hpackage, h⟩ := Outcome.bind_eq_ok.1 h
  obtain ⟨⟨fieldCount, c₄⟩, hcount, h⟩ := Outcome.bind_eq_ok.1 h
  obtain ⟨⟨fields, c₅⟩, hfields, h⟩ := Outcome.bind_eq_ok.1 h
  obtain ⟨rfl, rfl⟩ := Prod.mk.inj (Outcome.ok.inj h)
  dsimp only at hfields ⊢
  unfold readCounted at hfields
  split at hfields
  · cases hfields
  · rename_i hnonneg
    obtain ⟨w, hw, hc₁⟩ := rewrites_utf _ _ _ hname
    obtain ⟨w', hw', hc₂⟩ := rewrites_utf _ _ _ hpackage
    obtain ⟨ws, hws, hc₄⟩ := rewrites_replicate rewrites_fieldDef _ _ _ _ hfields
    have hlength := (forall_replicate (Q := fun _ => True) (fun _ _ _ _ => trivial) hfields).1
    have hlt := fieldCount.toInt_lt
    have hsame : Int32.ofNat fields.length = fieldCount := by
      refine Int32.toInt_inj.1 ?_
      rw [Int32.toInt_ofNat_of_lt (by omega)]
      omega
    refine ⟨writeInt classId ++ (w ++ (w' ++ (writeInt fieldCount ++ ws))), ?_, ?_⟩
    · rw [writeClassDef, hw, Outcome.ok_bind, hw', Outcome.ok_bind, hws, Outcome.ok_bind, hsame]
    · rw [unread_of_readInt hid, hc₁, hc₂, unread_of_readInt hcount, hc₄]
      simp only [List.append_assoc]

theorem writeEach_map {α β : Type} (write : β → Outcome D2OError (List UInt8)) (f : α → β) (as : List α) :
    writeEach write (as.map f) = writeEach (fun a => write (f a)) as := by
  induction as with
  | nil => rfl
  | cons a as ih => rw [List.map_cons, writeEach, writeEach, ih]

theorem writeEach_sublist {α : Type} {write : α → Outcome D2OError (List UInt8)} {as bs : List α}
    (h : as.Sublist bs) : ∀ {ws : List UInt8}, writeEach write bs = .ok ws →
    ∃ ws', writeEach write as = .ok ws' ∧ ws'.length ≤ ws.length := by
  induction h with
  | slnil => exact fun {ws} hws => ⟨ws, hws, Nat.le_refl _⟩
  | cons b _ ih =>
    intro ws hws
    obtain ⟨w, ws', -, hws', rfl⟩ := writeEach_cons_eq_ok.1 hws
    obtain ⟨vs, hvs, hle⟩ := ih hws'
    exact ⟨vs, hvs, hle.trans (by rw [List.length_append]; omega)⟩
  | cons_cons b _ ih =>
    intro ws hws
    obtain ⟨w, ws', hw, hws', rfl⟩ := writeEach_cons_eq_ok.1 hws
    obtain ⟨vs, hvs, hle⟩ := ih hws'
    refine ⟨w ++ vs, writeEach_cons_eq_ok.2 ⟨w, vs, hw, hvs, rfl⟩, ?_⟩
    rw [List.length_append, List.length_append]
    omega

theorem writeEach_perm {α : Type} {write : α → Outcome D2OError (List UInt8)} {as bs : List α}
    (h : as.Perm bs) : ∀ {ws : List UInt8}, writeEach write as = .ok ws →
    ∃ ws', writeEach write bs = .ok ws' ∧ ws'.length = ws.length := by
  induction h with
  | nil => exact fun {ws} hws => ⟨ws, hws, rfl⟩
  | cons a _ ih =>
    intro ws hws
    obtain ⟨w, ws', hw, hws', rfl⟩ := writeEach_cons_eq_ok.1 hws
    obtain ⟨us, hus, hlength⟩ := ih hws'
    refine ⟨w ++ us, writeEach_cons_eq_ok.2 ⟨w, us, hw, hus, rfl⟩, ?_⟩
    rw [List.length_append, List.length_append, hlength]
  | swap a b as =>
    intro ws hws
    obtain ⟨w, ws', hw, hws', rfl⟩ := writeEach_cons_eq_ok.1 hws
    obtain ⟨w', ws'', hw', hws'', rfl⟩ := writeEach_cons_eq_ok.1 hws'
    have hswapped := writeEach_cons_eq_ok.2 ⟨w, ws'', hw, hws'', rfl⟩
    refine ⟨w' ++ (w ++ ws''), writeEach_cons_eq_ok.2 ⟨w', w ++ ws'', hw', hswapped, rfl⟩, ?_⟩
    simp only [List.length_append]
    omega
  | trans _ _ ih ih' =>
    intro ws hws
    obtain ⟨us, hus, hlength⟩ := ih hws
    obtain ⟨us', hus', hlength'⟩ := ih' hus
    exact ⟨us', hus', hlength'.trans hlength⟩

/-- A part of a table that can be written can be written, with no more bytes. -/
theorem writeEach_subperm {α : Type} {write : α → Outcome D2OError (List UInt8)} {as bs : List α}
    (h : as.Subperm bs) {ws : List UInt8} (hws : writeEach write bs = .ok ws) :
    ∃ ws', writeEach write as = .ok ws' ∧ ws'.length ≤ ws.length := by
  obtain ⟨cs, hperm, hsub⟩ := h
  obtain ⟨vs, hvs, hle⟩ := writeEach_sublist hsub hws
  obtain ⟨ws', hws', hlength⟩ := writeEach_perm hperm hvs
  exact ⟨ws', hws', hlength.le.trans hle⟩

theorem shrinks_readIndex : Shrinks 0 readIndex := by
  intro c e c' h
  obtain ⟨⟨key, d⟩, hkey, h⟩ := Outcome.bind_eq_ok.1 h
  obtain ⟨⟨pointer, d'⟩, hpointer, h⟩ := Outcome.bind_eq_ok.1 h
  obtain ⟨-, rfl⟩ := Prod.mk.inj (Outcome.ok.inj h)
  have hlength := congrArg List.length (unread_of_readInt hkey)
  have hlength' := congrArg List.length (unread_of_readInt hpointer)
  rw [List.length_append] at hlength hlength'
  dsimp only at hlength' ⊢
  omega

/-- The class table of a file that was read can be written. -/
theorem exists_table {data : List UInt8} {reader : D2OReader} (h : D2OReader.fromBytes data = .ok reader)
    {classes : ClassTable} (hclasses : classes.Perm reader.classes.pairs) :
    ∃ table, writeEach writeClassDef classes = .ok table ∧ table.length ≤ data.length := by
  obtain ⟨⟨contentOffset, c⟩, -, h⟩ := Outcome.bind_eq_ok.1 h
  obtain ⟨⟨indexesPointer, c₁⟩, -, h⟩ := Outcome.bind_eq_ok.1 h
  obtain ⟨⟨indexesLength, c₂⟩, hlength, h⟩ := Outcome.bind_eq_ok.1 h
  obtain ⟨⟨indexes, c₃⟩, hindexes, h⟩ := Outcome.bind_eq_ok.1 h
  obtain ⟨⟨classCount, c₄⟩, hcount, h⟩ := Outcome.bind_eq_ok.1 h
  obtain ⟨⟨defs, c₅⟩, hdefs, h⟩ := Outcome.bind_eq_ok.1 h
  obtain rfl := Outcome.ok.inj h
  dsimp only at hclasses hdefs hcount hindexes hlength
  -- what is left behind the counts is no longer than the file
  have hunread : c₄.unread.length ≤ data.length := by
    have h₂ := congrArg List.length (unread_of_readInt hlength)
    have h₄ := congrArg List.length (unread_of_readInt hcount)
    have h₃ : c₃.unread.length ≤ c₂.unread.length := by
      unfold readCounted at hindexes
      split at hindexes
      · cases hindexes
      · exact shrinks_readIndex.replicate _ _ _ _ hindexes
    rw [Cursor.seek, List.length_drop, List.length_append] at h₂
    rw [List.length_append] at h₄
    omega
  obtain ⟨ws, hws, hc₄⟩ := rewrites_replicate rewrites_classDef _ _ _ _ hdefs
  have hmap : writeEach writeClassDef (defs.map fun d => (d.classId, d)) = .ok ws := by
    rw [writeEach_map]
    exact hws
  -- of two classes with one id the map keeps one, so the table is not longer than what was read
  have hsub : classes.Subperm (defs.map fun d => (d.classId, d)) := by
    refine hclasses.subperm.trans (List.Nodup.subperm ?_ fun p hp => HashMap.mem_of_mem_pairs_ofPairs hp)
    exact (HashMap.nodup_pairs _).of_map
  obtain ⟨table, htable, hle⟩ := writeEach_subperm hsub hmap
  have hpart := congrArg List.length hc₄
  rw [List.length_append] at hpart
  exact ⟨table, htable, by omega⟩

end Otomai.DataReader
