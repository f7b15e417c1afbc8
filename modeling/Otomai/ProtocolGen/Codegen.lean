import Mathlib.Data.List.TakeWhile
import Otomai.ProtocolGen.Extractor

/-!
# Code generation

What `write_serialize_body` and `write_deserialize_body` emit for a field list, as syntax.  A statement refers to a
field `self.f` by its position in the struct.

The write side emits a flag byte where its group of flags stands; the read side reads all flag bytes before the
first field.
-/

namespace Otomai.ProtocolGen

variable {ν : Type}

/-- A `write_*` method of `BigEndianWriter` with the `read_*` method of `BigEndianReader` of the same name. -/
inductive Method where
  | boolean
  | byte
  | short
  | ushort
  | int
  | uint
  | float
  | double
  | utf
  | varInt
  | varUint
  | varShort
  | varUshort
  | varLong
  | varUlong
  deriving DecidableEq, Repr

def lengthWriteMethod (lengthType : String) : Method :=
  match lengthType with
  | "writeVarInt" => .varInt
  | "writeUnsignedShort" => .ushort
  | "writeUShort" => .ushort
  | "writeByte" => .byte
  | _ => .short

def lengthReadMethod (lengthType : String) : Method :=
  match lengthType with
  | "writeVarInt" => .varInt
  | "writeUnsignedShort" => .ushort
  | "writeUShort" => .ushort
  | "writeByte" => .byte
  | _ => .ushort

/-- `primitive_write_method` and `primitive_read_method`, which agree. -/
def primitiveMethod : FieldType ν → Method
  | .byte => .byte
  | .ubyte => .byte
  | .short => .short
  | .ushort => .ushort
  | .int => .int
  | .uint => .uint
  | .float => .float
  | .double => .double
  | .varInt => .varInt
  | .varUint => .varUint
  | .varShort => .varShort
  | .varUshort => .varUshort
  | .varLong => .varLong
  | .varUlong => .varUlong
  | .bool => .boolean
  | .string => .utf
  | _ => .byte

/-! ### Boolean groups -/

/-- The positions of the flags at the head of `fields`, the first of which has position `i`. -/
def leadingFlags (i : Nat) : List (ProtocolField ν) → List Nat
  | [] => []
  | f :: fs => if f.isFlag then i :: leadingFlags (i + 1) fs else []

/-- Groups of consecutive flags, each under the position of its first field; `skip` fields belong to the group that
was just collected. -/
def collectBooleanGroups (i : Nat) : Nat → List (ProtocolField ν) → List (Nat × List Nat)
  | _, [] => []
  | skip + 1, _ :: fs => collectBooleanGroups (i + 1) skip fs
  | 0, f :: fs =>
    if f.isFlag then
      let rest := leadingFlags (i + 1) fs
      (i, i :: rest) :: collectBooleanGroups (i + 1) rest.length fs
    else collectBooleanGroups (i + 1) 0 fs

/-! ### Serialize body -/

/-- The body of the loop over the elements of a vector. -/
inductive ElementWrite where
  /-- `writer.write_ushort(item.get_type_id()); item.serialize(writer);` -/
  | variant
  /-- `item.serialize(writer);` -/
  | serialize
  /-- `writer.m(*item);` -/
  | call (m : Method)
  /-- No loop is emitted. -/
  | nothing
  deriving DecidableEq, Repr

inductive WriteStatement where
  /-- `_flag = set_flag(_flag, bit, self.g).unwrap();` for each field of the group, then `write_byte(_flag)`. -/
  | flags (group : List Nat)
  /-- `writer.m(self.f);` -/
  | call (m : Method) (f : Nat)
  /-- `writer.write_var_int(self.f.len() as i32); writer.write_bytes(&self.f);` -/
  | byteArray (f : Nat)
  /-- `self.f.serialize(writer);` -/
  | serialize (f : Nat)
  /-- `writer.length(self.f.len() as _); for item in &self.f { element }` -/
  | vector (length : Method) (f : Nat) (element : ElementWrite)
  /-- `writer.write_bytes(&self.f);` -/
  | bytes (f : Nat)
  /-- `writer.write_ushort(self.f.get_type_id()); (*self.f).serialize(writer);` -/
  | variant (f : Nat)
  deriving DecidableEq, Repr

def elementWrite : FieldType ν → ElementWrite
  | .typeManager none => .nothing
  | .typeManager (some _) => .variant
  | .type _ => .serialize
  | inner => .call (primitiveMethod inner)

/-- The statement for a field outside the boolean groups. -/
def writeStatement (fieldType : FieldType ν) (i : Nat) : WriteStatement :=
  match fieldType with
  | .byteArray => .byteArray i
  | .type _ => .serialize i
  | .vector inner lengthType => .vector (lengthWriteMethod lengthType) i (elementWrite inner)
  | .typeManager none => .bytes i
  | .typeManager (some _) => .variant i
  | .long => .call .varLong i
  | .ulong => .call .varUlong i
  | primitive => .call (primitiveMethod primitive) i

def writeSerializeBody (boolGroups : List (Nat × List Nat)) (i : Nat) :
    Nat → List (ProtocolField ν) → List WriteStatement
  | _, [] => []
  | skip + 1, _ :: fs => writeSerializeBody boolGroups (i + 1) skip fs
  | 0, f :: fs =>
    match boolGroups.lookup i with
    | some group => .flags group :: writeSerializeBody boolGroups (i + 1) (group.length - 1) fs
    | none =>
      if f.isFlag then writeSerializeBody boolGroups (i + 1) 0 fs
      else writeStatement f.fieldType i :: writeSerializeBody boolGroups (i + 1) 0 fs

def serializeBody (fields : List (ProtocolField ν)) : List WriteStatement :=
  writeSerializeBody (collectBooleanGroups 0 0 fields) 0 0 fields

/-! ### Deserialize body -/

/-- What a vector's loop pushes. -/
inductive ElementRead (ν : Type) where
  /-- `tn::deserialize(reader)?` -/
  | deserialize (name : Option ν)
  /-- `Default::default()` -/
  | default
  /-- `let type_id = reader.read_ushort()?; tnVariant::deserialize_with_id(type_id, reader)?` -/
  | variant (base : ν)
  /-- `reader.m()?` -/
  | call (m : Method)
  deriving DecidableEq, Repr

/-- The initializer of a field in the struct literal. -/
inductive Initializer (ν : Type) where
  /-- `boolean_byte_wrapper::get_flag(_flagN, bit)?` -/
  | flag (flagIdx bit : Nat)
  /-- `reader.m()?` -/
  | call (m : Method)
  /-- `let len = reader.read_var_int()? as usize; reader.read_bytes(len)?` -/
  | byteArray
  /-- `tn::deserialize(reader)?` -/
  | deserialize (name : Option ν)
  /-- `let count = reader.length()? as usize; let mut v = Vec::with_capacity(count); for _ in 0..count { .. }` -/
  | vector (length : Method) (element : ElementRead ν)
  /-- `let type_id = reader.read_ushort()?; Box::new(tnVariant::deserialize_with_id(type_id, reader)?)` -/
  | variant (base : ν)
  /-- `Default::default()` -/
  | default
  deriving DecidableEq, Repr

/-- `let _flag0 = reader.read_byte()?; ..` for every boolean group, then `Ok(Self { .. })`. -/
structure DeserializeBody (ν : Type) where
  flagReads : Nat
  initializers : List (Initializer ν)
  deriving DecidableEq, Repr

def elementRead : FieldType ν → ElementRead ν
  | .type name => .deserialize name
  | .typeManager none => .default
  | .typeManager (some base) => .variant base
  | inner => .call (primitiveMethod inner)

/-- The initializer of a field outside the boolean groups. -/
def initializer : FieldType ν → Initializer ν
  | .byteArray => .byteArray
  | .type name => .deserialize name
  | .vector inner lengthType => .vector (lengthReadMethod lengthType) (elementRead inner)
  | .typeManager none => .default
  | .typeManager (some base) => .variant base
  | .long => .call .varLong
  | .ulong => .call .varUlong
  | primitive => .call (primitiveMethod primitive)

def writeInitializers (boolGroups : List (Nat × List Nat)) (flagIdx i : Nat) :
    Nat → List (ProtocolField ν) → List (Initializer ν)
  | _, [] => []
  | skip + 1, _ :: fs => writeInitializers boolGroups flagIdx (i + 1) skip fs
  | 0, f :: fs =>
    match boolGroups.lookup i with
    | some group =>
      (List.range group.length).map (.flag flagIdx) ++
        writeInitializers boolGroups (flagIdx + 1) (i + 1) (group.length - 1) fs
    | none =>
      if f.isFlag then writeInitializers boolGroups flagIdx (i + 1) 0 fs
      else initializer f.fieldType :: writeInitializers boolGroups flagIdx (i + 1) 0 fs

def deserializeBody (fields : List (ProtocolField ν)) : DeserializeBody ν :=
  let boolGroups := collectBooleanGroups 0 0 fields
  { flagReads := boolGroups.length, initializers := writeInitializers boolGroups 0 0 0 fields }

/-! ### Field lists by groups of flags -/

/-- A field list is empty, starts with a field of its own, or starts with a maximal group of flags. -/
theorem groupInduction {motive : List (ProtocolField ν) → Prop} (nil : motive [])
    (field : ∀ f fs, f.isFlag = false → motive fs → motive (f :: fs))
    (group : ∀ g fs, g ≠ [] → (∀ f ∈ g, f.isFlag = true) → (∀ f ∈ fs.head?, f.isFlag = false) → motive fs →
      motive (g ++ fs)) (fields : List (ProtocolField ν)) : motive fields := by
  induction h : fields.length using Nat.strongRecOn generalizing fields with
  | ind n ih =>
    subst h
    rcases fields with _ | ⟨f, fs⟩
    · exact nil
    · by_cases hf : f.isFlag
      · have hsplit := List.takeWhile_append_dropWhile (p := ProtocolField.isFlag) (l := fs)
        rw [← hsplit]
        refine group (f :: fs.takeWhile ProtocolField.isFlag) (fs.dropWhile ProtocolField.isFlag) (by simp) ?_ ?_ ?_
        · rintro x (_ | ⟨_, hx⟩)
          · exact hf
          · exact List.mem_takeWhile_imp hx
        · intro x hx
          have := List.head?_dropWhile_not ProtocolField.isFlag fs
          rw [hx] at this
          exact this
        · exact ih _ (Nat.lt_succ_of_le (List.length_dropWhile_le ..)) _ rfl
      · exact field f fs (by simpa using hf) (ih _ (Nat.lt_succ_self _) fs rfl)

theorem leadingFlags_append {g fs : List (ProtocolField ν)} (hg : ∀ f ∈ g, f.isFlag = true)
    (hfs : ∀ f ∈ fs.head?, f.isFlag = false) (i : Nat) : leadingFlags i (g ++ fs) = List.range' i g.length := by
  induction g generalizing i with
  | nil =>
    rcases fs with _ | ⟨f, fs⟩
    · rfl
    · simp [leadingFlags, hfs f (by simp)]
  | cons f g ih =>
    have hf := hg f (by simp)
    simp [leadingFlags, hf, ih (fun x hx => hg x (by simp [hx])), List.range'_succ]

theorem collectBooleanGroups_skip (g fs : List (ProtocolField ν)) (i : Nat) :
    collectBooleanGroups i g.length (g ++ fs) = collectBooleanGroups (i + g.length) 0 fs := by
  induction g generalizing i with
  | nil => rfl
  | cons f g ih =>
    rw [List.length_cons, List.cons_append, collectBooleanGroups, ih]
    congr 1
    omega

@[simp] theorem collectBooleanGroups_nil (i skip : Nat) : collectBooleanGroups (ν := ν) i skip [] = [] := by
  cases skip <;> rfl

theorem collectBooleanGroups_field {f : ProtocolField ν} (hf : f.isFlag = false) (fs : List (ProtocolField ν))
    (i : Nat) : collectBooleanGroups i 0 (f :: fs) = collectBooleanGroups (i + 1) 0 fs := by
  simp [collectBooleanGroups, hf]

theorem collectBooleanGroups_group {g fs : List (ProtocolField ν)} (hne : g ≠ []) (hg : ∀ f ∈ g, f.isFlag = true)
    (hfs : ∀ f ∈ fs.head?, f.isFlag = false) (i : Nat) :
    collectBooleanGroups i 0 (g ++ fs) =
      (i, List.range' i g.length) :: collectBooleanGroups (i + g.length) 0 fs := by
  obtain ⟨f, g, rfl⟩ := List.exists_cons_of_ne_nil hne
  have hg' : ∀ x ∈ g, x.isFlag = true := fun x hx => hg x (by simp [hx])
  have hskip := collectBooleanGroups_skip g fs (i + 1)
  simp only [List.cons_append, collectBooleanGroups, hg f (by simp), if_true, leadingFlags_append hg' hfs,
    List.length_range', hskip, List.length_cons, List.range'_succ]
  rw [show i + 1 + g.length = i + (g.length + 1) by omega]

/-- Every group is recorded under a position not before the one the collection started at. -/
theorem le_of_mem_collectBooleanGroups (fields : List (ProtocolField ν)) :
    ∀ i, ∀ x ∈ collectBooleanGroups i 0 fields, i ≤ x.1 := by
  induction fields using groupInduction with
  | nil => simp
  | field f fs hf ih =>
    intro i x hx
    rw [collectBooleanGroups_field hf] at hx
    have := ih (i + 1) x hx
    omega
  | group g fs hne hg hfs ih =>
    intro i x hx
    rw [collectBooleanGroups_group hne hg hfs] at hx
    rcases List.mem_cons.1 hx with rfl | hx
    · exact Nat.le_refl i
    · have := ih _ x hx
      omega

/-- `boolGroups` answers every lookup at or after position `i` as the groups collected from `fields` do. -/
def GroupsFrom (boolGroups : List (Nat × List Nat)) (i : Nat) (fields : List (ProtocolField ν)) : Prop :=
  ∀ j, i ≤ j → boolGroups.lookup j = (collectBooleanGroups i 0 fields).lookup j

private theorem lookup_eq_none_of_lt {j : Nat} {l : List (Nat × List Nat)} (h : ∀ x ∈ l, j < x.1) :
    l.lookup j = none := by
  induction l with
  | nil => rfl
  | cons x l ih =>
    have hx := h x (by simp)
    have hne : (j == x.1) = false := by simp; omega
    rw [List.lookup_cons, hne, ih fun y hy => h y (by simp [hy])]

theorem groupsFrom_zero (fields : List (ProtocolField ν)) :
    GroupsFrom (collectBooleanGroups 0 0 fields) 0 fields := fun _ _ => rfl

theorem GroupsFrom.field {G : List (Nat × List Nat)} {i : Nat} {f : ProtocolField ν} {fs : List (ProtocolField ν)}
    (h : GroupsFrom G i (f :: fs)) (hf : f.isFlag = false) : G.lookup i = none ∧ GroupsFrom G (i + 1) fs := by
  unfold GroupsFrom at h
  simp only [collectBooleanGroups_field hf] at h
  exact ⟨(h i (Nat.le_refl i)).trans (lookup_eq_none_of_lt (le_of_mem_collectBooleanGroups fs (i + 1))),
    fun j hj => h j (by omega)⟩

theorem GroupsFrom.group {G : List (Nat × List Nat)} {i : Nat} {g fs : List (ProtocolField ν)}
    (h : GroupsFrom G i (g ++ fs)) (hne : g ≠ []) (hg : ∀ f ∈ g, f.isFlag = true)
    (hfs : ∀ f ∈ fs.head?, f.isFlag = false) :
    G.lookup i = some (List.range' i g.length) ∧ GroupsFrom G (i + g.length) fs := by
  have hpos := List.length_pos_iff.2 hne
  unfold GroupsFrom at h
  simp only [collectBooleanGroups_group hne hg hfs] at h
  refine ⟨(h i (Nat.le_refl i)).trans (by simp), fun j hj => (h j (by omega)).trans ?_⟩
  have hne' : (j == i) = false := by simp; omega
  rw [List.lookup_cons, hne']

theorem writeSerializeBody_field {G : List (Nat × List Nat)} {i : Nat} {f : ProtocolField ν}
    {fs : List (ProtocolField ν)} (h : GroupsFrom G i (f :: fs)) (hf : f.isFlag = false) :
    writeSerializeBody G i 0 (f :: fs) = writeStatement f.fieldType i :: writeSerializeBody G (i + 1) 0 fs := by
  simp [writeSerializeBody, (h.field hf).1, hf]

theorem writeSerializeBody_skip (G : List (Nat × List Nat)) (g fs : List (ProtocolField ν)) (i : Nat) :
    writeSerializeBody G i g.length (g ++ fs) = writeSerializeBody G (i + g.length) 0 fs := by
  induction g generalizing i with
  | nil => rfl
  | cons f g ih =>
    rw [List.length_cons, List.cons_append, writeSerializeBody, ih]
    congr 1
    omega

theorem writeSerializeBody_group {G : List (Nat × List Nat)} {i : Nat} {g fs : List (ProtocolField ν)}
    (h : GroupsFrom G i (g ++ fs)) (hne : g ≠ []) (hg : ∀ f ∈ g, f.isFlag = true)
    (hfs : ∀ f ∈ fs.head?, f.isFlag = false) :
    writeSerializeBody G i 0 (g ++ fs) =
      .flags (List.range' i g.length) :: writeSerializeBody G (i + g.length) 0 fs := by
  have hG := (h.group hne hg hfs).1
  obtain ⟨f, g, rfl⟩ := List.exists_cons_of_ne_nil hne
  have hskip := writeSerializeBody_skip G g fs (i + 1)
  simp only [List.cons_append, writeSerializeBody, hG, List.length_range', List.length_cons,
    Nat.add_sub_cancel, hskip]
  rw [show i + 1 + g.length = i + (g.length + 1) by omega]

theorem writeInitializers_field {G : List (Nat × List Nat)} {k i : Nat} {f : ProtocolField ν}
    {fs : List (ProtocolField ν)} (h : GroupsFrom G i (f :: fs)) (hf : f.isFlag = false) :
    writeInitializers G k i 0 (f :: fs) = initializer f.fieldType :: writeInitializers G k (i + 1) 0 fs := by
  simp [writeInitializers, (h.field hf).1, hf]

theorem writeInitializers_skip (G : List (Nat × List Nat)) (g fs : List (ProtocolField ν)) (k i : Nat) :
    writeInitializers G k i g.length (g ++ fs) = writeInitializers G k (i + g.length) 0 fs := by
  induction g generalizing i with
  | nil => rfl
  | cons f g ih =>
    rw [List.length_cons, List.cons_append, writeInitializers, ih]
    congr 1
    omega

theorem writeInitializers_group {G : List (Nat × List Nat)} {k i : Nat} {g fs : List (ProtocolField ν)}
    (h : GroupsFrom G i (g ++ fs)) (hne : g ≠ []) (hg : ∀ f ∈ g, f.isFlag = true)
    (hfs : ∀ f ∈ fs.head?, f.isFlag = false) :
    writeInitializers G k i 0 (g ++ fs) =
      (List.range g.length).map (.flag k) ++ writeInitializers G (k + 1) (i + g.length) 0 fs := by
  have hG := (h.group hne hg hfs).1
  obtain ⟨f, g, rfl⟩ := List.exists_cons_of_ne_nil hne
  have hskip := writeInitializers_skip G g fs (k + 1) (i + 1)
  simp only [List.cons_append, writeInitializers, hG, List.length_range', List.length_cons, Nat.add_sub_cancel, hskip]
  rw [show i + 1 + g.length = i + (g.length + 1) by omega]

end Otomai.ProtocolGen
