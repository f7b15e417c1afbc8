import Otomai.Common.HashMap
import Otomai.ProtocolGen.Serialize
import Otomai.ProtocolGen.SwfFile
import Otomai.Search.Stable
import Otomai.Search.Worklist

/-!
# Extracting the protocol

The messages and types of a class file are the classes below three base classes that have a protocol id.  Classes
refer to their parents by name; of several classes with one name, the last one is the one that a name stands for.  The
extractor goes through hash maps and hash sets, whose order is not known.

* `findDescendants_spec`: which classes are below a base class.
* `extractProtocol_spec`: what is extracted, in which order.
-/

namespace Otomai.ProtocolGen

open Abc Relation Search Wire

/-! ### The program -/

/-- A class that was extracted. -/
structure Extracted where
  fullName : String
  cls : ProtocolClass String
  deriving DecidableEq, Repr

/-- The order that the result is sorted by. -/
def ById (c d : Extracted) : Prop := c.cls.protocolId ≤ d.cls.protocolId

instance : DecidableRel ById := fun c d => inferInstanceAs (Decidable (c.cls.protocolId ≤ d.cls.protocolId))

instance : Std.Total ById := ⟨fun c d => UInt32.le_total c.cls.protocolId d.cls.protocolId⟩

instance : IsTrans Extracted ById := ⟨fun _ _ _ h h' => UInt32.le_trans h h'⟩

/-- The last class of each name, and the name of the parent of each class that has one. -/
structure ClassMaps where
  nameToIdx : HashMap String Nat
  parentMap : HashMap Nat String

/-- The orders in which the map of parents and the sets of messages and types are gone through. -/
structure Iteration where
  parents : List (Nat × String) → List (Nat × String)
  messages : List Nat → List Nat
  types : List Nat → List Nat
  perm_parents : ∀ ps, (parents ps).Perm ps
  perm_messages : ∀ is, (messages is).Perm is
  perm_types : ∀ is, (types is).Perm is

/-- The body of the first loop of `extract_protocol`. -/
def addInstance (names : UInt32 → Option String) (maps : ClassMaps) (entry : InstanceInfo × Nat) :
    Option ClassMaps := do
  let name ← names entry.1.name
  let parentName ← names entry.1.superName
  let nameToIdx := maps.nameToIdx.insert name entry.2
  if parentName = "" then some { maps with nameToIdx }
  else some { nameToIdx, parentMap := maps.parentMap.insert entry.2 parentName }

def classMaps (names : UInt32 → Option String) (instances : List InstanceInfo) : Option ClassMaps :=
  instances.zipIdx.foldlM (addInstance names) ⟨∅, ∅⟩

section

variable (nameToIdx : HashMap String Nat) (parents : List (Nat × String))

def nameOfIdx (idx : Nat) : Option String := (nameToIdx.pairs.find? fun p => p.2 = idx).map Prod.fst

/-- The body of the inner loop of `find_descendants`; the queue is a stack, its top comes first. -/
def pushChild (current : String) (st : List String × List Nat) (p : Nat × String) : List String × List Nat :=
  if p.2 = current then ((nameOfIdx nameToIdx p.1).toList ++ st.1, st.2.insert p.1) else st

/-- The loop of `find_descendants`, within a number of names taken off the queue. -/
def descendFrom : Nat → List String → List String → List Nat → Option (List Nat)
  | _, [], _, result => some result
  | 0, _ :: _, _, _ => none
  | n + 1, current :: queue, visited, result =>
    if current ∈ visited then descendFrom n queue visited result
    else
      let (queue, result) := parents.foldl (pushChild nameToIdx current) (queue, result)
      descendFrom n queue (current :: visited) result

/-- `find_descendants`, where `parents` is the map of parents in the order of its iteration. -/
def findDescendants (baseName : String) : Option (List Nat) :=
  descendFrom nameToIdx parents (parents.length + 1) [baseName] [] []

end

/-- The index and the kind of the value of a slot. -/
def constantOf : TraitData → Option (UInt32 × UInt8)
  | .const _ _ vindex vkind => some (vindex, vkind)
  | .slot _ _ vindex vkind => some (vindex, vkind)
  | _ => none

/-- An integer constant of the pool. -/
def constantValue (pool : ConstantPool) (vindex : UInt32) (vkind : UInt8) : Option UInt32 :=
  if vkind = 0x03 then pool.integers[vindex.toNat]?.map Int32.toUInt32
  else if vkind = 0x04 then pool.uintegers[vindex.toNat]?
  else none

section

variable (names : UInt32 → Option String) (pool : ConstantPool)

/-- `find_protocol_id`: the first slot of one of the two names that has a value tells the id, if it is an integer. -/
def findProtocolId : List Trait → Option (Option UInt32)
  | [] => some none
  | t :: traits => do
    let name ← names t.name
    if name = "protocolId" ∨ name = "id" then
      match constantOf t.data with
      | some (vindex, vkind) => if 0 < vindex then some (constantValue pool vindex vkind) else findProtocolId traits
      | none => findProtocolId traits
    else findProtocolId traits

def methodOf : TraitData → Option UInt32
  | .method _ method => some method
  | .getter _ method => some method
  | .setter _ method => some method
  | _ => none

/-- `find_method_by_name`. -/
def findMethodByName (methodName : String) : List Trait → Option (Option UInt32)
  | [] => some none
  | t :: traits => do
    let name ← names t.name
    if name = methodName then
      match methodOf t.data with
      | some method => some (some method)
      | none => findMethodByName methodName traits
    else findMethodByName methodName traits

end

/-- The last body of each method. -/
def methodBodyMap (bodies : List MethodBody) : HashMap UInt32 Nat :=
  .ofPairs (bodies.zipIdx.map fun p => (p.1.method, p.2))

/-- A value that is found within the nested calls. -/
def within {α : Type} : Option α → Outcome Empty α
  | some a => .ok a
  | none => .exhausted

/-- An entry of a list that is accessed by its index. -/
def indexed {α : Type} (as : List α) (i : Nat) : Outcome Empty α :=
  match as[i]? with
  | some a => .ok a
  | none => .panic

section

variable (calls : Nat) (file : AbcFile)

/-- What is written by the method, if it has a body. -/
def serializedFields (method : Option UInt32) : Outcome Empty (List (ProtocolField String)) :=
  match method.bind (methodBodyMap file.methodBodies).lookup with
  | some bodyIdx => do
    let body ← indexed file.methodBodies bodyIdx
    within (analyzeSerialize (file.constantPool.multinameName calls) body)
  | none => .ok []

def processClass (parentMap : HashMap Nat String) (isMessage : Bool) (idx : Nat) :
    Outcome Empty (Option Extracted) := do
  let names := file.constantPool.multinameName calls
  let inst ← indexed file.instances idx
  let cls ← indexed file.classes idx
  let name ← within (names inst.name)
  let fullName ← within (file.constantPool.multinameFull calls inst.name)
  let parent := parentMap.lookup idx
  match ← within (findProtocolId names file.constantPool cls.traits) with
  | none => .ok none
  | some protocolId => do
    let serializeMethod ← within (findMethodByName names "serialize" inst.traits)
    let fields ← serializedFields calls file serializeMethod
    .ok (some ⟨fullName, { name, protocolId, parent, isMessage, fields, booleanByteWrappers := [] }⟩)

/-- The classes of a set, one after the other. -/
def processAll (parentMap : HashMap Nat String) (isMessage : Bool) : List Nat → Outcome Empty (List Extracted)
  | [] => .ok []
  | idx :: is => do
    let cls ← processClass calls file parentMap isMessage idx
    let classes ← processAll parentMap isMessage is
    .ok (cls.toList ++ classes)

def extractProtocol (order : Iteration) : Outcome Empty (List Extracted) := do
  let maps ← within (classMaps (file.constantPool.multinameName calls) file.instances)
  let parents := order.parents maps.parentMap.pairs
  let messageBases ← within (findDescendants maps.nameToIdx parents "NetworkMessage")
  let typeBases ← within (findDescendants maps.nameToIdx parents "NetworkType")
  let messageBases2 ← within (findDescendants maps.nameToIdx parents "INetworkMessage")
  let allMessages := messageBases ∪ messageBases2
  let messages ← processAll calls file maps.parentMap true (order.messages allMessages)
  let types ← processAll calls file maps.parentMap false ((order.types typeBases).filter fun idx => idx ∉ allMessages)
  .ok ((messages ++ types).insertionSort ById)

end

/-! ### Descendants -/

section

variable {nameToIdx : HashMap String Nat} {parents : List (Nat × String)}

/-- The second name stands for a class with the first one as its parent. -/
def LeadsDown (nameToIdx : HashMap String Nat) (parents : List (Nat × String)) (c n : String) : Prop :=
  ∃ i, (i, c) ∈ parents ∧ nameOfIdx nameToIdx i = some n

theorem mem_foldl_pushChild (current : String) (queue : List String) (result : List Nat) :
    let st := parents.foldl (pushChild nameToIdx current) (queue, result)
    (∀ n, n ∈ st.1 ↔ n ∈ queue ∨ LeadsDown nameToIdx parents current n) ∧
      ∀ i, i ∈ st.2 ↔ i ∈ result ∨ (i, current) ∈ parents := by
  induction parents generalizing queue result with
  | nil => simp [LeadsDown]
  | cons p parents ih =>
    obtain ⟨hqueue, hresult⟩ := ih (pushChild nameToIdx current (queue, result) p).1
      (pushChild nameToIdx current (queue, result) p).2
    obtain ⟨i, parent⟩ := p
    refine ⟨fun n => (hqueue n).trans ?_, fun j => (hresult j).trans ?_⟩
    · by_cases hparent : parent = current
      · subst hparent
        simp only [pushChild, if_true, List.mem_append, Option.mem_toList, LeadsDown, List.mem_cons, Prod.mk.injEq]
        constructor
        · rintro ((hn | hn) | ⟨j, hj, hn⟩)
          · exact .inr ⟨i, .inl ⟨rfl, trivial⟩, hn⟩
          · exact .inl hn
          · exact .inr ⟨j, .inr hj, hn⟩
        · rintro (hn | ⟨j, ⟨rfl, -⟩ | hj, hn⟩)
          · exact .inl (.inr hn)
          · exact .inl (.inl hn)
          · exact .inr ⟨j, hj, hn⟩
      · simp [pushChild, hparent, LeadsDown, Ne.symm hparent]
    · by_cases hparent : parent = current
      · subst hparent
        simp only [pushChild, if_true, List.mem_insert_iff, List.mem_cons, Prod.mk.injEq, and_true]
        tauto
      · simp [pushChild, hparent, Ne.symm hparent]

theorem length_foldl_pushChild (current : String) (queue : List String) (result : List Nat) :
    (parents.foldl (pushChild nameToIdx current) (queue, result)).1.length ≤
      queue.length + parents.countP (·.2 = current) := by
  induction parents generalizing queue result with
  | nil => exact Nat.le_refl _
  | cons p parents ih =>
    have h := ih (pushChild nameToIdx current (queue, result) p).1 (pushChild nameToIdx current (queue, result) p).2
    rw [List.foldl_cons, List.countP_cons]
    refine Nat.le_trans h ?_
    by_cases hparent : p.2 = current
    · have hname : (nameOfIdx nameToIdx p.1).toList.length ≤ 1 := by cases nameOfIdx nameToIdx p.1 <;> simp
      simp only [pushChild, hparent, if_true, List.length_append, decide_true]
      omega
    · simp [pushChild, hparent]

theorem nodup_foldl_pushChild (current : String) (queue : List String) {result : List Nat} (h : result.Nodup) :
    (parents.foldl (pushChild nameToIdx current) (queue, result)).2.Nodup := by
  induction parents generalizing queue result with
  | nil => exact h
  | cons p parents ih =>
    have hstep : (pushChild nameToIdx current (queue, result) p).2.Nodup := by
      unfold pushChild
      split_ifs
      · exact h.insert
      · exact h
    exact ih (pushChild nameToIdx current (queue, result) p).1 hstep

/-- The parents that were not visited before a visit. -/
theorem countP_visited {current : String} {visited : List String} (h : current ∉ visited) :
    parents.countP (fun p => p.2 ∉ current :: visited) + parents.countP (fun p => p.2 = current) =
      parents.countP fun p => p.2 ∉ visited := by
  induction parents with
  | nil => rfl
  | cons p parents ih =>
    rw [List.countP_cons, List.countP_cons, List.countP_cons, ← ih]
    by_cases hparent : p.2 = current
    · simp [hparent, h]
      omega
    · simp [hparent]
      omega

/-- Every name that is taken off the queue has been put there for a class whose parent was visited. -/
theorem descendFrom_spec {base : String} {n : Nat} {queue visited : List String} {result : List Nat}
    (hexplored : Explored (LeadsDown nameToIdx parents) base visited queue)
    (hresult : ∀ i, i ∈ result ↔ ∃ c ∈ visited, (i, c) ∈ parents) (hnodup : result.Nodup)
    (hn : queue.length + parents.countP (fun p => p.2 ∉ visited) ≤ n) :
    ∃ result', descendFrom nameToIdx parents n queue visited result = some result' ∧ result'.Nodup ∧
      ∀ i, i ∈ result' ↔ ∃ c, ReflTransGen (LeadsDown nameToIdx parents) base c ∧ (i, c) ∈ parents := by
  induction n generalizing queue visited result with
  -- the fuel covers the queue and the edges that lead from parents not yet visited
  | zero =>
    obtain rfl := List.length_eq_zero_iff.1 (show queue.length = 0 by omega)
    refine ⟨result, rfl, hnodup, fun i => (hresult i).trans (exists_congr fun c => ?_)⟩
    rw [hexplored.mem_iff]
  | succ n ih =>
    cases queue with
    | nil =>
      refine ⟨result, rfl, hnodup, fun i => (hresult i).trans (exists_congr fun c => ?_)⟩
      rw [hexplored.mem_iff]
    | cons current queue =>
      rw [List.length_cons] at hn
      rw [descendFrom]
      by_cases hvisited : current ∈ visited
      · rw [if_pos hvisited]
        exact ih (hexplored.skip hvisited) hresult hnodup (by omega)
      · rw [if_neg hvisited]
        obtain ⟨hqueue, hchildren⟩ := @mem_foldl_pushChild nameToIdx parents current queue result
        have hlength := @length_foldl_pushChild nameToIdx parents current queue result
        have hcount := @countP_visited parents current visited hvisited
        refine ih (hexplored.visit (fun v hv => ?_) (fun v hv => ?_) fun v hv => ?_) (fun i => ?_)
          (nodup_foldl_pushChild current queue hnodup) (by omega)
        · exact ((hqueue v).1 hv).symm
        · exact (hqueue v).2 (.inl hv)
        · exact .inr ((hqueue v).2 (.inr hv))
        · rw [hchildren, hresult]
          simp only [List.mem_cons, or_and_right, exists_or, exists_eq_left]
          exact or_comm

theorem findDescendants_spec (nameToIdx : HashMap String Nat) (parents : List (Nat × String)) (base : String) :
    ∃ result, findDescendants nameToIdx parents base = some result ∧ result.Nodup ∧
      ∀ i, i ∈ result ↔ ∃ c, ReflTransGen (LeadsDown nameToIdx parents) base c ∧ (i, c) ∈ parents := by
  refine descendFrom_spec .init (fun i => by simp) List.nodup_nil ?_
  have hcount : parents.countP (fun p => p.2 ∉ ([] : List String)) ≤ parents.length := List.countP_le_length
  rw [List.length_singleton]
  omega

end

/-! ### The maps -/

section

variable (file : AbcFile) (name : UInt32 → String)

/-- The class has a parent of that name. -/
def HasParent (i : Nat) (parent : String) : Prop :=
  ∃ inst, file.instances[i]? = some inst ∧ name inst.superName = parent ∧ parent ≠ ""

def IsNamed (i : Nat) (n : String) : Prop := ∃ inst, file.instances[i]? = some inst ∧ name inst.name = n

/-- The class is the last one of that name. -/
def StandsFor (n : String) (i : Nat) : Prop := IsNamed file name i n ∧ ∀ j, IsNamed file name j n → j ≤ i

/-- From the name of a class to the name of one that has it as its parent. -/
def IsBelow (c n : String) : Prop := ∃ i, HasParent file name i c ∧ StandsFor file name n i

/-- The class has a parent that is the base class or below it. -/
def Descends (base : String) (i : Nat) : Prop :=
  ∃ c, ReflTransGen (IsBelow file name) base c ∧ HasParent file name i c

end

/-- What the first loop puts into the map of parents. -/
def parentEntry (name : UInt32 → String) (entry : InstanceInfo × Nat) : Option (Nat × String) :=
  if name entry.1.superName = "" then none else some (entry.2, name entry.1.superName)

def filledMaps (file : AbcFile) (name : UInt32 → String) : ClassMaps where
  nameToIdx := .ofPairs (file.instances.zipIdx.map fun entry => (name entry.1.name, entry.2))
  parentMap := .ofPairs (file.instances.zipIdx.filterMap (parentEntry name))

section

variable {file : AbcFile} {name : UInt32 → String}

theorem classMaps_eq {names : UInt32 → Option String} (hnames : ∀ index, names index = some (name index)) :
    classMaps names file.instances = some (filledMaps file name) := by
  have hfold : ∀ (entries : List (InstanceInfo × Nat)) (maps : ClassMaps),
      entries.foldlM (addInstance names) maps =
        some ⟨maps.nameToIdx.insertAll (entries.map fun entry => (name entry.1.name, entry.2)),
          maps.parentMap.insertAll (entries.filterMap (parentEntry name))⟩ := by
    intro entries
    induction entries with
    | nil => exact fun maps => rfl
    | cons entry entries ih =>
      intro maps
      have hstep : addInstance names maps entry =
          some ⟨maps.nameToIdx.insert (name entry.1.name) entry.2,
            maps.parentMap.insertAll (parentEntry name entry).toList⟩ := by
        unfold addInstance parentEntry
        rw [hnames, hnames]
        by_cases hempty : name entry.1.superName = ""
        · simp [hempty, HashMap.insertAll]
        · simp [hempty, HashMap.insertAll]
      rw [List.foldlM_cons, hstep, Option.bind_eq_bind, Option.bind_some, ih, List.map_cons, List.filterMap_cons]
      dsimp only
      rw [← HashMap.insertAll_append]
      cases parentEntry name entry with
      | none => rfl
      | some p => rfl
  exact hfold _ _

theorem mem_zipIdx {inst : InstanceInfo} {i : Nat} :
    (inst, i) ∈ file.instances.zipIdx ↔ file.instances[i]? = some inst := List.mk_mem_zipIdx_iff_getElem?

theorem mem_parentMap {i : Nat} {parent : String} :
    (filledMaps file name).parentMap.lookup i = some parent ↔ HasParent file name i parent := by
  have hkeys : ((file.instances.zipIdx.filterMap (parentEntry name)).map Prod.fst).Sublist
      (file.instances.zipIdx.map Prod.snd) := by
    generalize file.instances.zipIdx = entries
    induction entries with
    | nil => exact List.Sublist.refl _
    | cons entry entries ih =>
      rw [List.filterMap_cons, List.map_cons]
      by_cases hempty : name entry.1.superName = ""
      · simp only [parentEntry, hempty, if_true]
        exact ih.cons _
      · simp only [parentEntry, hempty, if_false, List.map_cons]
        exact ih.cons_cons _
  have hnodup : ((file.instances.zipIdx.filterMap (parentEntry name)).map Prod.fst).Nodup := by
    refine hkeys.nodup ?_
    rw [List.zipIdx_map_snd]
    exact List.nodup_range'
  rw [filledMaps, HashMap.lookup_ofPairs hnodup, List.mem_filterMap]
  unfold HasParent parentEntry
  constructor
  · rintro ⟨⟨inst, j⟩, hmem, hentry⟩
    split_ifs at hentry with hempty
    obtain ⟨rfl, rfl⟩ := Prod.mk.inj (Option.some.inj hentry)
    exact ⟨inst, mem_zipIdx.1 hmem, rfl, hempty⟩
  · rintro ⟨inst, hinst, rfl, hempty⟩
    exact ⟨(inst, i), mem_zipIdx.2 hinst, if_neg hempty⟩

theorem lookup_nameToIdx {n : String} {i : Nat} :
    (filledMaps file name).nameToIdx.lookup n = some i ↔ StandsFor file name n i := by
  rw [filledMaps, HashMap.lookup_ofPairs_eq_some]
  -- the map is filled in the order of the instances, so the last of a name stands
  have hentry {k : Nat} {p : String × Nat}
      (h : (file.instances.zipIdx.map fun entry => (name entry.1.name, entry.2))[k]? = some p) :
      p.2 = k ∧ IsNamed file name k p.1 := by
    rw [List.getElem?_map, List.getElem?_zipIdx] at h
    cases hinst : file.instances[k]? with
    | none =>
      rw [hinst] at h
      cases h
    | some inst =>
      rw [hinst] at h
      obtain rfl := Option.some.inj h
      exact ⟨Nat.zero_add k, inst, hinst, rfl⟩
  constructor
  · rintro ⟨qs, rs, hsplit, hlast⟩
    have hmid := @hentry qs.length (n, i) (by rw [hsplit]; simp)
    obtain ⟨rfl, hnamed⟩ := hmid
    refine ⟨hnamed, fun j hj => ?_⟩
    obtain ⟨inst, hinst, hn⟩ := hj
    by_contra hlt
    have hpair : (file.instances.zipIdx.map fun entry => (name entry.1.name, entry.2))[j]? = some (n, j) := by
      rw [List.getElem?_map, List.getElem?_zipIdx, hinst]
      simp [hn]
    refine hlast (List.mem_map.2 ⟨(n, j), ?_, rfl⟩)
    rw [hsplit, List.getElem?_append_right (by omega), List.getElem?_cons,
      if_neg (show ¬j - qs.length = 0 by omega)] at hpair
    exact List.mem_of_getElem? hpair
  · rintro ⟨⟨inst, hinst, rfl⟩, hlast⟩
    have hmem : (name inst.name, i) ∈ file.instances.zipIdx.map fun entry => (name entry.1.name, entry.2) :=
      List.mem_map.2 ⟨(inst, i), mem_zipIdx.2 hinst, rfl⟩
    obtain ⟨qs, rs, hsplit⟩ := List.append_of_mem hmem
    refine ⟨qs, rs, hsplit, fun hrs => ?_⟩
    have hmid := @hentry qs.length (name inst.name, i) (by rw [hsplit]; simp)
    obtain ⟨⟨n', j⟩, hmemrs, hn'⟩ := List.mem_map.1 hrs
    obtain ⟨k, hk⟩ := List.mem_iff_getElem?.1 hmemrs
    have hlater := @hentry (qs.length + (k + 1)) (n', j) (by
      rw [hsplit, List.getElem?_append_right (Nat.le_add_right _ _), Nat.add_sub_cancel_left, List.getElem?_cons_succ]
      exact hk)
    have hle := hlast _ (hn' ▸ hlater.2)
    have hidx := hmid.1
    dsimp only at hidx
    omega

theorem nameOfIdx_eq_some {n : String} {i : Nat} :
    nameOfIdx (filledMaps file name).nameToIdx i = some n ↔ StandsFor file name n i := by
  rw [← lookup_nameToIdx, HashMap.lookup_eq_some, nameOfIdx]
  constructor
  · intro h
    obtain ⟨⟨n', j⟩, hfind, rfl⟩ := Option.map_eq_some_iff.1 h
    have hj : j = i := by simpa using List.find?_some hfind
    exact hj ▸ List.mem_of_find?_eq_some hfind
  · intro h
    cases hfind : (filledMaps file name).nameToIdx.pairs.find? fun p => p.2 = i with
    | none =>
      have hnone := List.find?_eq_none.1 hfind (n, i) h
      exact absurd (decide_eq_true rfl) hnone
    | some p =>
      obtain ⟨n', j⟩ := p
      have hj : j = i := by simpa using List.find?_some hfind
      have hmem := List.mem_of_find?_eq_some hfind
      rw [hj, ← HashMap.lookup_eq_some, lookup_nameToIdx] at hmem
      rw [← HashMap.lookup_eq_some, lookup_nameToIdx] at h
      -- both are the name of the class
      obtain ⟨inst, hinst, hn⟩ := h.1
      obtain ⟨inst', hinst', hn'⟩ := hmem.1
      obtain rfl : inst = inst' := Option.some.inj (hinst.symm.trans hinst')
      rw [Option.map_some, ← hn', hn]

theorem findDescendants_filledMaps {parents : List (Nat × String)}
    (hparents : parents.Perm (filledMaps file name).parentMap.pairs) (base : String) :
    ∃ result, findDescendants (filledMaps file name).nameToIdx parents base = some result ∧ result.Nodup ∧
      ∀ i, i ∈ result ↔ Descends file name base i := by
  have hmem {i : Nat} {parent : String} : (i, parent) ∈ parents ↔ HasParent file name i parent := by
    rw [hparents.mem_iff, ← HashMap.lookup_eq_some, mem_parentMap]
  have hbelow : LeadsDown (filledMaps file name).nameToIdx parents = IsBelow file name := by
    funext c n
    refine propext (exists_congr fun i => ?_)
    rw [hmem, nameOfIdx_eq_some]
  obtain ⟨result, hresult, hnodup, hspec⟩ := findDescendants_spec (filledMaps file name).nameToIdx parents base
  refine ⟨result, hresult, hnodup, fun i => (hspec i).trans (exists_congr fun c => ?_)⟩
  rw [hbelow, hmem]

end

/-! ### The classes -/

section

variable (calls : Nat) (file : AbcFile) (name : UInt32 → String)

/-- What is extracted of a class: its static slots tell an id, and its own `serialize`, if it has one, the fields. -/
def Describes (isMessage : Bool) (i : Nat) (c : Extracted) : Prop :=
  ∃ inst cls protocolId method fields, file.instances[i]? = some inst ∧ file.classes[i]? = some cls ∧
    findProtocolId (file.constantPool.multinameName calls) file.constantPool cls.traits = some (some protocolId) ∧
    findMethodByName (file.constantPool.multinameName calls) "serialize" inst.traits = some method ∧
    serializedFields calls file method = .ok fields ∧
    file.constantPool.multinameFull calls inst.name = some c.fullName ∧
    c.cls =
      { name := name inst.name, protocolId
        parent := if name inst.superName = "" then none else some (name inst.superName)
        isMessage, fields, booleanByteWrappers := [] }

def IsMessage (i : Nat) : Prop := Descends file name "NetworkMessage" i ∨ Descends file name "INetworkMessage" i

/-- A class that is below both bases is a message. -/
def IsType (i : Nat) : Prop := Descends file name "NetworkType" i ∧ ¬IsMessage file name i

def Extracts (i : Nat) (c : Extracted) : Prop :=
  IsMessage file name i ∧ Describes calls file name true i c ∨ IsType file name i ∧
    Describes calls file name false i c

/-- Messages come before types. -/
def MessagesFirst (c d : Extracted) : Prop := d.cls.isMessage = true → c.cls.isMessage = true

/-- A list of all that is extracted, each class once, by its ids, and of one id the messages first. -/
structure IsProtocol (result : List Extracted) : Prop where
  sorted : result.Pairwise (Before ById MessagesFirst)
  complete : ∃ entries : List (Nat × Extracted), (entries.map Prod.fst).Nodup ∧ result.Perm (entries.map Prod.snd) ∧
    ∀ i c, (i, c) ∈ entries ↔ Extracts calls file name i c

end

theorem Describes.isMessage_eq {calls : Nat} {file : AbcFile} {name : UInt32 → String} {isMessage : Bool}
    {i : Nat} {c : Extracted} (h : Describes calls file name isMessage i c) : c.cls.isMessage = isMessage := by
  obtain ⟨inst, cls, protocolId, method, fields, -, -, -, -, -, -, hc⟩ := h
  rw [hc]

theorem Descends.lt_length {file : AbcFile} {name : UInt32 → String} {base : String} {i : Nat}
    (h : Descends file name base i) : i < file.instances.length := by
  obtain ⟨c, -, inst, hinst, -⟩ := h
  exact (List.getElem?_eq_some_iff.1 hinst).1

section

variable {calls : Nat} {file : AbcFile} {name : UInt32 → String}
variable (hnames : ∀ index, file.constantPool.multinameName calls index = some (name index))
include hnames

theorem exists_findProtocolId (pool : ConstantPool) (traits : List Trait) :
    ∃ id, findProtocolId (file.constantPool.multinameName calls) pool traits = some id := by
  induction traits with
  | nil => exact ⟨none, rfl⟩
  | cons t traits ih =>
    rw [findProtocolId, hnames, Option.bind_eq_bind, Option.bind_some]
    split_ifs with hname
    · cases constantOf t.data with
      | none => exact ih
      | some value =>
        dsimp only
        split_ifs with hvalue
        · exact ⟨_, rfl⟩
        · exact ih
    · exact ih

theorem exists_findMethodByName (methodName : String) (traits : List Trait) :
    ∃ method, findMethodByName (file.constantPool.multinameName calls) methodName traits = some method := by
  induction traits with
  | nil => exact ⟨none, rfl⟩
  | cons t traits ih =>
    rw [findMethodByName, hnames, Option.bind_eq_bind, Option.bind_some]
    split_ifs with hname
    · cases methodOf t.data with
      | none => exact ih
      | some method => exact ⟨some method, rfl⟩
    · exact ih

/-- The bodies of the map are there. -/
theorem exists_serializedFields (method : Option UInt32) :
    ∃ fields, serializedFields calls file method = .ok fields := by
  unfold serializedFields
  cases hbody : method.bind (methodBodyMap file.methodBodies).lookup with
  | none => exact ⟨[], rfl⟩
  | some bodyIdx =>
    obtain ⟨m, -, hlookup⟩ := Option.bind_eq_some_iff.1 hbody
    have hpair := HashMap.mem_of_mem_pairs_ofPairs (HashMap.lookup_eq_some.1 hlookup)
    obtain ⟨⟨body, j⟩, hmem, heq⟩ := List.mem_map.1 hpair
    obtain rfl : j = bodyIdx := (Prod.mk.inj heq).2
    have hindexed : indexed file.methodBodies j = .ok body := by rw [indexed, List.mk_mem_zipIdx_iff_getElem?.1 hmem]
    obtain ⟨fields, hfields⟩ := exists_analyzeSerialize hnames body
    dsimp only
    rw [hindexed, Outcome.ok_bind, hfields]
    exact ⟨fields, rfl⟩

theorem multinameFull_eq (index : UInt32) : ∃ full, file.constantPool.multinameFull calls index = some full :=
  file.constantPool.multinameFull_iff.2 ⟨name index, hnames index⟩

theorem processClass_eq {parentMap : HashMap Nat String} (hparents : ∀ i parent, parentMap.lookup i = some parent ↔
    HasParent file name i parent) (hlength : file.classes.length = file.instances.length) (isMessage : Bool) {i : Nat}
    (hi : i < file.instances.length) :
    ∃ c, processClass calls file parentMap isMessage i = .ok c ∧
      ∀ d, c = some d ↔ Describes calls file name isMessage i d := by
  obtain ⟨inst, hinst⟩ : ∃ inst, file.instances[i]? = some inst := ⟨_, List.getElem?_eq_getElem hi⟩
  obtain ⟨cls, hcls⟩ : ∃ cls, file.classes[i]? = some cls := ⟨_, List.getElem?_eq_getElem (hlength ▸ hi)⟩
  obtain ⟨full, hfull⟩ := multinameFull_eq hnames inst.name
  obtain ⟨id, hid⟩ := exists_findProtocolId hnames file.constantPool cls.traits
  obtain ⟨method, hmethod⟩ := exists_findMethodByName hnames "serialize" inst.traits
  obtain ⟨fields, hfields⟩ := exists_serializedFields hnames method
  -- the map holds the parent of the class, unless its name is empty
  have hparent : parentMap.lookup i = if name inst.superName = "" then none else some (name inst.superName) := by
    by_cases hempty : name inst.superName = ""
    · rw [if_pos hempty]
      by_contra hsome
      obtain ⟨parent, hparent⟩ := Option.ne_none_iff_exists'.1 hsome
      obtain ⟨inst', hinst', rfl, hne⟩ := (hparents i parent).1 hparent
      obtain rfl : inst = inst' := Option.some.inj (hinst.symm.trans hinst')
      exact hne hempty
    · rw [if_neg hempty]
      exact (hparents i _).2 ⟨inst, hinst, rfl, hempty⟩
  have hi' : indexed file.instances i = .ok inst := by rw [indexed, hinst]
  have hc' : indexed file.classes i = .ok cls := by rw [indexed, hcls]
  unfold processClass
  simp only [hi', hc', hnames, hfull, hid, within, Outcome.ok_bind]
  cases id with
  | none =>
    refine ⟨none, rfl, fun d => iff_of_false (fun h => by cases h) ?_⟩
    rintro ⟨inst', cls', protocolId, method', fields', hinst', hcls', hid', -⟩
    obtain rfl : cls = cls' := Option.some.inj (hcls.symm.trans hcls')
    rw [hid] at hid'
    cases hid'
  | some protocolId =>
    dsimp only
    rw [hmethod]
    dsimp only [Outcome.ok_bind]
    rw [hfields]
    refine ⟨_, rfl, fun d => ⟨?_, ?_⟩⟩
    · intro h
      obtain rfl := Option.some.inj h
      exact ⟨inst, cls, protocolId, method, fields, hinst, hcls, hid, hmethod, hfields, hfull, by rw [hparent]⟩
    · rintro ⟨inst', cls', protocolId', method', fields', hinst', hcls', hid', hmethod', hfields', hfull', hd⟩
      obtain rfl : inst = inst' := Option.some.inj (hinst.symm.trans hinst')
      obtain rfl : cls = cls' := Option.some.inj (hcls.symm.trans hcls')
      obtain rfl : protocolId = protocolId' := Option.some.inj (Option.some.inj (hid.symm.trans hid'))
      obtain rfl : method = method' := Option.some.inj (hmethod.symm.trans hmethod')
      obtain rfl : fields = fields' := Outcome.ok.inj (hfields.symm.trans hfields')
      obtain rfl : full = d.fullName := Option.some.inj (hfull.symm.trans hfull')
      rw [hparent, ← hd]

theorem processAll_eq {parentMap : HashMap Nat String} (hparents : ∀ i parent, parentMap.lookup i = some parent ↔
    HasParent file name i parent) (hlength : file.classes.length = file.instances.length) (isMessage : Bool)
    {is : List Nat} (his : ∀ i ∈ is, i < file.instances.length) :
    ∃ entries : List (Nat × Extracted), processAll calls file parentMap isMessage is = .ok (entries.map Prod.snd) ∧
      (entries.map Prod.fst).Sublist is ∧
        ∀ i c, (i, c) ∈ entries ↔ i ∈ is ∧ Describes calls file name isMessage i c := by
  induction is with
  | nil => exact ⟨[], rfl, List.Sublist.refl _, by simp⟩
  | cons i is ih =>
    obtain ⟨entries, hentries, hsublist, hmem⟩ := ih fun j hj => his j (List.mem_cons_of_mem i hj)
    obtain ⟨c, hc, hdescribes⟩ := processClass_eq hnames hparents hlength isMessage (his i List.mem_cons_self)
    rw [processAll, hc, Outcome.ok_bind, hentries, Outcome.ok_bind]
    cases c with
    | none =>
      refine ⟨entries, rfl, hsublist.cons i, fun j d => (hmem j d).trans ?_⟩
      -- a class that is skipped describes nothing
      have hnone : ¬Describes calls file name isMessage i d := fun h => by cases (hdescribes d).2 h
      constructor
      · exact fun h => ⟨List.mem_cons_of_mem i h.1, h.2⟩
      · rintro ⟨hj, hd⟩
        rcases List.mem_cons.1 hj with rfl | hj
        · exact absurd hd hnone
        · exact ⟨hj, hd⟩
    | some c =>
      refine ⟨(i, c) :: entries, rfl, hsublist.cons_cons i, fun j d => ?_⟩
      rw [List.mem_cons, hmem, Prod.mk.injEq]
      constructor
      · rintro (⟨rfl, rfl⟩ | ⟨hj, hd⟩)
        · exact ⟨List.mem_cons_self, (hdescribes d).1 rfl⟩
        · exact ⟨List.mem_cons_of_mem i hj, hd⟩
      · rintro ⟨hj, hd⟩
        by_cases hji : j = i
        · subst hji
          exact .inl ⟨rfl, (Option.some.inj ((hdescribes d).2 hd)).symm⟩
        · exact .inr ⟨(List.mem_cons.1 hj).resolve_left hji, hd⟩

/-- Before it is sorted, the result is made of the classes in some order, the messages first. -/
theorem extractProtocol_eq (hlength : file.classes.length = file.instances.length) (order : Iteration) :
    ∃ entries : List (Nat × Extracted),
      extractProtocol calls file order = .ok ((entries.map Prod.snd).insertionSort ById) ∧
        (entries.map Prod.snd).Pairwise MessagesFirst ∧ (entries.map Prod.fst).Nodup ∧
          ∀ i c, (i, c) ∈ entries ↔ Extracts calls file name i c := by
  have hparents : ∀ i parent, (filledMaps file name).parentMap.lookup i = some parent ↔
    HasParent file name i parent :=
    fun i parent => mem_parentMap
  have hperm := order.perm_parents (filledMaps file name).parentMap.pairs
  obtain ⟨ms, hms, hmsNodup, hmsSpec⟩ := findDescendants_filledMaps hperm "NetworkMessage"
  obtain ⟨ts, hts, htsNodup, htsSpec⟩ := findDescendants_filledMaps hperm "NetworkType"
  obtain ⟨ms₂, hms₂, hms₂Nodup, hms₂Spec⟩ := findDescendants_filledMaps hperm "INetworkMessage"
  -- a message is below either of the two bases, and a type is no message
  have hall (i : Nat) : i ∈ ms ∪ ms₂ ↔ IsMessage file name i := by rw [List.mem_union_iff, hmsSpec, hms₂Spec]; rfl
  have hm (i : Nat) : i ∈ order.messages (ms ∪ ms₂) ↔ IsMessage file name i := by
    rw [(order.perm_messages _).mem_iff, hall]
  have ht (i : Nat) : i ∈ (order.types ts).filter (fun idx => idx ∉ ms ∪ ms₂) ↔ IsType file name i := by
    rw [List.mem_filter, (order.perm_types _).mem_iff, htsSpec, decide_eq_true_eq, hall]
    rfl
  have hmLength : ∀ i ∈ order.messages (ms ∪ ms₂), i < file.instances.length := by
    intro i hi
    rcases (hm i).1 hi with h | h
    · exact h.lt_length
    · exact h.lt_length
  have htLength : ∀ i ∈ (order.types ts).filter (fun idx => idx ∉ ms ∪ ms₂), i < file.instances.length :=
    fun i hi => ((ht i).1 hi).1.lt_length
  obtain ⟨entries, hentries, hsublist, hmem⟩ := processAll_eq hnames hparents hlength true hmLength
  obtain ⟨entries', hentries', hsublist', hmem'⟩ := processAll_eq hnames hparents hlength false htLength
  refine ⟨entries ++ entries', ?_, ?_, ?_, fun i c => ?_⟩
  · unfold extractProtocol
    simp only [classMaps_eq hnames, within, Outcome.ok_bind, hms, hts, hms₂, hentries, hentries', List.map_append]
  · rw [List.map_append, List.pairwise_append]
    have hmessage : ∀ c ∈ entries.map Prod.snd, c.cls.isMessage = true := by
      intro c hc
      obtain ⟨⟨i, c⟩, hic, rfl⟩ := List.mem_map.1 hc
      exact ((hmem i c).1 hic).2.isMessage_eq
    have htype : ∀ c ∈ entries'.map Prod.snd, c.cls.isMessage = false := by
      intro c hc
      obtain ⟨⟨i, c⟩, hic, rfl⟩ := List.mem_map.1 hc
      exact ((hmem' i c).1 hic).2.isMessage_eq
    refine ⟨List.pairwise_of_forall_mem_list fun c hc d _ _ => hmessage c hc,
      List.pairwise_of_forall_mem_list fun c _ d hd h => ?_, fun c hc d _ _ => hmessage c hc⟩
    rw [htype d hd] at h
    cases h
  · rw [List.map_append, List.nodup_append]
    have hnodup : (order.messages (ms ∪ ms₂)).Nodup := (order.perm_messages _).nodup_iff.2 (hms₂Nodup.union ms)
    have hnodup' : ((order.types ts).filter fun idx => idx ∉ ms ∪ ms₂).Nodup :=
      ((order.perm_types ts).nodup_iff.2 htsNodup).filter _
    refine ⟨hsublist.nodup hnodup, hsublist'.nodup hnodup', fun i hi j hj hij => ?_⟩
    have hi := (hm i).1 (hsublist.subset hi)
    have hj := (ht j).1 (hsublist'.subset hj)
    exact hj.2 (hij ▸ hi)
  · rw [List.mem_append, hmem, hmem', hm, ht, Extracts]

theorem isProtocol_extractProtocol (hlength : file.classes.length = file.instances.length) (order : Iteration) :
    ∃ result, extractProtocol calls file order = .ok result ∧ IsProtocol calls file name result := by
  obtain ⟨entries, hresult, hfirst, hnodup, hmem⟩ := extractProtocol_eq hnames hlength order
  exact ⟨_, hresult, pairwise_insertionSort hfirst, entries, hnodup, List.perm_insertionSort _ _, hmem⟩

/-- Where no two messages and no two types have the same id, the unknown orders do not matter. -/
theorem extractProtocol_order (hlength : file.classes.length = file.instances.length) {order order' : Iteration}
    {result : List Extracted} (hresult : extractProtocol calls file order = .ok result)
    (hdistinct : ∀ c ∈ result, ∀ d ∈ result, c.cls.isMessage = d.cls.isMessage →
      c.cls.protocolId = d.cls.protocolId → c = d) : extractProtocol calls file order' = .ok result := by
  obtain ⟨entries, hsorted, hfirst, hnodup, hmem⟩ := extractProtocol_eq hnames hlength order
  obtain ⟨entries', hsorted', hfirst', hnodup', hmem'⟩ := extractProtocol_eq hnames hlength order'
  obtain rfl := Outcome.ok.inj (hsorted.symm.trans hresult)
  have hperm : entries.Perm entries' := by
    refine (List.perm_ext_iff_of_nodup (hnodup.of_map _) (hnodup'.of_map _)).2 fun p => ?_
    rw [hmem, hmem']
  rw [hsorted', insertionSort_eq hfirst hfirst' (hperm.map Prod.snd)]
  intro c hc d hd hcd hdc hfst hfst'
  have hid : c.cls.protocolId = d.cls.protocolId := UInt32.le_antisymm hcd hdc
  have hkind : c.cls.isMessage = d.cls.isMessage := Bool.eq_iff_iff.2 ⟨hfst', hfst⟩
  exact hdistinct c ((List.mem_insertionSort _).2 hc) d ((List.mem_insertionSort _).2 hd) hkind hid

end

/-- On every class file that was parsed, and whose names do not loop, the extraction ends, in whatever order maps and
sets are gone through, with all classes below the bases that have an id, sorted; and which order that is does not
matter if no two messages and no two types have one id. -/
theorem extractProtocol_spec {file : AbcFile} (hsound : file.Sound)
    (hloops : ∀ index, ¬Loops file.constantPool.qnameOf index) :
    ∃ calls name, (∀ index, file.constantPool.multinameName calls index = some (name index)) ∧
      ∀ order, ∃ result, extractProtocol calls file order = .ok result ∧ IsProtocol calls file name result ∧
        ((∀ c ∈ result, ∀ d ∈ result, c.cls.isMessage = d.cls.isMessage →
          c.cls.protocolId = d.cls.protocolId → c = d) → ∀ order', extractProtocol calls file order' =
            .ok result) := by
  obtain ⟨calls, hcalls⟩ := exists_follow _ (fun _ _ => file.constantPool.leads_qnameOf) hloops
  choose entry hentry using hcalls
  have hnames (index : UInt32) :
      file.constantPool.multinameName calls index = some (file.constantPool.ownName (entry index)) := by
    rw [ConstantPool.multinameName_eq, hentry, Option.map_some]
  have hlength := hsound.parts.classes.1
  refine ⟨calls, fun index => file.constantPool.ownName (entry index), hnames, fun order => ?_⟩
  obtain ⟨result, hresult, hprotocol⟩ := isProtocol_extractProtocol hnames hlength order
  exact ⟨result, hresult, hprotocol, fun hdistinct order' => extractProtocol_order hnames hlength hresult hdistinct⟩

/-- A message below another one that it serializes a flag after, a type, and a class that is neither. -/
def helloFile : AbcFile where
  minorVersion := 16
  majorVersion := 46
  constantPool :=
    { integers := [0], uintegers := [0, 1, 182, 9], doubles := [0x7FF8000000000000]
      strings := ["", "HelloConnectMessage", "NetworkMessage", "protocolId", "PingMessage", "quiet", "writeBoolean",
        "serialize", "Version", "NetworkType", "Helper"]
      namespaces := [{ kind := 0, name := 0 }], nsSets := [[]]
      multinames := [.void, .qName 0 1, .qName 0 2, .qName 0 3, .qName 0 4, .qName 0 5, .qName 0 6, .qName 0 7,
        .qName 0 8, .qName 0 9, .qName 0 10] }
  methods :=
    [{ paramCount := 1, returnType := 0, paramTypes := [0], name := 0, flags := 0, options := [], paramNames := [] }]
  metadata := []
  instances :=
    [{ name := 4, superName := 1, flags := 0, protectedNs := 0, interfaces := [], iinit := 0
       traits := [{ name := 7, kind := 1, data := .method 0 0, metadata := [] }] },
      { name := 1, superName := 2, flags := 0, protectedNs := 0, interfaces := [], iinit := 0, traits := [] },
      { name := 8, superName := 9, flags := 0, protectedNs := 0, interfaces := [], iinit := 0, traits := [] },
      { name := 10, superName := 0, flags := 0, protectedNs := 0, interfaces := [], iinit := 0, traits := [] }]
  classes :=
    [{ cinit := 0, traits := [{ name := 3, kind := 6, data := .const 0 0 2 4, metadata := [] }] },
      { cinit := 0, traits := [{ name := 3, kind := 6, data := .const 0 0 1 4, metadata := [] }] },
      { cinit := 0, traits := [{ name := 3, kind := 6, data := .const 0 0 3 4, metadata := [] }] },
      { cinit := 0, traits := [] }]
  scripts := []
  methodBodies :=
    [{ method := 0, maxStack := 2, localCount := 2, initScopeDepth := 0, maxScopeDepth := 1
       code := [0xD1, 0xD0, 0x66, 5, 0x4F, 6, 1, 0x47]
       exceptions := [], traits := [] }]

theorem sound_plainInstance (name superName : UInt32) : InstanceInfo.Sound
    { name, superName, flags := 0, protectedNs := 0, interfaces := [], iinit := 0, traits := [] } where
  protectedNs _ := rfl
  interfaces := Nat.two_pow_pos 32
  traits := ⟨Nat.two_pow_pos 32, by simp⟩

theorem sound_classWithId {vindex : UInt32} (h : vindex ≠ 0) : ClassInfo.Sound
    { cinit := 0, traits := [{ name := 3, kind := 6, data := .const 0 0 vindex 4, metadata := [] }] } := by
  refine ⟨Nat.one_lt_two_pow (by decide), List.forall_mem_singleton.2 ⟨rfl, ?_, Nat.two_pow_pos 32⟩⟩
  simp [TraitData.Sound, h]

theorem sound_instances_helloFile : ∀ i ∈ helloFile.instances, i.Sound := by
  have hserialize : Trait.Sound { name := 7, kind := 1, data := .method 0 0, metadata := [] } :=
    ⟨rfl, trivial, by decide⟩
  refine List.forall_mem_cons.2 ⟨⟨fun _ => rfl, by decide, by decide, List.forall_mem_singleton.2 hserialize⟩, ?_⟩
  simpa using ⟨sound_plainInstance 1 2, sound_plainInstance 8 9, sound_plainInstance 10 0⟩

theorem sound_classes_helloFile : ∀ c ∈ helloFile.classes, c.Sound := by
  have hnone : ClassInfo.Sound { cinit := 0, traits := [] } := ⟨by decide, by simp⟩
  simpa [helloFile] using ⟨@sound_classWithId 2 (by decide), @sound_classWithId 1 (by decide),
    @sound_classWithId 3 (by decide), hnone⟩

theorem sound_helloFile : helloFile.Sound where
  constantPool :=
    { integers := ⟨rfl, by decide⟩
      uintegers := ⟨rfl, by decide⟩
      doubles := ⟨rfl, by decide⟩
      strings := ⟨rfl, by decide⟩
      namespaces := ⟨rfl, by decide⟩
      nsSets := ⟨⟨rfl, by decide⟩, by simp [helloFile]⟩
      multinames := ⟨⟨rfl, by decide⟩, by simp [helloFile, Multiname.Sound]⟩ }
  parts :=
    { methods := ⟨by decide, List.forall_mem_singleton.2 ⟨rfl, by decide, by decide⟩⟩
      metadata := ⟨by decide, by simp [helloFile]⟩
      instances := ⟨by decide, sound_instances_helloFile⟩
      classes := ⟨rfl, sound_classes_helloFile⟩
      scripts := ⟨by decide, by simp [helloFile]⟩
      methodBodies := ⟨by decide, List.forall_mem_singleton.2 ⟨by decide, by decide, by decide, by simp⟩⟩ }

theorem qnameOf_helloFile (index : UInt32) : helloFile.constantPool.qnameOf index = none := by
  unfold ConstantPool.qnameOf
  split
  · rename_i qname params hget
    have hmem := List.mem_of_getElem? hget
    simp [helloFile] at hmem
  · rfl

theorem not_loops_helloFile (index : UInt32) : ¬Loops helloFile.constantPool.qnameOf index := by
  intro hloops
  obtain ⟨qname, hqname, -⟩ := loops_next hloops
  have hnone := qnameOf_helloFile index
  rw [show helloFile.constantPool.qnameOf index = some qname from hqname] at hnone
  cases hnone

/-- The messages and the type, by their ids. -/
def helloProtocol : List Extracted :=
  [⟨"HelloConnectMessage", ⟨"HelloConnectMessage", 1, some "NetworkMessage", true, [], []⟩⟩,
    ⟨"Version", ⟨"Version", 9, some "NetworkType", false, [], []⟩⟩,
    ⟨"PingMessage", ⟨"PingMessage", 182, some "HelloConnectMessage", true, [⟨"quiet", .bool, "writeBoolean"⟩], []⟩⟩]

/-- One call is enough for each name. -/
theorem extractProtocol_helloFile (calls : Nat) (order : Iteration) :
    extractProtocol (calls + 1) helloFile order = extractProtocol 1 helloFile order := by
  have hname : helloFile.constantPool.multinameName (calls + 1) = helloFile.constantPool.multinameName 1 := by
    funext index
    rw [ConstantPool.multinameName_eq, ConstantPool.multinameName_eq, follow_of_none (qnameOf_helloFile index),
      follow_of_none (qnameOf_helloFile index)]
  have hfull : helloFile.constantPool.multinameFull (calls + 1) = helloFile.constantPool.multinameFull 1 := by
    funext index
    rw [ConstantPool.multinameFull, hname, ConstantPool.multinameFull]
  have hclass : processClass (calls + 1) helloFile = processClass 1 helloFile := by
    funext parentMap isMessage idx
    unfold processClass serializedFields
    rw [hname, hfull]
  have hall : processAll (calls + 1) helloFile = processAll 1 helloFile := by
    funext parentMap isMessage is
    induction is with
    | nil => rfl
    | cons idx is ih => rw [processAll, processAll, hclass, ih]
  unfold extractProtocol
  rw [hname, hall]

/-- The orders in which the maps and sets are built. -/
def builtOrder : Iteration := ⟨id, id, id, List.Perm.refl, List.Perm.refl, List.Perm.refl⟩

theorem extractProtocol_built : extractProtocol 1 helloFile builtOrder = .ok helloProtocol := by decide +kernel

theorem extractProtocol_spec_hello : ∃ calls name, ∀ order,
    extractProtocol calls helloFile order = .ok helloProtocol ∧ IsProtocol calls helloFile name helloProtocol := by
  obtain ⟨calls, name, hnames, h⟩ := extractProtocol_spec sound_helloFile not_loops_helloFile
  cases calls with
  | zero => cases hnames 0
  | succ calls =>
    obtain ⟨result, hresult, hprotocol, hsame⟩ := h builtOrder
    rw [extractProtocol_helloFile, extractProtocol_built] at hresult
    obtain rfl := Outcome.ok.inj hresult
    exact ⟨calls + 1, name, fun order => ⟨hsame (by decide) order, hprotocol⟩⟩

end Otomai.ProtocolGen
