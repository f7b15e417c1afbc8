import Otomai.Common.HashMap
import Otomai.ProtocolGen.Inheritance
import Otomai.Search.DepthFirst

/-!
# Type hierarchies

`build_type_hierarchies` collects the descendants of every type that has children, by a traversal that keeps the types
it has visited.  `resolve_inheritance` follows the parents of a class.  Neither of them follows a link to one of the
two roots, which the parser leaves out of the classes.

* `collectDescendants_eq`: the traversal is a depth-first one.
* `buildTypeHierarchies_spec`: what the hierarchies contain.
* `inheritLoop_spec`: which fields a class inherits.
-/

namespace Otomai.ProtocolGen

open Relation Search

/-- The classes whose children count as having no parent. -/
def IsRoot (name : String) : Prop := name = "NetworkMessage" ∨ name = "NetworkType"

instance (name : String) : Decidable (IsRoot name) := inferInstanceAs (Decidable (_ ∨ _))

/-! ### Building the hierarchies -/

/-- The children of the types, and the ids of the types. -/
structure HierarchyMaps where
  childrenMap : HashMap String (List String)
  idMap : HashMap String UInt32

/-- The body of the first loop of `build_type_hierarchies`. -/
def HierarchyMaps.add (maps : HierarchyMaps) (cls : ProtocolClass String) : HierarchyMaps :=
  if cls.isMessage then maps
  else
    let idMap := maps.idMap.insert cls.name cls.protocolId
    match cls.parent with
    | some parent =>
      if IsRoot parent then { maps with idMap }
      else
        let children := (maps.childrenMap.lookup parent).getD []
        { childrenMap := maps.childrenMap.insert parent (children ++ [cls.name]), idMap }
    | none => { maps with idMap }

def hierarchyMaps (classes : List (ProtocolClass String)) : HierarchyMaps := classes.foldl HierarchyMaps.add ⟨∅, ∅⟩

/-- A child is a variant if it is known, and only once. -/
def pushVariant (idMap : HashMap String UInt32) (variants : List (String × UInt32)) (child : String) :
    List (String × UInt32) :=
  match idMap.lookup child with
  | some id => if variants.any (·.1 = child) then variants else variants ++ [(child, id)]
  | none => variants

/-- `collect_descendants`, within a number of nested calls: the variants and the names that were visited. -/
def collectDescendants (childrenMap : HashMap String (List String)) (idMap : HashMap String UInt32) :
    Nat → String → List (String × UInt32) × List String → Option (List (String × UInt32) × List String)
  | 0, _, _ => none
  | calls + 1, name, (variants, visited) =>
    if name ∈ visited then some (variants, visited)
    else match childrenMap.lookup name with
      | some children =>
        children.foldlM
          (fun st child => collectDescendants childrenMap idMap calls child (pushVariant idMap st.1 child, st.2))
          (variants, name :: visited)
      | none => some (variants, name :: visited)

/-- The base itself, if it is known. -/
def baseVariant (idMap : HashMap String UInt32) (baseName : String) : List (String × UInt32) :=
  match idMap.lookup baseName with
  | some id => [(baseName, id)]
  | none => []

/-- The body of the second loop of `build_type_hierarchies`. -/
def addHierarchy (calls : Nat) (maps : HierarchyMaps) (hierarchies : List (TypeHierarchy String))
    (baseName : String) :
    Option (List (TypeHierarchy String)) := do
  let (variants, _) ←
    collectDescendants maps.childrenMap maps.idMap calls baseName (baseVariant maps.idMap baseName, [])
  if 1 < variants.length then some (hierarchies ++ [{ baseName, variants }]) else some hierarchies

/-- `build_type_hierarchies`, where `baseNames` are the keys of the map of children in the order of its iteration. -/
def buildTypeHierarchies (calls : Nat) (classes : List (ProtocolClass String)) (baseNames : List String) :
    Option (List (TypeHierarchy String)) :=
  baseNames.foldlM (addHierarchy calls (hierarchyMaps classes)) []

/-! ### The maps -/

/-- The type has the parent, which is not a root. -/
def IsChild (classes : List (ProtocolClass String)) (parent child : String) : Prop :=
  ∃ cls ∈ classes, cls.isMessage = false ∧ cls.name = child ∧ cls.parent = some parent ∧ ¬IsRoot parent

/-- The type is one of the classes, with the id. -/
def IsKnown (classes : List (ProtocolClass String)) (name : String) (id : UInt32) : Prop :=
  ∃ cls ∈ classes, cls.isMessage = false ∧ cls.name = name ∧ cls.protocolId = id

section

variable {classes : List (ProtocolClass String)} {maps : HierarchyMaps}

theorem mem_children_add {cls : ProtocolClass String} {parent child : String} :
    child ∈ ((maps.add cls).childrenMap.lookup parent).getD [] ↔
      child ∈ (maps.childrenMap.lookup parent).getD [] ∨ IsChild [cls] parent child := by
  unfold HierarchyMaps.add IsChild
  simp only [List.mem_singleton, exists_eq_left]
  cases cls.isMessage with
  | true => simp
  | false =>
    cases cls.parent with
    | none => simp
    | some p =>
      by_cases hroot : IsRoot p
      · have hnone (q : String) : ¬(p = q ∧ ¬IsRoot q) := by
          rintro ⟨rfl, hq⟩
          exact hq hroot
        simp [hroot, hnone]
      · by_cases hp : parent = p
        · subst hp
          simp [hroot, AList.lookup_insert, eq_comm]
        · simp [hroot, AList.lookup_insert_ne hp, Ne.symm hp]

theorem mem_children {parent child : String} :
    child ∈ ((hierarchyMaps classes).childrenMap.lookup parent).getD [] ↔ IsChild classes parent child := by
  have hfold : ∀ (maps : HierarchyMaps), child ∈
    ((classes.foldl HierarchyMaps.add maps).childrenMap.lookup parent).getD [] ↔
      child ∈ (maps.childrenMap.lookup parent).getD [] ∨ IsChild classes parent child := by
    induction classes with
    | nil => simp [IsChild]
    | cons cls classes ih =>
      intro maps
      rw [List.foldl_cons, ih, mem_children_add, or_assoc]
      simp [IsChild]
  rw [hierarchyMaps, hfold]
  simp

theorem lookup_idMap_add {cls : ProtocolClass String} {name : String} (h : cls.name ≠ name) :
    (maps.add cls).idMap.lookup name = maps.idMap.lookup name := by
  unfold HierarchyMaps.add
  cases cls.isMessage with
  | true => rfl
  | false =>
    cases cls.parent with
    | none => exact AList.lookup_insert_ne h.symm
    | some p =>
      dsimp only
      rw [if_neg Bool.false_ne_true]
      split
      · exact AList.lookup_insert_ne h.symm
      · exact AList.lookup_insert_ne h.symm

theorem lookup_idMap_add_self {cls : ProtocolClass String} (h : cls.isMessage = false) :
    (maps.add cls).idMap.lookup cls.name = some cls.protocolId := by
  unfold HierarchyMaps.add
  rw [h, if_neg Bool.false_ne_true]
  cases cls.parent with
  | none => exact AList.lookup_insert _
  | some p =>
    dsimp only
    split
    · exact AList.lookup_insert _
    · exact AList.lookup_insert _

theorem idMap_add_message {cls : ProtocolClass String} (h : cls.isMessage = true) :
    (maps.add cls).idMap = maps.idMap := by
  rw [HierarchyMaps.add, if_pos h]

/-- Among classes with distinct names, the id of a type is found under its name. -/
theorem lookup_idMap (hnames : (classes.map (·.name)).Nodup) {name : String} {id : UInt32} :
    (hierarchyMaps classes).idMap.lookup name = some id ↔ IsKnown classes name id := by
  have hfold : ∀ maps : HierarchyMaps, (classes.foldl HierarchyMaps.add maps).idMap.lookup name = some id ↔
      IsKnown classes name id ∨ (∀ cls ∈ classes, cls.isMessage = false → cls.name ≠ name) ∧
        maps.idMap.lookup name = some id := by
    induction classes with
    | nil => simp [IsKnown]
    | cons cls classes ih =>
      intro maps
      rw [List.map_cons, List.nodup_cons] at hnames
      rw [List.foldl_cons, IsKnown, List.exists_mem_cons_iff, List.forall_mem_cons, ih hnames.2]
      by_cases hname : cls.name = name
      · subst hname
        have hnone : ¬IsKnown classes cls.name id := by
          rintro ⟨d, hd, -, hname, -⟩
          exact hnames.1 (List.mem_map.2 ⟨d, hd, hname⟩)
        have hrest : ∀ d ∈ classes, d.isMessage = false → d.name ≠ cls.name := fun d hd _ hname =>
          hnames.1 (List.mem_map.2 ⟨d, hd, hname⟩)
        cases hmessage : cls.isMessage with
        | true =>
          rw [idMap_add_message hmessage]
          simp [IsKnown] at hnone ⊢
        | false =>
          rw [lookup_idMap_add_self hmessage]
          simp [IsKnown] at hnone ⊢
          tauto
      · rw [lookup_idMap_add hname]
        simp [hname, IsKnown]
  rw [hierarchyMaps, hfold]
  simp

theorem mem_childrenMap {parent : String} :
    parent ∈ (hierarchyMaps classes).childrenMap ↔ ∃ child, IsChild classes parent child := by
  have hfold : ∀ maps : HierarchyMaps, parent ∈ (classes.foldl HierarchyMaps.add maps).childrenMap ↔
      parent ∈ maps.childrenMap ∨ ∃ child, IsChild classes parent child := by
    induction classes with
    | nil => simp [IsChild]
    | cons cls classes ih =>
      intro maps
      have hadd : parent ∈ (maps.add cls).childrenMap ↔
          parent ∈ maps.childrenMap ∨ ∃ child, IsChild [cls] parent child := by
        unfold HierarchyMaps.add IsChild
        simp only [List.mem_singleton, exists_eq_left]
        cases cls.isMessage with
        | true => simp
        | false =>
          cases cls.parent with
          | none => simp
          | some p =>
            by_cases hroot : IsRoot p
            · have hnone : ¬(p = parent ∧ ¬IsRoot parent) := by
                rintro ⟨rfl, hp⟩
                exact hp hroot
              simp [hroot, hnone]
            · by_cases hp : parent = p
              · subst hp
                simp [hroot]
              · simp [hroot, hp, Ne.symm hp]
      rw [List.foldl_cons, ih, hadd, or_assoc, ← exists_or]
      simp [IsChild]
  rw [hierarchyMaps, hfold]
  simp

end

/-! ### The traversal -/

theorem collectDescendants_eq (childrenMap : HashMap String (List String))
    (idMap : HashMap String UInt32) (calls : Nat)
    (name : String) (st : List (String × UInt32) × List String) :
    collectDescendants childrenMap idMap calls name st =
      visit (fun name => (childrenMap.lookup name).getD []) (pushVariant idMap) calls name st := by
  induction calls generalizing name st with
  | zero => rfl
  | succ calls ih =>
    obtain ⟨variants, visited⟩ := st
    rw [collectDescendants, visit]
    cases childrenMap.lookup name with
    | none => rfl
    | some children => simp only [ih, Option.getD_some]

section

variable {idMap : HashMap String UInt32} {variants : List (String × UInt32)}

theorem pushVariant_nodup (h : (variants.map Prod.fst).Nodup) (child : String) :
    ((pushVariant idMap variants child).map Prod.fst).Nodup := by
  unfold pushVariant
  cases idMap.lookup child with
  | none => exact h
  | some id =>
    dsimp only
    split
    · exact h
    · rename_i hnew
      rw [List.map_append, List.map_singleton, ← List.concat_eq_append]
      refine h.concat fun hmem => hnew ?_
      obtain ⟨p, hp, hname⟩ := List.mem_map.1 hmem
      exact List.any_eq_true.2 ⟨p, hp, decide_eq_true hname⟩

/-- The variants are known, with their ids. -/
theorem mem_pushVariant (h : ∀ p ∈ variants, idMap.lookup p.1 = some p.2) {child name : String} {id : UInt32} :
    (name, id) ∈ pushVariant idMap variants child ↔
      (name, id) ∈ variants ∨ name = child ∧ idMap.lookup name = some id := by
  unfold pushVariant
  cases hchild : idMap.lookup child with
  | none =>
    refine ⟨.inl, ?_⟩
    rintro (hmem | ⟨rfl, hid⟩)
    · exact hmem
    · rw [hchild] at hid
      cases hid
  | some id' =>
    dsimp only
    split
    · rename_i hany
      obtain ⟨p, hp, hname⟩ := List.any_eq_true.1 hany
      refine ⟨.inl, ?_⟩
      rintro (hmem | ⟨rfl, hid⟩)
      · exact hmem
      · have hp' := h p hp
        rw [of_decide_eq_true hname, hid, Option.some.injEq] at hp'
        have hpair : p = (name, id) := Prod.ext (of_decide_eq_true hname) hp'.symm
        exact hpair ▸ hp
    · rw [List.mem_append, List.mem_singleton, Prod.mk.injEq]
      refine or_congr_right (and_congr_right fun hname => ?_)
      rw [hname, hchild, Option.some.injEq, eq_comm]

theorem foldl_pushVariant (hnodup : (variants.map Prod.fst).Nodup)
    (h : ∀ p ∈ variants, idMap.lookup p.1 = some p.2) (children : List String) :
    ((children.foldl (pushVariant idMap) variants).map Prod.fst).Nodup ∧
      ∀ name id, (name, id) ∈ children.foldl (pushVariant idMap) variants ↔
        (name, id) ∈ variants ∨ name ∈ children ∧ idMap.lookup name = some id := by
  induction children generalizing variants with
  | nil => exact ⟨hnodup, fun name id => by simp⟩
  | cons child children ih =>
    have hknown : ∀ p ∈ pushVariant idMap variants child, idMap.lookup p.1 = some p.2 := by
      rintro ⟨name, id⟩ hp
      rcases (mem_pushVariant h).1 hp with hmem | ⟨-, hid⟩
      · exact h _ hmem
      · exact hid
    obtain ⟨hnodup', hmem⟩ := ih (pushVariant_nodup hnodup child) hknown
    refine ⟨hnodup', fun name id => ?_⟩
    rw [List.foldl_cons, hmem, mem_pushVariant h, List.mem_cons]
    tauto

end

/-! ### What the hierarchies contain -/

/-- The hierarchy has the base, if it is known, and the types that descend from it, each once. -/
structure IsHierarchy (classes : List (ProtocolClass String)) (hierarchy : TypeHierarchy String) : Prop where
  nodup : (hierarchy.variants.map Prod.fst).Nodup
  mem_iff : ∀ name id, (name, id) ∈ hierarchy.variants ↔
    IsKnown classes name id ∧ (name = hierarchy.baseName ∨ TransGen (IsChild classes) hierarchy.baseName name)

section

variable {classes : List (ProtocolClass String)}

theorem edge_children : Edge (fun name => ((hierarchyMaps classes).childrenMap.lookup name).getD []) =
    IsChild classes := by
  funext parent child
  exact propext mem_children

/-- The traversal from a base ends, and its variants are those of a hierarchy. -/
theorem collectDescendants_spec (hnames : (classes.map (·.name)).Nodup) (baseName : String) {calls : Nat}
    (hcalls : classes.length + 1 < calls) : ∃ variants visited,
      collectDescendants (hierarchyMaps classes).childrenMap (hierarchyMaps classes).idMap calls baseName
        (baseVariant (hierarchyMaps classes).idMap baseName, []) = some (variants, visited) ∧
      IsHierarchy classes ⟨baseName, variants⟩ := by
  have hbase : ∀ name id, (name, id) ∈ baseVariant (hierarchyMaps classes).idMap baseName ↔
      name = baseName ∧ (hierarchyMaps classes).idMap.lookup name = some id := by
    intro name id
    unfold baseVariant
    cases hid : (hierarchyMaps classes).idMap.lookup baseName with
    | none =>
      refine ⟨fun h => absurd h List.not_mem_nil, ?_⟩
      rintro ⟨rfl, hname⟩
      rw [hid] at hname
      cases hname
    | some id' =>
      rw [List.mem_singleton, Prod.mk.injEq]
      refine and_congr_right fun hname => ?_
      rw [hname, hid, Option.some.injEq, eq_comm]
  have hnodup : ((baseVariant (hierarchyMaps classes).idMap baseName).map Prod.fst).Nodup := by
    unfold baseVariant
    cases (hierarchyMaps classes).idMap.lookup baseName <;> simp
  have hclosed : ∀ a ∈ baseName :: classes.map (·.name),
      ∀ b ∈ ((hierarchyMaps classes).childrenMap.lookup a).getD [], b ∈ baseName :: classes.map (·.name) := by
    intro a _ b hb
    obtain ⟨cls, hcls, -, hname, -⟩ := mem_children.1 hb
    exact List.mem_cons_of_mem _ (List.mem_map.2 ⟨cls, hcls, hname⟩)
  have hcount : (baseName :: classes.map (·.name)).countP (· ∉ ([] : List String)) < calls := by
    have hle := @List.countP_le_length _ (· ∉ ([] : List String)) (baseName :: classes.map (·.name))
    rw [List.length_cons, List.length_map] at hle
    omega
  obtain ⟨variants, visited, hvisit, -⟩ := @exists_visit _ _ _ _ (pushVariant (hierarchyMaps classes).idMap)
    baseName calls
    (baseVariant (hierarchyMaps classes).idMap baseName) [] _ hclosed List.mem_cons_self hcount
  refine ⟨variants, visited, (collectDescendants_eq ..).trans hvisit, ?_⟩
  obtain ⟨ends, rfl, hends⟩ := visit_spec hvisit
  obtain ⟨hnodup', hmem⟩ := foldl_pushVariant hnodup (fun p hp => ((hbase p.1 p.2).1 hp).2) ends
  refine ⟨hnodup', fun name id => ?_⟩
  rw [hmem, hbase, hends, edge_children, lookup_idMap hnames]
  tauto

/-- The hierarchies of some bases: those with at least two variants. -/
structure HierarchiesOf (classes : List (ProtocolClass String)) (baseNames : List String)
    (hierarchies : List (TypeHierarchy String)) : Prop where
  names : (hierarchies.map TypeHierarchy.baseName).Sublist baseNames
  all : ∀ hierarchy ∈ hierarchies, IsHierarchy classes hierarchy
  complete : ∀ baseName ∈ baseNames, ∀ variants, IsHierarchy classes ⟨baseName, variants⟩ → 1 < variants.length →
    baseName ∈ hierarchies.map TypeHierarchy.baseName

/-- The variants of a base are the same up to their order. -/
theorem IsHierarchy.perm {baseName : String} {variants variants' : List (String × UInt32)}
    (h : IsHierarchy classes ⟨baseName, variants⟩) (h' : IsHierarchy classes ⟨baseName, variants'⟩) :
    variants.Perm variants' := by
  refine (List.perm_ext_iff_of_nodup (List.Nodup.of_map _ h.nodup) (List.Nodup.of_map _ h'.nodup)).2 ?_
  rintro ⟨name, id⟩
  exact (h.mem_iff name id).trans (h'.mem_iff name id).symm

theorem addHierarchy_spec (hnames : (classes.map (·.name)).Nodup) {calls : Nat} (hcalls : classes.length + 1 < calls)
    {baseNames : List String} {hierarchies : List (TypeHierarchy String)}
    (h : HierarchiesOf classes baseNames hierarchies)
    (baseName : String) : ∃ hierarchies',
      addHierarchy calls (hierarchyMaps classes) hierarchies baseName = some hierarchies' ∧
      HierarchiesOf classes (baseNames ++ [baseName]) hierarchies' := by
  obtain ⟨variants, visited, hcollect, hvariants⟩ := collectDescendants_spec hnames baseName hcalls
  unfold addHierarchy
  rw [hcollect, Option.bind_eq_bind, Option.bind_some]
  by_cases hlength : 1 < variants.length
  · refine ⟨_, if_pos hlength, ?_, fun hierarchy hmem => ?_, fun name hname variants' hvariants' hlength' => ?_⟩
    · rw [List.map_append]
      exact h.names.append (List.Sublist.refl _)
    · rcases List.mem_append.1 hmem with hmem | hmem
      · exact h.all hierarchy hmem
      · rw [List.mem_singleton.1 hmem]
        exact hvariants
    · rw [List.map_append]
      rcases List.mem_append.1 hname with hname | hname
      · exact List.mem_append_left _ (h.complete name hname variants' hvariants' hlength')
      · exact List.mem_append_right _ hname
  · refine ⟨_, if_neg hlength, h.names.trans (List.sublist_append_left _ _), h.all,
      fun name hname variants' hvariants' hlength' => ?_⟩
    rcases List.mem_append.1 hname with hname | hname
    · exact h.complete name hname variants' hvariants' hlength'
    · rw [List.mem_singleton.1 hname] at hvariants'
      exact absurd ((hvariants.perm hvariants').length_eq ▸ hlength') hlength

/-- With enough room for nested calls, every base with at least two variants has a hierarchy. -/
theorem buildTypeHierarchies_spec (hnames : (classes.map (·.name)).Nodup) {calls : Nat}
    (hcalls : classes.length + 1 < calls) (baseNames : List String) :
    ∃ hierarchies, buildTypeHierarchies calls classes baseNames = some hierarchies ∧
      HierarchiesOf classes baseNames hierarchies := by
  have hfold : ∀ (rest before : List String) (hierarchies : List (TypeHierarchy String)),
      HierarchiesOf classes before hierarchies → ∃ hierarchies',
        rest.foldlM (addHierarchy calls (hierarchyMaps classes)) hierarchies = some hierarchies' ∧
          HierarchiesOf classes (before ++ rest) hierarchies' := by
    intro rest
    induction rest with
    | nil =>
      intro before hierarchies h
      exact ⟨hierarchies, rfl, by rwa [List.append_nil]⟩
    | cons baseName rest ih =>
      intro before hierarchies h
      obtain ⟨hierarchies₁, hadd, h₁⟩ := addHierarchy_spec hnames hcalls h baseName
      obtain ⟨hierarchies', hrest, h'⟩ := ih _ _ h₁
      refine ⟨hierarchies', ?_, by rwa [List.append_assoc] at h'⟩
      rw [List.foldlM_cons, hadd]
      exact hrest
  exact hfold baseNames [] [] ⟨List.Sublist.refl _, fun _ h => absurd h List.not_mem_nil,
    fun _ h => absurd h List.not_mem_nil⟩

end

/-! ### Inherited fields -/

/-- The class has the other one as its parent. -/
def Extends (classes : List (ProtocolClass String)) (c d : ProtocolClass String) : Prop :=
  d ∈ classes ∧ c.parent = some d.name

/-- The parent is not a root. -/
def Inherits (classes : List (ProtocolClass String)) (c d : ProtocolClass String) : Prop :=
  Extends classes c d ∧ ¬IsRoot d.name

/-- The loop of `resolve_inheritance` over the ancestors of a class, within a number of iterations. -/
def inheritLoop (classes : List (ProtocolClass String)) :
    Nat → List String → Option String → List (ProtocolField String) → Option (List (ProtocolField String))
  | 0, _, _, _ => none
  | _ + 1, _, none, parentFields => some parentFields
  | n + 1, visited, some parentName, parentFields =>
    if IsRoot parentName then some parentFields
    else if parentName ∈ visited then some parentFields
    else match lookupClass classes parentName with
      | some c => inheritLoop classes n (parentName :: visited) c.parent (c.fields ++ parentFields)
      | none => some parentFields

/-- Links between the classes under which every class is given the fields of its ancestors, from the root-most one
down, and then its own. -/
def FieldsResolved (classes : List (ProtocolClass String))
    (link : ProtocolClass String → ProtocolClass String → Prop) : Prop :=
  ∀ (i : Nat) (c : ProtocolClass String), classes[i]? = some c → ∃ ancestors : List (ProtocolClass String),
    (∀ d, d ∈ ancestors ↔ TransGen link c d) ∧ ancestors.Pairwise (fun d e => TransGen link e d) ∧ ancestors.Nodup ∧
      (resolveInheritance classes)[i]? =
        some { c with fields := ancestors.flatMap (fun d => d.fields) ++ c.fields }

section

variable {classes : List (ProtocolClass String)}

theorem lookupClass_eq_some {name : String} {c : ProtocolClass String} (h : lookupClass classes name = some c) :
    c ∈ classes ∧ c.name = name :=
  ⟨List.mem_reverse.1 (List.mem_of_find?_eq_some h), by simpa using List.find?_some h⟩

theorem lookupClass_of_mem (hnames : (classes.map (·.name)).Nodup) {c : ProtocolClass String} (h : c ∈ classes) :
    lookupClass classes c.name = some c := by
  have hsome : (lookupClass classes c.name).isSome = true :=
    List.find?_isSome.2 ⟨c, List.mem_reverse.2 h, by simp⟩
  obtain ⟨d, hd⟩ := Option.isSome_iff_exists.1 hsome
  obtain ⟨hmem, hname⟩ := lookupClass_eq_some hd
  rw [hd, List.inj_on_of_nodup_map hnames hmem h hname]

/-- An iteration of the loop at a parent. -/
theorem inheritLoop_succ (n : Nat) (visited : List String) (p : String) (acc : List (ProtocolField String)) :
    inheritLoop classes (n + 1) visited (some p) acc =
      if IsRoot p ∨ p ∈ visited then some acc
      else match lookupClass classes p with
        | some c => inheritLoop classes n (p :: visited) c.parent (c.fields ++ acc)
        | none => some acc := by
  rw [inheritLoop]
  by_cases hroot : IsRoot p
  · rw [if_pos hroot, if_pos (.inl hroot)]
  · by_cases hseen : p ∈ visited
    · rw [if_neg hroot, if_pos hseen, if_pos (.inr hseen)]
    · rw [if_neg hroot, if_neg hseen, if_neg (not_or.2 ⟨hroot, hseen⟩)]

/-- More iterations than needed change nothing, and the loop of the generated classes is the same one. -/
theorem inheritLoop_of_le {n m : Nat} (h : n ≤ m) {visited : List String} {parent : Option String}
    {acc fields : List (ProtocolField String)} (hloop : inheritLoop classes n visited parent acc = some fields) :
    inheritLoop classes m visited parent acc = some fields ∧ inheritFields classes m visited parent acc = fields := by
  induction n generalizing m visited parent acc with
  | zero => cases hloop
  | succ n ih =>
    obtain ⟨m, rfl⟩ : ∃ k, m = k + 1 := ⟨m - 1, by omega⟩
    cases parent with
    | none => exact ⟨hloop, Option.some.inj hloop⟩
    | some p =>
      have hfields : inheritFields classes (m + 1) visited (some p) acc = if IsRoot p then acc else
          if p ∈ visited then acc else match lookupClass classes p with
            | some c => inheritFields classes m (p :: visited) c.parent (c.fields ++ acc)
            | none => acc := rfl
      rw [inheritLoop_succ] at hloop ⊢
      by_cases hstop : IsRoot p ∨ p ∈ visited
      · rw [if_pos hstop] at hloop ⊢
        refine ⟨hloop, ?_⟩
        obtain rfl := Option.some.inj hloop
        rcases hstop with hroot | hseen
        · rw [hfields, if_pos hroot]
        · rw [hfields, if_pos hseen, ite_self]
      · rw [if_neg hstop] at hloop ⊢
        rw [not_or] at hstop
        rw [hfields, if_neg hstop.1, if_neg hstop.2]
        cases hc : lookupClass classes p with
        | none =>
          rw [hc] at hloop
          exact ⟨hloop, Option.some.inj hloop⟩
        | some c =>
          rw [hc] at hloop
          exact ih (Nat.le_of_succ_le_succ h) hloop

/-- The loop ends: it has visited different classes. -/
theorem exists_inheritLoop {n : Nat} {visited : List String} (parent : Option String)
    (acc : List (ProtocolField String)) (hnodup : visited.Nodup) (hvisited : visited ⊆ classes.map (·.name))
    (hn : classes.length < n + visited.length) :
    ∃ fields, inheritLoop classes n visited parent acc = some fields := by
  induction n generalizing visited parent acc with
  | zero =>
    have hle := (hnodup.subperm hvisited).length_le
    rw [List.length_map] at hle
    omega
  | succ n ih =>
    cases parent with
    | none => exact ⟨acc, rfl⟩
    | some p =>
      rw [inheritLoop_succ]
      by_cases hstop : IsRoot p ∨ p ∈ visited
      · exact ⟨acc, if_pos hstop⟩
      rw [if_neg hstop]
      cases hc : lookupClass classes p with
      | none => exact ⟨acc, rfl⟩
      | some c =>
        obtain ⟨hmem, hname⟩ := lookupClass_eq_some hc
        refine ih c.parent (c.fields ++ acc) (List.nodup_cons.2 ⟨fun hseen => hstop (.inr hseen), hnodup⟩) ?_ ?_
        · exact List.cons_subset.2 ⟨List.mem_map.2 ⟨c, hmem, hname⟩, hvisited⟩
        · rw [List.length_cons]
          omega

/-- A class has one parent. -/
theorem Inherits.unique (hnames : (classes.map (·.name)).Nodup) {c d e : ProtocolClass String}
    (h : Inherits classes c d) (h' : Inherits classes c e) : d = e :=
  List.inj_on_of_nodup_map hnames h.1.1 h'.1.1 (Option.some.inj (h.1.2.symm.trans h'.1.2))

/-- Without cycles the loop collects the fields of the ancestors: it has visited only classes that come down to the
current one. -/
theorem inheritLoop_spec (hnames : (classes.map (·.name)).Nodup) (hacyclic : ∀ c, ¬TransGen (Inherits classes) c c)
    {n : Nat} {visited : List String} {c : ProtocolClass String} {acc fields : List (ProtocolField String)}
    (hvisited : ∀ name ∈ visited, ∃ e ∈ classes, e.name = name ∧ ReflTransGen (Inherits classes) e c)
    (hloop : inheritLoop classes n visited c.parent acc = some fields) :
    ∃ ancestors : List (ProtocolClass String), (∀ d, d ∈ ancestors ↔ TransGen (Inherits classes) c d) ∧
      ancestors.Pairwise (fun d e => TransGen (Inherits classes) e d) ∧
        fields = ancestors.flatMap (fun d => d.fields) ++ acc := by
  induction n generalizing visited c acc with
  | zero => cases hloop
  | succ n ih =>
    -- where the class has no known parent, there are no ancestors
    have hnone (h : ∀ d, ¬Inherits classes c d) (hfields : some acc = some fields) :
        ∃ ancestors : List (ProtocolClass String), (∀ d, d ∈ ancestors ↔ TransGen (Inherits classes) c d) ∧
          ancestors.Pairwise (fun d e => TransGen (Inherits classes) e d) ∧
            fields = ancestors.flatMap (fun d => d.fields) ++ acc := by
      refine ⟨[], fun d => iff_of_false List.not_mem_nil fun hcd => ?_, List.Pairwise.nil,
        (Option.some.inj hfields).symm⟩
      obtain ⟨e, hce, -⟩ := TransGen.head'_iff.1 hcd
      exact h e hce
    cases hparent : c.parent with
    | none =>
      rw [hparent] at hloop
      refine hnone (fun d hcd => ?_) hloop
      have hsome := hcd.1.2
      rw [hparent] at hsome
      cases hsome
    | some p =>
      have hname {d : ProtocolClass String} (hcd : Inherits classes c d) : d.name = p :=
        Option.some.inj (hcd.1.2.symm.trans hparent)
      rw [hparent, inheritLoop_succ] at hloop
      by_cases hstop : IsRoot p ∨ p ∈ visited
      · rw [if_pos hstop] at hloop
        refine hnone (fun d hcd => ?_) hloop
        obtain rfl := hname hcd
        rcases hstop with hroot | hseen
        · exact hcd.2 hroot
        · obtain ⟨e, he, hed, hec⟩ := hvisited d.name hseen
          obtain rfl := List.inj_on_of_nodup_map hnames he hcd.1.1 hed
          exact hacyclic e (TransGen.tail' hec hcd)
      rw [if_neg hstop] at hloop
      cases hd : lookupClass classes p with
      | none =>
        rw [hd] at hloop
        refine hnone (fun d hcd => ?_) hloop
        have hfound := lookupClass_of_mem hnames hcd.1.1
        rw [hname hcd, hd] at hfound
        cases hfound
      | some d =>
        rw [hd] at hloop
        obtain ⟨hmem, rfl⟩ := lookupClass_eq_some hd
        have hcd : Inherits classes c d := ⟨⟨hmem, hparent⟩, fun hroot => hstop (.inl hroot)⟩
        have hvisited' : ∀ name ∈ d.name :: visited, ∃ e ∈ classes, e.name = name ∧
            ReflTransGen (Inherits classes) e d := by
          intro name hname
          rcases List.mem_cons.1 hname with rfl | hname
          · exact ⟨d, hmem, rfl, .refl⟩
          · obtain ⟨e, he, hen, hec⟩ := hvisited name hname
            exact ⟨e, he, hen, hec.tail hcd⟩
        obtain ⟨ancestors, hancestors, hpairwise, hfields⟩ := ih hvisited' hloop
        refine ⟨ancestors ++ [d], fun e => ?_, ?_, ?_⟩
        · rw [List.mem_append, List.mem_singleton, hancestors, or_comm, ← reflTransGen_iff_eq_or_transGen,
            TransGen.head'_iff]
          constructor
          · exact fun hde => ⟨d, hcd, hde⟩
          · rintro ⟨d', hcd', hde⟩
            rwa [hcd.unique hnames hcd']
        · refine List.pairwise_append.2 ⟨hpairwise, List.pairwise_singleton _ _, fun a ha b hb => ?_⟩
          rw [List.mem_singleton.1 hb]
          exact (hancestors a).1 ha
        · rw [hfields, List.flatMap_append, List.flatMap_singleton, List.append_assoc]

theorem getElem?_resolveInheritance {i : Nat} {c : ProtocolClass String} (h : classes[i]? = some c)
    {inherited : List (ProtocolField String)}
    (hloop : inheritLoop classes (classes.length + 1) [] c.parent [] = some inherited) :
    (resolveInheritance classes)[i]? = some { c with fields := inherited ++ c.fields } := by
  rw [resolveInheritance, List.getElem?_map, h, Option.map_some, (inheritLoop_of_le le_rfl hloop).2]

end

/-- What is computed of the classes: hierarchies and resolved classes for all of them, in a bounded number of nested
calls and iterations; the hierarchy of a base has the types that descend from it, and without cycles a class has the
fields of its ancestors. -/
structure Computed (classes : List (ProtocolClass String)) : Prop where
  hierarchies : ∀ calls, classes.length + 1 < calls →
    ∀ baseNames : List String, baseNames.Perm (hierarchyMaps classes).childrenMap.keys → ∃ hierarchies,
      buildTypeHierarchies calls classes baseNames = some hierarchies ∧
        (hierarchies.map TypeHierarchy.baseName).Nodup ∧
        (∀ hierarchy ∈ hierarchies, IsHierarchy classes hierarchy) ∧
        ∀ baseName child variants, IsChild classes baseName child → IsHierarchy classes ⟨baseName, variants⟩ →
          1 < variants.length → baseName ∈ hierarchies.map TypeHierarchy.baseName
  inherited : ∀ (i : Nat) (c : ProtocolClass String), classes[i]? = some c → ∃ inherited,
    (∀ n, classes.length < n → inheritLoop classes n [] c.parent [] = some inherited) ∧
      (resolveInheritance classes)[i]? = some { c with fields := inherited ++ c.fields }
  resolved : (∀ c, ¬TransGen (Inherits classes) c c) → FieldsResolved classes (Inherits classes)

/-- For all classes with distinct names, whatever their parents are. -/
theorem computed_of_nodup (classes : List (ProtocolClass String)) (hnames : (classes.map (·.name)).Nodup) :
    Computed classes where
  hierarchies calls hcalls baseNames hbases := by
    obtain ⟨hierarchies, hbuild, h⟩ := buildTypeHierarchies_spec hnames hcalls baseNames
    have hnodup : baseNames.Nodup := hbases.nodup_iff.2 (AList.keys_nodup _)
    refine ⟨hierarchies, hbuild, hnodup.sublist h.names, h.all,
      fun baseName child variants hchild => h.complete _ ?_ _⟩
    exact hbases.mem_iff.2 (AList.mem_keys.1 (mem_childrenMap.2 ⟨child, hchild⟩))
  inherited i c hc := by
    obtain ⟨inherited, hloop⟩ := @exists_inheritLoop classes (classes.length + 1) [] c.parent [] List.nodup_nil
      (List.nil_subset _) (by simp)
    exact ⟨inherited, fun n hn => (inheritLoop_of_le hn hloop).1, getElem?_resolveInheritance hc hloop⟩
  resolved hacyclic i c hc := by
    obtain ⟨inherited, hloop⟩ := @exists_inheritLoop classes (classes.length + 1) [] c.parent [] List.nodup_nil
      (List.nil_subset _) (by simp)
    obtain ⟨ancestors, hancestors, hpairwise, hfields⟩ := inheritLoop_spec hnames hacyclic (by simp) hloop
    refine ⟨ancestors, hancestors, hpairwise, hpairwise.imp fun {d e} hed => ?_, ?_⟩
    · rintro rfl
      exact hacyclic d hed
    · rw [getElem?_resolveInheritance hc hloop, hfields, List.append_nil]

/-- A class without flag bytes. -/
def plainClass (name : String) (protocolId : UInt32) (parent : Option String) (fields : List (ProtocolField String)) :
    ProtocolClass String :=
  { name, protocolId, parent, isMessage := false, fields, booleanByteWrappers := [] }

def idField : ProtocolField String := ⟨"id", .varInt, "writeVarInt"⟩

/-- Two types that are each other's parent, one whose parent is missing, and one below the first two. -/
def tangled : List (ProtocolClass String) :=
  [plainClass "A" 1 (some "B") [], plainClass "B" 2 (some "A") [], plainClass "C" 3 (some "X") [],
    plainClass "D" 4 (some "A") []]

theorem computed_tangled : Computed tangled := computed_of_nodup tangled (by decide)

/-- A type below a root that is among the classes. -/
def belowRoot : List (ProtocolClass String) :=
  [plainClass "NetworkType" 1 none [idField], plainClass "A" 2 (some "NetworkType") []]

theorem belowRoot_acyclic (c : ProtocolClass String) : ¬TransGen (Extends belowRoot) c c := by
  intro hcycle
  obtain ⟨d, hcd, -⟩ := TransGen.head'_iff.1 hcycle
  obtain ⟨b, hcb, hbc⟩ := TransGen.tail'_iff.1 hcycle
  have hb : b ∈ belowRoot := by
    rcases reflTransGen_iff_eq_or_transGen.1 hcb with rfl | hcb
    · exact hbc.1
    · obtain ⟨_, -, hab⟩ := TransGen.tail'_iff.1 hcb
      exact hab.1
  -- only the second class has a parent, which is the first one
  have hparent : ∀ b ∈ belowRoot, ∀ c ∈ belowRoot, b.parent = some c.name → c.parent = none := by decide
  have hnone := hparent b hb c hbc.1 hbc.2
  rw [hcd.2] at hnone
  cases hnone

/-- The fields of a root are not inherited. -/
theorem not_resolved_belowRoot : ¬∀ classes : List (ProtocolClass String), (classes.map (·.name)).Nodup →
    (∀ c, ¬TransGen (Extends classes) c c) → FieldsResolved classes (Extends classes) := by
  intro h
  obtain ⟨ancestors, hancestors, -, -, hfields⟩ :=
    h belowRoot (by decide) belowRoot_acyclic 1 (plainClass "A" 2 (some "NetworkType") []) rfl
  have hroot : plainClass "NetworkType" 1 none [idField] ∈ ancestors :=
    (hancestors _).2 (.single ⟨List.mem_cons_self, rfl⟩)
  have hresolved : (resolveInheritance belowRoot)[1]? = some (plainClass "A" 2 (some "NetworkType") []) := by decide
  rw [hresolved, Option.some.injEq] at hfields
  have hnil := congrArg ProtocolClass.fields hfields
  have hmem : idField ∈ ancestors.flatMap fun d => d.fields :=
    List.mem_flatMap.2 ⟨_, hroot, List.mem_singleton_self _⟩
  rw [List.append_eq_nil_iff.1 hnil.symm |>.1] at hmem
  exact List.not_mem_nil hmem

end Otomai.ProtocolGen
