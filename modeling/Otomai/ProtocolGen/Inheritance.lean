import Mathlib.Data.List.Perm.Subperm
import Otomai.ProtocolGen.As3Client
import Otomai.ProtocolGen.As3Recovery

/-!
# Inheritance

`resolve_inheritance` puts the fields of the ancestors of a class before its own.  The layout of a class in the AS3
client is the layout of its parent followed by its own items, so the fields of resolved classes are those of their
layouts, in order, if and only if the parser recovers the fields of every class (`fields_generated_iff`).  The boxes
of the layout are not part of them.
-/

namespace Otomai.ProtocolGen

/-! ### Resolving inheritance -/

/-- The class of a name in a map that was collected from the classes: the last one. -/
def lookupClass (classes : List (ProtocolClass String)) (name : String) : Option (ProtocolClass String) :=
  classes.reverse.find? (·.name = name)

/-- The loop over the ancestors, starting from a parent.  It ends at a root, at an unknown class, or at a class it has
visited. -/
def inheritFields (classes : List (ProtocolClass String)) :
    Nat → List String → Option String → List (ProtocolField String) → List (ProtocolField String)
  | 0, _, _, parentFields => parentFields
  | _, _, none, parentFields => parentFields
  | n + 1, visited, some parentName, parentFields =>
    if parentName = "NetworkMessage" ∨ parentName = "NetworkType" then parentFields
    else if parentName ∈ visited then parentFields
    else match lookupClass classes parentName with
      | some c => inheritFields classes n (parentName :: visited) c.parent (c.fields ++ parentFields)
      | none => parentFields

/-- Every class with the fields of its ancestors, as they were before. -/
def resolveInheritance (classes : List (ProtocolClass String)) : List (ProtocolClass String) :=
  classes.map fun c => { c with fields := inheritFields classes (classes.length + 1) [] c.parent [] ++ c.fields }

/-! ### Layouts -/

/-- A part of the layout of a class: a flag byte, with the bit each flag is given, or a field, with the calls that
write it. -/
inductive LayoutItem where
  | box (first : Fin 8 × String) (others : List (Fin 8 × String))
  | field (f : ProtocolField String) (plain : f.isFlag = false) (write : ClientWrite)
    (declares : write.Declares f.fieldType)

namespace LayoutItem

def fields : LayoutItem → List (ProtocolField String)
  | box first others => (first :: others).map fun flag => flagField flag.2
  | field f _ _ _ => [f]

def isBox : LayoutItem → Bool
  | box _ _ => true
  | field _ _ _ _ => false

end LayoutItem

private theorem isFlag_of_head {chars : List Char} (h : chars.head? ≠ some 'B') (name : String)
    (type : FieldType String) : (⟨name, type, String.ofList chars⟩ : ProtocolField String).isFlag = false := by
  refine beq_eq_false_iff_ne.2 fun he => h ?_
  have hchars := congrArg String.toList he
  rw [String.toList_ofList] at hchars
  rw [hchars]
  decide

private theorem write_isFlag (name : String) (type : FieldType String) (method : List Char) :
    (⟨name, type, String.ofList ("write".toList ++ method)⟩ : ProtocolField String).isFlag = false := by
  have hhead : ("write".toList ++ method).head? = some 'w' := rfl
  exact isFlag_of_head (by rw [hhead]; decide) name type

private theorem serializeAs_isFlag (name : String) (type : FieldType String) (method : List Char) :
    (⟨name, type, String.ofList ("serializeAs_".toList ++ method)⟩ : ProtocolField String).isFlag = false := by
  have hhead : ("serializeAs_".toList ++ method).head? = some 's' := rfl
  exact isFlag_of_head (by rw [hhead]; decide) name type

/-- What a statement adds to the layout of its class. -/
def Statement.items : Statement → List LayoutItem
  | primitive method field _ =>
    [.field ⟨field.name, writerToFieldType ("write".toList ++ method.chars),
        String.ofList ("write".toList ++ method.chars)⟩
      (write_isFlag ..) (.single (.call ("write".toList ++ method.chars))) rfl]
  | booleans _ first others => [.box (first.1, first.2.name) (others.map fun flag => (flag.1, flag.2.name))]
  | primitives lengthMethod arr _ method _ =>
    [.field (vectorField lengthMethod arr (writerToFieldType ("write".toList ++ method.chars))) rfl
      (.vector ("write".toList ++ lengthMethod.chars) (.call ("write".toList ++ method.chars))) ⟨_, rfl, rfl⟩]
  | types lengthMethod arr _ _ type =>
    [.field (vectorField lengthMethod arr (.type (some type.name))) rfl
      (.vector ("write".toList ++ lengthMethod.chars) .serializeAs) ⟨_, rfl, _, rfl⟩]
  | nested field type =>
    [.field ⟨field.name, .type (some type.name), String.ofList ("serializeAs_".toList ++ type.chars)⟩
      (serializeAs_isFlag ..) (.single .serializeAs) ⟨_, rfl⟩]
  | polymorphic field type =>
    [.field ⟨field.name, .typeManager (some type.name), "TypeManager"⟩ rfl (.single .polymorphic) ⟨_, rfl⟩]
  | polymorphics lengthMethod arr _ _ type =>
    [.field (vectorField lengthMethod arr (.typeManager (some type.name))) rfl
      (.vector ("write".toList ++ lengthMethod.chars) .polymorphic) ⟨_, rfl, _, rfl⟩]
  | superCall _ => []

theorem Statement.items_fields (s : Statement) : s.items.flatMap LayoutItem.fields = s.declared := by
  cases s with
  | booleans box first others => simp [items, LayoutItem.fields, declared, Function.comp_def]
  | _ => rfl

/-! ### Hierarchies -/

/-- A protocol class of the client. -/
structure SourceClass extends As3Class where
  protocolId : UInt32
  parent : Option String
  isMessage : Bool

namespace SourceClass

variable (c : SourceClass)

def className : String := c.name.name

def items : List LayoutItem := c.statements.flatMap Statement.items

/-- The fields of the class itself. -/
def ownFields : List (ProtocolField String) := c.items.flatMap LayoutItem.fields

theorem ownFields_eq : c.ownFields = c.statements.flatMap Statement.declared := by
  rw [ownFields, items, List.flatMap_assoc]
  exact List.flatMap_congr fun s _ => s.items_fields

/-- `parse_as_file`.  Where the parser panics, there are no fields. -/
def parse : ProtocolClass String where
  name := c.className
  protocolId := c.protocolId
  parent := c.parent
  isMessage := c.isMessage
  fields := ((extractFields c.text c.methodName).map Prod.fst).getD []
  booleanByteWrappers := ((extractFields c.text c.methodName).map Prod.snd).getD []

/-- The parser recovers the fields that the class serializes. -/
def Recovered : Prop := ∀ s ∈ c.statements, s.Recovered

theorem parse_fields_iff : c.parse.fields = c.ownFields ↔ c.Recovered := by
  have hiff : _ ↔ c.Recovered := c.extractFields_iff
  rw [← hiff, ownFields_eq]
  show ((extractFields c.text c.methodName).map Prod.fst).getD [] = _ ↔ _
  cases hfields : (extractFields c.text c.methodName).map Prod.fst with
  | some fields => exact Option.some_inj.symm
  | none =>
    refine iff_of_false (fun hnil => ?_) fun h => nomatch h
    -- a class without fields has calls of its parent only, which do not make the parser panic
    have hrecovered : c.Recovered := by
      intro s hs
      have hdeclared : s.declared = [] := List.flatMap_eq_nil_iff.1 hnil.symm s hs
      cases s with
      | superCall parent => trivial
      | _ => cases hdeclared
    rw [hiff.2 hrecovered] at hfields
    cases hfields

end SourceClass

/-- The protocol classes of a client, with the hierarchies of its polymorphic types.  No class is its own ancestor,
which `depth` tells, and the roots have no layout. -/
structure Hierarchy where
  classes : List SourceClass
  types : List (TypeHierarchy String)
  depth : String → Nat
  names_nodup : (classes.map SourceClass.className).Nodup
  not_root : ∀ c ∈ classes, c.className ≠ "NetworkMessage" ∧ c.className ≠ "NetworkType"
  depth_lt : ∀ c ∈ classes, ∀ d ∈ classes, c.parent = some d.className → depth d.className < depth c.className

namespace Hierarchy

variable (H : Hierarchy)

def find (name : String) : Option SourceClass := H.classes.find? (·.className = name)

/-- The parent of a class, unless it is a root. -/
def parentOf (c : SourceClass) : Option SourceClass := c.parent.bind H.find

def layoutFrom : Nat → SourceClass → List LayoutItem
  | 0, c => c.items
  | n + 1, c => match H.parentOf c with
    | some d => layoutFrom n d ++ c.items
    | none => c.items

/-- The layout of a class: the layout of its parent, then its own items. -/
def layout (c : SourceClass) : List LayoutItem := H.layoutFrom (H.depth c.className) c

def fields (c : SourceClass) : List (ProtocolField String) := (H.layout c).flatMap LayoutItem.fields

/-- The protocol the generator is given. -/
def generated : Protocol String := ⟨resolveInheritance (H.classes.map SourceClass.parse), H.types⟩

/-- The protocol of the client: every class with the fields of its layout. -/
def declared : Protocol String := ⟨H.classes.map fun c => { c.parse with fields := H.fields c }, H.types⟩

variable {H}

theorem find_eq_some {name : String} {c : SourceClass} (h : H.find name = some c) :
    c ∈ H.classes ∧ c.className = name := by
  refine ⟨List.mem_of_find?_eq_some h, ?_⟩
  simpa using List.find?_some h

theorem eq_of_className {c d : SourceClass} (hc : c ∈ H.classes) (hd : d ∈ H.classes)
    (h : c.className = d.className) : c = d :=
  List.inj_on_of_nodup_map H.names_nodup hc hd h

theorem find_className {c : SourceClass} (h : c ∈ H.classes) : H.find c.className = some c := by
  have hsome : (H.find c.className).isSome = true := List.find?_isSome.2 ⟨c, h, by simp⟩
  obtain ⟨d, hd⟩ := Option.isSome_iff_exists.1 hsome
  obtain ⟨hmem, hname⟩ := find_eq_some hd
  rw [hd, eq_of_className hmem h hname]

theorem parentOf_depth {c d : SourceClass} (hc : c ∈ H.classes) (h : H.parentOf c = some d) :
    d ∈ H.classes ∧ c.parent = some d.className ∧ H.depth d.className < H.depth c.className := by
  obtain ⟨name, hparent, hfind⟩ := Option.bind_eq_some_iff.1 h
  obtain ⟨hd, rfl⟩ := find_eq_some hfind
  exact ⟨hd, hparent, H.depth_lt c hc d hd hparent⟩

/-- More steps than the depth of a class add nothing to its layout. -/
theorem layoutFrom_eq (n : Nat) : ∀ c ∈ H.classes, H.depth c.className ≤ n → H.layoutFrom n c = H.layout c := by
  have hsteps : ∀ n c, c ∈ H.classes → H.depth c.className ≤ n → H.layoutFrom (n + 1) c = H.layoutFrom n c := by
    intro n
    induction n with
    | zero =>
      intro c hc hn
      rw [layoutFrom, layoutFrom]
      cases h : H.parentOf c with
      | none => rfl
      | some d =>
        have := (parentOf_depth hc h).2.2
        omega
    | succ n ih =>
      intro c hc hn
      rw [layoutFrom]
      conv_rhs => rw [layoutFrom]
      cases h : H.parentOf c with
      | none => rfl
      | some d =>
        obtain ⟨hd, -, hlt⟩ := parentOf_depth hc h
        simp only [ih d hd (by omega)]
  intro c hc hn
  induction n, hn using Nat.le_induction with
  | base => rfl
  | succ n hn ih => rw [hsteps n c hc hn, ih]

theorem layout_eq {c : SourceClass} (hc : c ∈ H.classes) : H.layout c = match H.parentOf c with
    | some d => H.layout d ++ c.items
    | none => c.items := by
  rw [← layoutFrom_eq (H.depth c.className + 1) c hc (Nat.le_succ _), layoutFrom]
  cases h : H.parentOf c with
  | none => rfl
  | some d =>
    obtain ⟨hd, -, hlt⟩ := parentOf_depth hc h
    simp only [layoutFrom_eq _ d hd (Nat.le_of_lt hlt)]

/-! ### The fields of a resolved class -/

theorem lookupClass_parse (name : String) :
    lookupClass (H.classes.map SourceClass.parse) name = (H.find name).map SourceClass.parse := by
  have hreverse : H.classes.reverse.find? (·.className = name) = H.find name := by
    cases h : H.find name with
    | none =>
      refine List.find?_eq_none.2 fun d hd => ?_
      exact List.find?_eq_none.1 h d (List.mem_reverse.1 hd)
    | some c =>
      obtain ⟨hc, hname⟩ := find_eq_some h
      have hsome : (H.classes.reverse.find? (·.className = name)).isSome = true :=
        List.find?_isSome.2 ⟨c, List.mem_reverse.2 hc, by simpa using hname⟩
      obtain ⟨d, hd⟩ := Option.isSome_iff_exists.1 hsome
      have hdname : d.className = name := by simpa using List.find?_some hd
      have hdmem := List.mem_reverse.1 (List.mem_of_find?_eq_some hd)
      rw [hd, eq_of_className hdmem hc (hdname.trans hname.symm)]
  unfold lookupClass
  rw [← List.map_reverse, List.find?_map]
  exact congrArg (Option.map SourceClass.parse) hreverse

theorem fields_eq {c : SourceClass} (hc : c ∈ H.classes) : H.fields c = (match H.parentOf c with
    | some d => H.fields d
    | none => []) ++ c.ownFields := by
  rw [fields, layout_eq hc]
  cases H.parentOf c with
  | none => rfl
  | some d => exact List.flatMap_append

/-- From any class on whose ancestors are recovered, the loop collects the fields of the layout of its parent: it has
visited only classes further down, of which there are fewer than steps. -/
theorem inheritFields_layout (n : Nat) : ∀ (visited : List String) (c : SourceClass)
    (acc : List (ProtocolField String)), c ∈ H.classes →
    (∀ d ∈ H.classes, H.depth d.className < H.depth c.className → d.Recovered) → visited.Nodup →
      (∀ name ∈ visited, name ∈ H.classes.map SourceClass.className ∧ H.depth c.className ≤ H.depth name) →
      H.classes.length + 1 ≤ n + visited.length →
      inheritFields (H.classes.map SourceClass.parse) n visited c.parent acc =
        (match H.parentOf c with
          | some d => H.fields d
          | none => []) ++ acc := by
  induction n with
  | zero =>
    intro visited c acc hc _ hnodup hvisited hn
    -- A list without repetition of names of classes is not longer than the classes.
    have hsub : visited ⊆ H.classes.map SourceClass.className := fun name h => (hvisited name h).1
    have hlen := (hnodup.subperm hsub).length_le
    rw [List.length_map] at hlen
    omega
  | succ n ih =>
    intro visited c acc hc hrecovered hnodup hvisited hn
    cases hparent : c.parent with
    | none =>
      have hnone : H.parentOf c = none := by rw [parentOf, hparent]; rfl
      rw [hnone]
      rfl
    | some p =>
      have hparentOf : H.parentOf c = H.find p := by rw [parentOf, hparent]; rfl
      rw [inheritFields, hparentOf, lookupClass_parse]
      cases hfind : H.find p with
      | none => split <;> simp
      | some d =>
        obtain ⟨hd, hname⟩ := find_eq_some hfind
        have hlt := H.depth_lt c hc d hd (by rw [hparent, hname])
        have hroot : ¬(p = "NetworkMessage" ∨ p = "NetworkType") := by
          rw [← hname, not_or]
          exact H.not_root d hd
        have hnew : p ∉ visited := by
          intro hp
          have := (hvisited p hp).2
          rw [← hname] at this
          omega
        have hrec := ih (p :: visited) d (d.parse.fields ++ acc) hd
          (fun e he hdepth => hrecovered e he (Nat.lt_trans hdepth hlt)) (List.nodup_cons.2 ⟨hnew, hnodup⟩) (by
          intro name hmem
          rcases List.mem_cons.1 hmem with rfl | hmem
          · exact ⟨List.mem_map.2 ⟨d, hd, hname⟩, by rw [hname]⟩
          · have := hvisited name hmem
            exact ⟨this.1, by omega⟩) (by rw [List.length_cons]; omega)
        rw [if_neg hroot, if_neg hnew]
        simp only [Option.map_some]
        show inheritFields _ n (p :: visited) d.parent _ = _
        rw [hrec, d.parse_fields_iff.2 (hrecovered d hd hlt), fields_eq hd, List.append_assoc]

theorem inheritFields_eq {c : SourceClass} (hc : c ∈ H.classes)
    (h : ∀ d ∈ H.classes, H.depth d.className < H.depth c.className → d.Recovered) :
    inheritFields (H.classes.map SourceClass.parse) (H.classes.length + 1) [] c.parent [] =
      match H.parentOf c with
      | some d => H.fields d
      | none => [] := by
  rw [inheritFields_layout (H.classes.length + 1) [] c [] hc h List.nodup_nil (by simp) (by simp), List.append_nil]

theorem find_declared (name : String) : H.declared.find name =
    (H.find name).map fun c => { c.parse with fields := H.fields c } := by
  unfold Protocol.find declared
  rw [List.find?_map]
  rfl

/-- A class is generated with the fields that the loop over its ancestors collects, and its own. -/
theorem find_generated (name : String) : H.generated.find name = (H.find name).map fun c =>
    { c.parse with fields := inheritFields (H.classes.map SourceClass.parse) (H.classes.length + 1) [] c.parent [] ++
      c.parse.fields } := by
  unfold Protocol.find generated resolveInheritance
  rw [List.length_map, List.map_map, List.find?_map]
  rfl

/-- Where the fields of every class are recovered, the generator is given the protocol of the client. -/
theorem generated_eq_declared (h : ∀ c ∈ H.classes, c.Recovered) : H.generated = H.declared := by
  unfold generated declared resolveInheritance
  rw [List.map_map, List.length_map]
  refine congrArg (Protocol.mk · H.types) (List.map_congr_left fun c hc => ?_)
  show ({ c.parse with fields := inheritFields _ _ [] c.parent [] ++ c.parse.fields } : ProtocolClass String) = _
  rw [inheritFields_eq hc fun d hd _ => h d hd, c.parse_fields_iff.2 (h c hc), ← fields_eq hc]

/-- Every class is generated with the fields of its layout if and only if the parser recovers the fields of every
class. -/
theorem fields_generated_iff : (∀ c ∈ H.classes, ∃ g, H.generated.find c.className = some g ∧ g.fields = H.fields c) ↔
    ∀ c ∈ H.classes, c.Recovered := by
  constructor
  · intro h
    have hdepth : ∀ n, ∀ c ∈ H.classes, H.depth c.className < n → c.Recovered := by
      intro n
      induction n with
      | zero => exact fun c _ hlt => absurd hlt (Nat.not_lt_zero _)
      | succ n ih =>
        intro c hc hlt
        obtain ⟨g, hg, hfields⟩ := h c hc
        rw [find_generated, find_className hc] at hg
        obtain rfl := Option.some.inj hg
        dsimp only at hfields
        rw [inheritFields_eq hc fun d hd hdlt => ih d hd (by omega), fields_eq hc] at hfields
        exact c.parse_fields_iff.1 (List.append_cancel_left hfields)
    exact fun c hc => hdepth _ c hc (Nat.lt_succ_self _)
  · intro h c hc
    refine ⟨_, by rw [generated_eq_declared h, find_declared, find_className hc]; rfl, rfl⟩

end Hierarchy

end Otomai.ProtocolGen
