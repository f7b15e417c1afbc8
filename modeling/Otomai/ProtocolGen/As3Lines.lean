import Otomai.ProtocolGen.As3Source

/-!
# Single lines

What the tests and parsers of one line give on the lines of a statement.  A test for `a.b` looks at the parts between
the dots of a line (`isSetFlag_joinWith`, `isSuperCall_joinWith`), and the type in a call is found behind the first
dot that is followed by `serializeAs_` (`extractSerializeAsType_eq`).
-/

namespace Otomai.ProtocolGen

open Text

namespace Identifier

variable (x : Identifier)

@[simp] theorem dot_not_mem : '.' ∉ x.chars := x.not_mem (by decide)
@[simp] theorem paren_not_mem : '(' ∉ x.chars := x.not_mem (by decide)
@[simp] theorem close_not_mem : ')' ∉ x.chars := x.not_mem (by decide)
@[simp] theorem bracket_not_mem : '[' ∉ x.chars := x.not_mem (by decide)
@[simp] theorem comma_not_mem : ',' ∉ x.chars := x.not_mem (by decide)

end Identifier

namespace Statement

/-! ### Lines as joined parts -/

theorem writeLine_this (method : List Char) (field : Identifier) : writeLine method (thisField field) =
    joinWith '.' ["output".toList, "write".toList ++ method ++ "(this".toList, field.chars ++ ");".toList] := by
  unfold writeLine thisField
  simp only [String.reduceToList]
  simp [joinWith]

theorem lengthLine_eq (lengthMethod arr : Identifier) : lengthLine lengthMethod arr =
    joinWith '.' ["output".toList, "write".toList ++ lengthMethod.chars ++ "(this".toList, arr.chars,
      "length);".toList] := by
  unfold lengthLine writeLine thisField
  simp only [String.reduceToList]
  simp [joinWith]

theorem typeIdLine_this (field : Identifier) : typeIdLine (thisField field) =
    joinWith '.' ["output".toList, "writeShort(this".toList, field.chars, "getTypeId());".toList] := by
  unfold typeIdLine writeLine thisField
  simp only [String.reduceToList]
  simp [joinWith]

theorem serializeAsLine_this (field type : Identifier) : serializeAsLine (thisField field) type =
    joinWith '.' ["this".toList, field.chars, "serializeAs_".toList ++ type.chars ++ "(output);".toList] := by
  unfold serializeAsLine thisField
  simp only [String.reduceToList]
  simp [joinWith]

/-! ### Tests of lines -/

theorem isSkipped_of_head {c : Char} (l : List Char) (h : c ∉ ['{', '}', 'v', 'i', 't', '/', 'e']) :
    isSkipped (c :: l) = false := by
  unfold isSkipped
  simp only [List.mem_cons, not_or] at h
  simp only [Bool.or_eq_false_iff, decide_eq_false_iff_not]
  simp only [String.reduceToList]
  simp [h, Ne.symm]

theorem isSkipped_writeLine (method expr : List Char) : isSkipped (writeLine method expr) = false := by
  unfold writeLine
  simp only [String.reduceToList, List.append_assoc, List.cons_append]
  exact isSkipped_of_head _ (by decide)

theorem isSkipped_this (l : List Char) : isSkipped ("this.".toList ++ l) = false := by
  unfold isSkipped
  simp only [Bool.or_eq_false_iff, decide_eq_false_iff_not]
  simp only [String.reduceToList]
  simp only [List.cons_append, List.cons_prefix_cons, List.cons.injEq, Char.reduceEq, reduceCtorEq,
    false_and, true_and,
    and_true, not_false_eq_true]

theorem isSetFlag_joinWith {xs : List (List Char)} (h : ∀ x ∈ xs, '.' ∉ x) : isSetFlag (joinWith '.' xs) =
    adjacent (fun x y => decide ("BooleanByteWrapper".toList <:+ x) && decide ("setFlag".toList <+: y)) xs := by
  unfold isSetFlag
  exact contains_joinWith (a := "BooleanByteWrapper".toList) (b := "setFlag".toList) (by decide) (by decide) h

theorem isSuperCall_joinWith {xs : List (List Char)} (h : ∀ x ∈ xs, '.' ∉ x) : isSuperCall (joinWith '.' xs) =
    (adjacent (fun x y => decide ("super".toList <:+ x) && decide ("serializeAs_".toList <+: y)) xs ||
      adjacent (fun x y => decide ("super".toList <:+ x) && decide ("serialize(".toList <+: y)) xs) := by
  unfold isSuperCall
  rw [← contains_joinWith (c := '.') (a := "super".toList) (b := "serializeAs_".toList) (by decide) (by decide) h,
    ← contains_joinWith (c := '.') (a := "super".toList) (b := "serialize(".toList) (by decide) (by decide) h]
  rfl

/-- A part that ends in another character than the one before the dot of the pattern. -/
theorem not_suffix_append {a x y : List Char} {c d : Char} (h : c ≠ d) : ¬a ++ [c] <:+ x ++ (y ++ [d]) := by
  rintro ⟨u, hu⟩
  have := congrArg List.getLast? hu
  simp only [← List.append_assoc, List.getLast?_append, List.getLast?_singleton] at this
  exact h (by simpa using this)

/-- The dots of a written expression are those of the expression. -/
private theorem adjacent_writeLine {a : List Char} (q : List Char → Bool) (ha : ¬a ++ ['r'] <:+ "output".toList)
    (method : List Char) (x : List Char) (xs : List (List Char)) :
    adjacent (fun x y => decide (a ++ ['r'] <:+ x) && q y)
      ("output".toList :: ("write".toList ++ method ++ "(this".toList) :: x :: xs) =
    adjacent (fun x y => decide (a ++ ['r'] <:+ x) && q y) (x :: xs) := by
  have hthis : ¬a ++ ['r'] <:+ "write".toList ++ method ++ "(this".toList :=
    not_suffix_append (y := "(thi".toList) (by decide)
  simp only [adjacent, ha, hthis, decide_false, Bool.false_and, Bool.false_or]

theorem dots_writeLine {method x : List Char} {xs : List (List Char)} (hm : '.' ∉ method)
    (h : ∀ y ∈ x :: xs, '.' ∉ y) :
    ∀ y ∈ "output".toList :: ("write".toList ++ method ++ "(this".toList) :: x :: xs, '.' ∉ y := by
  intro y hy
  rcases List.mem_cons.1 hy with rfl | hy
  · decide
  rcases List.mem_cons.1 hy with rfl | hy
  · simp only [List.mem_append, not_or]
    exact ⟨⟨by decide, hm⟩, by decide⟩
  · exact h y hy

private theorem isSetFlag_write {method x : List Char} {xs : List (List Char)} (hm : '.' ∉ method)
    (h : ∀ y ∈ x :: xs, '.' ∉ y) :
    isSetFlag (joinWith '.' ("output".toList :: ("write".toList ++ method ++ "(this".toList) :: x :: xs)) =
      isSetFlag (joinWith '.' (x :: xs)) := by
  rw [isSetFlag_joinWith (dots_writeLine hm h), isSetFlag_joinWith h]
  exact adjacent_writeLine (a := "BooleanByteWrappe".toList) _ (by decide) method x xs

private theorem isSuperCall_write {method x : List Char} {xs : List (List Char)} (hm : '.' ∉ method)
    (h : ∀ y ∈ x :: xs, '.' ∉ y) :
    isSuperCall (joinWith '.' ("output".toList :: ("write".toList ++ method ++ "(this".toList) :: x :: xs)) =
      isSuperCall (joinWith '.' (x :: xs)) := by
  rw [isSuperCall_joinWith (dots_writeLine hm h), isSuperCall_joinWith h]
  exact congrArg₂ _ (adjacent_writeLine (a := "supe".toList) _ (by decide) method x xs)
    (adjacent_writeLine (a := "supe".toList) _ (by decide) method x xs)

/-- A line that serializes something: it is not skipped and no other pattern takes it. -/
structure Serializes (line : List Char) : Prop where
  not_skipped : isSkipped line = false
  not_setFlag : isSetFlag line = false
  not_superCall : isSuperCall line = false

theorem serializes_writeLine (method field : Identifier) : Serializes (writeLine method.chars (thisField field)) := by
  have h : ∀ y ∈ [field.chars ++ ");".toList], '.' ∉ y := by
    intro y hy
    rw [List.mem_singleton.1 hy, List.mem_append, not_or]
    exact ⟨field.dot_not_mem, by decide⟩
  refine ⟨isSkipped_writeLine _ _, ?_, ?_⟩
  · rw [writeLine_this, isSetFlag_write method.dot_not_mem h, isSetFlag_joinWith h]
    rfl
  · rw [writeLine_this, isSuperCall_write method.dot_not_mem h, isSuperCall_joinWith h]
    rfl

theorem serializes_lengthLine (lengthMethod arr : Identifier) : Serializes (lengthLine lengthMethod arr) := by
  have h : ∀ y ∈ [arr.chars, "length);".toList], '.' ∉ y := by
    intro y hy
    rcases List.mem_cons.1 hy with rfl | hy
    · exact arr.dot_not_mem
    · rw [List.mem_singleton.1 hy]
      decide
  refine ⟨isSkipped_writeLine _ _, ?_, ?_⟩
  · have hpre : ¬"setFlag".toList <+: "length);".toList := by decide
    rw [lengthLine_eq, isSetFlag_write lengthMethod.dot_not_mem h, isSetFlag_joinWith h]
    simp only [adjacent, hpre, decide_false, Bool.and_false, Bool.or_false]
  · have hpre : ¬"serializeAs_".toList <+: "length);".toList := by decide
    have hpre' : ¬"serialize(".toList <+: "length);".toList := by decide
    rw [lengthLine_eq, isSuperCall_write lengthMethod.dot_not_mem h, isSuperCall_joinWith h]
    simp only [adjacent, hpre, hpre', decide_false, Bool.and_false, Bool.or_false]

theorem serializes_typeIdLine (field : Identifier) : Serializes (typeIdLine (thisField field)) := by
  have h : ∀ y ∈ [field.chars, "getTypeId());".toList], '.' ∉ y := by
    intro y hy
    rcases List.mem_cons.1 hy with rfl | hy
    · exact field.dot_not_mem
    · rw [List.mem_singleton.1 hy]
      decide
  have hline : typeIdLine (thisField field) = joinWith '.' ["output".toList, "write".toList ++ "Short".toList ++
      "(this".toList, field.chars, "getTypeId());".toList] := typeIdLine_this field
  refine ⟨isSkipped_writeLine _ _, ?_, ?_⟩
  · have hpre : ¬"setFlag".toList <+: "getTypeId());".toList := by decide
    rw [hline, isSetFlag_write (by decide) h, isSetFlag_joinWith h]
    simp only [adjacent, hpre, decide_false, Bool.and_false, Bool.or_false]
  · have hpre : ¬"serializeAs_".toList <+: "getTypeId());".toList := by decide
    have hpre' : ¬"serialize(".toList <+: "getTypeId());".toList := by decide
    rw [hline, isSuperCall_write (by decide) h, isSuperCall_joinWith h]
    simp only [adjacent, hpre, hpre', decide_false, Bool.and_false, Bool.or_false]

theorem isSkipped_serializeAsLine (field type : Identifier) :
    isSkipped (serializeAsLine (thisField field) type) = false := by
  unfold serializeAsLine thisField
  rw [List.append_assoc, List.append_assoc, List.append_assoc]
  exact isSkipped_this _

theorem dots_serializeAsLine (field type : Identifier) :
    ∀ y ∈ ["this".toList, field.chars, "serializeAs_".toList ++ type.chars ++ "(output);".toList], '.' ∉ y := by
  intro y hy
  rcases List.mem_cons.1 hy with rfl | hy
  · decide
  rcases List.mem_cons.1 hy with rfl | hy
  · exact field.dot_not_mem
  · rw [List.mem_singleton.1 hy, List.mem_append, List.mem_append, not_or, not_or]
    exact ⟨⟨by decide, type.dot_not_mem⟩, by decide⟩

theorem isSetFlag_serializeAsLine (field type : Identifier) :
    isSetFlag (serializeAsLine (thisField field) type) = false := by
  have hthis : ¬"BooleanByteWrapper".toList <:+ "this".toList := by decide
  have hpre : ¬"setFlag".toList <+: "serializeAs_".toList ++ type.chars ++ "(output);".toList := by
    simp only [String.reduceToList, List.cons_append, List.cons_prefix_cons, Char.reduceEq, false_and, true_and,
      not_false_eq_true]
  rw [serializeAsLine_this, isSetFlag_joinWith (dots_serializeAsLine field type)]
  simp only [adjacent, hthis, hpre, decide_false, Bool.and_false, Bool.false_and, Bool.or_false]

/-- A nested field whose name ends in `super` is taken for a call of the parent's method. -/
theorem isSuperCall_serializeAsLine (field type : Identifier) :
    isSuperCall (serializeAsLine (thisField field) type) = decide ("super".toList <:+ field.chars) := by
  have hthis : ¬"super".toList <:+ "this".toList := by decide
  have hpre : "serializeAs_".toList <+: "serializeAs_".toList ++ type.chars ++ "(output);".toList := by
    rw [List.append_assoc]
    exact List.prefix_append ..
  have hpre' : ¬"serialize(".toList <+: "serializeAs_".toList ++ type.chars ++ "(output);".toList := by
    simp only [String.reduceToList, List.cons_append, List.cons_prefix_cons, Char.reduceEq, false_and, true_and,
      not_false_eq_true]
  rw [serializeAsLine_this, isSuperCall_joinWith (dots_serializeAsLine field type)]
  simp only [adjacent, hthis, hpre, hpre', decide_false, decide_true, Bool.and_false, Bool.false_and, Bool.or_false,
    Bool.and_true, Bool.false_or]

theorem isSuperCall_superCall (parent : Identifier) : isSuperCall (serializeAsLine "super".toList parent) = true := by
  have h : "super.serializeAs_".toList <:+: serializeAsLine "super".toList parent :=
    ⟨[], parent.chars ++ "(output);".toList, by unfold serializeAsLine; simp only [String.reduceToList]; simp⟩
  rw [isSuperCall, contains_iff.2 h, Bool.true_or]

theorem isSetFlag_superCall (parent : Identifier) : isSetFlag (serializeAsLine "super".toList parent) = false := by
  have h : ∀ y ∈ ["super".toList, "serializeAs_".toList ++ parent.chars ++ "(output);".toList], '.' ∉ y := by
    intro y hy
    rcases List.mem_cons.1 hy with rfl | hy
    · decide
    · rw [List.mem_singleton.1 hy, List.mem_append, List.mem_append, not_or, not_or]
      exact ⟨⟨by decide, parent.dot_not_mem⟩, by decide⟩
  have hline : serializeAsLine "super".toList parent =
      joinWith '.' ["super".toList, "serializeAs_".toList ++ parent.chars ++ "(output);".toList] := by
    unfold serializeAsLine
    simp only [String.reduceToList]
    simp [joinWith]
  have hsuper : ¬"BooleanByteWrapper".toList <:+ "super".toList := by decide
  rw [hline, isSetFlag_joinWith h]
  simp only [adjacent, hsuper, decide_false, Bool.false_and, Bool.or_false]

/-! ### Parsing lines -/

theorem writeLine_eq (method expr : List Char) :
    writeLine method expr = ("output.write".toList ++ method) ++ '(' :: (expr ++ ')' :: [';']) := by
  unfold writeLine
  simp only [String.reduceToList]
  simp

theorem writeLine_leads (method expr : List Char) : "output.write".toList <+: writeLine method expr := by
  rw [writeLine_eq, List.append_assoc]
  exact List.prefix_append ..

theorem paren_output {method : List Char} (hm : '(' ∉ method) : '(' ∉ "output.write".toList ++ method := by
  rw [List.mem_append, not_or]
  exact ⟨by decide, hm⟩

theorem callArguments_writeLine {method : List Char} (hm : '(' ∉ method) (expr : List Char) :
    callArguments (writeLine method expr) = some (some ("output.write".toList ++ method, expr)) := by
  rw [callArguments, writeLine_eq, cut_char (paren_output hm)]
  simp only [cutLast_append expr (show ')' ∉ [';'] by decide)]

theorem drop_output (method : List Char) :
    ("output.write".toList ++ method).drop "output.".toList.length = "write".toList ++ method := rfl

theorem parseSimpleWrite_writeLine (method field : Identifier) :
    parseSimpleWrite (writeLine method.chars (thisField field)) =
      some (some (field.chars, "write".toList ++ method.chars)) := by
  have hname : ¬('.' ∈ field.chars ∨ '[' ∈ field.chars) := by simp
  unfold parseSimpleWrite thisField
  rw [callArguments_writeLine method.paren_not_mem]
  dsimp only [Option.bind_eq_bind, Option.bind_some]
  rw [stripPrefix_append, Option.bind_some, if_neg hname, drop_output]
  rfl

theorem parseLengthWrite_writeLine {method : List Char} (hm : '(' ∉ method) {expr : List Char} :
    parseLengthWrite (writeLine method ("this.".toList ++ expr)) =
      some ((cut ".length".toList expr).map fun x => (x.1, "write".toList ++ method)) := by
  simp only [parseLengthWrite, callArguments_writeLine hm, stripPrefix_append, drop_output, Option.bind_eq_bind,
    Option.bind_some, Option.pure_def]
  cases cut ".length".toList expr <;> rfl

theorem vectorAt_writeLine (method field : Identifier) (rest : List (List Char)) :
    vectorAt (writeLine method.chars (thisField field)) rest = some none := by
  have hcut : cut ".length".toList field.chars = none :=
    cut_eq_none.2 (contains_of_not_mem (by decide) field.dot_not_mem)
  unfold vectorAt thisField
  rw [parseLengthWrite_writeLine method.paren_not_mem, hcut]
  split <;> rfl

theorem vectorAt_typeIdLine (field : Identifier) (rest : List (List Char)) :
    vectorAt (typeIdLine (thisField field)) rest = some none := by
  have hcut : cut ".length".toList (field.chars ++ ".getTypeId()".toList) = none := by
    have hpre : ¬"length".toList <+: "getTypeId()".toList := by decide
    have hnone : cut ".length".toList "getTypeId()".toList = none := by decide
    have := cut_cons (b := "length".toList) field.dot_not_mem "getTypeId()".toList
    rw [if_neg hpre] at this
    exact this.trans (by rw [show ('.' :: "length".toList) = ".length".toList from rfl, hnone]; rfl)
  have hline : typeIdLine (thisField field) =
      writeLine "Short".toList ("this.".toList ++ (field.chars ++ ".getTypeId()".toList)) := by
    rw [typeIdLine, thisField_eq, List.append_assoc]
  unfold vectorAt
  rw [hline, parseLengthWrite_writeLine (by decide), hcut]
  split <;> rfl

theorem vectorAt_lengthLine (lengthMethod arr : Identifier) (rest : List (List Char)) :
    vectorAt (lengthLine lengthMethod arr) rest = (parseForLoop rest).map fun x =>
      some (vectorField lengthMethod arr x.1, 1 + x.2) := by
  have hline : lengthLine lengthMethod arr =
      writeLine lengthMethod.chars ("this.".toList ++ (arr.chars ++ ".length".toList)) := by
    rw [lengthLine, thisField_eq, List.append_assoc]
  have hcut : cut ".length".toList (arr.chars ++ ".length".toList) = some (arr.chars, []) := by
    have := cut_of_head (p := "length".toList) arr.dot_not_mem []
    rwa [List.append_nil] at this
  have hlen : contains ".length)".toList (lengthLine lengthMethod arr) = true := contains_iff.2
    ⟨"output.write".toList ++ lengthMethod.chars ++ "(this.".toList ++ arr.chars, [';'], by
      unfold lengthLine writeLine thisField
      simp only [String.reduceToList]
      simp⟩
  have hpre : "output.write".toList <+: lengthLine lengthMethod arr := writeLine_leads _ _
  rw [vectorAt, if_pos ⟨hpre, hlen⟩, hline, parseLengthWrite_writeLine lengthMethod.paren_not_mem, hcut]
  simp only [Option.map_some, Option.bind_eq_bind, Option.bind_some, Option.pure_def, vectorField, Identifier.name]
  cases parseForLoop rest <;> rfl

theorem polymorphicAt_writeLine (method field : Identifier) (rest : List (List Char)) :
    polymorphicAt (writeLine method.chars (thisField field)) rest = some none := by
  have hcut : cut "(this.".toList (writeLine method.chars (thisField field)) =
      some ("output.write".toList ++ method.chars, field.chars ++ ");".toList) := by
    have := cut_of_head (p := "this.".toList) (paren_output method.paren_not_mem) (field.chars ++ ");".toList)
    rw [← this, writeLine_eq, thisField_eq]
    simp only [String.reduceToList]
    simp
  have hnone : cut ".getTypeId()".toList (field.chars ++ ");".toList) = none :=
    cut_eq_none.2 (contains_of_not_mem (c := '.') (by decide) (by
      rw [List.mem_append, not_or]
      exact ⟨field.dot_not_mem, by decide⟩))
  unfold polymorphicAt extractTypeIdField
  rw [hcut]
  simp only [Option.bind_eq_bind, Option.bind_some, hnone, Option.bind_none]
  split <;> rfl

theorem fieldAt_primitive (method field : Identifier) (rest : List (List Char)) :
    fieldAt (writeLine method.chars (thisField field)) rest = some (some (⟨field.name,
      writerToFieldType ("write".toList ++ method.chars), String.ofList ("write".toList ++ method.chars)⟩, 1)) := by
  have hthis : ¬"this.".toList <+: writeLine method.chars (thisField field) := by
    unfold writeLine
    simp only [String.reduceToList, List.cons_append, List.cons_prefix_cons, Char.reduceEq, false_and,
      not_false_eq_true]
  rw [fieldAt, vectorAt_writeLine, polymorphicAt_writeLine]
  simp only [orTry, directAt, plainAt, hthis, false_and, if_false, primitiveAt, writeLine_leads, if_true,
    parseSimpleWrite_writeLine, Option.bind_eq_bind, Option.bind_some, Option.pure_def, Identifier.name]

/-! ### Nested and polymorphic fields -/

@[simp] theorem typeName_identifier (type : Identifier) : typeName type.chars = some type.name := if_neg type.ne_nil

/-- The text before the parenthesis of a call. -/
private theorem cut_output {x : List Char}
    (hx : '(' ∉ x) : cut ['('] (x ++ "(output);".toList) = some (x, "output);".toList) :=
  cut_char hx _

/-- A line of `this.` serializes no primitive and no length. -/
private theorem not_output_this (l : List Char) : ¬"output.write".toList <+: "this.".toList ++ l := by
  simp only [String.reduceToList]
  simp only [List.cons_append, List.cons_prefix_cons, Char.reduceEq, false_and, not_false_eq_true]

theorem parseDirectSerialize_nested (field type : Identifier) :
    parseDirectSerialize (serializeAsLine (thisField field) type) =
      if "serializeAs_".toList <+: field.chars then none else some (some (field.chars, type.chars)) := by
  have hline : serializeAsLine (thisField field) type =
      "this".toList ++ '.' :: (field.chars ++ '.' ::
        ("serializeAs_".toList ++ (type.chars ++ "(output);".toList))) := by
    unfold serializeAsLine thisField
    simp only [String.reduceToList]
    simp
  have hbracket : '[' ∉ serializeAsLine (thisField field) type := by
    rw [hline]
    simp only [List.mem_append, List.mem_cons, not_or]
    exact ⟨by decide, by decide, field.bracket_not_mem, by decide, by decide, type.bracket_not_mem, by decide⟩
  have hfirst := cut_cons (b := "serializeAs_".toList) (x := "this".toList) (c := '.') (by decide)
    (field.chars ++ '.' :: ("serializeAs_".toList ++ (type.chars ++ "(output);".toList)))
  have hsecond := cut_of_head (p := "serializeAs_".toList) field.dot_not_mem (type.chars ++ "(output);".toList)
  have hdots : '.' ∉ "serializeAs_".toList := by decide
  simp only [prefix_append_cons hdots] at hfirst
  rw [hsecond, ← hline] at hfirst
  rw [parseDirectSerialize, if_neg hbracket, show ".serializeAs_".toList =
    '.' :: "serializeAs_".toList from rfl, hfirst]
  by_cases h : "serializeAs_".toList <+: field.chars
  · rw [if_pos h, if_pos h]
    rfl
  · rw [if_neg h, if_neg h]
    simp only [Option.map_some]
    rw [if_neg (by simp), cut_output type.paren_not_mem]
    rfl

theorem contains_serializeAsLine (expr : List Char) (type : Identifier) :
    contains ".serializeAs_".toList (serializeAsLine expr type) = true :=
  contains_iff.2 ⟨expr, type.chars ++ "(output);".toList, by unfold serializeAsLine; simp⟩

/-- A nested field whose name starts with `serializeAs_` makes a slice end before it starts. -/
theorem fieldAt_nested (field type : Identifier) (rest : List (List Char)) :
    fieldAt (serializeAsLine (thisField field) type) rest =
      if "serializeAs_".toList <+: field.chars then none
      else some
        (some (⟨field.name, .type (some type.name), String.ofList ("serializeAs_".toList ++ type.chars)⟩, 1)) := by
  have hline : serializeAsLine (thisField field) type =
      "this.".toList ++ (field.chars ++ ".serializeAs_".toList ++ type.chars ++ "(output);".toList) := by
    unfold serializeAsLine thisField
    simp
  have hout : ¬"output.write".toList <+: serializeAsLine (thisField field) type := hline ▸ not_output_this _
  have hthis : "this.".toList <+: serializeAsLine (thisField field) type := hline ▸ List.prefix_append ..
  have hvector : vectorAt (serializeAsLine (thisField field) type) rest = some none := if_neg fun h => hout h.1
  have hpoly : polymorphicAt (serializeAsLine (thisField field) type) rest = some none := if_neg fun h => hout h.1
  rw [fieldAt, hvector, hpoly]
  simp only [orTry]
  rw [directAt, if_pos ⟨hthis, contains_serializeAsLine _ _⟩, parseDirectSerialize_nested]
  by_cases h : "serializeAs_".toList <+: field.chars
  · rw [if_pos h, if_pos h]
    rfl
  · rw [if_neg h, if_neg h]
    simp [Identifier.name]

theorem contains_typeIdLine (expr : List Char) : contains ".getTypeId()".toList (typeIdLine expr) = true :=
  contains_iff.2 ⟨"output.writeShort(".toList ++ expr, ");".toList, by
    unfold typeIdLine writeLine
    simp only [String.reduceToList]
    simp⟩

theorem extractTypeIdField_typeIdLine (field : Identifier) :
    extractTypeIdField (typeIdLine (thisField field)) = some field.chars := by
  have hline : typeIdLine (thisField field) = "output.writeShort".toList ++ '(' ::
      ("this.".toList ++ (field.chars ++ '.' :: ("getTypeId()".toList ++ ");".toList))) := by
    unfold typeIdLine writeLine thisField
    simp only [String.reduceToList]
    simp
  have hparen : '(' ∉ "output.writeShort".toList := by decide
  have hcut := cut_of_head (p := "getTypeId()".toList) field.dot_not_mem ");".toList
  rw [extractTypeIdField, hline, show "(this.".toList = '(' :: "this.".toList from rfl, cut_of_head hparen]
  simp only [Option.bind_eq_bind, Option.bind_some]
  rw [show ".getTypeId()".toList = '.' :: "getTypeId()".toList from rfl, hcut]
  rfl

/-- The type in a call on an expression with one dot.  The name behind that dot is taken for a call when it starts
like one. -/
theorem extractSerializeAsType_eq (pre seg call : List Char) (hpre : '.' ∉ pre) (hseg : '.' ∉ seg)
    (hcall : '.' ∉ call)
    (hseg' : '(' ∉ seg) (hcall' : '(' ∉ call) :
    extractSerializeAsType (pre ++ '.' :: (seg ++ '.' :: (call ++ "(output);".toList))) =
      if "serializeAs_".toList <+: seg then some (seg.drop 12 ++ '.' :: call)
      else if "serializeAs_".toList <+: call then some (call.drop 12) else none := by
  have hdots : '.' ∉ "serializeAs_".toList := by decide
  have hparen : '(' ∉ "serializeAs_".toList := by decide
  have hfirst := cut_cons (b := "serializeAs_".toList) hpre (seg ++ '.' :: (call ++ "(output);".toList))
  have hsecond := cut_cons (b := "serializeAs_".toList) hseg (call ++ "(output);".toList)
  have hpre : "serializeAs_".toList <+: call ++ "(output);".toList ↔ "serializeAs_".toList <+: call :=
    prefix_append_cons (c := '(') hparen
  have hnone : cut ('.' :: "serializeAs_".toList) (call ++ "(output);".toList) = none := cut_eq_none.2
    (contains_of_not_mem (List.mem_cons_self ..) (by
      rw [List.mem_append, not_or]
      exact ⟨hcall, by decide⟩))
  simp only [prefix_append_cons hdots] at hfirst
  simp only [hpre] at hsecond
  rw [hnone] at hsecond
  rw [extractSerializeAsType, show ".serializeAs_".toList = '.' :: "serializeAs_".toList from rfl, hfirst, hsecond]
  by_cases h : "serializeAs_".toList <+: seg
  · obtain ⟨tail, rfl⟩ := h
    have hdrop : ("serializeAs_".toList ++ tail ++ '.' :: (call ++ "(output);".toList)).drop 12 =
        (tail ++ '.' :: call) ++ "(output);".toList := by
      rw [List.append_assoc, List.append_assoc]
      rfl
    have hcut : '(' ∉ tail ++ '.' :: call := by
      rw [List.mem_append, not_or] at hseg'
      simp only [List.mem_append, List.mem_cons, not_or]
      exact ⟨hseg'.2, by decide, hcall'⟩
    rw [if_pos (List.prefix_append ..), if_pos (List.prefix_append ..)]
    show Option.bind
      (cut ['('] (("serializeAs_".toList ++ tail ++ '.' :: (call ++ "(output);".toList)).drop 12)) _ = _
    rw [hdrop, cut_output hcut]
    rfl
  · rw [if_neg h, if_neg h]
    by_cases h' : "serializeAs_".toList <+: call
    · obtain ⟨type, rfl⟩ := h'
      have hcut : '(' ∉ type := fun ht => hcall' (List.mem_append_right _ ht)
      rw [if_pos (List.prefix_append ..), if_pos (List.prefix_append ..)]
      show Option.bind (cut ['('] (type ++ "(output);".toList)) _ = _
      rw [cut_output hcut]
      rfl
    · rw [if_neg h', if_neg h']
      rfl

/-- A type name with a dot in it is no identifier's. -/
theorem typeName_ne {s : List Char} (h : '.' ∈ s) (type : Identifier) : typeName s ≠ some type.name := by
  have hs : s ≠ [] := fun e => by simp [e] at h
  rw [typeName, if_neg hs]
  intro e
  have hchars : s = type.chars := String.ofList_injective (Option.some.inj e)
  exact type.dot_not_mem (hchars ▸ h)

theorem typeName_ne_none {s : List Char} (h : s ≠ []) : typeName s ≠ none := by
  rw [typeName, if_neg h]
  simp

theorem serializeLine_this (field : Identifier) : serializeLine (thisField field) =
    "this".toList ++ '.' :: (field.chars ++ '.' :: ("serialize".toList ++ "(output);".toList)) := by
  unfold serializeLine thisField
  simp only [String.reduceToList]
  simp

theorem contains_serializeLine (expr : List Char) : contains ".serialize(".toList (serializeLine expr) = true :=
  contains_iff.2 ⟨expr, "output);".toList, by
    unfold serializeLine
    simp only [String.reduceToList]
    simp⟩

/-- A polymorphic field is read without a type, unless its name starts like a call. -/
theorem fieldAt_polymorphic (field : Identifier) : ∃ type,
    (∀ rest, fieldAt (typeIdLine (thisField field)) (serializeLine (thisField field) :: rest) =
      some (some (⟨field.name, .typeManager type, "TypeManager"⟩, 2))) ∧
    if "serializeAs_".toList <+: field.chars then type ≠ none ∧ ∀ t : Identifier, type ≠ some t.name
    else type = none := by
  have hpre : "this.".toList ++ field.chars ++ ['.'] <+: serializeLine (thisField field) :=
    ⟨"serialize(output);".toList, by
      unfold serializeLine thisField
      simp only [String.reduceToList]
      simp⟩
  have hout : "output.write".toList <+: typeIdLine (thisField field) := writeLine_leads _ _
  have htype := extractSerializeAsType_eq "this".toList field.chars "serialize".toList (by decide) field.dot_not_mem
    (by decide) field.paren_not_mem (by decide)
  rw [← serializeLine_this, if_neg (show ¬"serializeAs_".toList <+: "serialize".toList by decide)] at htype
  have hfind (rest : List (List Char)) : findSerializeAfter field.chars 5 (serializeLine (thisField field) :: rest) =
      extractSerializeAsType (serializeLine (thisField field)) := by
    rw [findSerializeAfter, if_pos hpre, contains_serializeLine]
    cases extractSerializeAsType (serializeLine (thisField field)) <;> rfl
  refine ⟨typeName ((extractSerializeAsType (serializeLine (thisField field))).getD []), fun rest => ?_, ?_⟩
  · have hpoly : polymorphicAt (typeIdLine (thisField field)) (serializeLine (thisField field) :: rest) =
        some (some (⟨field.name, .typeManager (typeName ((extractSerializeAsType
          (serializeLine (thisField field))).getD [])), "TypeManager"⟩, 2)) := by
      rw [polymorphicAt, if_pos ⟨hout, contains_typeIdLine _⟩, extractTypeIdField_typeIdLine, ← hfind rest]
      rfl
    rw [fieldAt, vectorAt_typeIdLine, hpoly]
    rfl
  · rw [htype]
    by_cases h : "serializeAs_".toList <+: field.chars
    · rw [if_pos h, if_pos h]
      exact ⟨typeName_ne_none (by simp), fun t => typeName_ne (by simp) t⟩
    · rw [if_neg h, if_neg h]
      rfl

end Statement

end Otomai.ProtocolGen
