import Otomai.ProtocolGen.As3Lines

/-!
# What the parser extracts from statements

The parser reads the lines of a statement as a unit: it panics on them, or reads fields off them and goes on behind
them (`extracts_or_crashes`).  It reads no more fields than the statement serializes, so over a list of statements
the fields are right exactly when they are right for every statement (`extractFrom_statements`).
-/

namespace Otomai.ProtocolGen

open Text

theorem isWhitespace_of_isIdentChar {c : Char} (h : isIdentChar c = true) : isWhitespace c = false := by
  have hrange : 0x24 ≤ c.toNat ∧ c.toNat ≤ 0x7A := by
    have hval : c.toNat = c.val.toNat := rfl
    unfold isIdentChar Char.isAlphanum Char.isAlpha Char.isUpper Char.isLower Char.isDigit at h
    simp only [Bool.or_eq_true, Bool.and_eq_true, decide_eq_true_eq, beq_iff_eq, UInt32.le_iff_toNat_le,
      ge_iff_le] at h
    rcases h with (((⟨h1, h2⟩ | ⟨h1, h2⟩) | ⟨h1, h2⟩) | rfl) | rfl
    · exact ⟨Nat.le_trans (by decide) (hval ▸ h1), Nat.le_trans (hval ▸ h2) (by decide)⟩
    · exact ⟨Nat.le_trans (by decide) (hval ▸ h1), Nat.le_trans (hval ▸ h2) (by decide)⟩
    · exact ⟨Nat.le_trans (by decide) (hval ▸ h1), Nat.le_trans (hval ▸ h2) (by decide)⟩
    · decide
    · decide
  unfold isWhitespace
  simp only [Bool.or_eq_false_iff, Bool.and_eq_false_iff, decide_eq_false_iff_not, beq_eq_false_iff_ne]
  omega

namespace Statement

/-! ### Flags -/

private theorem digit_eq (bit : Fin 8) : parseUnsigned 256 [Char.ofNat ('0'.toNat + bit.val)] = some bit.val ∧
    isIdentChar (Char.ofNat ('0'.toNat + bit.val)) = true := by
  revert bit
  decide

/-- The bits a block shows. -/
def flagBit (flag : Fin 8 × Identifier) : UInt8 × String := (UInt8.ofNat flag.1.val, flag.2.name)

theorem parseSetFlag_setFlagLine (box : Identifier) (flag : Fin 8 × Identifier) :
    parseSetFlag (setFlagLine box flag) = some (flagBit flag) := by
  obtain ⟨bit, field⟩ := flag
  obtain ⟨hdigit, hchar⟩ := digit_eq bit
  let digit : Identifier := ⟨[Char.ofNat ('0'.toNat + bit.val)], by simp, by simpa using hchar⟩
  have hline : setFlagLine box (bit, field) = ("_box".toList ++ box.chars ++ " = BooleanByteWrapper.".toList) ++
      ("setFlag".toList ++ '(' :: (("_box".toList ++ box.chars) ++ ',' :: (digit.chars ++ ',' ::
        ("this.".toList ++ field.chars)) ++ ')' :: [';'])) := by
    unfold setFlagLine thisField
    simp only [String.reduceToList]
    simp [digit]
  have hcomma : ',' ∉ "_box".toList ++ box.chars := by
    rw [List.mem_append, not_or]
    exact ⟨by decide, box.comma_not_mem⟩
  have hthis : ',' ∉ "this.".toList ++ field.chars := by
    rw [List.mem_append, not_or]
    exact ⟨by decide, field.comma_not_mem⟩
  have hfront : '(' ∉ "_box".toList ++ box.chars ++ " = BooleanByteWrapper.".toList := by
    simp only [List.mem_append, not_or]
    exact ⟨⟨by decide, box.paren_not_mem⟩, by decide⟩
  have hargs : ')' ∉ ("_box".toList ++ box.chars) ++ ',' ::
    (digit.chars ++ ',' :: ("this.".toList ++ field.chars)) := by
    simp only [List.mem_append, List.mem_cons, not_or]
    exact ⟨⟨by decide, box.close_not_mem⟩, by decide, digit.close_not_mem, by decide, by decide, field.close_not_mem⟩
  have htrim : trim digit.chars = digit.chars :=
    trim_of_forall fun c hc => isWhitespace_of_isIdentChar (digit.valid c hc)
  have htrim' : trim ("this.".toList ++ field.chars) = "this.".toList ++ field.chars := by
    refine trim_of_forall fun c hc => ?_
    rcases List.mem_append.1 hc with hc | hc
    · exact (by decide : ∀ c ∈ "this.".toList, isWhitespace c = false) c hc
    · exact isWhitespace_of_isIdentChar (field.valid c hc)
  unfold parseSetFlag
  rw [hline, show "setFlag(".toList = "setFlag".toList ++ ['('] from rfl, cut_of_last hfront (by decide)]
  simp only [Option.bind_eq_bind, Option.bind_some]
  rw [cut_char hargs, Option.bind_some, split_cons hcomma, split_cons digit.comma_not_mem, split_of_not_mem hthis]
  simp only [List.map_cons, List.map_nil, htrim, htrim']
  rw [show digit.chars = [Char.ofNat ('0'.toNat + bit.val)] from rfl, hdigit, stripPrefix_append]
  rfl

theorem isSetFlag_setFlagLine (box : Identifier) (flag : Fin 8 × Identifier) :
    isSetFlag (setFlagLine box flag) = true :=
  contains_iff.2 ⟨"_box".toList ++ box.chars ++ " = ".toList, "(_box".toList ++ box.chars ++ [','] ++
    [Char.ofNat ('0'.toNat + flag.1.val)] ++ [','] ++ thisField flag.2 ++ ");".toList, by
      unfold setFlagLine
      simp only [String.reduceToList]
      simp⟩

theorem isSetFlag_boxLine (box : Identifier) : isSetFlag (boxLine box) = false := by
  have hline : boxLine box = joinWith '.' ["output".toList, "writeByte(_box".toList ++ box.chars ++ ");".toList] := by
    unfold boxLine writeLine
    simp only [String.reduceToList]
    simp [joinWith]
  have h : ∀ y ∈ ["output".toList, "writeByte(_box".toList ++ box.chars ++ ");".toList], '.' ∉ y := by
    intro y hy
    rcases List.mem_cons.1 hy with rfl | hy
    · decide
    · rw [List.mem_singleton.1 hy, List.mem_append, List.mem_append, not_or, not_or]
      exact ⟨⟨by decide, box.dot_not_mem⟩, by decide⟩
  have hout : ¬"BooleanByteWrapper".toList <:+ "output".toList := by decide
  rw [hline, isSetFlag_joinWith h]
  simp only [adjacent, hout, decide_false, Bool.false_and, Bool.or_false]

theorem parseBooleanBlock_lines (box : Identifier) (flags : List (Fin 8 × Identifier)) (rest : List (List Char)) :
    parseBooleanBlock (flags.map (setFlagLine box) ++ boxLine box :: rest) =
      (flags.map flagBit, flags.length + 1) := by
  induction flags with
  | nil =>
    have hbyte : contains "writeByte".toList (boxLine box) = true := contains_iff.2
      ⟨"output.".toList, "(_box".toList ++ box.chars ++ ");".toList, by
        unfold boxLine writeLine
        simp only [String.reduceToList]
        simp⟩
    have hbox : contains "_box".toList (boxLine box) = true := contains_iff.2
      ⟨"output.writeByte(".toList, box.chars ++ ");".toList, by
        unfold boxLine writeLine
        simp only [String.reduceToList]
        simp⟩
    rw [List.map_nil, List.nil_append, parseBooleanBlock, isSetFlag_boxLine, if_neg (by decide), hbyte, hbox]
    rfl
  | cons flag flags ih =>
    rw [List.map_cons, List.cons_append, parseBooleanBlock, isSetFlag_setFlagLine, if_pos rfl, ih,
      parseSetFlag_setFlagLine]
    rfl

/-! ### Loops -/

private theorem scanLoop_cons {line : List Char} (h : 2 ≤ line.length) (elem : FieldType String)
    (rest : List (List Char)) : scanLoop 1 elem (line :: rest) = (elementAt elem line rest).bind fun elem =>
      (scanLoop 1 elem rest).map fun x => (x.1, x.2 + 1) := by
  have hopen : line ≠ ['{'] := fun e => by simp [e] at h
  have hclose : line ≠ ['}'] := fun e => by simp [e] at h
  rw [scanLoop]
  simp only [hopen, hclose, false_and, if_false, Option.bind_eq_bind, Option.pure_def]
  cases elementAt elem line rest with
  | none => rfl
  | some elem => cases h : scanLoop 1 elem rest <;> simp [h]

theorem isFor_forLine (arr index : Identifier) : isFor (forLine arr index) = true := by
  have h : "for(".toList <+: forLine arr index := by
    unfold forLine
    simp only [String.reduceToList]
    simp only [List.cons_append, List.cons_prefix_cons, true_and, List.nil_prefix]
  unfold isFor
  rw [decide_eq_true h, Bool.true_or]

theorem isValidation_forLine (arr index : Identifier) : isValidation (forLine arr index) = false := by
  unfold isValidation forLine
  simp only [Bool.or_eq_false_iff, decide_eq_false_iff_not]
  simp only [String.reduceToList]
  simp only [List.cons_append, List.cons_prefix_cons, List.cons.injEq, Char.reduceEq, false_and, not_false_eq_true,
    and_self]

theorem parseForLoop_lines (arr index : Identifier) (body rest : List (List Char)) :
    parseForLoop (forLine arr index :: ['{'] :: body ++ ['}'] :: rest) =
      (scanLoop 1 .byte (body ++ ['}'] :: rest)).map fun x => (x.1, x.2 + 2) := by
  rw [parseForLoop, List.cons_append, List.cons_append,
    List.dropWhile_cons_of_neg (by rw [isValidation_forLine]; decide)]
  simp only [isFor_forLine, if_true]

/-- The expression of an element has one dot, in front of the name of the vector. -/
theorem text_eq (expr : ElementExpr) (arr index : Identifier) : ∃ pre tail, '.' ∉ pre ∧ '.' ∉ tail ∧ '(' ∉ tail ∧
    expr.text arr index = pre ++ '.' :: (arr.chars ++ '[' :: tail) ∧
    (pre = "this".toList ∨ pre = "(this".toList) := by
  cases expr with
  | plain =>
    refine ⟨"this".toList, index.chars ++ [']'], by decide, ?_, ?_, ?_, Or.inl rfl⟩
    · rw [List.mem_append, not_or]
      exact ⟨index.dot_not_mem, by decide⟩
    · rw [List.mem_append, not_or]
      exact ⟨index.paren_not_mem, by decide⟩
    · unfold ElementExpr.text thisField
      simp only [String.reduceToList]
      simp
  | cast type =>
    refine ⟨"(this".toList, index.chars ++ ("] as ".toList ++ (type.chars ++ [')'])), by
      decide, ?_, ?_, ?_, Or.inr rfl⟩
    · simp only [List.mem_append, not_or]
      exact ⟨index.dot_not_mem, by decide, type.dot_not_mem, by decide⟩
    · simp only [List.mem_append, not_or]
      exact ⟨index.paren_not_mem, by decide, type.paren_not_mem, by decide⟩
    · unfold ElementExpr.text thisField
      simp only [String.reduceToList]
      simp

/-- The type in a call on an element. -/
theorem extractSerializeAsType_element (expr : ElementExpr) (arr index : Identifier) (call : List Char)
    (hdot : '.' ∉ call) (hparen : '(' ∉ call) :
    ∃ bad, '.' ∈ bad ∧ extractSerializeAsType (expr.text arr index ++ '.' :: (call ++ "(output);".toList)) =
      if "serializeAs_".toList <+: arr.chars then some bad
      else if "serializeAs_".toList <+: call then some (call.drop 12) else none := by
  obtain ⟨pre, tail, hpre, htail, htail', htext, -⟩ := text_eq expr arr index
  have hseg : '.' ∉ arr.chars ++ '[' :: tail := by
    simp only [List.mem_append, List.mem_cons, not_or]
    exact ⟨arr.dot_not_mem, by decide, htail⟩
  have hseg' : '(' ∉ arr.chars ++ '[' :: tail := by
    simp only [List.mem_append, List.mem_cons, not_or]
    exact ⟨arr.paren_not_mem, by decide, htail'⟩
  have hname : "serializeAs_".toList <+: arr.chars ++ '[' :: tail ↔ "serializeAs_".toList <+: arr.chars :=
    prefix_append_cons (by decide)
  refine ⟨(arr.chars ++ '[' :: tail).drop 12 ++ '.' :: call, List.mem_append_right _ (List.mem_cons_self ..), ?_⟩
  have h := extractSerializeAsType_eq _ _ _ hpre hseg hdot hseg' hparen
  simp only [hname] at h
  rw [htext, List.append_assoc, List.cons_append]
  exact h

/-! ### Elements -/

private theorem head_element (expr : ElementExpr) (arr index : Identifier) (l : List Char) :
    ¬"output.write".toList <+: expr.text arr index ++ l := by
  cases expr with
  | plain =>
    unfold ElementExpr.text thisField
    simp only [String.reduceToList]
    simp only [List.cons_append, List.cons_prefix_cons, Char.reduceEq, false_and, not_false_eq_true]
  | cast type =>
    unfold ElementExpr.text
    simp only [String.reduceToList]
    simp only [List.cons_append, List.nil_append, List.cons_prefix_cons, Char.reduceEq, false_and, not_false_eq_true]

private theorem bracket_element (expr : ElementExpr) (arr index : Identifier) : '[' ∈ expr.text arr index := by
  cases expr <;> simp [ElementExpr.text]

/-- A call on an element is recognised in both ways of writing the element. -/
private theorem elementAt_call (expr : ElementExpr) (arr index : Identifier) (l : List Char) (elem : FieldType String)
    (rest : List (List Char)) : elementAt elem (expr.text arr index ++ l) rest =
      some (calledElement true (expr.text arr index ++ l) elem) := by
  have hout := head_element expr arr index l
  have hbracket : '[' ∈ expr.text arr index ++ l := List.mem_append_left _ (bracket_element expr arr index)
  have hwritten : writtenElement elem (expr.text arr index ++ l) = some elem := if_neg fun h => hout h.1
  have hpoly (e : FieldType String) : polymorphicElement (expr.text arr index ++ l) rest e = e :=
    if_neg fun h => hout h.1
  have hnot (e : FieldType String) : calledElement false (expr.text arr index ++ l) e = e :=
    if_neg fun h => Bool.false_ne_true h.1
  rw [elementAt, hwritten, Option.map_some, hpoly]
  cases expr with
  | plain =>
    have hcast : ¬"(this.".toList <+: ElementExpr.plain.text arr index ++ l := by
      unfold ElementExpr.text thisField
      simp only [String.reduceToList]
      simp only [List.cons_append, List.cons_prefix_cons, Char.reduceEq, false_and, not_false_eq_true]
    have hthis : "this.".toList <+: ElementExpr.plain.text arr index ++ l ∧
      '[' ∈ ElementExpr.plain.text arr index ++ l := by
      refine ⟨?_, hbracket⟩
      unfold ElementExpr.text thisField
      simp only [String.reduceToList]
      simp only [List.cons_append, List.cons_prefix_cons, true_and, List.nil_prefix]
    rw [decide_eq_false hcast, decide_eq_true hthis, hnot]
  | cast type =>
    have hcast : "(this.".toList <+: (ElementExpr.cast type).text arr index ++ l := by
      unfold ElementExpr.text thisField
      simp only [String.reduceToList]
      simp only [List.cons_append, List.nil_append, List.cons_prefix_cons, true_and, List.nil_prefix]
    have hthis : ¬("this.".toList <+: (ElementExpr.cast type).text arr index ++ l ∧
        '[' ∈ (ElementExpr.cast type).text arr index ++ l) := by
      rintro ⟨h, -⟩
      unfold ElementExpr.text at h
      simp only [String.reduceToList] at h
      simp only [List.cons_append, List.nil_append, List.cons_prefix_cons, Char.reduceEq, false_and] at h
    rw [decide_eq_true hcast, decide_eq_false hthis, hnot]

/-- An element of primitive type. -/
theorem elementAt_write (method arr index : Identifier) (elem : FieldType String) (rest : List (List Char)) :
    elementAt elem (writeLine method.chars (ElementExpr.plain.text arr index)) rest =
      some (writerToFieldType ("write".toList ++ method.chars)) := by
  have hline : writeLine method.chars (ElementExpr.plain.text arr index) =
      joinWith '.' ["output".toList, "write".toList ++ method.chars ++ "(this".toList,
        arr.chars ++ '[' :: (index.chars ++ "]);".toList)] := by
    unfold writeLine ElementExpr.text thisField
    simp only [String.reduceToList]
    simp [joinWith]
  have hdots : ∀ y ∈ [arr.chars ++ '[' :: (index.chars ++ "]);".toList)], '.' ∉ y := by
    intro y hy
    rw [List.mem_singleton.1 hy]
    simp only [List.mem_append, List.mem_cons, not_or]
    exact ⟨arr.dot_not_mem, by decide, index.dot_not_mem, by decide⟩
  have hwrite : ¬"getTypeId()".toList <+: "write".toList ++ method.chars ++ "(this".toList := by
    simp only [String.reduceToList]
    simp only [List.cons_append, List.cons_prefix_cons, Char.reduceEq, false_and, not_false_eq_true]
  have hname : ¬"getTypeId()".toList <+: arr.chars ++ '[' :: (index.chars ++ "]);".toList) := by
    intro h
    rw [prefix_append_cons (by decide)] at h
    exact arr.paren_not_mem (h.subset (by decide))
  have htype :
    contains ".getTypeId()".toList (writeLine method.chars (ElementExpr.plain.text arr index)) = false := by
    rw [hline]
    refine (contains_joinWith (a := []) (b := "getTypeId()".toList) (by simp) (by decide)
      (dots_writeLine method.dot_not_mem hdots)).trans ?_
    simp only [adjacent, hwrite, hname, decide_false, Bool.and_false, Bool.or_false]
  have hout := writeLine_leads method.chars (ElementExpr.plain.text arr index)
  have hbracket : '[' ∈ writeLine method.chars (ElementExpr.plain.text arr index) := by
    rw [writeLine_eq]
    exact List.mem_append_right _ (List.mem_cons_of_mem _ (List.mem_append_left _ (bracket_element _ _ _)))
  have hcast : ¬"(this.".toList <+: writeLine method.chars (ElementExpr.plain.text arr index) := by
    unfold writeLine
    simp only [String.reduceToList]
    simp only [List.cons_append, List.cons_prefix_cons, Char.reduceEq, false_and, not_false_eq_true]
  have hthis : ¬"this.".toList <+: writeLine method.chars (ElementExpr.plain.text arr index) := by
    unfold writeLine
    simp only [String.reduceToList]
    simp only [List.cons_append, List.cons_prefix_cons, Char.reduceEq, false_and, not_false_eq_true]
  have hcalled (e : FieldType String) : calledElement false
    (writeLine method.chars (ElementExpr.plain.text arr index)) e =
      e := if_neg fun h => Bool.false_ne_true h.1
  have hpoly (e : FieldType String) : polymorphicElement (writeLine method.chars (ElementExpr.plain.text arr index))
      rest e = e := if_neg fun h => Bool.false_ne_true (htype.symm.trans h.2)
  have hcut : cut ['('] (writeLine method.chars (ElementExpr.plain.text arr index)) = some ("output.write".toList ++
      method.chars, ElementExpr.plain.text arr index ++ ')' :: [';']) := by
    rw [writeLine_eq]
    exact cut_char (paren_output method.paren_not_mem) _
  rw [elementAt, decide_eq_false hcast, decide_eq_false fun h => hthis h.1, writtenElement, if_pos ⟨hout, hbracket⟩,
    hcut]
  simp only [Option.map_some, hcalled, hpoly]
  rfl

/-- An element with a call of `serializeAs_T`. -/
theorem elementAt_serializeAs (expr : ElementExpr) (arr index type : Identifier) (elem : FieldType String) : ∃ name,
    (∀ rest, elementAt elem (serializeAsLine (expr.text arr index) type) rest = some (.type name)) ∧ name ≠ none ∧
      (name = some type.name ↔ ¬"serializeAs_".toList <+: arr.chars) := by
  have hline : serializeAsLine (expr.text arr index) type =
      expr.text arr index ++ '.' :: ("serializeAs_".toList ++ type.chars ++ "(output);".toList) := by
    unfold serializeAsLine
    simp only [String.reduceToList]
    simp
  have hdot : '.' ∉ "serializeAs_".toList ++ type.chars := by
    rw [List.mem_append, not_or]
    exact ⟨by decide, type.dot_not_mem⟩
  have hparen : '(' ∉ "serializeAs_".toList ++ type.chars := by
    rw [List.mem_append, not_or]
    exact ⟨by decide, type.paren_not_mem⟩
  obtain ⟨bad, hbad, htype⟩ := extractSerializeAsType_element expr arr index _ hdot hparen
  rw [if_pos (show "serializeAs_".toList <+: "serializeAs_".toList ++ type.chars from List.prefix_append ..),
    ← hline] at htype
  have helem (rest : List (List Char)) : elementAt elem (serializeAsLine (expr.text arr index) type) rest =
      some (calledElement true (serializeAsLine (expr.text arr index) type) elem) := by
    rw [hline]
    exact elementAt_call expr arr index _ elem rest
  rw [calledElement, if_pos ⟨rfl, contains_serializeAsLine _ _⟩, htype] at helem
  by_cases h : "serializeAs_".toList <+: arr.chars
  · rw [if_pos h] at helem
    exact ⟨_, helem, typeName_ne_none (List.ne_nil_of_mem hbad), fun e => absurd e (typeName_ne hbad type),
      fun h' => absurd h h'⟩
  · rw [if_neg h] at helem
    refine ⟨_, helem, ?_, fun _ => h, fun _ => typeName_identifier type⟩
    show typeName type.chars ≠ none
    rw [typeName_identifier]
    simp

/-- Elements of a polymorphic type: no line gives the scan the declared type. -/
theorem scanLoop_polymorphics (expr : ElementExpr) (arr index : Identifier) : ∃ elem,
    (∀ rest, scanLoop 1 .byte (typeIdLine (expr.text arr index) :: serializeLine (expr.text arr index) :: ['}'] ::
      rest) =
      some (elem, 3)) ∧ elem ≠ .type none ∧ ∀ type : Identifier, elem ≠ .typeManager (some type.name) := by
  have hline : serializeLine (expr.text arr index) =
      expr.text arr index ++ '.' :: ("serialize".toList ++ "(output);".toList) := by
    unfold serializeLine
    simp only [String.reduceToList]
    simp
  obtain ⟨bad, hbad, htype⟩ := extractSerializeAsType_element expr arr index "serialize".toList
    (by decide) (by decide)
  rw [← hline, if_neg (show ¬"serializeAs_".toList <+: "serialize".toList by decide)] at htype
  have hout : "output.write".toList <+: typeIdLine (expr.text arr index) := writeLine_leads _ _
  have hbracket : '[' ∈ typeIdLine (expr.text arr index) := by
    rw [typeIdLine, writeLine_eq]
    exact List.mem_append_right _ (List.mem_cons_of_mem _ (List.mem_append_left _ (List.mem_append_left _
      (bracket_element _ _ _))))
  have hcut : cut ['('] (typeIdLine (expr.text arr index)) = some ("output.write".toList ++ "Short".toList,
      expr.text arr index ++ ".getTypeId()".toList ++ ')' :: [';']) := by
    rw [typeIdLine, writeLine_eq]
    exact cut_char (by decide) _
  have hfirst (rest : List (List Char)) :
      elementAt .byte (typeIdLine (expr.text arr index)) (serializeLine (expr.text arr index) :: rest) =
        some (.typeManager ((extractSerializeAsType (serializeLine (expr.text arr index))).bind typeName)) := by
    rw [elementAt, writtenElement, if_pos ⟨hout, hbracket⟩, hcut, Option.map_some, polymorphicElement,
      if_pos ⟨hout, contains_typeIdLine _⟩]
  have hsecond (elem : FieldType String) (rest : List (List Char)) :
      elementAt elem (serializeLine (expr.text arr index)) rest =
        some (calledElement true (serializeLine (expr.text arr index)) elem) := by
    rw [hline]
    exact elementAt_call expr arr index _ elem rest
  have hlen : 2 ≤ (typeIdLine (expr.text arr index)).length := Nat.le_trans (by decide) hout.length_le
  have hlen' : 2 ≤ (serializeLine (expr.text arr index)).length := by
    rw [hline, List.length_append, List.length_cons, List.length_append]
    exact Nat.le_trans (by decide) (Nat.le_trans (Nat.le_add_left 10 _) (Nat.le_of_eq rfl))
  refine ⟨calledElement true (serializeLine (expr.text arr index))
    (.typeManager ((extractSerializeAsType (serializeLine (expr.text arr index))).bind typeName)), fun rest => ?_, ?_⟩
  · rw [scanLoop_cons hlen, hfirst, Option.bind_some, scanLoop_cons hlen', hsecond]
    rfl
  rw [calledElement, htype]
  by_cases h : "serializeAs_".toList <+: arr.chars
  · -- The name of the vector is read as the type, on both lines.
    rw [if_pos h]
    split
    · refine ⟨fun e => ?_, fun type => by simp⟩
      exact typeName_ne_none (List.ne_nil_of_mem hbad) (FieldType.type.inj e)
    · refine ⟨by simp, fun type e => ?_⟩
      exact typeName_ne hbad type (FieldType.typeManager.inj e)
  · rw [if_neg h]
    split <;> exact ⟨by simp, fun type => by simp⟩

/-! ### Statements -/

/-- The parser recovers what the statement serializes: no name in it is taken for a part of a call, and it is no loop
over polymorphic elements. -/
def Recovered : Statement → Prop
  | types _ arr _ _ _ => ¬"serializeAs_".toList <+: arr.chars
  | nested field _ => ¬"super".toList <:+ field.chars ∧ ¬"serializeAs_".toList <+: field.chars
  | polymorphic field _ => ¬"serializeAs_".toList <+: field.chars
  | polymorphics _ _ _ _ _ => False
  | _ => True

instance (s : Statement) : Decidable s.Recovered := by
  cases s <;> unfold Recovered <;> infer_instance

/-- The box of a statement. -/
def wrappers (boxCount : Nat) : Statement → List BooleanWrapper
  | booleans _ first others => [⟨boxCount, (first :: others).map flagBit⟩]
  | _ => []

/-- The parser reads `fields` off the lines of the statement. -/
def Extracts (s : Statement) (fields : List (ProtocolField String)) : Prop := ∀ boxCount rest,
  extractFrom boxCount 0 (s.lines ++ rest) = (extractFrom (boxCount + (s.wrappers boxCount).length) 0 rest).map
    fun x =>
    (fields ++ x.1, s.wrappers boxCount ++ x.2)

/-- The parser panics on the lines of the statement. -/
def Crashes (s : Statement) : Prop := ∀ boxCount rest, extractFrom boxCount 0 (s.lines ++ rest) = none

private theorem extractFrom_skip (boxCount : Nat) (ls rest : List (List Char)) :
    extractFrom boxCount ls.length (ls ++ rest) = extractFrom boxCount 0 rest := by
  induction ls with
  | nil => rfl
  | cons l ls ih => exact ih

/-- A line that serializes a field, with the lines it takes. -/
private theorem extractFrom_field {line : List Char} (h : Serializes line) (lines : List (List Char))
    {rest : List (List Char)} {field : ProtocolField String}
    (hfield : fieldAt line (lines ++ rest) = some (some (field, lines.length + 1))) (boxCount : Nat) :
    extractFrom boxCount 0 (line :: lines ++ rest) =
      (extractFrom boxCount 0 rest).map fun x => (field :: x.1, x.2) := by
  rw [List.cons_append, extractFrom, if_neg (by rw [h.not_skipped]; decide), if_neg (by rw [h.not_setFlag]; decide),
    if_neg (by rw [h.not_superCall]; decide), hfield]
  simp only [Option.bind_eq_bind, Option.bind_some, Nat.add_sub_cancel, extractFrom_skip, Option.pure_def]
  cases extractFrom boxCount 0 rest <;> rfl

private theorem extracts_primitive (method field : Identifier) (type : VarType) :
    Extracts (primitive method field type) (primitive method field type).declared := fun boxCount rest =>
  extractFrom_field (serializes_writeLine method field) [] (fieldAt_primitive method field rest) boxCount

private theorem extracts_booleans (box : Identifier) (first : Fin 8 × Identifier)
    (others : List (Fin 8 × Identifier)) :
    Extracts (booleans box first others) (booleans box first others).declared := by
  intro boxCount rest
  have hvar : isSkipped (varLine box) = true := by
    have h : "var ".toList <+: varLine box := by
      unfold varLine
      simp only [String.reduceToList]
      simp only [List.cons_append, List.cons_prefix_cons, true_and, List.nil_prefix]
    unfold isSkipped
    simp only [decide_eq_true h, Bool.or_true, Bool.true_or]
  have hfirst : isSkipped (setFlagLine box first) = false := by
    unfold setFlagLine
    simp only [String.reduceToList, List.append_assoc, List.cons_append]
    exact isSkipped_of_head _ (by decide)
  have hblock : parseBooleanBlock (setFlagLine box first :: (others.map (setFlagLine box) ++ boxLine box :: rest)) =
      ((first :: others).map flagBit, others.length + 2) := parseBooleanBlock_lines box (first :: others) rest
  have hskip := extractFrom_skip (boxCount + 1) (others.map (setFlagLine box) ++ [boxLine box]) rest
  rw [List.append_assoc, List.length_append, List.length_map, List.length_singleton] at hskip
  have hlines : (booleans box first others).lines ++ rest = varLine box :: setFlagLine box first ::
      (others.map (setFlagLine box) ++ boxLine box :: rest) := by simp [lines]
  rw [hlines, extractFrom, if_pos hvar, extractFrom, if_neg (by rw [hfirst]; decide),
    if_pos (isSetFlag_setFlagLine box first), hblock]
  simp only [Option.bind_eq_bind, Option.pure_def]
  rw [show others.length + 2 - 1 = others.length + 1 by omega]
  refine (congrArg (fun x => Option.bind x _) hskip).trans ?_
  have hflags : ((first :: others).map flagBit).map (fun x => flagField x.2) =
    (booleans box first others).declared := by
    rw [List.map_map]
    rfl
  rw [hflags]
  show _ = Option.map _ (extractFrom (boxCount + 1) 0 rest)
  cases extractFrom (boxCount + 1) 0 rest <;> rfl

private theorem extracts_vector (lengthMethod arr index : Identifier) {body rest : List (List Char)}
    {elem : FieldType String} (h : scanLoop 1 .byte (body ++ ['}'] :: rest) = some (elem, body.length + 1))
    (boxCount : Nat) : extractFrom boxCount 0 (vectorLines lengthMethod arr index body ++ rest) =
      (extractFrom boxCount 0 rest).map fun x => (vectorField lengthMethod arr elem :: x.1, x.2) := by
  refine extractFrom_field (serializes_lengthLine lengthMethod arr)
    (forLine arr index :: ['{'] :: body ++ [['}']]) ?_ boxCount
  have hloop : parseForLoop (forLine arr index :: ['{'] :: body ++ [['}']] ++ rest) =
    some (elem, body.length + 3) := by
    have := parseForLoop_lines arr index body rest
    rw [h] at this
    simpa using this
  rw [fieldAt, vectorAt_lengthLine, hloop]
  simp [orTry, Nat.add_comm, Nat.add_left_comm]

private theorem extracts_nested (field type : Identifier) :
    ("super".toList <:+ field.chars ∧ Extracts (nested field type) []) ∨
      ("serializeAs_".toList <+: field.chars ∧ Crashes (nested field type)) ∨
      (nested field type).Recovered ∧ Extracts (nested field type) (nested field type).declared := by
  have hlines (rest : List (List Char)) :
      (nested field type).lines ++ rest = serializeAsLine (thisField field) type :: rest := rfl
  by_cases hsuper : "super".toList <:+ field.chars
  · refine Or.inl ⟨hsuper, fun boxCount rest => ?_⟩
    rw [hlines, extractFrom, if_neg (by rw [isSkipped_serializeAsLine]; decide),
      if_neg (by rw [isSetFlag_serializeAsLine]; decide),
      if_pos (by rw [isSuperCall_serializeAsLine]; exact decide_eq_true hsuper)]
    show _ = (extractFrom boxCount 0 rest).map id
    rw [Option.map_id_fun, id]
  · have hs : Serializes (serializeAsLine (thisField field) type) := ⟨isSkipped_serializeAsLine _ _,
      isSetFlag_serializeAsLine _ _, by rw [isSuperCall_serializeAsLine]; exact decide_eq_false hsuper⟩
    by_cases hname : "serializeAs_".toList <+: field.chars
    · refine Or.inr (Or.inl ⟨hname, fun boxCount rest => ?_⟩)
      rw [hlines, extractFrom, if_neg (by rw [hs.not_skipped]; decide), if_neg (by rw [hs.not_setFlag]; decide),
        if_neg (by rw [hs.not_superCall]; decide), fieldAt_nested, if_pos hname]
      rfl
    · refine Or.inr (Or.inr ⟨⟨hsuper, hname⟩, fun boxCount rest => ?_⟩)
      refine extractFrom_field hs [] ?_ boxCount
      rw [fieldAt_nested, if_neg hname]
      rfl

private theorem extracts_polymorphic (field type : Identifier) : ∃ name,
    Extracts (polymorphic field type) [⟨field.name, .typeManager name, "TypeManager"⟩] ∧
      if "serializeAs_".toList <+: field.chars then name ≠ none ∧ ∀ t : Identifier, name ≠ some t.name
      else name = none := by
  obtain ⟨name, hfield, hname⟩ := fieldAt_polymorphic field
  exact ⟨name, fun boxCount rest => extractFrom_field (serializes_typeIdLine field) [serializeLine (thisField field)]
    (hfield rest) boxCount, hname⟩

private theorem extracts_superCall (parent : Identifier) : Extracts (superCall parent) [] := by
  intro boxCount rest
  have hskip : isSkipped (serializeAsLine "super".toList parent) = false := by
    unfold serializeAsLine
    simp only [String.reduceToList, List.append_assoc, List.cons_append]
    exact isSkipped_of_head _ (by decide)
  have hlines : (superCall parent).lines ++ rest = serializeAsLine "super".toList parent :: rest := rfl
  rw [hlines, extractFrom, if_neg (by rw [hskip]; decide), if_neg (by rw [isSetFlag_superCall]; decide),
    if_pos (isSuperCall_superCall parent)]
  show _ = (extractFrom boxCount 0 rest).map id
  rw [Option.map_id_fun, id]

/-! ### Declared types -/

/-- The declarations give the variables of the statement their types. -/
def Declares (types : List (String × List Char)) (s : Statement) : Prop :=
  ∀ v ∈ s.uses, types.lookup v.1.name = some v.2.text

private theorem writerToFieldType_resolved (method : List Char) :
    writerToFieldType method ≠ .type none ∧ ∀ (types : List (String × List Char)) (name write : String),
      resolveFieldType types ⟨name, writerToFieldType method, write⟩ = ⟨name, writerToFieldType method, write⟩ := by
  unfold writerToFieldType
  split <;> exact ⟨by simp, fun _ _ _ => rfl⟩

private theorem resolve_vectorField (types : List (String × List Char)) (lengthMethod arr : Identifier)
    {elem : FieldType String} (h : elem ≠ .type none) :
    resolveFieldType types (vectorField lengthMethod arr elem) = vectorField lengthMethod arr elem := by
  unfold resolveFieldType vectorField
  split <;> simp_all

/-- What the parser makes of a statement: it panics, or it reads at most as many fields as there are, and with the
declared types these are the fields of the statement exactly when it is recovered. -/
theorem extracts_or_crashes (s : Statement) : (¬s.Recovered ∧ s.Crashes) ∨ ∃ fields, s.Extracts fields ∧
    fields.length ≤ s.declared.length ∧ ∀ types, s.Declares types →
      (fields.map (resolveFieldType types) = s.declared ↔ s.Recovered) := by
  cases s with
  | primitive method field type =>
    refine Or.inr ⟨_, extracts_primitive method field type, Nat.le_refl _, fun types _ => iff_of_true ?_ trivial⟩
    exact congrArg (fun f => [f]) ((writerToFieldType_resolved _).2 _ _ _)
  | booleans box first others =>
    refine Or.inr ⟨_, extracts_booleans box first others, Nat.le_refl _, fun types _ => iff_of_true ?_ trivial⟩
    unfold declared
    rw [List.map_map]
    rfl
  | primitives lengthMethod arr index method type =>
    -- the scan of the loop ends at the line that writes an element
    have hloop (rest : List (List Char)) : scanLoop 1 .byte
        ([writeLine method.chars (ElementExpr.plain.text arr index)] ++ ['}'] :: rest) =
          some (writerToFieldType ("write".toList ++ method.chars), 2) := by
      have hlen : 2 ≤ (writeLine method.chars (ElementExpr.plain.text arr index)).length :=
        Nat.le_trans (by decide) (writeLine_leads _ _).length_le
      rw [List.singleton_append, scanLoop_cons hlen, elementAt_write]
      rfl
    refine Or.inr ⟨[vectorField lengthMethod arr (writerToFieldType ("write".toList ++ method.chars))],
      fun boxCount rest => extracts_vector lengthMethod arr index (hloop rest) boxCount, Nat.le_refl _,
      fun types _ => iff_of_true ?_ trivial⟩
    exact congrArg (fun f => [f]) (resolve_vectorField types lengthMethod arr (writerToFieldType_resolved _).1)
  | types lengthMethod arr index expr type =>
    obtain ⟨name, helem, hne, hname⟩ := elementAt_serializeAs expr arr index type .byte
    have hlen : 2 ≤ (serializeAsLine (expr.text arr index) type).length := by
      unfold serializeAsLine
      rw [List.length_append]
      exact Nat.le_trans (show 2 ≤ "(output);".toList.length by decide) (Nat.le_add_left ..)
    have hloop (rest : List (List Char)) : scanLoop 1 .byte
        ([serializeAsLine (expr.text arr index) type] ++ ['}'] :: rest) = some (.type name, 2) := by
      rw [List.singleton_append, scanLoop_cons hlen, helem]
      rfl
    refine Or.inr ⟨[vectorField lengthMethod arr (.type name)],
      fun boxCount rest => extracts_vector lengthMethod arr index (hloop rest) boxCount, Nat.le_refl _,
      fun types _ => ?_⟩
    -- the statement is recovered if the name that was found is the name of the type
    rw [List.map_singleton, resolve_vectorField types lengthMethod arr (by simpa using hne)]
    simpa [declared, vectorField, Recovered] using hname
  | nested field type =>
    -- a field named `super` passes for a call of the parent, and some names break the parser
    rcases extracts_nested field type with ⟨hsuper, h⟩ | ⟨hname, h⟩ | ⟨hrec, h⟩
    · exact Or.inr ⟨[], h, Nat.zero_le _, fun types _ => iff_of_false (by simp [declared]) fun hrec => hrec.1 hsuper⟩
    · exact Or.inl ⟨fun hrec => hrec.2 hname, h⟩
    · exact Or.inr ⟨_, h, Nat.le_refl _, fun types _ => iff_of_true rfl hrec⟩
  | polymorphic field type =>
    obtain ⟨name, h, hname⟩ := extracts_polymorphic field type
    refine Or.inr ⟨_, h, Nat.le_refl _, fun types htypes => ?_⟩
    have htype : types.lookup field.name = some type.chars := htypes (field, .simple type) (List.mem_singleton.2 rfl)
    -- a field with such a name is taken for a call, and then no type is right
    by_cases hp : "serializeAs_".toList <+: field.chars
    · rw [if_pos hp] at hname
      obtain ⟨hne, hbad⟩ := hname
      obtain ⟨t, rfl⟩ := Option.ne_none_iff_exists'.1 hne
      refine iff_of_false (fun e => ?_) fun hrec => hrec hp
      have : FieldType.typeManager (some t) = .typeManager (some type.name) :=
        congrArg ProtocolField.fieldType (List.cons.inj e).1
      exact hbad type (FieldType.typeManager.inj this)
    · rw [if_neg hp] at hname
      subst hname
      refine iff_of_true ?_ hp
      simp [declared, resolveFieldType, htype]
  | polymorphics lengthMethod arr index expr type =>
    -- whatever element the scan finds, it is not the polymorphic one
    obtain ⟨elem, hloop, hne, hbad⟩ := scanLoop_polymorphics expr arr index
    refine Or.inr ⟨[vectorField lengthMethod arr elem],
      fun boxCount rest => extracts_vector lengthMethod arr index (hloop rest) boxCount, Nat.le_refl _,
      fun types _ => iff_of_false (fun e => ?_) id⟩
    rw [List.map_singleton, resolve_vectorField types lengthMethod arr hne] at e
    have : FieldType.vector elem (String.ofList ("write".toList ++ lengthMethod.chars)) =
        .vector (.typeManager (some type.name)) (String.ofList ("write".toList ++ lengthMethod.chars)) :=
      congrArg ProtocolField.fieldType (List.cons.inj e).1
    exact hbad type (FieldType.vector.inj this).1
  | superCall parent =>
    exact Or.inr ⟨[], extracts_superCall parent, Nat.le_refl _, fun types _ => iff_of_true rfl trivial⟩

/-! ### Methods -/

/-- The fields of the lines of a list of statements and a rest without fields. -/
theorem extractFrom_statements {tail : List (List Char)}
    (htail : ∀ boxCount, extractFrom boxCount 0 tail = some ([], []))
    (statements : List Statement) : ∀ boxCount,
    (extractFrom boxCount 0 (statements.flatMap Statement.lines ++ tail) = none ∧ ∃ s ∈ statements, ¬s.Recovered) ∨
    ∃ fields wrappers, extractFrom boxCount 0 (statements.flatMap Statement.lines ++ tail) = some (fields, wrappers) ∧
      fields.length ≤ (statements.flatMap Statement.declared).length ∧
      ∀ types, (∀ s ∈ statements, s.Declares types) →
        (fields.map (resolveFieldType types) = statements.flatMap Statement.declared ↔ ∀ s ∈ statements,
          s.Recovered) := by
  induction statements with
  | nil =>
    intro boxCount
    exact Or.inr ⟨[], [], htail boxCount, Nat.le_refl _, fun types _ => iff_of_true rfl (by simp)⟩
  | cons s statements ih =>
    intro boxCount
    rw [List.flatMap_cons, List.flatMap_cons, List.append_assoc]
    rcases s.extracts_or_crashes with ⟨hrec, hs⟩ | ⟨fields, hs, hlen, htypes⟩
    · exact Or.inl ⟨hs boxCount _, s, List.mem_cons_self .., hrec⟩
    rcases ih (boxCount + (s.wrappers boxCount).length) with ⟨h, t, ht, hrec⟩ | ⟨fields', wrappers, h, hlen', htypes'⟩
    · exact Or.inl ⟨by rw [hs, h]; rfl, t, List.mem_cons_of_mem _ ht, hrec⟩
    refine Or.inr ⟨fields ++ fields', s.wrappers boxCount ++ wrappers, by rw [hs, h]; rfl, ?_, fun types hdecl => ?_⟩
    · rw [List.length_append, List.length_append]
      omega
    · have hs' := htypes types (hdecl s (List.mem_cons_self ..))
      have hrest := htypes' types fun t ht => hdecl t (List.mem_cons_of_mem _ ht)
      rw [List.map_append, List.forall_mem_cons, ← hs', ← hrest]
      constructor
      · intro e
        -- A shorter part cannot be made up for by the other.
        have hsum := congrArg List.length e
        simp only [List.length_append, List.length_map] at hsum
        exact List.append_inj e (by rw [List.length_map]; omega)
      · rintro ⟨e, e'⟩
        rw [e, e']

end Statement

end Otomai.ProtocolGen
