import Mathlib.Data.List.Nodup
import Otomai.ProtocolGen.As3Extraction
import Otomai.ProtocolGen.Codegen

/-!
# Fields recovered from a class file

`extract_fields` finds the body of the method in the text of the class (`extractMethodBody_text`), reads its
statements, and looks the missing types up in the declarations (`varTypes_text`).  It recovers the fields the source
serializes exactly when every statement is `Recovered` (`extractFields_iff`).
-/

namespace Otomai.ProtocolGen

open Text

/-! ### Braces -/

/-- The braces of the text are closed in it. -/
def Balanced (x : List Char) : Prop :=
  ∀ depth t, matchBraces (depth + 1) (x ++ t) = (matchBraces (depth + 1) t).map (x ++ ·)

private theorem Balanced.nil : Balanced [] := fun _ _ => by
  show _ = Option.map id _
  rw [Option.map_id_fun, id]
  rfl

private theorem Balanced.append {x y : List Char} (hx : Balanced x) (hy : Balanced y) : Balanced (x ++ y) := by
  intro depth t
  rw [List.append_assoc, hx, hy, Option.map_map]
  refine congrArg (fun f => Option.map f _) (funext fun z => ?_)
  exact (List.append_assoc x y z).symm

private theorem Balanced.char {c : Char} (hopen : c ≠ '{') (hclose : c ≠ '}') : Balanced [c] := by
  intro depth t
  rw [List.singleton_append, matchBraces]
  simp only [hopen, hclose, if_false, Nat.succ_ne_zero]
  rfl

private theorem Balanced.plain {x : List Char} (hopen : '{' ∉ x) (hclose : '}' ∉ x) : Balanced x := by
  induction x with
  | nil => exact Balanced.nil
  | cons c x ih =>
    rw [List.mem_cons, not_or] at hopen hclose
    exact (Balanced.char (Ne.symm hopen.1) (Ne.symm hclose.1)).append (ih hopen.2 hclose.2)

private theorem Balanced.braces {x : List Char} (hx : Balanced x) : Balanced ('{' :: (x ++ ['}'])) := by
  intro depth t
  have hclose : matchBraces (depth + 2) ('}' :: t) = (matchBraces (depth + 1) t).map ('}' :: ·) := rfl
  have hopen : matchBraces (depth + 1) ('{' :: (x ++ '}' :: t)) =
      (matchBraces (depth + 2) (x ++ '}' :: t)).map ('{' :: ·) := rfl
  rw [List.cons_append, List.append_assoc, List.singleton_append, hopen, hx (depth + 1), hclose, Option.map_map,
    Option.map_map]
  refine congrArg (fun f => Option.map f _) (funext fun z => ?_)
  simp

private theorem Balanced.flatMap {α : Type} {f : α → List Char} {l : List α} (h : ∀ a ∈ l, Balanced (f a)) :
    Balanced (l.flatMap f) := by
  induction l with
  | nil => exact Balanced.nil
  | cons a l ih =>
    rw [List.flatMap_cons]
    exact (h a (List.mem_cons_self ..)).append (ih fun b hb => h b (List.mem_cons_of_mem _ hb))

theorem matchBraces_balanced {x : List Char} (hx : Balanced x) (t : List Char) :
    matchBraces 1 (x ++ '}' :: t) = some x := by
  rw [hx 0]
  show some (x ++ []) = some x
  rw [List.append_nil]

/-! ### Lines of the method -/

/-- Text without line ends and braces. -/
def Inert (x : List Char) : Prop := ∀ c ∈ x, c ≠ '\n' ∧ c ≠ '{' ∧ c ≠ '}'

instance (x : List Char) : Decidable (Inert x) := inferInstanceAs (Decidable (∀ c ∈ x, _))

private theorem Inert.append {x y : List Char} (hx : Inert x) (hy : Inert y) : Inert (x ++ y) := fun c hc =>
  (List.mem_append.1 hc).elim (hx c) (hy c)

private theorem Identifier.inert (x : Identifier) : Inert x.chars := by
  intro c hc
  have h := x.valid c hc
  refine ⟨?_, ?_, ?_⟩ <;> rintro rfl <;> exact absurd h (by decide)

private theorem Inert.balanced {x : List Char} (h : Inert x) : Balanced x :=
  Balanced.plain (fun hc => (h _ hc).2.1 rfl) fun hc => (h _ hc).2.2 rfl

/-- A line as the parser sees it: one line, without white space at its ends, and no declaration. -/
structure Plain (l : List Char) : Prop where
  newline : '\n' ∉ l
  head : ∀ c, l.head? = some c → isWhitespace c = false ∧ c ≠ 'p'
  last : ∀ c, l.getLast? = some c → isWhitespace c = false

private theorem Plain.of_inert {l : List Char} {c d : Char} (h : Inert l) (hc : [c] <+: l) (hd : [d] <:+ l)
    (hhead : isWhitespace c = false ∧ c ≠ 'p') (hlast : isWhitespace d = false) : Plain l where
  newline hn := (h _ hn).1 rfl
  head := by
    obtain ⟨t, rfl⟩ := hc
    intro e he
    obtain rfl : c = e := Option.some.inj he
    exact hhead
  last := by
    obtain ⟨t, rfl⟩ := hd
    intro e he
    rw [List.getLast?_concat] at he
    obtain rfl := Option.some.inj he
    exact hlast

namespace Statement

theorem thisField_inert (field : Identifier) : Inert (thisField field) :=
  Inert.append (by decide) field.inert

theorem element_inert (expr : ElementExpr) (arr index : Identifier) : Inert (expr.text arr index) := by
  cases expr with
  | plain => exact (((thisField_inert arr).append (by decide)).append index.inert).append (by decide)
  | cast type =>
    have hfront : Inert (['('] ++ thisField arr ++ ['['] ++ index.chars ++ "] as ".toList) :=
      (((Inert.append (by decide) (thisField_inert arr)).append (by decide)).append index.inert).append (by decide)
    exact (hfront.append type.inert).append (by decide)

theorem writeLine_inert {method expr : List Char} (hm : Inert method) (he : Inert expr) :
    Inert (writeLine method expr) :=
  (((Inert.append (by decide) hm).append (by decide)).append he).append (by decide)

theorem serializeAsLine_inert {expr : List Char} (h : Inert expr) (type : Identifier) :
    Inert (serializeAsLine expr type) :=
  ((h.append (by decide)).append type.inert).append (by decide)

theorem serializeLine_inert {expr : List Char} (h : Inert expr) : Inert (serializeLine expr) := h.append (by decide)

theorem typeIdLine_inert {expr : List Char} (h : Inert expr) : Inert (typeIdLine expr) :=
  writeLine_inert (by decide) (h.append (by decide))

theorem lengthLine_inert (lengthMethod arr : Identifier) : Inert (lengthLine lengthMethod arr) :=
  writeLine_inert lengthMethod.inert ((thisField_inert arr).append (by decide))

theorem forLine_inert (arr index : Identifier) : Inert (forLine arr index) := by
  have hfront : Inert ("for(var ".toList ++ index.chars ++ ":uint = 0; ".toList ++ index.chars ++ " < ".toList) :=
    (((Inert.append (by decide) index.inert).append (by decide)).append index.inert).append (by decide)
  exact (((hfront.append (thisField_inert arr)).append (by decide)).append index.inert).append (by decide)

theorem setFlagLine_inert (box : Identifier) (flag : Fin 8 × Identifier) : Inert (setFlagLine box flag) := by
  have hdigit : Inert [Char.ofNat ('0'.toNat + flag.1.val)] := by
    have h : ∀ bit : Fin 8, Inert [Char.ofNat ('0'.toNat + bit.val)] := by decide
    exact h flag.1
  have hfront :
    Inert ("_box".toList ++ box.chars ++ " = BooleanByteWrapper.setFlag(_box".toList ++ box.chars ++ [',']) :=
    (((Inert.append (by decide) box.inert).append (by decide)).append box.inert).append (by decide)
  exact (((hfront.append hdigit).append (by decide)).append (thisField_inert flag.2)).append (by decide)

theorem varLine_inert (box : Identifier) : Inert (varLine box) :=
  (Inert.append (by decide) box.inert).append (by decide)

theorem boxLine_inert (box : Identifier) : Inert (boxLine box) :=
  writeLine_inert (by decide) (Inert.append (by decide) box.inert)

theorem writeLine_plain {method expr : List Char} (hm : Inert method) (he : Inert expr) :
    Plain (writeLine method expr) := by
  have hhead : ['o'] <+: "output.write".toList := by decide
  have hlast : [';'] <:+ ");".toList := by decide
  exact Plain.of_inert (writeLine_inert hm he) (hhead.trans (writeLine_leads method expr))
    (hlast.trans (List.suffix_append ..)) (by decide) (by decide)

theorem element_head (expr : ElementExpr) (arr index : Identifier) (l : List Char) :
    ∃ c, [c] <+: expr.text arr index ++ l ∧ isWhitespace c = false ∧ c ≠ 'p' := by
  cases expr with
  | plain =>
    have hhead : ['t'] <+: "this.".toList := by decide
    refine ⟨'t', hhead.trans ?_, by decide⟩
    unfold ElementExpr.text thisField
    simp only [List.append_assoc]
    exact List.prefix_append ..
  | cast type =>
    refine ⟨'(', ?_, by decide⟩
    unfold ElementExpr.text
    simp only [List.append_assoc]
    exact List.prefix_append ..

theorem serializeAsLine_plain {expr : List Char} (h : Inert expr) {c : Char} (hc : [c] <+: expr ++ [])
    (hhead : isWhitespace c = false ∧ c ≠ 'p') (type : Identifier) : Plain (serializeAsLine expr type) := by
  have hlast : [';'] <:+ "(output);".toList := by decide
  rw [List.append_nil] at hc
  refine Plain.of_inert (serializeAsLine_inert h type) (hc.trans ?_) (hlast.trans (List.suffix_append ..)) hhead
    (by decide)
  unfold serializeAsLine
  simp only [List.append_assoc]
  exact List.prefix_append ..

theorem serializeLine_plain {expr : List Char} (h : Inert expr) {c : Char} (hc : [c] <+: expr ++ [])
    (hhead : isWhitespace c = false ∧ c ≠ 'p') : Plain (serializeLine expr) := by
  have hlast : [';'] <:+ ".serialize(output);".toList := by decide
  rw [List.append_nil] at hc
  exact Plain.of_inert (serializeLine_inert h) (hc.trans (List.prefix_append ..))
    (hlast.trans (List.suffix_append ..))
    hhead (by decide)

theorem thisField_head (field : Identifier) : ['t'] <+: thisField field ++ [] := by
  have hhead : ['t'] <+: "this.".toList := by decide
  rw [List.append_nil]
  exact hhead.trans (List.prefix_append ..)

/-- The body of a loop, closed by the braces around it. -/
private theorem vectorLines_plain (lengthMethod arr index : Identifier) {body : List (List Char)}
    (h : ∀ l ∈ body, Inert l ∧ Plain l) {indent : List Char} (hindent : Inert indent) :
    (∀ l ∈ vectorLines lengthMethod arr index body, Plain l) ∧
      Balanced (joinLines ((vectorLines lengthMethod arr index body).map (indent ++ ·))) := by
  constructor
  · intro l hl
    have hfor : Plain (forLine arr index) := by
      have hhead : ['f'] <+: "for(var ".toList := by decide
      have hlast : [')'] <:+ "++)".toList := by decide
      refine Plain.of_inert (forLine_inert arr index) (hhead.trans ?_)
        (hlast.trans (List.suffix_append ..)) (by decide)
        (by decide)
      unfold forLine
      simp only [List.append_assoc]
      exact List.prefix_append ..
    simp only [vectorLines, List.cons_append, List.mem_cons, List.mem_append, List.not_mem_nil, or_false] at hl
    rcases hl with rfl | rfl | rfl | hl | rfl
    · exact writeLine_plain lengthMethod.inert ((thisField_inert arr).append (by decide))
    · exact hfor
    · exact ⟨by decide, by simp; decide, by simp; decide⟩
    · exact (h l hl).2
    · exact ⟨by decide, by simp; decide, by simp; decide⟩
  · have hbody : Balanced (joinLines (body.map (indent ++ ·))) := by
      refine Balanced.flatMap fun l hl => ?_
      obtain ⟨m, hm, rfl⟩ := List.mem_map.1 hl
      exact ((hindent.append (h m hm).1).balanced).append (Balanced.char (by decide) (by decide))
    have hnewline : Balanced ['\n'] := Balanced.char (by decide) (by decide)
    have hfront :
      Balanced (indent ++ lengthLine lengthMethod arr ++ ['\n'] ++ (indent ++ forLine arr index) ++ ['\n'] ++
        indent) := ((((hindent.append (lengthLine_inert lengthMethod arr)).balanced.append hnewline).append
          (hindent.append (forLine_inert arr index)).balanced).append hnewline).append hindent.balanced
    have hblock := (hnewline.append (hbody.append hindent.balanced)).braces
    have hall := (hfront.append hblock).append hnewline
    have htext : joinLines ((vectorLines lengthMethod arr index body).map (indent ++ ·)) =
        indent ++ lengthLine lengthMethod arr ++ ['\n'] ++ (indent ++ forLine arr index) ++ ['\n'] ++ indent ++
          '{' :: ((['\n'] ++ (joinLines (body.map (indent ++ ·)) ++ indent)) ++ ['}']) ++ ['\n'] := by
      simp [vectorLines, joinLines]
    rw [htext]
    exact hall

private theorem balanced_of_inert {ls : List (List Char)} (h : ∀ l ∈ ls, Inert l) {indent : List Char}
    (hindent : Inert indent) : Balanced (joinLines (ls.map (indent ++ ·))) := by
  refine Balanced.flatMap fun l hl => ?_
  obtain ⟨m, hm, rfl⟩ := List.mem_map.1 hl
  exact ((hindent.append (h m hm)).balanced).append (Balanced.char (by decide) (by decide))

/-- The lines are lines of the parser, and with this indentation their braces are closed. -/
private def PlainLines (indent : List Char) (ls : List (List Char)) : Prop :=
  (∀ l ∈ ls, Plain l) ∧ Balanced (joinLines (ls.map (indent ++ ·)))

private theorem plainLines_of_inert {ls : List (List Char)} (h : ∀ l ∈ ls, Inert l ∧ Plain l) {indent : List Char}
    (hindent : Inert indent) : PlainLines indent ls :=
  ⟨fun l hl => (h l hl).2, balanced_of_inert (fun l hl => (h l hl).1) hindent⟩

private theorem setFlagLine_plain (box : Identifier) (flag : Fin 8 × Identifier) : Plain (setFlagLine box flag) := by
  have hhead : ['_'] <+: "_box".toList := by decide
  have hlast : [';'] <:+ ");".toList := by decide
  refine Plain.of_inert (setFlagLine_inert box flag) (hhead.trans ?_) (hlast.trans (List.suffix_append ..))
    (by decide) (by decide)
  unfold setFlagLine
  simp only [List.append_assoc]
  exact List.prefix_append ..

private theorem varLine_plain (box : Identifier) : Plain (varLine box) := by
  have hhead : ['v'] <+: "var _box".toList := by decide
  have hend : [';'] <:+ ":uint = 0;".toList := by decide
  refine Plain.of_inert (varLine_inert box) (hhead.trans ?_) (hend.trans (List.suffix_append ..)) (by decide)
    (by decide)
  unfold varLine
  simp only [List.append_assoc]
  exact List.prefix_append ..

private theorem booleans_plain (box : Identifier) (first : Fin 8 × Identifier) (others : List (Fin 8 × Identifier))
    {indent : List Char} (hindent : Inert indent) : PlainLines indent (booleans box first others).lines := by
  refine plainLines_of_inert (fun l hl => ?_) hindent
  simp only [lines, List.cons_append, List.mem_cons, List.mem_append, List.mem_map, List.map_cons,
    List.not_mem_nil, or_false] at hl
  rcases hl with rfl | rfl | ⟨flag, -, rfl⟩ | rfl
  · exact ⟨varLine_inert box, varLine_plain box⟩
  · exact ⟨setFlagLine_inert box first, setFlagLine_plain box first⟩
  · exact ⟨setFlagLine_inert box flag, setFlagLine_plain box flag⟩
  · exact ⟨boxLine_inert box, writeLine_plain (by decide) (Inert.append (by decide) box.inert)⟩

private theorem polymorphic_plain (field type : Identifier) {indent : List Char} (hindent : Inert indent) :
    PlainLines indent (polymorphic field type).lines := by
  refine plainLines_of_inert (fun l hl => ?_) hindent
  have hmem : l = typeIdLine (thisField field) ∨ l = serializeLine (thisField field) := by simpa [lines] using hl
  rcases hmem with rfl | rfl
  · exact ⟨typeIdLine_inert (thisField_inert field),
      writeLine_plain (by decide) ((thisField_inert field).append (by decide))⟩
  · exact ⟨serializeLine_inert (thisField_inert field),
      serializeLine_plain (thisField_inert field) (thisField_head field) (by decide)⟩

/-- The lines of a statement are lines of the parser, with their braces closed. -/
theorem lines_plain (s : Statement) {indent : List Char} (hindent : Inert indent) :
    (∀ l ∈ s.lines, Plain l) ∧ Balanced (joinLines (s.lines.map (indent ++ ·))) := by
  have single {l : List Char} (h : Inert l) (hl : Plain l) : PlainLines indent [l] :=
    plainLines_of_inert (fun m hm => List.mem_singleton.1 hm ▸ ⟨h, hl⟩) hindent
  cases s with
  | primitive method field type =>
    exact single (writeLine_inert method.inert (thisField_inert field))
      (writeLine_plain method.inert (thisField_inert field))
  | booleans box first others => exact booleans_plain box first others hindent
  | primitives lengthMethod arr index method type =>
    refine vectorLines_plain lengthMethod arr index (fun l hl => ?_) hindent
    rw [List.mem_singleton.1 hl]
    exact ⟨writeLine_inert method.inert (element_inert _ _ _), writeLine_plain method.inert (element_inert _ _ _)⟩
  | types lengthMethod arr index expr type =>
    obtain ⟨c, hc, hhead⟩ := element_head expr arr index []
    refine vectorLines_plain lengthMethod arr index (fun l hl => ?_) hindent
    rw [List.mem_singleton.1 hl]
    exact ⟨serializeAsLine_inert (element_inert _ _ _) type,
      serializeAsLine_plain (element_inert _ _ _) hc hhead type⟩
  | nested field type =>
    exact single (serializeAsLine_inert (thisField_inert field) type)
      (serializeAsLine_plain (thisField_inert field) (thisField_head field) (by decide) type)
  | polymorphic field type => exact polymorphic_plain field type hindent
  | polymorphics lengthMethod arr index expr type =>
    obtain ⟨c, hc, hhead⟩ := element_head expr arr index []
    refine vectorLines_plain lengthMethod arr index (fun l hl => ?_) hindent
    rcases List.mem_cons.1 hl with rfl | hl
    · exact ⟨typeIdLine_inert (element_inert _ _ _),
        writeLine_plain (by decide) ((element_inert _ _ _).append (by decide))⟩
    · rw [List.mem_singleton.1 hl]
      exact ⟨serializeLine_inert (element_inert _ _ _), serializeLine_plain (element_inert _ _ _) hc hhead⟩
  | superCall parent =>
    have hhead : ['s'] <+: "super".toList ++ [] := by decide
    exact single (serializeAsLine_inert (by decide) parent)
      (serializeAsLine_plain (by decide) hhead (by decide) parent)

end Statement

/-! ### The method in the text of its class -/

namespace As3Class

variable (c : As3Class)

theorem indent_whitespace : ∀ ch ∈ c.indent, isWhitespace ch = true := by
  intro ch hch
  rcases c.indent_blank ch hch with rfl | rfl
  · decide
  · decide

theorem indent_inert : Inert c.indent := by
  intro ch hch
  rcases c.indent_blank ch hch with rfl | rfl
  · decide
  · decide

private theorem indent_not_mem {ch : Char} (h : ch ≠ ' ' ∧ ch ≠ '\t') : ch ∉ c.indent := by
  intro hch
  rcases c.indent_blank ch hch with rfl | rfl
  · exact h.1 rfl
  · exact h.2 rfl

theorem trim_line {l : List Char} (h : Plain l) : trim (stripCr (c.indent ++ l)) = l := by
  rw [trim_stripCr]
  exact trim_append_left c.indent_whitespace (fun ch hch => (h.head ch hch).1) h.last

theorem body_balanced : Balanced (joinLines c.body) := by
  have hbody : joinLines c.body = c.statements.flatMap fun s => joinLines (s.lines.map (c.indent ++ ·)) := by
    unfold ClassText.body joinLines
    rw [List.map_flatMap, List.flatMap_assoc]
  rw [hbody]
  exact Balanced.flatMap fun s _ => (s.lines_plain c.indent_inert).2

theorem mem_body_plain {l : List Char} (h : l ∈ c.statements.flatMap Statement.lines) : Plain l := by
  obtain ⟨s, -, hl⟩ := List.mem_flatMap.1 h
  exact (s.lines_plain c.indent_inert).1 l hl

/-- The body of the method: the line it starts in is empty, and it ends in front of the closing brace. -/
theorem extractMethodBody_text :
    extractMethodBody c.text c.methodName = some ('\n' :: (joinLines c.body ++ c.indent)) := by
  have hparen : '(' ∉ "function ".toList ++ c.methodName := by
    unfold ClassText.methodName
    simp only [List.mem_append, not_or]
    exact ⟨by decide, by decide, c.name.paren_not_mem⟩
  have hfront : '(' ∉ c.indent ++ "public ".toList := by
    rw [List.mem_append, not_or]
    exact ⟨c.indent_not_mem (by decide), by decide⟩
  have hnewline : '\n' ∉ "function ".toList ++ c.methodName ++ ['('] := by
    unfold ClassText.methodName
    simp only [List.mem_append, not_or]
    exact ⟨⟨by decide, by decide, c.name.not_mem (by decide)⟩, by decide⟩
  let arguments := "output:ICustomDataOutput) : void".toList ++ '\n' :: c.indent
  have hopen : '{' ∉ "function ".toList ++ c.methodName ++ ['('] ++ arguments := by
    unfold ClassText.methodName
    simp only [arguments, List.mem_append, List.mem_cons, not_or]
    exact ⟨⟨⟨by decide, by decide, c.name.not_mem (by decide)⟩, by decide, by decide⟩, by decide, by decide,
      c.indent_not_mem (by decide)⟩
  let after := '\n' :: joinLines c.footer
  have htext :
    c.text = joinLines c.before ++ ((c.indent ++ "public ".toList) ++ (("function ".toList ++ c.methodName) ++
      '(' :: (arguments ++ '{' :: (('\n' :: (joinLines c.body ++ c.indent)) ++ '}' :: after)))) := by
    unfold ClassText.text ClassText.signature
    simp only [joinLines_append]
    simp [joinLines, arguments, after]
  have hbody : Balanced ('\n' :: (joinLines c.body ++ c.indent)) :=
    (Balanced.char (c := '\n') (by decide) (by decide)).append (c.body_balanced.append c.indent_inert.balanced)
  have hstart : cut ("function ".toList ++ c.methodName ++ ['(']) c.text = some (joinLines c.before ++ (c.indent ++
      "public ".toList), arguments ++ '{' :: (('\n' :: (joinLines c.body ++ c.indent)) ++ '}' :: after)) := by
    rw [htext, cut_joinLines hnewline (by simp) c.method_first, cut_of_last hfront hparen]
    rfl
  unfold extractMethodBody
  simp only [Option.bind_eq_bind, hstart, Option.bind_some]
  rw [← List.append_assoc, cut_char hopen, Option.bind_some]
  exact matchBraces_balanced hbody after

/-- The lines the parser reads: the lines of the statements, between at most two empty ones. -/
theorem lines_methodBody : ∃ tail, (∀ l ∈ tail, l = []) ∧
    (lines ('\n' :: (joinLines c.body ++ c.indent))).map trim =
      [] :: (c.statements.flatMap Statement.lines ++ tail) := by
  have hnewline : ∀ l ∈ c.body, '\n' ∉ l := by
    intro l hl
    obtain ⟨m, hm, rfl⟩ := List.mem_map.1 hl
    rw [List.mem_append, not_or]
    exact ⟨c.indent_not_mem (by decide), (c.mem_body_plain hm).newline⟩
  have hfirst : lines ('\n' :: (joinLines c.body ++ c.indent)) = [] :: lines (joinLines c.body ++ c.indent) :=
    lines_cons (x := []) (by simp) _
  have hbody : (c.body.map stripCr).map trim = c.statements.flatMap Statement.lines := by
    unfold ClassText.body
    rw [List.map_map, List.map_map]
    conv_rhs => rw [← List.map_id (c.statements.flatMap Statement.lines)]
    exact List.map_congr_left fun l hl => c.trim_line (c.mem_body_plain hl)
  refine ⟨(lines c.indent).map trim, ?_, ?_⟩
  · intro l hl
    rw [lines_last (c.indent_not_mem (by decide))] at hl
    by_cases hindent : c.indent = []
    · rw [if_pos hindent] at hl
      cases hl
    · rw [if_neg hindent] at hl
      rw [List.mem_singleton.1 hl]
      exact trim_whitespace c.indent_whitespace
  · rw [hfirst, lines_joinLines hnewline, List.map_cons, List.map_append, hbody]
    rfl

end As3Class

private theorem extractFrom_empty {tail : List (List Char)} (h : ∀ l ∈ tail, l = []) (boxCount : Nat) :
    extractFrom boxCount 0 tail = some ([], []) := by
  induction tail with
  | nil => rfl
  | cons l tail ih =>
    obtain rfl := h l (List.mem_cons_self ..)
    exact ih fun m hm => h m (List.mem_cons_of_mem _ hm)

/-! ### Declarations -/

theorem VarType.text_chars (type : VarType) : ∀ ch ∈ type.text, isWhitespace ch = false ∧ ch ≠ '=' ∧ ch ≠ ';' := by
  have hident (x : Identifier) : ∀ ch ∈ x.chars, isWhitespace ch = false ∧ ch ≠ '=' ∧ ch ≠ ';' := by
    intro ch hch
    have h := x.valid ch hch
    refine ⟨isWhitespace_of_isIdentChar h, ?_, ?_⟩
    · rintro rfl
      exact absurd h (by decide)
    · rintro rfl
      exact absurd h (by decide)
  intro ch hch
  cases type with
  | simple type => exact hident type ch hch
  | vector element =>
    rcases List.mem_append.1 hch with hch | hch
    · rcases List.mem_append.1 hch with hch | hch
      · have hvector : ∀ ch ∈ "Vector.<".toList, isWhitespace ch = false ∧ ch ≠ '=' ∧ ch ≠ ';' := by decide
        exact hvector ch hch
      · exact hident element ch hch
    · rw [List.mem_singleton.1 hch]
      decide

private theorem takeWhile_type {x t : List Char} (h : ∀ ch ∈ x, ch ≠ '=' ∧ ch ≠ ';') :
    (x ++ t).takeWhile (fun ch => ch != '=' && ch != ';') = x ++ t.takeWhile (fun ch => ch != '=' && ch != ';') :=
  List.takeWhile_append_of_pos fun ch hch => by simp [h ch hch]

/-- A declaration is read back, whatever it assigns. -/
theorem parseDeclaration_line {indent : List Char} (hindent : ∀ ch ∈ indent, isWhitespace ch = true)
    (d : Declaration) :
    parseDeclaration (indent ++ d.line) = some (d.name.name, d.type.text) := by
  obtain ⟨rest, hblank, hline⟩ : ∃ rest,
      (∀ ch ∈ (rest ++ [';']).takeWhile (fun ch => ch != '=' && ch != ';'), isWhitespace ch = true) ∧
        d.line = "public var ".toList ++ (d.name.chars ++ ':' :: (d.type.text ++ (rest ++ [';']))) := by
    unfold Declaration.line
    cases d.value with
    | none => exact ⟨[], by simp, by simp⟩
    | some value =>
      have hspace : (" = ".toList ++ value ++ [';']).takeWhile (fun ch => ch != '=' && ch != ';') = [' '] := rfl
      refine ⟨" = ".toList ++ value, ?_, by simp⟩
      rw [hspace]
      decide
  have htrim : trim (indent ++ d.line) = d.line := by
    refine trim_append_left hindent (fun ch hch => ?_) fun ch hch => ?_
    · have hhead : d.line.head? = some 'p' := by
        rw [hline]
        rfl
      obtain rfl := Option.some.inj (hhead.symm.trans hch)
      decide
    · have hlast : d.line.getLast? = some ';' := List.getLast?_concat
      obtain rfl := Option.some.inj (hlast.symm.trans hch)
      decide
  have htype : trim (d.type.text ++ (rest ++ [';']).takeWhile fun ch => ch != '=' && ch != ';') = d.type.text :=
    trim_append (x := []) (by simp) hblank (fun ch hch => (d.type.text_chars ch (List.mem_of_mem_head? hch)).1)
      fun ch hch => (d.type.text_chars ch (List.mem_of_getLast? hch)).1
  unfold parseDeclaration
  simp only [Option.bind_eq_bind, htrim]
  rw [hline, stripPrefix_append, Option.bind_some, cut_char (d.name.not_mem (by decide)), Option.bind_some,
    takeWhile_type fun ch hch => (d.type.text_chars ch hch).2, htype]
  rfl

theorem parseDeclaration_other {l : List Char} (h : ¬"public var ".toList <+: trim l) :
    parseDeclaration l = none := by
  unfold parseDeclaration stripPrefix
  rw [if_neg h]
  rfl

private theorem parseDeclaration_stripCr (l : List Char) : parseDeclaration (stripCr l) = parseDeclaration l := by
  unfold parseDeclaration
  rw [trim_stripCr]

private theorem filterMap_other {ls : List (List Char)} (h : ∀ l ∈ ls, ¬"public var ".toList <+: trim l) :
    ls.filterMap parseDeclaration = [] :=
  List.filterMap_eq_nil_iff.2 fun l hl => parseDeclaration_other (h l hl)

private theorem lookup_of_mem {α β : Type} [BEq α] [LawfulBEq α] {l : List (α × β)} (h : (l.map Prod.fst).Nodup)
    {a : α} {b : β} (hmem : (a, b) ∈ l) : l.lookup a = some b := by
  induction l with
  | nil => cases hmem
  | cons x l ih =>
    rw [List.map_cons, List.nodup_cons] at h
    rcases List.mem_cons.1 hmem with rfl | hmem
    · exact List.lookup_cons_self
    · have hne : (a == x.1) = false := by
        rw [beq_eq_false_iff_ne]
        rintro rfl
        exact h.1 (List.mem_map.2 ⟨_, hmem, rfl⟩)
      rw [List.lookup_cons, hne]
      exact ih h.2 hmem

namespace As3Class

variable (c : As3Class)

private theorem declaration_newline {d : Declaration} (h : d ∈ c.declarations) : '\n' ∉ c.indent ++ d.line := by
  have htype : '\n' ∉ d.type.text := by
    intro hn
    exact absurd (d.type.text_chars _ hn).1 (by decide)
  have hvalue := c.values_plain d h
  unfold Declaration.line
  simp only [List.mem_append, not_or]
  refine ⟨c.indent_not_mem (by decide), ⟨⟨⟨⟨by decide, d.name.not_mem (by decide)⟩, by decide⟩, htype⟩,
    ?_⟩, by decide⟩
  cases hv : d.value with
  | none => simp
  | some value =>
    rw [List.mem_append, not_or]
    exact ⟨by decide, hvalue value hv⟩

private theorem signature_plain : '\n' ∉ c.indent ++ c.signature ∧
    ¬"public var ".toList <+: trim (c.indent ++ c.signature) := by
  constructor
  · unfold ClassText.signature ClassText.methodName
    simp only [List.mem_append, not_or]
    exact ⟨c.indent_not_mem (by decide), ⟨by decide, by decide, c.name.not_mem (by decide)⟩, by decide⟩
  · have hhead : c.signature.head? = some 'p' := rfl
    have hlast : c.signature.getLast? = some 'd' := by
      unfold ClassText.signature
      rw [List.getLast?_append]
      rfl
    have htrim : trim (c.indent ++ c.signature) = c.signature := by
      refine trim_append_left c.indent_whitespace (fun ch hch => ?_) fun ch hch => ?_
      · obtain rfl := Option.some.inj (hhead.symm.trans hch)
        decide
      · obtain rfl := Option.some.inj (hlast.symm.trans hch)
        decide
    rw [htrim]
    unfold ClassText.signature
    simp only [String.reduceToList]
    simp only [List.cons_append, List.cons_prefix_cons, Char.reduceEq, false_and, and_false, not_false_eq_true]

private theorem plain_other {l : List Char} (h : Plain l) : ¬"public var ".toList <+: trim (c.indent ++ l) := by
  rw [← trim_stripCr, c.trim_line h]
  rintro ⟨t, rfl⟩
  exact (h.head 'p' rfl).2 rfl

private theorem brace_plain : Plain ['{'] ∧ Plain ['}'] :=
  ⟨⟨by decide, by simp; decide, by simp; decide⟩, ⟨by decide, by simp; decide, by simp; decide⟩⟩

private theorem rest_plain : ∀ l ∈ [c.indent ++ c.signature, c.indent ++ ['{']] ++ c.body ++ [c.indent ++ ['}']],
    '\n' ∉ l ∧ ¬"public var ".toList <+: trim l := by
  have hplain {l : List Char} (h : Plain l) :
      '\n' ∉ c.indent ++ l ∧ ¬"public var ".toList <+: trim (c.indent ++ l) := by
    refine ⟨?_, c.plain_other h⟩
    rw [List.mem_append, not_or]
    exact ⟨c.indent_not_mem (by decide), h.newline⟩
  intro l hl
  simp only [List.cons_append, List.nil_append, List.mem_cons, List.mem_append, List.not_mem_nil, or_false] at hl
  rcases hl with rfl | rfl | hl | rfl
  · exact c.signature_plain
  · exact hplain brace_plain.1
  · obtain ⟨m, hm, rfl⟩ := List.mem_map.1 hl
    exact hplain (c.mem_body_plain hm)
  · exact hplain brace_plain.2

/-- The declarations of the class, and no other line, are its variables. -/
theorem varTypes_text : varTypes c.text = (c.declarations.map fun d => (d.name.name, d.type.text)).reverse := by
  have hheader : ∀ l ∈ c.header, '\n' ∉ l ∧ ¬"public var ".toList <+: trim l := fun l hl =>
    c.lines_plain l (List.mem_append_left _ (List.mem_append_left _ hl))
  have hmembers : ∀ l ∈ c.members, '\n' ∉ l ∧ ¬"public var ".toList <+: trim l := fun l hl =>
    c.lines_plain l (List.mem_append_left _ (List.mem_append_right _ hl))
  have hfooter : ∀ l ∈ c.footer, '\n' ∉ l ∧ ¬"public var ".toList <+: trim l := fun l hl =>
    c.lines_plain l (List.mem_append_right _ hl)
  have hdeclarations : ∀ l ∈ c.declarations.map (fun d => c.indent ++ d.line), '\n' ∉ l := by
    intro l hl
    obtain ⟨d, hd, rfl⟩ := List.mem_map.1 hl
    exact c.declaration_newline hd
  let other := [c.indent ++ c.signature, c.indent ++ ['{']] ++ c.body ++ [c.indent ++ ['}']]
  let all := c.header ++ c.declarations.map (fun d => c.indent ++ d.line) ++ c.members ++ other ++ c.footer
  have htext : c.text = joinLines all ++ [] := by
    unfold ClassText.text ClassText.before
    simp only [all, other, List.append_assoc, List.append_nil]
  have hnewline : ∀ l ∈ all, '\n' ∉ l := by
    intro l hl
    simp only [all, List.mem_append] at hl
    rcases hl with (((hl | hl) | hl) | hl) | hl
    · exact (hheader l hl).1
    · exact hdeclarations l hl
    · exact (hmembers l hl).1
    · exact (c.rest_plain l hl).1
    · exact (hfooter l hl).1
  have hlines : (lines c.text).filterMap parseDeclaration = all.filterMap parseDeclaration := by
    rw [htext, lines_joinLines hnewline]
    show List.filterMap parseDeclaration (all.map stripCr ++ []) = _
    rw [List.append_nil, List.filterMap_map]
    exact List.filterMap_congr fun l _ => parseDeclaration_stripCr l
  have hvars : (c.declarations.map fun d => c.indent ++ d.line).filterMap parseDeclaration =
      c.declarations.map fun d => (d.name.name, d.type.text) := by
    rw [List.filterMap_map, ← List.filterMap_eq_map]
    exact List.filterMap_congr fun d _ => parseDeclaration_line c.indent_whitespace d
  unfold varTypes
  rw [hlines]
  simp only [all, List.filterMap_append, hvars]
  rw [filterMap_other fun l hl => (hheader l hl).2, filterMap_other fun l hl => (hmembers l hl).2,
    filterMap_other fun l hl => (c.rest_plain l hl).2, filterMap_other fun l hl => (hfooter l hl).2]
  simp

theorem declares : ∀ s ∈ c.statements, s.Declares (varTypes c.text) := by
  intro s hs v hv
  obtain ⟨d, hd, hname, htype⟩ := c.declared s hs v hv
  have hnodup : (((c.declarations.map fun d => (d.name.name, d.type.text)).reverse).map Prod.fst).Nodup := by
    rw [List.map_reverse, List.nodup_reverse, List.map_map]
    have hname : (Prod.fst ∘ fun d : Declaration => (d.name.name, d.type.text)) =
        String.ofList ∘ fun d => d.name.chars :=
      rfl
    rw [hname, ← List.map_map]
    exact c.declarations_nodup.map fun _ _ h => String.ofList_injective h
  rw [c.varTypes_text]
  refine lookup_of_mem hnodup (List.mem_reverse.2 (List.mem_map.2 ⟨d, hd, ?_⟩))
  rw [hname, htype]

end As3Class

/-! ### The fields of a class -/

/-- The generated codec writes the elements of every vector. -/
def WritesElements (fields : List (ProtocolField String)) : Prop :=
  ∀ f ∈ fields, ∀ inner lengthType, f.fieldType = .vector inner lengthType → elementWrite inner ≠ .nothing

private theorem writerToFieldType_written (method : List Char) : elementWrite (writerToFieldType method) ≠ .nothing ∧
    ∀ inner lengthType, writerToFieldType method ≠ .vector inner lengthType := by
  unfold writerToFieldType
  split
  all_goals exact ⟨nofun, nofun⟩

private theorem declared_writesElements (s : Statement) : WritesElements s.declared := by
  intro f hf inner lengthType hvector
  have hsingle {element : FieldType String} {lengthMethod arr : Identifier}
    (h : f = Statement.vectorField lengthMethod arr
      element) : element = inner := by
    rw [h] at hvector
    exact (FieldType.vector.inj hvector).1
  cases s with
  | primitive method field type =>
    obtain rfl := List.mem_singleton.1 hf
    exact absurd hvector ((writerToFieldType_written _).2 _ _)
  | booleans box first others =>
    obtain ⟨flag, -, rfl⟩ := List.mem_map.1 hf
    cases hvector
  | primitives lengthMethod arr index method type =>
    obtain rfl := hsingle (List.mem_singleton.1 hf)
    exact (writerToFieldType_written _).1
  | types lengthMethod arr index expr type =>
    obtain rfl := hsingle (List.mem_singleton.1 hf)
    exact nofun
  | nested field type =>
    obtain rfl := List.mem_singleton.1 hf
    cases hvector
  | polymorphic field type =>
    obtain rfl := List.mem_singleton.1 hf
    cases hvector
  | polymorphics lengthMethod arr index expr type =>
    obtain rfl := hsingle (List.mem_singleton.1 hf)
    exact nofun
  | superCall parent => cases hf

namespace As3Class

/-- The fields of the statements are returned in order, and the generated codec writes their elements. -/
def Recovers (c : As3Class) : Prop :=
  (extractFields c.text c.methodName).map Prod.fst = some (c.statements.flatMap Statement.declared) ∧
    ∀ fields ∈ (extractFields c.text c.methodName).map Prod.fst, WritesElements fields

private theorem extractFields_text (c : As3Class) : ∃ tail, (∀ l ∈ tail, l = []) ∧
    (extractFields c.text c.methodName).map Prod.fst =
      (extractFrom 0 0 (c.statements.flatMap Statement.lines ++ tail)).map fun x =>
        x.1.map (resolveFieldType (varTypes c.text)) := by
  obtain ⟨tail, htail, hlines⟩ := c.lines_methodBody
  have hfirst (ls : List (List Char)) : extractFrom 0 0 ([] :: ls) = extractFrom 0 0 ls := rfl
  refine ⟨tail, htail, ?_⟩
  unfold extractFields
  rw [c.extractMethodBody_text]
  simp only [hlines, hfirst, Option.bind_eq_bind, Option.pure_def]
  cases extractFrom 0 0 (c.statements.flatMap Statement.lines ++ tail) with
  | none => rfl
  | some x => rfl

/-- The parser returns the fields of the statements exactly when every statement is recovered. -/
theorem extractFields_iff (c : As3Class) :
    (extractFields c.text c.methodName).map Prod.fst = some (c.statements.flatMap Statement.declared) ↔
      ∀ s ∈ c.statements, s.Recovered := by
  obtain ⟨tail, htail, htext⟩ := c.extractFields_text
  have hrun := Statement.extractFrom_statements (extractFrom_empty htail) c.statements 0
  rw [htext]
  rcases hrun with ⟨hnone, s, hs, hrec⟩ | ⟨fields, wrappers, hsome, -, htypes⟩
  · rw [hnone]
    exact iff_of_false (fun h => nomatch h) fun h => hrec (h s hs)
  · rw [hsome, ← htypes (varTypes c.text) c.declares]
    exact ⟨fun h => Option.some.inj h, fun h => congrArg some h⟩

/-- The fields of a class are recovered exactly when every statement is: no vector has polymorphic elements that are
written by a plain `serialize`, and no name makes a line look like another pattern. -/
theorem recovers_iff (c : As3Class) : c.Recovers ↔ ∀ s ∈ c.statements, s.Recovered := by
  have hdeclared : WritesElements (c.statements.flatMap Statement.declared) := by
    intro f hf
    obtain ⟨s, -, hs⟩ := List.mem_flatMap.1 hf
    exact declared_writesElements s f hs
  rw [← c.extractFields_iff]
  constructor
  · rintro ⟨h, -⟩
    exact h
  · intro h
    refine ⟨h, fun fields hfields => ?_⟩
    have hfields : c.statements.flatMap Statement.declared = fields := Option.some.inj (h.symm.trans hfields)
    rw [← hfields]
    exact hdeclared

/-- A class with a vector of polymorphic elements. -/
def inventory : As3Class where
  name := ⟨"Inventory".toList, by decide, by decide⟩
  indent := "  ".toList
  header := ["public class Inventory".toList, "\x7b".toList]
  declarations := [⟨⟨"items".toList, by decide, by decide⟩, .vector ⟨"Item".toList, by decide, by decide⟩, none⟩]
  members := []
  statements := [.polymorphics Statement.shortMethod ⟨"items".toList, by decide, by decide⟩
    ⟨"_i2_".toList, by decide, by decide⟩ (.cast ⟨"Item".toList, by decide, by decide⟩)
    ⟨"Item".toList, by decide, by decide⟩]
  footer := ["\x7d".toList]
  indent_blank := spaces_blank
  lines_plain := by decide
  values_plain := by simp
  declarations_nodup := by decide
  declared := by
    intro s hs v hv
    obtain rfl := List.mem_singleton.1 hs
    obtain rfl := List.mem_singleton.1 hv
    exact ⟨_, List.mem_singleton.2 rfl, rfl, rfl⟩
  method_first := by decide

/-- The element type of the vector stays empty, and the generated codec writes its length only. -/
theorem inventory_not_recovered :
    (extractFields inventory.text inventory.methodName).map Prod.fst =
      some [⟨"items", .vector (.typeManager none) "writeShort", "vector"⟩] ∧
    inventory.statements.flatMap Statement.declared =
      [⟨"items", .vector (.typeManager (some "Item")) "writeShort", "vector"⟩] ∧
    elementWrite (ν := String) (.typeManager none) = .nothing ∧ ¬inventory.Recovers := by
  have hfields : (extractFields inventory.text inventory.methodName).map Prod.fst =
      some [⟨"items", .vector (.typeManager none) "writeShort", "vector"⟩] := by decide +kernel
  refine ⟨hfields, by decide +kernel, rfl, fun h => ?_⟩
  have hwrites := h.2 _ hfields
  exact hwrites _ (List.mem_singleton.2 rfl) _ _ rfl rfl

end As3Class

end Otomai.ProtocolGen
