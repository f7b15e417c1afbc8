import Otomai.Common.Criterion

/-!
# How criteria are written

`&` binds tighter than `|`, white space may stand around both and around parentheses, and parentheses around any part.

* `Printed`: the texts of a tree, for the types that an atom may have.
* `Printed.reads`: what is read off the front of a text that starts with one.
* `evaluate_printed`: the text of a tree evaluates to whether the tree holds.
-/

namespace Otomai.Common.Criterion

open Text Wire

inductive Level where
  | factor | term | group

/-- White space. -/
def Blank (w : List Char) : Prop := ∀ c ∈ w, isWhitespace c = true

instance (w : List Char) : Decidable (Blank w) := inferInstanceAs (Decidable (∀ c ∈ w, isWhitespace c = true))

def Op.text : Op → List Char
  | .eq => ['=']
  | .notEq => ['!', '=']
  | .lt => ['<']
  | .gt => ['>']
  | .ltEq => ['<', '=']
  | .gtEq => ['>', '=']

/-- The text of a tree, at the level of the operators that stand in it outside of parentheses.  `Name` are the texts
of the types of its atoms. -/
inductive Printed (Name : List Char → Prop) : Level → Node → List Char → Prop where
  | atom {a : Atom} {digits : List Char} (hname : Name a.criterionType.toList)
      (hvalue : Numeral 2147483648 a.value digits) :
    Printed Name .factor (.atom a) (a.criterionType.toList ++ (a.operator.text ++ digits))
  | parens {node : Node} {t w w' : List Char} (h : Printed Name .group node t) (hw : Blank w) (hw' : Blank w') :
    Printed Name .factor node ('(' :: (w ++ (t ++ (w' ++ [')']))))
  | factor {node : Node} {t : List Char} (h : Printed Name .factor node t) : Printed Name .term node t
  | and {left right : Node} {t t' w w' : List Char} (h : Printed Name .term left t) (h' : Printed Name .term right t')
      (hw : Blank w) (hw' : Blank w') : Printed Name .term (.and left right) (t ++ (w ++ '&' :: (w' ++ t')))
  | term {node : Node} {t : List Char} (h : Printed Name .term node t) : Printed Name .group node t
  | or {left right : Node} {t t' w w' : List Char} (h : Printed Name .group left t)
    (h' : Printed Name .group right t')
      (hw : Blank w) (hw' : Blank w') : Printed Name .group (.or left right) (t ++ (w ++ '|' :: (w' ++ t')))

/-- Two letters. -/
def Letters (name : List Char) : Prop := ∃ a b, name = [a, b] ∧ a.isAlpha = true ∧ b.isAlpha = true

/-- Any text of two bytes that an atom may start with. -/
def TwoBytes (name : List Char) : Prop :=
  byteLength name = 2 ∧ ∀ c ∈ name.head?, isWhitespace c = false ∧ c ≠ '('

/-- The text ends where it should: a value does not go on. -/
def Ends (t rest : List Char) : Prop := (∀ c ∈ rest.head?, isValueChar c = false) ∨ t.getLast? = some ')'

variable {Name Name' : List Char → Prop} {level : Level} {node left right : Node} {t t' w w' rest : List Char}

theorem Printed.mono (hname : ∀ name, Name name → Name' name) (h : Printed Name level node t) :
    Printed Name' level node t := by
  induction h with
  | atom hn hvalue => exact .atom (hname _ hn) hvalue
  | parens _ hw hw' ih => exact .parens ih hw hw'
  | factor _ ih => exact .factor ih
  | and _ _ hw hw' ih ih' => exact .and ih ih' hw hw'
  | term _ ih => exact .term ih
  | or _ _ hw hw' ih ih' => exact .or ih ih' hw hw'

private theorem isAlpha_range {c : Char} (h : c.isAlpha = true) : 65 ≤ c.toNat ∧ c.toNat ≤ 122 := by
  change (decide (65 ≤ c.val ∧ c.val ≤ 90) || decide (97 ≤ c.val) && decide (c.val ≤ 122)) = true at h
  rw [Bool.or_eq_true, Bool.and_eq_true, decide_eq_true_eq, decide_eq_true_eq, decide_eq_true_eq] at h
  change (65 ≤ c.toNat ∧ c.toNat ≤ 90) ∨ 97 ≤ c.toNat ∧ c.toNat ≤ 122 at h
  omega

theorem Letters.twoBytes {name : List Char} (h : Letters name) : TwoBytes name := by
  obtain ⟨a, b, rfl, ha, hb⟩ := h
  have hsize {c : Char} (hc : c.isAlpha = true) : c.utf8Size = 1 := by
    have := isAlpha_range hc
    rw [Char.utf8Size_eq_one_iff]
    exact UInt32.le_iff_toNat_le.2 (by change c.toNat ≤ 127; omega)
  refine ⟨by simp [byteLength, hsize ha, hsize hb], fun c hc => ?_⟩
  obtain rfl : a = c := Option.some.inj hc
  have hrange := isAlpha_range ha
  constructor
  · simp [isWhitespace]
    omega
  · rintro rfl
    cases ha

/-! ### Atoms -/

theorem Op.exists_text (op : Op) : ∃ c u, op.text = c :: u := by cases op <;> exact ⟨_, _, rfl⟩

/-- An operator is read as far as it goes. -/
theorem parseOp_text (op : Op) {s : List Char} (h : ∀ c ∈ s.head?, c ≠ '=') :
    parseOp (op.text ++ s) = some (op, s) := by
  cases op with
  | eq => rfl
  | notEq => rfl
  | ltEq => rfl
  | gtEq => rfl
  | lt =>
    simp only [Op.text, List.singleton_append]
    unfold parseOp
    split
    all_goals simp_all
  | gt =>
    simp only [Op.text, List.singleton_append]
    unfold parseOp
    split
    all_goals simp_all

theorem parseOp_eq_some {s r : List Char} {op : Op} (h : parseOp s = some (op, r)) : s = op.text ++ r := by
  unfold parseOp at h
  split at h <;> cases h <;> rfl

section

variable {v : Int} {bound : Nat} {digits : List Char}

theorem valueChar_of_numeral (h : Numeral bound v digits) : ∀ c ∈ digits, isValueChar c = true := by
  cases h with
  | nonneg _ hdigits _ _ => exact fun c hc => by rw [isValueChar, hdigits c hc, Bool.true_or]
  | neg _ hdigits _ _ =>
    refine List.forall_mem_cons.2 ⟨by decide, fun c hc => ?_⟩
    rw [isValueChar, hdigits c hc, Bool.true_or]

theorem exists_cons_of_numeral (h : Numeral bound v digits) : ∃ c u, digits = c :: u := by
  cases h with
  | nonneg hne _ _ _ => exact List.exists_cons_of_ne_nil hne
  | neg _ _ _ _ => exact ⟨_, _, rfl⟩

end

private theorem span_value {digits : List Char} (hdigits : ∀ c ∈ digits, isValueChar c = true)
    (hrest : ∀ c ∈ rest.head?, isValueChar c = false) :
    (digits ++ rest).takeWhile isValueChar = digits ∧ (digits ++ rest).dropWhile isValueChar = rest := by
  rw [List.takeWhile_append_of_pos hdigits, List.dropWhile_append_of_pos hdigits]
  cases rest with
  | nil => exact ⟨List.append_nil digits, rfl⟩
  | cons c rest =>
    have hc : ¬isValueChar c = true := by simp [hrest c rfl]
    rw [List.takeWhile_cons_of_neg hc, List.dropWhile_cons_of_neg hc]
    exact ⟨List.append_nil digits, rfl⟩

theorem TwoBytes.exists_cons {name : List Char} (h : TwoBytes name) :
    ∃ c u, name = c :: u ∧ isWhitespace c = false ∧ c ≠ '(' := by
  cases name with
  | nil => cases h.1
  | cons c u => exact ⟨c, u, rfl, h.2 c rfl⟩

/-- An atom is read up to the end of its value. -/
theorem parseAtom_printed {a : Atom} {digits : List Char} (hname : TwoBytes a.criterionType.toList)
    (hvalue : Numeral 2147483648 a.value digits) (hw : Blank w) (hrest : ∀ c ∈ rest.head?, isValueChar c = false) :
    parseAtom (w ++ (a.criterionType.toList ++ (a.operator.text ++ digits) ++ rest)) = .ok (.atom a, rest) := by
  have htrim : trimStart (w ++ (a.criterionType.toList ++ (a.operator.text ++ digits) ++ rest)) =
      a.criterionType.toList ++ (a.operator.text ++ (digits ++ rest)) := by
    obtain ⟨c, u, hcons, hblank, -⟩ := hname.exists_cons
    rw [trimStart_append hw, List.append_assoc, List.append_assoc, hcons, List.cons_append, trimStart_cons hblank]
  have hlength : ¬byteLength (a.criterionType.toList ++ (a.operator.text ++ (digits ++ rest))) < 3 := by
    obtain ⟨c, u, hop⟩ := a.operator.exists_text
    have hpos := Char.utf8Size_pos c
    rw [byteLength_append, hname.1, hop, List.cons_append, byteLength, List.map_cons, List.sum_cons]
    omega
  have hsplit : splitBytes (a.criterionType.toList ++ (a.operator.text ++ (digits ++ rest))) 2 =
      some (a.criterionType.toList, a.operator.text ++ (digits ++ rest)) := by
    have h := splitBytes_append a.criterionType.toList (a.operator.text ++ (digits ++ rest))
    rwa [hname.1] at h
  have hop : parseOp (a.operator.text ++ (digits ++ rest)) = some (a.operator, digits ++ rest) := by
    refine parseOp_text a.operator fun c hc => ?_
    obtain ⟨d, u, rfl⟩ := exists_cons_of_numeral hvalue
    obtain rfl : d = c := Option.some.inj hc
    rintro rfl
    exact absurd (valueChar_of_numeral hvalue '=' List.mem_cons_self) (by decide)
  have hparse : parseSigned 2147483648 digits = some a.value := by
    refine (parseSigned_eq_some fun hplus => ?_).2 hvalue
    exact absurd (valueChar_of_numeral hvalue '+' hplus) (by decide)
  obtain ⟨htake, hdrop⟩ := span_value (valueChar_of_numeral hvalue) hrest
  simp only [parseAtom, htrim, if_neg hlength, hsplit, hop, htake, hdrop, hparse, String.ofList_toList]

/-! ### Factors, terms and groups -/

theorem Printed.ne_nil (h : Printed TwoBytes level node t) : t ≠ [] := by
  induction h with
  | atom hname _ =>
    obtain ⟨c, u, hcons, -⟩ := hname.exists_cons
    rw [hcons]
    exact List.cons_ne_nil _ _
  | parens _ _ _ _ => exact List.cons_ne_nil _ _
  | factor _ ih => exact ih
  | and _ _ _ _ ih _ => exact List.append_ne_nil_of_left_ne_nil ih _
  | term _ ih => exact ih
  | or _ _ _ _ ih _ => exact List.append_ne_nil_of_left_ne_nil ih _

theorem isValueChar_of_isWhitespace {c : Char} (h : isWhitespace c = true) : isValueChar c = false := by
  refine Bool.eq_false_iff.2 fun hvalue => ?_
  simp only [isValueChar, Bool.or_eq_true, decide_eq_true_eq] at hvalue
  rcases hvalue with hdigit | rfl
  · simp only [Char.isDigit, Bool.and_eq_true, decide_eq_true_eq] at hdigit
    change 48 ≤ c.toNat ∧ c.toNat ≤ 57 at hdigit
    simp [isWhitespace] at h
    omega
  · cases h

/-- White space and what is not of a value end a text. -/
theorem ends_blank (t : List Char) (hw : Blank w) {c : Char} (hc : isValueChar c = false) (s : List Char) :
    Ends t (w ++ c :: s) := by
  refine .inl fun d hd => ?_
  cases w with
  | nil => exact Option.some.inj hd ▸ hc
  | cons e w => exact Option.some.inj hd ▸ isValueChar_of_isWhitespace (hw e List.mem_cons_self)

theorem Ends.of_append {u : List Char} (ht : t ≠ []) (h : Ends (u ++ t) rest) : Ends t rest :=
  h.imp_right fun hlast => by rwa [List.getLast?_append_of_ne_nil u ht] at hlast

theorem trimStart_sep (hw : Blank w) {c : Char} (hc : isWhitespace c = false) (s : List Char) :
    trimStart (w ++ c :: s) = c :: s := by
  rw [trimStart_append hw, trimStart_cons hc]

def ReadsFactor (node : Node) (t : List Char) : Prop :=
  ∀ w rest, Blank w → Ends t rest →
    ∃ node', (∀ ctx, Node.Holds ctx node' ↔ node.Holds ctx) ∧ parseFactor (w ++ (t ++ rest)) = .ok (node', rest)

/-- A term is read first, or joined to another one. -/
structure ReadsTerm (node : Node) (t : List Char) : Prop where
  first : ∀ w rest, Blank w → Ends t rest →
    ∃ node', (∀ ctx, Node.Holds ctx node' ↔ node.Holds ctx) ∧
      parseTerm (w ++ (t ++ rest)) = joinAll parseFactor '&' .and node' rest
  next : ∀ left w rest, Blank w → Ends t rest →
    ∃ node', (∀ ctx, Node.Holds ctx node' ↔ left.Holds ctx ∧ node.Holds ctx) ∧
      joinAll parseFactor '&' .and left ('&' :: (w ++ (t ++ rest))) = joinAll parseFactor '&' .and node' rest

/-- No `&` follows. -/
def EndsTerm (t rest : List Char) : Prop := Ends t rest ∧ ∀ c ∈ (trimStart rest).head?, c ≠ '&'

structure ReadsGroup (node : Node) (t : List Char) : Prop where
  first : ∀ w rest, Blank w → EndsTerm t rest →
    ∃ node', (∀ ctx, Node.Holds ctx node' ↔ node.Holds ctx) ∧
      parseGroup (w ++ (t ++ rest)) = joinAll parseTerm '|' .or node' rest
  next : ∀ left w rest, Blank w → EndsTerm t rest →
    ∃ node', (∀ ctx, Node.Holds ctx node' ↔ left.Holds ctx ∨ node.Holds ctx) ∧
      joinAll parseTerm '|' .or left ('|' :: (w ++ (t ++ rest))) = joinAll parseTerm '|' .or node' rest

theorem ReadsFactor.term (h : ReadsFactor node t) : ReadsTerm node t where
  first w rest hw hends := by
    obtain ⟨node', hsame, hparse⟩ := h w rest hw hends
    exact ⟨node', hsame, by rw [parseTerm, parseInfix, hparse, Outcome.ok_bind]⟩
  next left w rest hw hends := by
    obtain ⟨node', hsame, hparse⟩ := h w rest hw hends
    refine ⟨.and left node', fun ctx => and_congr_right fun _ => hsame ctx, ?_⟩
    rw [joinAll_sep parseFactor_shrinks (trimStart_cons (by decide) _), hparse, Outcome.ok_bind]

theorem ReadsTerm.and (hl : ReadsTerm left t) (hr : ReadsTerm right t') (ht' : t' ≠ []) (hw : Blank w)
    (hw' : Blank w') :
    ReadsTerm (.and left right) (t ++ (w ++ '&' :: (w' ++ t'))) := by
  have hassoc (rest : List Char) : t ++ (w ++ '&' :: (w' ++ t')) ++ rest =
    t ++ (w ++ '&' :: (w' ++ (t' ++ rest))) := by
    simp only [List.append_assoc, List.cons_append]
  have hlast {rest : List Char} (hends : Ends (t ++ (w ++ '&' :: (w' ++ t'))) rest) : Ends t' rest := by
    refine Ends.of_append (u := t ++ (w ++ '&' :: w')) ht' ?_
    simpa only [List.append_assoc, List.cons_append] using hends
  have hsep (node : Node) (rest : List Char) : joinAll parseFactor '&' .and node (w ++ '&' :: (w' ++ (t' ++ rest))) =
      joinAll parseFactor '&' .and node ('&' :: (w' ++ (t' ++ rest))) := by
    rw [← joinAll_trimStart parseFactor_shrinks, trimStart_sep hw (by decide)]
  constructor
  · intro v rest hv hends
    obtain ⟨node₁, hsame₁, hparse₁⟩ := hl.first v _ hv (ends_blank t hw (c := '&') (by decide) (w' ++ (t' ++ rest)))
    obtain ⟨node₂, hsame₂, hparse₂⟩ := hr.next node₁ w' rest hw' (hlast hends)
    refine ⟨node₂, fun ctx => ?_, ?_⟩
    · rw [hsame₂, hsame₁, Node.Holds]
    · rw [hassoc, hparse₁, hsep, hparse₂]
  · intro before v rest hv hends
    obtain ⟨node₁, hsame₁, hparse₁⟩ := hl.next before v _ hv
      (ends_blank t hw (c := '&') (by decide) (w' ++ (t' ++ rest)))
    obtain ⟨node₂, hsame₂, hparse₂⟩ := hr.next node₁ w' rest hw' (hlast hends)
    refine ⟨node₂, fun ctx => ?_, ?_⟩
    · rw [hsame₂, hsame₁, Node.Holds, and_assoc]
    · rw [hassoc, hparse₁, hsep, hparse₂]

theorem ReadsTerm.group (h : ReadsTerm node t) : ReadsGroup node t where
  first w rest hw hends := by
    obtain ⟨node', hsame, hparse⟩ := h.first w rest hw hends.1
    refine ⟨node', hsame, ?_⟩
    rw [parseGroup, parseInfix, hparse, joinAll_stop hends.2, Outcome.ok_bind]
    exact joinAll_trimStart parseTerm_shrinks node' rest
  next left w rest hw hends := by
    obtain ⟨node', hsame, hparse⟩ := h.first w rest hw hends.1
    refine ⟨.or left node', fun ctx => or_congr_right (hsame ctx), ?_⟩
    rw [joinAll_sep parseTerm_shrinks (trimStart_cons (by decide) _), hparse, joinAll_stop hends.2, Outcome.ok_bind,
      joinAll_trimStart parseTerm_shrinks]

theorem ReadsGroup.or (hl : ReadsGroup left t) (hr : ReadsGroup right t') (ht' : t' ≠ []) (hw : Blank w)
    (hw' : Blank w') :
    ReadsGroup (.or left right) (t ++ (w ++ '|' :: (w' ++ t'))) := by
  have hassoc (rest : List Char) : t ++ (w ++ '|' :: (w' ++ t')) ++ rest =
    t ++ (w ++ '|' :: (w' ++ (t' ++ rest))) := by
    simp only [List.append_assoc, List.cons_append]
  have hlast {rest : List Char} (hends : EndsTerm (t ++ (w ++ '|' :: (w' ++ t'))) rest) : EndsTerm t' rest := by
    refine ⟨Ends.of_append (u := t ++ (w ++ '|' :: w')) ht' ?_, hends.2⟩
    simpa only [List.append_assoc, List.cons_append] using hends.1
  have hfirst (rest : List Char) : EndsTerm t (w ++ '|' :: (w' ++ (t' ++ rest))) := by
    refine ⟨ends_blank t hw (by decide) _, fun c hc => ?_⟩
    rw [trimStart_sep hw (by decide)] at hc
    exact Option.some.inj hc ▸ by decide
  have hsep (node : Node) (rest : List Char) : joinAll parseTerm '|' .or node (w ++ '|' :: (w' ++ (t' ++ rest))) =
      joinAll parseTerm '|' .or node ('|' :: (w' ++ (t' ++ rest))) := by
    rw [← joinAll_trimStart parseTerm_shrinks, trimStart_sep hw (by decide)]
  constructor
  · intro v rest hv hends
    obtain ⟨node₁, hsame₁, hparse₁⟩ := hl.first v _ hv (hfirst rest)
    obtain ⟨node₂, hsame₂, hparse₂⟩ := hr.next node₁ w' rest hw' (hlast hends)
    refine ⟨node₂, fun ctx => ?_, ?_⟩
    · rw [hsame₂, hsame₁, Node.Holds]
    · rw [hassoc, hparse₁, hsep, hparse₂]
  · intro before v rest hv hends
    obtain ⟨node₁, hsame₁, hparse₁⟩ := hl.next before v _ hv (hfirst rest)
    obtain ⟨node₂, hsame₂, hparse₂⟩ := hr.next node₁ w' rest hw' (hlast hends)
    refine ⟨node₂, fun ctx => ?_, ?_⟩
    · rw [hsame₂, hsame₁, Node.Holds, or_assoc]
    · rw [hassoc, hparse₁, hsep, hparse₂]

/-- A group in parentheses. -/
theorem ReadsGroup.parens (h : ReadsGroup node t) (hw : Blank w) (hw' : Blank w') :
    ReadsFactor node ('(' :: (w ++ (t ++ (w' ++ [')'])))) := by
  intro v rest hv _
  have hclose : trimStart (w' ++ ')' :: rest) = ')' :: rest := trimStart_sep hw' (by decide) rest
  have hends : EndsTerm t (w' ++ ')' :: rest) := by
    refine ⟨ends_blank t hw' (by decide) rest, fun c hc => ?_⟩
    rw [hclose] at hc
    exact Option.some.inj hc ▸ by decide
  obtain ⟨node', hsame, hparse⟩ := h.first w (w' ++ ')' :: rest) hw hends
  have hopen : trimStart (v ++ ('(' :: (w ++ (t ++ (w' ++ [')']))) ++ rest)) =
    '(' :: (w ++ (t ++ (w' ++ ')' :: rest))) := by
    rw [List.cons_append, trimStart_sep hv (by decide)]
    simp only [List.append_assoc, List.cons_append, List.nil_append]
  have hstop : ∀ c ∈ (trimStart (w' ++ ')' :: rest)).head?, c ≠ '|' := by
    intro c hc
    rw [hclose] at hc
    exact Option.some.inj hc ▸ by decide
  refine ⟨node', hsame, ?_⟩
  rw [parseFactor_parens hopen, hparse, joinAll_stop hstop, Outcome.ok_bind, hclose]
  simp only [trimStart_cons (show isWhitespace ')' = false by decide)]

theorem readsFactor_atom {a : Atom} {digits : List Char} (hname : TwoBytes a.criterionType.toList)
    (hvalue : Numeral 2147483648 a.value digits) :
    ReadsFactor (.atom a) (a.criterionType.toList ++ (a.operator.text ++ digits)) := by
  intro w rest hw hends
  obtain ⟨c, u, hdigits⟩ := exists_cons_of_numeral hvalue
  have hne : digits ≠ [] := by simp [hdigits]
  have hends' : Ends digits rest := Ends.of_append (u := a.criterionType.toList ++ a.operator.text) hne (by
    rwa [List.append_assoc])
  have hrest : ∀ c ∈ rest.head?, isValueChar c = false := by
    refine hends'.resolve_right fun hlast => ?_
    exact absurd (valueChar_of_numeral hvalue ')' (List.mem_of_getLast? hlast)) (by decide)
  have hatom : ∀ r, trimStart (w ++ (a.criterionType.toList ++ (a.operator.text ++ digits) ++ rest)) ≠ '(' :: r := by
    intro r h
    obtain ⟨c, u, hcons, hblank, hparen⟩ := hname.exists_cons
    rw [trimStart_append hw, hcons, List.cons_append, List.cons_append, trimStart_cons hblank, List.cons.injEq] at h
    exact hparen h.1
  exact ⟨.atom a, fun ctx => Iff.rfl, by rw [parseFactor_atom hatom, parseAtom_printed hname hvalue hw hrest]⟩

/-- What is read of a text, at its level. -/
def Reads : Level → Node → List Char → Prop
  | .factor => ReadsFactor
  | .term => ReadsTerm
  | .group => ReadsGroup

theorem Printed.reads (h : Printed TwoBytes level node t) : Reads level node t := by
  induction h with
  | @atom a digits hname hvalue => exact readsFactor_atom hname hvalue
  | parens _ hw hw' ih => exact ReadsGroup.parens ih hw hw'
  | factor _ ih => exact ReadsFactor.term ih
  | and _ h' hw hw' ihl ihr => exact ReadsTerm.and ihl ihr h'.ne_nil hw hw'
  | term _ ih => exact ReadsTerm.group ih
  | or _ h' hw hw' ihl ihr => exact ReadsGroup.or ihl ihr h'.ne_nil hw hw'

/-- What is read off the front of a text. -/
theorem parseGroup_printed (h : Printed TwoBytes .group node t) (hends : EndsTerm t rest)
    (hstop : ∀ c ∈ (trimStart rest).head?, c ≠ '|') :
    ∃ node', (∀ ctx, Node.Holds ctx node' ↔ node.Holds ctx) ∧
      parseGroup (t ++ rest) = .ok (node', trimStart rest) := by
  obtain ⟨node', hsame, hparse⟩ := ReadsGroup.first h.reads [] rest (fun c hc => absurd hc List.not_mem_nil) hends
  exact ⟨node', hsame, by rw [← joinAll_stop hstop, ← hparse, List.nil_append]⟩

/-! ### Sentences -/

theorem isWhitespace_of_isValueChar {c : Char} (h : isValueChar c = true) : isWhitespace c = false := by
  refine Bool.eq_false_iff.2 fun hblank => ?_
  rw [isValueChar_of_isWhitespace hblank] at h
  cases h

/-- A text neither starts nor ends with white space. -/
theorem Printed.edges (h : Printed TwoBytes level node t) :
    (∀ c, t.head? = some c → isWhitespace c = false) ∧ ∀ c, t.getLast? = some c → isWhitespace c = false := by
  induction h with
  | @atom a digits hname hvalue =>
    obtain ⟨c, u, hcons, hblank, -⟩ := hname.exists_cons
    obtain ⟨d, v, hdigits⟩ := exists_cons_of_numeral hvalue
    have hne : digits ≠ [] := by simp [hdigits]
    constructor
    · intro e he
      rw [hcons] at he
      exact Option.some.inj he ▸ hblank
    · intro e he
      rw [← List.append_assoc, List.getLast?_append_of_ne_nil _ hne] at he
      exact isWhitespace_of_isValueChar (valueChar_of_numeral hvalue e (List.mem_of_getLast? he))
  | @parens node t w w' _ _ _ _ =>
    constructor
    · intro c hc
      exact Option.some.inj hc ▸ by decide
    · intro c hc
      have happend : '(' :: (w ++ (t ++ (w' ++ [')']))) = ('(' :: (w ++ (t ++ w'))) ++ [')'] := by simp
      rw [happend, List.getLast?_append_of_ne_nil _ (List.cons_ne_nil _ _)] at hc
      exact Option.some.inj hc ▸ by decide
  | factor _ ih => exact ih
  | @and left right t t' w w' h h' _ _ ihl ihr =>
    constructor
    · intro c hc
      rw [List.head?_append_of_ne_nil _ h.ne_nil] at hc
      exact ihl.1 c hc
    · intro c hc
      have happend : t ++ (w ++ '&' :: (w' ++ t')) = t ++ (w ++ '&' :: w') ++ t' := by simp
      rw [happend, List.getLast?_append_of_ne_nil _ h'.ne_nil] at hc
      exact ihr.2 c hc
  | term _ ih => exact ih
  | @or left right t t' w w' h h' _ _ ihl ihr =>
    constructor
    · intro c hc
      rw [List.head?_append_of_ne_nil _ h.ne_nil] at hc
      exact ihl.1 c hc
    · intro c hc
      have happend : t ++ (w ++ '|' :: (w' ++ t')) = t ++ (w ++ '|' :: w') ++ t' := by simp
      rw [happend, List.getLast?_append_of_ne_nil _ h'.ne_nil] at hc
      exact ihr.2 c hc

/-- Whatever the white space and the parentheses, the text of a tree evaluates to whether the tree holds. -/
theorem evaluate_printed (h : Printed Letters .group node t) (hw : Blank w) (hw' : Blank w')
    (ctx : CriterionContext) :
    ∃ b, evaluate (w ++ (t ++ w')) ctx = .ok b ∧ (b = true ↔ node.Holds ctx) := by
  have hbytes := h.mono fun _ => Letters.twoBytes
  have htrim : trim (w ++ (t ++ w')) = t := trim_append hw hw' hbytes.edges.1 hbytes.edges.2
  have hnone {P : Char → Prop} : ∀ c ∈ (trimStart []).head?, P c := fun c hc => by cases hc
  have hend : EndsTerm t [] := ⟨.inl (fun c hc => by cases hc), hnone⟩
  obtain ⟨node', hsame, hparse⟩ := parseGroup_printed hbytes hend hnone
  rw [List.append_nil] at hparse
  refine ⟨evalNode ctx node', ?_, evalNode_iff.trans (hsame ctx)⟩
  rw [evaluate, htrim, if_neg hbytes.ne_nil, hparse]

/-- Every atom with a type of two letters and a value of 32 bits has a text. -/
theorem Printed.of_atom {a : Atom} (hname : Letters a.criterionType.toList) (hlow : -2147483648 ≤ a.value)
    (hhigh : a.value < 2147483648) :
    Printed Letters .factor (.atom a) (a.criterionType.toList ++ (a.operator.text ++ (toString a.value).toList)) :=
  .atom hname (numeral_toString hlow hhigh)

theorem Printed.of_letters {a b : Char} (ha : a.isAlpha = true) (hb : b.isAlpha = true) (op : Op) {v : Int}
    {digits : List Char} (hvalue : Numeral 2147483648 v digits) :
    Printed Letters .factor (.atom ⟨String.ofList [a, b], op, v⟩) (a :: b :: (op.text ++ digits)) := by
  have h := @Printed.atom Letters ⟨String.ofList [a, b], op, v⟩ digits ⟨a, b, String.toList_ofList, ha, hb⟩ hvalue
  rwa [String.toList_ofList] at h

/-- `PL>-5 &(Ps=8|Qf=42)` -/
theorem evaluate_printed_parens :
    ∃ b, evaluate [' ', 'P', 'L', '>', '-', '5', ' ', '&', '(', 'P', 's', '=', '8', '|', 'Q', 'f', '=', '4', '2', ')']
      ⟨10, 3, 0, [42], []⟩ = .ok b ∧
      (b = true ↔ (Node.and (.atom ⟨String.ofList ['P', 'L'], .gt, -5⟩)
      (.or (.atom ⟨String.ofList ['P', 's'], .eq, 8⟩)
        (.atom ⟨String.ofList ['Q', 'f'], .eq, 42⟩))).Holds ⟨10, 3, 0, [42], []⟩) := by
  have hblank : Blank [' '] := by decide
  have hempty : Blank [] := by decide
  have hlevel := @Printed.of_letters 'P' 'L' rfl rfl .gt (-5) ['-', '5']
    (.neg (by decide) (by decide) (by decide) (by decide))
  have hbreed := @Printed.of_letters 'P' 's' rfl rfl .eq 8 ['8']
    (.nonneg (by decide) (by decide) (by decide) (by decide))
  have hquest := @Printed.of_letters 'Q' 'f' rfl rfl .eq 42 ['4', '2']
    (.nonneg (by decide) (by decide) (by decide) (by decide))
  have hor := Printed.or (.term (.factor hbreed)) (.term (.factor hquest)) hempty hempty
  have hand := Printed.and (.factor hlevel) (.factor (.parens hor hempty hempty)) hblank hempty
  exact evaluate_printed (.term hand) hblank hempty ⟨10, 3, 0, [42], []⟩

end Otomai.Common.Criterion
