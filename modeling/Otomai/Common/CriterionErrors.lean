import Otomai.Common.CriterionGrammar

/-!
# Criteria with errors

What cannot be parsed passes.  But the type of an atom is cut off by bytes, which panics where a character lies across
the cut, and what follows the text of a tree is ignored.

* `parseGroup_sound`: what has been read is the text of the tree.
* `parseGroup_panic_iff`: where the parser panics.
* `evaluate_lenient_iff`: which texts evaluate to true unless they are sentences.
-/

namespace Otomai.Common.Criterion

open Text Wire

/-- After this text a factor is expected. -/
inductive Expects : List Char → Prop where
  | start {w : List Char} (hw : Blank w) : Expects w
  | open {u w : List Char} (hu : Expects u) (hw : Blank w) : Expects (u ++ '(' :: w)
  | next {sep : Char} {node : Node} {u t w w' : List Char} (hsep : sep = '&' ∨ sep = '|') (hu : Expects u)
      (ht : Printed TwoBytes .factor node t) (hw : Blank w) (hw' : Blank w') : Expects (u ++ (t ++ (w ++ sep :: w')))

variable {node left : Node} {level : Level} {s t u w w' r rest : List Char}

/-! ### What has been read -/

/-- The rest after a group neither goes on with a value nor with an operator. -/
def EndsGroup (t rest : List Char) : Prop := Ends t rest ∧ ∀ c ∈ (trimStart rest).head?, c ≠ '&' ∧ c ≠ '|'

def FactorSound (s : List Char) : Prop :=
  ∀ node r, parseFactor s = .ok (node, r) →
    ∃ w t, s = w ++ (t ++ r) ∧ Blank w ∧ Printed TwoBytes .factor node t ∧ Ends t r

def TermSound (s : List Char) : Prop :=
  ∀ node r, parseTerm s = .ok (node, r) →
    ∃ w t rest, s = w ++ (t ++ rest) ∧ r = trimStart rest ∧ Blank w ∧ Printed TwoBytes .term node t ∧ EndsTerm t rest

def GroupSound (s : List Char) : Prop :=
  ∀ node r, parseGroup s = .ok (node, r) →
    ∃ w t rest, s = w ++ (t ++ rest) ∧ r = trimStart rest ∧ Blank w ∧ Printed TwoBytes .group node t ∧
      EndsGroup t rest

theorem Ends.append (u : List Char) (h : Ends t rest) (ht : t ≠ []) : Ends (u ++ t) rest :=
  h.imp_right fun hlast => by rwa [List.getLast?_append_of_ne_nil u ht]

/-- What the loop of a term has read. -/
def TermRead (s : List Char) (left : Node) (rest : List Char) : Prop :=
  ∃ w t, s = w ++ (t ++ rest) ∧ Blank w ∧ Printed TwoBytes .term left t ∧ Ends t rest

theorem TermRead.step (hfactor : ∀ t, t.length ≤ s.length → FactorSound t) (h : TermRead s left rest)
    (hsep : trimStart rest = '&' :: r) {x : Node × List Char} (hx : parseFactor r = .ok x) :
    TermRead s (.and left x.1) x.2 := by
  obtain ⟨w, t, rfl, hw, hprinted, -⟩ := h
  obtain ⟨w₁, hrest, hw₁⟩ := exists_trimStart rest
  rw [hsep] at hrest
  have hlength : r.length ≤ (w ++ (t ++ rest)).length := by
    rw [hrest]
    simp only [List.length_append, List.length_cons]
    omega
  obtain ⟨w₂, t₂, hr, hw₂, hprinted₂, hends₂⟩ := hfactor r hlength _ _ hx
  refine ⟨w, t ++ (w₁ ++ '&' :: (w₂ ++ t₂)), ?_, hw, .and hprinted (.factor hprinted₂) hw₁ hw₂, ?_⟩
  · rw [hrest, hr]
    simp
  · have h := hends₂.append (t ++ (w₁ ++ '&' :: w₂)) hprinted₂.ne_nil
    simpa using h

theorem termSound (hfactor : ∀ t, t.length ≤ s.length → FactorSound t) : TermSound s := by
  intro node r h
  obtain ⟨⟨left, rest⟩, hleft, hloop⟩ := Outcome.bind_eq_ok.1 h
  have hstart : TermRead s left rest := by
    obtain ⟨w, t, hs, hw, hprinted, hends⟩ := hfactor s le_rfl _ _ hleft
    exact ⟨w, t, hs, hw, .factor hprinted, hends⟩
  obtain ⟨rest', ⟨w, t, hs, hw, hprinted, hends⟩, rfl, hstop⟩ :=
    joinAll_ok parseFactor_shrinks (fun _ _ _ _ hread hsep hx => hread.step hfactor hsep hx) hstart hloop
  exact ⟨w, t, rest', hs, rfl, hw, hprinted, hends, hstop⟩

/-- What the loop of a group has read. -/
def GroupRead (s : List Char) (left : Node) (rest : List Char) : Prop :=
  ∃ w t rest', s = w ++ (t ++ rest') ∧ rest = trimStart rest' ∧ Blank w ∧ Printed TwoBytes .group left t ∧
    EndsTerm t rest'

theorem GroupRead.step (hterm : ∀ t, t.length ≤ s.length → TermSound t) (h : GroupRead s left rest)
    (hsep : trimStart rest = '|' :: r) {x : Node × List Char} (hx : parseTerm r = .ok x) :
    GroupRead s (.or left x.1) x.2 := by
  obtain ⟨w, t, rest', rfl, rfl, hw, hprinted, -⟩ := h
  obtain ⟨w₁, hrest, hw₁⟩ := exists_trimStart rest'
  rw [trimStart_trimStart] at hsep
  rw [hsep] at hrest
  have hlength : r.length ≤ (w ++ (t ++ rest')).length := by
    rw [hrest]
    simp only [List.length_append, List.length_cons]
    omega
  obtain ⟨w₂, t₂, rest₂, hr, hx₂, hw₂, hprinted₂, hends₂⟩ := hterm r hlength _ _ hx
  refine ⟨w, t ++ (w₁ ++ '|' :: (w₂ ++ t₂)), rest₂, ?_, hx₂, hw, .or hprinted (.term hprinted₂) hw₁ hw₂, ?_, hends₂.2⟩
  · rw [hrest, hr]
    simp
  · have h := hends₂.1.append (t ++ (w₁ ++ '|' :: w₂)) hprinted₂.ne_nil
    simpa using h

theorem groupSound (hterm : ∀ t, t.length ≤ s.length → TermSound t) : GroupSound s := by
  intro node r h
  obtain ⟨⟨left, rest⟩, hleft, hloop⟩ := Outcome.bind_eq_ok.1 h
  have hstart : GroupRead s left rest := by
    obtain ⟨w, t, rest', hs, hrest, hw, hprinted, hends⟩ := hterm s le_rfl _ _ hleft
    exact ⟨w, t, rest', hs, hrest, hw, .term hprinted, hends⟩
  obtain ⟨rest₁, ⟨w, t, rest', hs, rfl, hw, hprinted, hends⟩, rfl, hstop⟩ :=
    joinAll_ok parseTerm_shrinks (fun _ _ _ _ hread hsep hx => hread.step hterm hsep hx) hstart hloop
  rw [trimStart_trimStart] at hstop
  exact ⟨w, t, rest', hs, trimStart_trimStart rest', hw, hprinted, hends.1, fun c hc => ⟨hends.2 c hc, hstop c hc⟩⟩

/-- What is read as an atom is one, with a type of two bytes. -/
theorem parseAtom_sound (hparen : ∀ r, trimStart s ≠ '(' :: r) (h : parseAtom s = .ok (node, r)) :
    ∃ w t, s = w ++ (t ++ r) ∧ Blank w ∧ Printed TwoBytes .factor node t ∧ Ends t r := by
  obtain ⟨w, hs, hw⟩ := exists_trimStart s
  unfold parseAtom at h
  dsimp only at h
  split at h
  · cases h
  split at h
  · cases h
  rename_i criterionType rest hsplit
  split at h
  · cases h
  rename_i op valueStr hop
  split at h
  · cases h
  rename_i value hvalue
  obtain ⟨hparts, hlength⟩ := splitBytes_eq_some hsplit
  obtain rfl := parseOp_eq_some hop
  simp only [Outcome.ok.injEq, Prod.mk.injEq] at h
  obtain ⟨rfl, rfl⟩ := h
  have hspan := List.takeWhile_append_dropWhile (p := isValueChar) (l := valueStr)
  have hplus : '+' ∉ valueStr.takeWhile isValueChar := fun hmem =>
    absurd (List.mem_takeWhile_imp hmem) (by decide)
  have hname : TwoBytes criterionType := by
    refine ⟨hlength, fun c hc => ?_⟩
    obtain ⟨u, rfl⟩ := List.head?_eq_some_iff.1 hc
    refine ⟨head_trimStart (s := s) (by rw [hparts]; rfl), ?_⟩
    rintro rfl
    exact hparen _ hparts
  have hatom := @Printed.atom TwoBytes ⟨String.ofList criterionType, op, value⟩ (valueStr.takeWhile isValueChar)
    (by rwa [String.toList_ofList]) ((parseSigned_eq_some hplus).1 hvalue)
  rw [String.toList_ofList] at hatom
  refine ⟨w, _, ?_, hw, hatom, .inl fun c hc => ?_⟩
  · rw [List.append_assoc, List.append_assoc, hspan, ← hparts]
    exact hs
  · have hnot := List.head?_dropWhile_not isValueChar valueStr
    rw [hc] at hnot
    simpa using hnot

theorem factorSound (s : List Char) : FactorSound s := by
  generalize hk : s.length = k
  induction k using Nat.strong_induction_on generalizing s with
  | _ k ih =>
    intro node r h
    by_cases hopen : ∃ r, trimStart s = '(' :: r
    · obtain ⟨r₁, hr₁⟩ := hopen
      have hle := length_trimStart_le s
      rw [hr₁, List.length_cons] at hle
      have hgroup : GroupSound r₁ :=
        groupSound fun t ht => termSound fun u hu => ih u.length (by omega) u rfl
      rw [parseFactor_parens hr₁] at h
      obtain ⟨⟨node', r₂⟩, hparse, hclose⟩ := Outcome.bind_eq_ok.1 h
      obtain ⟨w₁, t, rest, hr, rfl, hw₁, hprinted, -⟩ := hgroup _ _ hparse
      obtain ⟨w, hs, hw⟩ := exists_trimStart s
      obtain ⟨w₂, hrest, hw₂⟩ := exists_trimStart rest
      rw [trimStart_trimStart] at hclose
      split at hclose
      · rename_i rest' hrest'
        simp only [Outcome.ok.injEq, Prod.mk.injEq] at hclose
        obtain ⟨rfl, rfl⟩ := hclose
        refine ⟨w, _, ?_, hw, .parens hprinted hw₁ hw₂, .inr ?_⟩
        · rw [hs, hr₁, hr, hrest, hrest']
          simp
        · have happend : '(' :: (w₁ ++ (t ++ (w₂ ++ [')']))) = ('(' :: (w₁ ++ (t ++ w₂))) ++ [')'] := by simp
          rw [happend, List.getLast?_append_of_ne_nil _ (List.cons_ne_nil _ _)]
          rfl
      · cases hclose
    · have hparen : ∀ r, trimStart s ≠ '(' :: r := fun r hr => hopen ⟨r, hr⟩
      rw [parseFactor_atom hparen] at h
      exact parseAtom_sound hparen h

theorem parseGroup_sound (s : List Char) : GroupSound s :=
  groupSound fun _ _ => termSound fun u _ => factorSound u

/-! ### Where the parser panics -/

/-- The text starts like an atom, and a character lies across its second byte. -/
def Cuts : List Char → Prop
  | [] => False
  | c :: s => isWhitespace c = false ∧ c ≠ '(' ∧ (2 < c.utf8Size ∨ c.utf8Size = 1 ∧ ∃ d ∈ s.head?, 1 < d.utf8Size)

/-- Somewhere an atom is expected and a character lies across the second byte. -/
def Panics (s : List Char) : Prop := ∃ u rest, s = u ++ rest ∧ Expects u ∧ Cuts rest

theorem Expects.blank (h : Expects u) (hv : Blank w) : Expects (u ++ w) := by
  have hboth {x : List Char} (hx : Blank x) : Blank (x ++ w) := List.forall_mem_append.2 ⟨hx, hv⟩
  cases h with
  | start hw => exact .start (hboth hw)
  | «open» hu hw =>
    rw [List.append_assoc, List.cons_append]
    exact .open hu (hboth hw)
  | next hsep hu ht hw hw' =>
    simp only [List.append_assoc, List.cons_append]
    exact .next hsep hu ht hw (hboth hw')

/-- Texts after which a factor is expected may follow one another. -/
theorem Expects.append {v : List Char} (hu : Expects u) (hv : Expects v) : Expects (u ++ v) := by
  induction hv with
  | start hw => exact hu.blank hw
  | «open» _ hw ih =>
    rw [← List.append_assoc]
    exact .open ih hw
  | next hsep _ ht hw hw' ih =>
    rw [← List.append_assoc]
    exact .next hsep ih ht hw hw'

/-- After an operator a factor is expected, whatever stands before it. -/
theorem Expects.printed (h : Printed TwoBytes level node t) (hu : Expects u) {sep : Char}
    (hsep : sep = '&' ∨ sep = '|')
    (hw : Blank w) (hw' : Blank w') : Expects (u ++ (t ++ (w ++ sep :: w'))) := by
  induction h generalizing u w w' sep with
  | atom hname hvalue => exact .next hsep hu (.atom hname hvalue) hw hw'
  | parens h hv hv' _ => exact .next hsep hu (.parens h hv hv') hw hw'
  | factor _ ih => exact ih hu hsep hw hw'
  | and _ _ hv hv' ihl ihr =>
    have h := ihr (@ihl _ _ _ hu '&' (.inl rfl) hv hv') hsep hw hw'
    simpa using h
  | term _ ih => exact ih hu hsep hw hw'
  | or _ _ hv hv' ihl ihr =>
    have h := ihr (@ihl _ _ _ hu '|' (.inr rfl) hv hv') hsep hw hw'
    simpa using h

theorem Panics.after (hu : Expects u) (h : Panics s) : Panics (u ++ s) := by
  obtain ⟨v, rest, rfl, hv, hcuts⟩ := h
  exact ⟨u ++ v, rest, by rw [List.append_assoc], hu.append hv, hcuts⟩

theorem parseAtom_cuts (h : Cuts s) : parseAtom s = .panic := by
  cases s with
  | nil => exact h.elim
  | cons c s =>
    obtain ⟨hblank, -, hsize⟩ := h
    have hlength : ¬byteLength (c :: s) < 3 := by
      rw [byteLength, List.map_cons, List.sum_cons]
      rcases hsize with hsize | ⟨hsize, d, hd, hsize'⟩
      · omega
      · obtain ⟨u, rfl⟩ := List.head?_eq_some_iff.1 hd
        rw [List.map_cons, List.sum_cons]
        omega
    have hsplit : splitBytes (c :: s) 2 = none := by
      rw [splitBytes]
      rcases hsize with hsize | ⟨hsize, d, hd, hsize'⟩
      · rw [if_neg (by omega)]
      · obtain ⟨u, rfl⟩ := List.head?_eq_some_iff.1 hd
        have hcut : splitBytes (d :: u) 1 = none := by rw [splitBytes, if_neg (by omega)]
        rw [if_pos (by omega), hsize, hcut]
        rfl
    simp only [parseAtom, trimStart_cons hblank, if_neg hlength, hsplit]

theorem cuts_of_parseAtom (hparen : ∀ r, trimStart s ≠ '(' :: r) (h : parseAtom s = .panic) : Cuts (trimStart s) := by
  unfold parseAtom at h
  dsimp only at h
  split at h
  · cases h
  rename_i hlength
  split at h
  · rename_i hsplit
    cases htrim : trimStart s with
    | nil =>
      rw [htrim] at hlength
      exact absurd (by decide) hlength
    | cons c u =>
      rw [htrim] at hlength hsplit
      refine ⟨head_trimStart (s := s) (by rw [htrim]; rfl), fun hc => hparen u (by rw [htrim, hc]), ?_⟩
      rw [splitBytes] at hsplit
      have hpos := Char.utf8Size_pos c
      by_cases hsize : c.utf8Size ≤ 2
      · rw [if_pos (by omega)] at hsplit
        have hrest := Option.map_eq_none_iff.1 hsplit
        by_cases hone : c.utf8Size = 1
        · rw [hone] at hrest
          refine .inr ⟨hone, ?_⟩
          cases u with
          | nil =>
            rw [byteLength, List.map_cons, List.sum_cons, hone] at hlength
            exact absurd (by decide) hlength
          | cons d v =>
            refine ⟨d, rfl, ?_⟩
            rw [splitBytes] at hrest
            by_contra hle
            rw [if_pos (by omega)] at hrest
            have hend : 0 + 1 - d.utf8Size = 0 := by have := Char.utf8Size_pos d; omega
            have hzero : splitBytes v 0 = some ([], v) := by cases v <;> rfl
            rw [hend, hzero] at hrest
            cases hrest
        · have hend : 1 + 1 - c.utf8Size = 0 := by omega
          have hzero : splitBytes u 0 = some ([], u) := by cases u <;> rfl
          rw [hend, hzero] at hrest
          cases hrest
      · exact .inl (by omega)
  · split at h
    · cases h
    · split at h <;> cases h

theorem term_panics (hfactor : ∀ t, t.length ≤ s.length → parseFactor t = .panic → Panics t)
    (h : parseTerm s = .panic) : Panics s := by
  rw [parseTerm, parseInfix] at h
  cases hleft : parseFactor s with
  | panic => exact hfactor s le_rfl hleft
  | err e =>
    rw [hleft] at h
    cases h
  | exhausted =>
    rw [hleft] at h
    cases h
  | ok x =>
    rw [hleft, Outcome.ok_bind] at h
    have hstart : TermRead s x.1 x.2 := by
      obtain ⟨w, t, hs, hw, hprinted, hends⟩ := factorSound s _ _ hleft
      exact ⟨w, t, hs, hw, .factor hprinted, hends⟩
    obtain ⟨left, rest, r, ⟨w, t, hs, hw, hprinted, -⟩, hsep, hpanic⟩ :=
      joinAll_panic parseFactor_shrinks
        (fun _ _ _ _ hread hsep hx => hread.step (fun u _ => factorSound u) hsep hx) hstart h
    obtain ⟨w₁, hrest, hw₁⟩ := exists_trimStart rest
    rw [hsep] at hrest
    have hexpects : Expects (w ++ (t ++ (w₁ ++ ['&']))) :=
      Expects.printed hprinted (.start hw) (.inl rfl) hw₁ (fun c hc => absurd hc List.not_mem_nil)
    have hlength : r.length ≤ s.length := by
      rw [hs, hrest]
      simp only [List.length_append, List.length_cons]
      omega
    have hpanics := (hfactor r hlength hpanic).after hexpects
    rw [hs, hrest]
    simpa using hpanics

theorem group_panics (hterm : ∀ t, t.length ≤ s.length → parseTerm t = .panic → Panics t)
    (h : parseGroup s = .panic) : Panics s := by
  rw [parseGroup, parseInfix] at h
  cases hleft : parseTerm s with
  | panic => exact hterm s le_rfl hleft
  | err e =>
    rw [hleft] at h
    cases h
  | exhausted =>
    rw [hleft] at h
    cases h
  | ok x =>
    rw [hleft, Outcome.ok_bind] at h
    have hsound (u : List Char) : TermSound u := termSound fun v _ => factorSound v
    have hstart : GroupRead s x.1 x.2 := by
      obtain ⟨w, t, rest, hs, hrest, hw, hprinted, hends⟩ := hsound s _ _ hleft
      exact ⟨w, t, rest, hs, hrest, hw, .term hprinted, hends⟩
    obtain ⟨left, rest₁, r, ⟨w, t, rest, hs, rfl, hw, hprinted, -⟩, hsep, hpanic⟩ :=
      joinAll_panic parseTerm_shrinks
        (fun _ _ _ _ hread hsep hx => hread.step (fun u _ => hsound u) hsep hx) hstart h
    rw [trimStart_trimStart] at hsep
    obtain ⟨w₁, hrest, hw₁⟩ := exists_trimStart rest
    rw [hsep] at hrest
    have hexpects : Expects (w ++ (t ++ (w₁ ++ ['|']))) :=
      Expects.printed hprinted (.start hw) (.inr rfl) hw₁ (fun c hc => absurd hc List.not_mem_nil)
    have hlength : r.length ≤ s.length := by
      rw [hs, hrest]
      simp only [List.length_append, List.length_cons]
      omega
    have hpanics := (hterm r hlength hpanic).after hexpects
    rw [hs, hrest]
    simpa using hpanics

theorem factor_panics (s : List Char) (h : parseFactor s = .panic) : Panics s := by
  generalize hk : s.length = k
  induction k using Nat.strong_induction_on generalizing s with
  | _ k ih =>
    obtain ⟨w, hs, hw⟩ := exists_trimStart s
    by_cases hopen : ∃ r, trimStart s = '(' :: r
    · obtain ⟨r, hr⟩ := hopen
      have hle := length_trimStart_le s
      rw [hr, List.length_cons] at hle
      rw [parseFactor_parens hr] at h
      have hpanic : parseGroup r = .panic := by
        cases hgroup : parseGroup r with
        | panic => rfl
        | err e =>
          rw [hgroup] at h
          cases h
        | exhausted =>
          rw [hgroup] at h
          cases h
        | ok x =>
          rw [hgroup, Outcome.ok_bind] at h
          split at h <;> cases h
      have hpanics : Panics r :=
        group_panics (fun t ht => term_panics fun u hu hpanic => ih u.length (by omega) u hpanic rfl) hpanic
      have hexpects : Expects (w ++ ['(']) := .open (.start hw) fun c hc => absurd hc List.not_mem_nil
      rw [hs, hr]
      simpa using hpanics.after hexpects
    · have hparen : ∀ r, trimStart s ≠ '(' :: r := fun r hr => hopen ⟨r, hr⟩
      rw [parseFactor_atom hparen] at h
      exact ⟨w, trimStart s, hs, .start hw, cuts_of_parseAtom hparen h⟩

/-- What a parser leaves, or how else it ends. -/
def Remainder (p : Parser Node) (s : List Char) : Outcome Unit (List Char) := p s >>= fun x => .ok x.2

theorem remainder_panic {p : Parser Node} : Remainder p s = .panic ↔ p s = .panic := by
  rw [Remainder]
  cases p s <;> simp

/-- What a group leaves is decided by what its first term leaves. -/
theorem remainder_group (h : Remainder parseTerm s = Remainder parseTerm t) :
    Remainder parseGroup s = Remainder parseGroup t := by
  rw [Remainder, Remainder] at h
  rw [Remainder, Remainder, parseGroup, parseInfix, parseInfix]
  cases hs : parseTerm s with
  | ok x =>
    cases ht : parseTerm t with
    | ok y =>
      rw [hs, ht, Outcome.ok_bind, Outcome.ok_bind, Outcome.ok.injEq] at h
      have hleft := @joinAll_left _ _ '|' Node.or parseTerm_shrinks x.1 y.1 y.2
      simp only [Outcome.ok_bind, h]
      exact hleft
    | _ =>
      rw [hs, ht] at h
      cases h
  | err e =>
    cases ht : parseTerm t with
    | err e' => rfl
    | _ =>
      rw [hs, ht] at h
      cases h
  | panic =>
    cases ht : parseTerm t with
    | panic => rfl
    | _ =>
      rw [hs, ht] at h
      cases h
  | exhausted =>
    cases ht : parseTerm t with
    | exhausted => rfl
    | _ =>
      rw [hs, ht] at h
      cases h

theorem parseFactor_blank (hw : Blank w) (s : List Char) : parseFactor (w ++ s) = parseFactor s := by
  rw [parseFactor_eq, trimStart_append hw, ← parseFactor_eq]

theorem parseTerm_blank (hw : Blank w) (s : List Char) : parseTerm (w ++ s) = parseTerm s := by
  rw [parseTerm, parseInfix, parseFactor_blank hw, parseInfix]

theorem parseGroup_blank (hw : Blank w) (s : List Char) : parseGroup (w ++ s) = parseGroup s := by
  rw [parseGroup, parseInfix, parseTerm_blank hw, parseInfix]

theorem parseGroup_of_factor (h : parseFactor s = .panic) : parseGroup s = .panic := by
  rw [parseGroup, parseInfix, parseTerm, parseInfix, h]
  rfl

/-- A group goes on after a factor and an operator as it would start there. -/
theorem remainder_next {sep : Char} (hsep : sep = '&' ∨ sep = '|') (ht : Printed TwoBytes .factor node t)
    (hw : Blank w)
    (hw' : Blank w') (s : List Char) :
    Remainder parseGroup (t ++ (w ++ sep :: (w' ++ s))) = Remainder parseGroup s := by
  have hvalue : isValueChar sep = false := by rcases hsep with rfl | rfl <;> decide
  have htrim : trimStart (w ++ sep :: (w' ++ s)) = sep :: (w' ++ s) := by
    rcases hsep with rfl | rfl <;> exact trimStart_sep hw (by decide) _
  have hblank : Blank [] := fun c hc => absurd hc List.not_mem_nil
  obtain ⟨node', -, hparse⟩ := ReadsFactor.term ht.reads |>.first [] _ hblank (ends_blank t hw hvalue (w' ++ s))
  rw [List.nil_append] at hparse
  rcases hsep with rfl | rfl
  · refine remainder_group ?_
    rw [Remainder, hparse, joinAll_sep parseFactor_shrinks htrim, parseFactor_blank hw', Remainder,
      parseTerm, parseInfix]
    cases parseFactor s with
    | ok x => exact joinAll_left parseFactor_shrinks _ _ _
    | _ => rfl
  · have hstop : ∀ c ∈ (trimStart (w ++ '|' :: (w' ++ s))).head?, c ≠ '&' := by
      intro c hc
      rw [htrim] at hc
      exact Option.some.inj hc ▸ by decide
    rw [joinAll_stop hstop, htrim] at hparse
    rw [Remainder, parseGroup, parseInfix, hparse, Outcome.ok_bind]
    dsimp only
    rw [joinAll_sep parseTerm_shrinks (trimStart_cons (by decide) _), parseTerm_blank hw', Remainder, parseInfix]
    cases parseTerm s with
    | ok x => exact joinAll_left parseTerm_shrinks _ _ _
    | _ => rfl

theorem Expects.panics (hu : Expects u) (h : parseGroup s = .panic) : parseGroup (u ++ s) = .panic := by
  induction hu generalizing s with
  | start hw => rwa [parseGroup_blank hw]
  | @«open» u w _ hw ih =>
    have hopen : parseGroup ('(' :: (w ++ s)) = .panic := by
      refine parseGroup_of_factor ?_
      rw [parseFactor_parens (trimStart_cons (by decide) _), parseGroup_blank hw, h]
      rfl
    simpa using ih hopen
  | @next sep node u t w w' hsep _ ht hw hw' ih =>
    have hnext : parseGroup (t ++ (w ++ sep :: (w' ++ s))) = .panic := by
      rw [← remainder_panic, remainder_next hsep ht hw hw', remainder_panic, h]
    simpa using ih hnext

/-- The parser panics where a character lies across the second byte of what should be an atom, and nowhere else. -/
theorem parseGroup_panic_iff : parseGroup s = .panic ↔ Panics s := by
  constructor
  · exact group_panics fun _ _ => term_panics fun u _ => factor_panics u
  · rintro ⟨u, rest, rfl, hu, hcuts⟩
    refine hu.panics (parseGroup_of_factor ?_)
    rw [parseFactor_atom, parseAtom_cuts hcuts]
    intro r hr
    cases rest with
    | nil => exact hcuts
    | cons c rest =>
      rw [trimStart_cons hcuts.1, List.cons.injEq] at hr
      exact hcuts.2.1 hr.1

/-! ### That it ends -/

theorem parseAtom_ne_exhausted (s : List Char) : parseAtom s ≠ .exhausted := by
  intro h
  unfold parseAtom at h
  dsimp only at h
  split at h
  · cases h
  split at h
  · cases h
  split at h
  · cases h
  split at h <;> cases h

theorem parseFactor_ne_exhausted (s : List Char) : parseFactor s ≠ .exhausted := by
  generalize hk : s.length = k
  induction k using Nat.strong_induction_on generalizing s with
  | _ k ih =>
    by_cases hopen : ∃ r, trimStart s = '(' :: r
    · obtain ⟨r, hr⟩ := hopen
      have hle := length_trimStart_le s
      rw [hr, List.length_cons] at hle
      have hgroup : parseGroup r ≠ .exhausted :=
        parseInfix_ne_exhausted parseTerm_shrinks fun t ht =>
          parseInfix_ne_exhausted parseFactor_shrinks fun u hu => ih u.length (by omega) u rfl
      rw [parseFactor_parens hr]
      cases hparse : parseGroup r with
      | exhausted => exact absurd hparse hgroup
      | ok x =>
        rw [Outcome.ok_bind]
        split <;> exact nofun
      | _ => exact nofun
    · rw [parseFactor_atom fun r hr => hopen ⟨r, hr⟩]
      exact parseAtom_ne_exhausted s

theorem parseGroup_ne_exhausted (s : List Char) : parseGroup s ≠ .exhausted :=
  parseInfix_ne_exhausted parseTerm_shrinks fun _ _ =>
    parseInfix_ne_exhausted parseFactor_shrinks fun u _ => parseFactor_ne_exhausted u

/-! ### Leniency -/

/-- The text is that of a tree. -/
def Sentence (s : List Char) : Prop :=
  ∃ node w t w', s = w ++ (t ++ w') ∧ Blank w ∧ Blank w' ∧ Printed Letters .group node t

/-- The evaluation returns, and what is not a sentence passes. -/
def Lenient (s : List Char) (ctx : CriterionContext) : Prop :=
  ∃ b, evaluate s ctx = .ok b ∧ (¬Sentence s → b = true)

/-- If the text is not a sentence but starts with the text of a tree that the rest does not go on with, the tree
holds. -/
def StartHolds (s : List Char) (ctx : CriterionContext) : Prop :=
  ¬Sentence s → ∀ node t rest, trim s = t ++ rest → Printed TwoBytes .group node t → EndsGroup t rest → node.Holds ctx

/-- A text is evaluated leniently unless the parser panics, or the tree at its start decides. -/
theorem evaluate_lenient_iff (s : List Char) (ctx : CriterionContext) :
    Lenient s ctx ↔ ¬Panics (trim s) ∧ StartHolds s ctx := by
  by_cases hempty : trim s = []
  · have heval : evaluate s ctx = .ok true := by rw [evaluate, if_pos hempty]
    refine iff_of_true ⟨true, heval, fun _ => rfl⟩ ⟨?_, ?_⟩
    · rintro ⟨u, rest, h, -, hcuts⟩
      rw [hempty] at h
      rw [(List.append_eq_nil_iff.1 h.symm).2] at hcuts
      exact hcuts
    · intro _ node t rest h hprinted _
      rw [hempty] at h
      exact absurd (List.append_eq_nil_iff.1 h.symm).1 hprinted.ne_nil
  rw [← parseGroup_panic_iff]
  cases hparse : parseGroup (trim s) with
  | panic =>
    have heval : evaluate s ctx = .panic := by rw [evaluate, if_neg hempty, hparse]
    refine iff_of_false ?_ fun h => h.1 rfl
    rintro ⟨b, hb, -⟩
    rw [heval] at hb
    cases hb
  | exhausted => exact absurd hparse (parseGroup_ne_exhausted _)
  | err e =>
    have heval : evaluate s ctx = .ok true := by rw [evaluate, if_neg hempty, hparse]
    refine iff_of_true ⟨true, heval, fun _ => rfl⟩ ⟨(fun h => by cases h), ?_⟩
    intro _ node t rest h hprinted hends
    obtain ⟨node', -, hread⟩ := parseGroup_printed hprinted ⟨hends.1, fun c hc => (hends.2 c hc).1⟩
      fun c hc => (hends.2 c hc).2
    rw [← h, hparse] at hread
    cases hread
  | ok x =>
    have heval : evaluate s ctx = .ok (evalNode ctx x.1) := by rw [evaluate, if_neg hempty, hparse]
    constructor
    · rintro ⟨b, hb, htrue⟩
      refine ⟨(fun h => by cases h), fun hsentence node t rest h hprinted hends => ?_⟩
      obtain ⟨node', hsame, hread⟩ := parseGroup_printed hprinted ⟨hends.1, fun c hc => (hends.2 c hc).1⟩
        fun c hc => (hends.2 c hc).2
      rw [← h, hparse, Outcome.ok.injEq] at hread
      rw [heval, Outcome.ok.injEq] at hb
      have hfst : x.1 = node' := congrArg Prod.fst hread
      rw [← hsame, ← evalNode_iff, ← hfst, hb]
      exact htrue hsentence
    · rintro ⟨-, hstart⟩
      refine ⟨_, heval, fun hsentence => ?_⟩
      obtain ⟨w, t, rest, hs, -, hw, hprinted, hends⟩ := parseGroup_sound _ _ _ hparse
      -- what is parsed has been trimmed, so the tree stands at its very start
      have hnil : w = [] := by
        cases w with
        | nil => rfl
        | cons c w =>
          have hhead := head_trim (s := s) (c := c) (by rw [hs]; rfl)
          rw [hw c List.mem_cons_self] at hhead
          cases hhead
      rw [hnil, List.nil_append] at hs
      exact evalNode_iff.2 (hstart hsentence x.1 t rest hs hprinted hends)

/-- A euro sign lies across the second byte. -/
theorem evaluate_euro : ¬∀ (s : List Char) (ctx : CriterionContext), Lenient s ctx := by
  intro h
  obtain ⟨b, hb, -⟩ := h ['€', '=', '1'] ⟨1, 1, 0, [], []⟩
  have hpanic : evaluate ['€', '=', '1'] ⟨1, 1, 0, [], []⟩ = .panic := by decide
  rw [hpanic] at hb
  cases hb

end Otomai.Common.Criterion
