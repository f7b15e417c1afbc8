import Otomai.ProtocolGen.RoundTrip

/-!
# Which classes round-trip

The layout conditions of `roundTrips_of_layout` are necessary.  A group of nine flags panics.  When something is
written before a flag, the reader takes the flag from that byte: two values that differ in the flag alone are written
with the same byte at the place the flag is read from, so one of them is not read back (`flag_position`).
-/

namespace Otomai.ProtocolGen

open Wire BigEndianWriter BigEndianReader

variable {ν : Type}

/-! ### Type checking -/

section Compiles

variable [DecidableEq ν]

theorem elementWrite_compiles (inner : FieldType ν) (h1 : inner ≠ .type none) (h2 : inner ≠ .typeManager none) :
    ((elementWrite inner).compiles (fieldTypeToRust inner) = true ∧
      (elementRead inner).compiles (fieldTypeToRust inner) = true) ↔ ElementSupported inner := by
  cases inner with
  | type name => cases name with
    | none => exact absurd rfl h1
    | some name =>
      simp [elementWrite, elementRead, ElementWrite.compiles, ElementRead.compiles, fieldTypeToRust, ElementSupported]
  | typeManager name => cases name with
    | none => exact absurd rfl h2
    | some name =>
      simp [elementWrite, elementRead, ElementWrite.compiles, ElementRead.compiles, fieldTypeToRust, ElementSupported]
  | _ => simp [elementWrite, elementRead, ElementWrite.compiles, ElementRead.compiles, fieldTypeToRust,
      ElementSupported, primitiveMethod, Method.rustType]

theorem field_compiles {t : FieldType ν} (h1 : t ≠ .type none) (h2 : t ≠ .typeManager none)
    (h3 : ∀ l, t ≠ .vector (.type none) l ∧ t ≠ .vector (.typeManager none) l) {types : List (RustType ν)} {i : Nat}
    (ht : types[i]? = some (fieldTypeToRust t)) :
    ((writeStatement t i).compiles types = true ∧ (initializer t).compiles (fieldTypeToRust t) = true) ↔
      Supported t := by
  cases t with
  | type name => cases name with
    | none => exact absurd rfl h1
    | some name =>
      simp [writeStatement, initializer, WriteStatement.compiles, Initializer.compiles, ht,
        fieldTypeToRust, Supported]
  | typeManager name => cases name with
    | none => exact absurd rfl h2
    | some name =>
      simp [writeStatement, initializer, WriteStatement.compiles, Initializer.compiles, ht,
        fieldTypeToRust, Supported]
  | vector inner l =>
    have := elementWrite_compiles inner (fun e => (h3 l).1 (by rw [e])) (fun e => (h3 l).2 (by rw [e]))
    simpa only [writeStatement, initializer, WriteStatement.compiles, Initializer.compiles, ht,
      fieldTypeToRust, Supported]
      using this
  | _ => simp [writeStatement, initializer, WriteStatement.compiles, Initializer.compiles, ht, fieldTypeToRust,
      Supported, primitiveMethod, Method.rustType]

private theorem flags_compile (k : Nat) (ts : List (RustType ν)) (ns : List Nat) (h : ts.length = ns.length) :
    (List.zipWith Initializer.compiles ts (ns.map (.flag k))).all id = ts.all (· == .bool) := by
  induction ts generalizing ns with
  | nil => simp
  | cons t ts ih =>
    obtain ⟨n, ns, rfl⟩ := List.exists_cons_of_length_eq_add_one h.symm
    rw [List.map_cons, List.zipWith_cons_cons, List.all_cons, List.all_cons, ih ns (by simpa using h)]
    rfl

private theorem fields_compile {G : List (Nat × List Nat)} (types : List (RustType ν))
    (fields : List (ProtocolField ν)) : ∀ i k, GroupsFrom G i fields → Resolved fields →
      types.drop i = fields.map (fun f => fieldTypeToRust f.fieldType) →
      (((writeSerializeBody G i 0 fields).all (WriteStatement.compiles types) = true ∧
        (List.zipWith Initializer.compiles (types.drop i) (writeInitializers G k i 0 fields)).all id = true) ↔
        FieldsSupported fields) := by
  induction fields using groupInduction with
  | nil => intro i k _ _ h; simp [writeSerializeBody, writeInitializers, FieldsSupported, h]
  | field f fs hf ih =>
    intro i k hG hr ht
    obtain ⟨hget, ht'⟩ : types[i]? = some (fieldTypeToRust f.fieldType) ∧
        types.drop (i + 1) = fs.map (fun f => fieldTypeToRust f.fieldType) := by
      constructor
      · rw [← Nat.add_zero i, ← List.getElem?_drop, ht]; rfl
      · rw [← List.drop_drop, ht]; rfl
    obtain ⟨r1, r2, r3⟩ := hr f (by simp)
    have hfield := field_compiles r1 r2 r3 hget
    have hrest := ih (i + 1) k (hG.field hf).2 (fun g hg => hr g (by simp [hg])) ht'
    rw [writeSerializeBody_field hG hf, writeInitializers_field hG hf, ht, List.map_cons, List.zipWith_cons_cons,
      List.all_cons, List.all_cons, Bool.and_eq_true, Bool.and_eq_true, ← ht']
    have hsplit : FieldsSupported (f :: fs) ↔ Supported f.fieldType ∧ FieldsSupported fs := by
      simp only [FieldsSupported, List.forall_mem_cons, hf, Bool.false_eq_true, false_implies, true_and, forall_const]
    rw [hsplit, ← hfield, ← hrest]
    simp only [id]
    tauto
  | group g fs hne hg hfs ih =>
    intro i k hG hr ht
    -- the flags of the group are all written as one statement, and read one by one
    have hget : ∀ j (hj : j < g.length), types[i + j]? = some (fieldTypeToRust g[j].fieldType) := by
      intro j hj
      rw [← List.getElem?_drop, ht]
      simp [List.getElem?_append_left, hj]
    have ht' : types.drop (i + g.length) = fs.map (fun f => fieldTypeToRust f.fieldType) := by
      rw [← List.drop_drop, ht, List.map_append, List.drop_append_of_le_length (by simp),
        List.drop_of_length_le (by simp)]
      rfl
    have hrest := ih (i + g.length) (k + 1) (hG.group hne hg hfs).2 (fun f hf => hr f (by simp [hf])) ht'
    have hbool : ∀ f : ProtocolField ν, fieldTypeToRust f.fieldType = .bool ↔ f.fieldType = .bool := by
      intro f
      cases f.fieldType with
      | type name => cases name <;> simp [fieldTypeToRust]
      | typeManager name => cases name <;> simp [fieldTypeToRust]
      | _ => simp [fieldTypeToRust]
    have hflags : (WriteStatement.flags (List.range' i g.length)).compiles types = true ↔
        ∀ f ∈ g, f.fieldType = .bool := by
      simp only [WriteStatement.compiles, List.all_eq_true, List.mem_range', beq_iff_eq, Nat.one_mul]
      refine ⟨fun h f hf => ?_, fun h n hn => ?_⟩
      · obtain ⟨j, hj, rfl⟩ := List.getElem_of_mem hf
        have := h (i + j) ⟨j, hj, rfl⟩
        rw [hget j hj] at this
        exact (hbool _).1 (Option.some.inj this)
      · obtain ⟨j, hj, rfl⟩ := hn
        rw [hget j hj, (hbool _).2 (h _ (List.getElem_mem hj))]
    have hinits : (List.zipWith Initializer.compiles (g.map fun f => fieldTypeToRust f.fieldType)
        ((List.range g.length).map (.flag k))).all id = true ↔ ∀ f ∈ g, f.fieldType = .bool := by
      rw [flags_compile k _ _ (by simp)]
      simp [hbool]
    have hsplit : FieldsSupported (g ++ fs) ↔ (∀ f ∈ g, f.fieldType = .bool) ∧ FieldsSupported fs := by
      simp only [FieldsSupported, List.forall_mem_append]
      refine and_congr_left fun _ => forall₂_congr fun f hf => ?_
      simp [hg f hf]
    rw [writeSerializeBody_group hG hne hg hfs, writeInitializers_group hG hne hg hfs, ht, List.map_append,
      List.zipWith_append (by simp), List.all_cons, List.all_append, Bool.and_eq_true, Bool.and_eq_true,
        hflags, hinits,
      ← ht', hsplit, ← hrest]
    tauto

/-- The code emitted for a class compiles exactly when all its fields are supported. -/
theorem compiles_iff {c : ProtocolClass ν} (hr : Resolved c.fields) :
    c.compiles = true ↔ FieldsSupported c.fields := by
  have := fields_compile (c.fields.map fun f => fieldTypeToRust f.fieldType) c.fields 0 0 (groupsFrom_zero _) hr rfl
  rw [← this, ProtocolClass.compiles, Bool.and_eq_true]
  rfl

end Compiles

/-! ### What is written -/

variable [DecidableEq ν] {P : Protocol ν} {values : ν → Value ν → Prop} {ser : Value ν → Outcome IoError (List UInt8)}

/-- Only a nested type can write nothing. -/
theorem field_eq_nil {t : FieldType ν} {u : Value ν} (h : EncodableField P values t u) {vs : List (Value ν)} {i : Nat}
    (hu : vs[i]? = some u) (hw : (writeStatement t i).run P ser vs = .ok []) :
    ∃ m, t = .type (some m) ∧ values m u ∧ ser u = .ok [] := by
  have scalar : ∀ m : Method, (WriteStatement.call m i).run P ser vs = .ok [] → Scalar m.rustType u → False := by
    intro m hw hm
    obtain ⟨w, hw', hne, -⟩ := Method.reads hm
    simp only [WriteStatement.run, hu, hw', Outcome.ok.injEq] at hw
    exact hne hw
  cases t with
  | type name =>
    cases name with
    | none => exact h.elim
    | some name => exact ⟨name, rfl, h, by simpa only [writeStatement, WriteStatement.run, hu] using hw⟩
  | byteArray =>
    obtain ⟨data, rfl, -⟩ := h
    simp only [writeStatement, WriteStatement.run, hu, Outcome.ok.injEq, List.append_eq_nil_iff, writeVarInt,
      writeVarUint_eq] at hw
    exact absurd hw.1 (base128_ne_nil _)
  | vector inner lengthType =>
    obtain ⟨xs, rfl, hlen, -⟩ := h
    obtain ⟨n, hn, hne, -⟩ := reads_length (ν := ν) hlen
    simp only [writeStatement, WriteStatement.run, hu, hn, Outcome.ok_bind] at hw
    obtain ⟨w, -, hw⟩ := Outcome.bind_eq_ok.1 hw
    exact absurd (List.append_eq_nil_iff.1 (Outcome.ok.inj hw)).1 hne
  | typeManager name =>
    cases name with
    | none => exact h.elim
    | some base =>
      obtain ⟨name, id, content, rfl, -, -⟩ := h
      simp only [writeStatement, WriteStatement.run, hu, writeVariant] at hw
      split at hw
      · obtain ⟨w, -, hw⟩ := Outcome.bind_eq_ok.1 hw
        have := (List.append_eq_nil_iff.1 (Outcome.ok.inj hw)).1
        simp [writeUshort, bigEndian] at this
      · cases hw
  | long => exact (scalar .varLong hw h).elim
  | ulong => exact (scalar .varUlong hw h).elim
  | _ => exact (scalar (primitiveMethod _) hw h).elim

/-- A list of fields that writes nothing has only nested types that write nothing. -/
private theorem fields_eq_nil {n : Nat} (hsub : ∀ name v, values name v → ser v = .ok [] → SilentWithin P n name)
    {G : List (Nat × List Nat)} {vs : List (Value ν)} (fields : List (ProtocolField ν)) :
    ∀ (i : Nat) (us : List (Value ν)), GroupsFrom G i fields →
      List.Forall₂ (EncodableField P values) (fields.map ProtocolField.fieldType) us → vs.drop i = us →
      runStatements P ser vs (writeSerializeBody G i 0 fields) = .ok [] →
      ∀ f ∈ fields, f.isFlag = false ∧ ∃ m, f.fieldType = .type (some m) ∧ SilentWithin P n m := by
  induction fields using groupInduction with
  | nil => simp
  | field f fs hf ih =>
    intro i us hG h hus hw
    rcases h with _ | ⟨hu, h⟩
    obtain ⟨hget, hus'⟩ := getElem?_of_drop_eq_cons hus
    rw [writeSerializeBody_field hG hf, runStatements] at hw
    obtain ⟨wf, hwf, hw⟩ := Outcome.bind_eq_ok.1 hw
    obtain ⟨ws, hws, hw⟩ := Outcome.bind_eq_ok.1 hw
    obtain ⟨rfl, rfl⟩ := List.append_eq_nil_iff.1 (Outcome.ok.inj hw)
    obtain ⟨m, hm, hv, hs⟩ := field_eq_nil hu hget hwf
    refine List.forall_mem_cons.2 ⟨⟨hf, m, hm, hsub m _ hv hs⟩, ?_⟩
    exact ih (i + 1) _ (hG.field hf).2 h hus' hws
  | group g fs hne hg hfs ih =>
    intro i us hG h hus hw
    rw [writeSerializeBody_group hG hne hg hfs, runStatements] at hw
    obtain ⟨wf, hwf, hw⟩ := Outcome.bind_eq_ok.1 hw
    obtain ⟨ws, -, hw⟩ := Outcome.bind_eq_ok.1 hw
    obtain ⟨rfl, -⟩ := List.append_eq_nil_iff.1 (Outcome.ok.inj hw)
    obtain ⟨byte, -, hb⟩ := Outcome.bind_eq_ok.1 hwf
    cases Outcome.ok.inj hb

theorem silent_of_serialize (n : Nat) : ∀ (name : ν) (v : Value ν) (m : Nat), Encodable P n name v →
    P.serialize m v = .ok [] → SilentWithin P n name := by
  induction n with
  | zero => exact fun _ _ _ h => h.elim
  | succ n ih =>
    rintro name v m ⟨c, vs, hc, rfl, hvs⟩ hw
    cases m with
    | zero => cases hw
    | succ m =>
      simp only [Protocol.serialize, hc] at hw
      exact ⟨c, hc, fields_eq_nil (fun name v h hs => ih name v m h hs) c.fields 0 vs (groupsFrom_zero _) hvs rfl hw⟩

omit [DecidableEq ν] in
private theorem groupsFit_field {f : ProtocolField ν} {fs : List (ProtocolField ν)} (hf : f.isFlag = false)
    (h : GroupsFit fs) : GroupsFit (f :: fs) := by
  intro before group after he hg
  rcases before with _ | ⟨b, before⟩
  · rcases group with _ | ⟨x, group⟩
    · exact Nat.zero_le 8
    · obtain ⟨rfl, -⟩ := List.cons.inj he
      rw [hg f (by simp)] at hf
      cases hf
  · exact h before group after (List.cons.inj he).2 hg

omit [DecidableEq ν] in
/-- Flags in a row lie within one maximal group. -/
private theorem groupsFit_group {g fs : List (ProtocolField ν)} (hfs : ∀ f ∈ fs.head?, f.isFlag = false)
    (hlen : g.length ≤ 8) (h : GroupsFit fs) : GroupsFit (g ++ fs) := by
  intro before group after he hg
  rw [List.append_assoc] at he
  rcases List.append_eq_append_iff.1 he with ⟨s, rfl, hs⟩ | ⟨s, rfl, hs⟩
  · exact h s group after (by rw [hs, List.append_assoc]) hg
  · rcases List.append_eq_append_iff.1 hs with ⟨t, rfl, ht⟩ | ⟨t, rfl, ht⟩
    · simp at hlen
      omega
    · rcases t with _ | ⟨x, t⟩
      · simp at hlen ⊢
        omega
      · have := hfs x (by rw [ht]; rfl)
        rw [hg x (by simp)] at this
        cases this

/-- A group that was written has at most eight flags. -/
theorem groupsFit_of_run {G : List (Nat × List Nat)} {vs : List (Value ν)} (fields : List (ProtocolField ν)) :
    ∀ (i : Nat) (us : List (Value ν)) (w : List UInt8), GroupsFrom G i fields → FieldsSupported fields →
      List.Forall₂ (EncodableField P values) (fields.map ProtocolField.fieldType) us → vs.drop i = us →
      runStatements P ser vs (writeSerializeBody G i 0 fields) = .ok w → GroupsFit fields := by
  induction fields using groupInduction with
  | nil =>
    intro i us w _ _ _ _ _ before group after he _
    obtain ⟨h, -⟩ := List.append_eq_nil_iff.1 he.symm
    rw [(List.append_eq_nil_iff.1 h).2]
    exact Nat.zero_le 8
  | field f fs hf ih =>
    intro i us w hG hs h hus hw
    rcases h with _ | ⟨hu, h⟩
    rw [writeSerializeBody_field hG hf, runStatements] at hw
    obtain ⟨wf, -, hw⟩ := Outcome.bind_eq_ok.1 hw
    obtain ⟨ws, hws, -⟩ := Outcome.bind_eq_ok.1 hw
    exact groupsFit_field hf (ih (i + 1) _ ws (hG.field hf).2 (fun g hg => hs g (by simp [hg])) h
      (getElem?_of_drop_eq_cons hus).2 hws)
  | group g fs hne hg hfs ih =>
    intro i us w hG hs h hus hw
    rw [List.map_append] at h
    obtain ⟨us₁, us₂, h₁, h₂, rfl⟩ := forall₂_append_split h
    obtain ⟨bs, rfl, hbs⟩ := bools_of_forall₂ (fun f hf => (hs f (by simp [hf])).1 (hg f hf)) h₁
    have hus' : vs.drop (i + g.length) = us₂ := by
      rw [← List.drop_drop, hus, ← hbs, List.drop_append_of_le_length (by simp), List.drop_of_length_le (by simp)]
      rfl
    rw [writeSerializeBody_group hG hne hg hfs, runStatements] at hw
    obtain ⟨wf, hwf, hw⟩ := Outcome.bind_eq_ok.1 hw
    obtain ⟨ws, hws, -⟩ := Outcome.bind_eq_ok.1 hw
    refine groupsFit_group hfs ?_ (ih (i + g.length) us₂ ws (hG.group hne hg hfs).2 (fun f hf => hs f (by simp [hf]))
      h₂ hus' hws)
    by_contra hlen
    rw [WriteStatement.run, ← hbs, packFlags_panic bs i 0 0 us₂ (by omega) (by omega) hus] at hwf
    cases hwf

/-! ### Where a flag is read from -/

/-- A statement depends on its own fields only, wherever they stand. -/
theorem field_run_congr {t : FieldType ν} {i j : Nat} {vs vs' : List (Value ν)} (h : vs[i]? = vs'[j]?) :
    (writeStatement t i).run P ser vs = (writeStatement t j).run P ser vs' := by
  cases t with
  | typeManager name => cases name <;> simp only [writeStatement, WriteStatement.run, h]
  | _ => simp only [writeStatement, WriteStatement.run, h]

omit [DecidableEq ν] in
theorem packFlags_congr {vs vs' : List (Value ν)} (n : Nat) : ∀ {i i' : Nat}, (∀ j < n, vs[i + j]? = vs'[i' + j]?) →
    ∀ flag bit, packFlags vs flag bit (List.range' i n) = packFlags vs' flag bit (List.range' i' n) := by
  induction n with
  | zero => exact fun _ _ _ => rfl
  | succ n ih =>
    intro i i' h flag bit
    have hfirst : vs[i]? = vs'[i']? := h 0 (Nat.succ_pos n)
    have hrest := @ih (i + 1) (i' + 1) fun j hj => by
      rw [Nat.add_right_comm, Nat.add_assoc, Nat.add_right_comm, Nat.add_assoc i']
      exact h (j + 1) (Nat.succ_lt_succ hj)
    rw [List.range'_succ, List.range'_succ, packFlags, packFlags, hfirst]
    split
    · split
      · exact hrest _ _
      · rfl
    · rfl

/-- Two values that differ at the flag `p` only: the flag is read as bit `bit` of flag byte `k + n`, and what is
written before the group of `p` is the same for both, at least `n` bytes of it, and more if a field before `p`
writes something. -/
theorem flag_position {m : Nat} (hsub : ∀ name v, values name v → ser v = .ok [] → SilentWithin P m name)
    {G : List (Nat × List Nat)} {vs vs' : List (Value ν)} {p : Nat} (heq : ∀ j, j ≠ p → vs[j]? = vs'[j]?)
    (fields : List (ProtocolField ν)) : ∀ (i k : Nat) (us : List (Value ν)) (w w' : List UInt8),
      GroupsFrom G i fields →
      List.Forall₂ (EncodableField P values) (fields.map ProtocolField.fieldType) us → vs.drop i = us →
      runStatements P ser vs (writeSerializeBody G i 0 fields) = .ok w →
      runStatements P ser vs' (writeSerializeBody G i 0 fields) = .ok w' →
      ∀ f, i ≤ p → fields[p - i]? = some f → f.isFlag = true →
      ∃ n bit pre, (writeInitializers G k i 0 fields)[p - i]? = some (.flag (k + n) bit) ∧
        pre <+: w ∧ pre <+: w' ∧ n ≤ pre.length ∧
        ((∃ g ∈ fields.take (p - i), g.isFlag = false ∧ ¬Silent P g) → n < pre.length) := by
  induction fields using groupInduction with
  | nil => simp
  | field f fs hf ih =>
    intro i k us w w' hG h hus hw hw' x hp hx hxf
    rcases h with _ | ⟨hu, h⟩
    obtain ⟨hget, hus'⟩ := getElem?_of_drop_eq_cons hus
    -- a plain field is not the flag that is looked for
    have hlt : i < p := by
      rcases Nat.lt_or_ge i p with hlt | hge
      · exact hlt
      · rw [show p - i = 0 by omega, List.getElem?_cons_zero, Option.some.injEq] at hx
        rw [hx, hxf] at hf
        cases hf
    have hsucc : p - i = p - (i + 1) + 1 := by omega
    rw [writeSerializeBody_field hG hf, runStatements] at hw hw'
    obtain ⟨wf, hwf, hw⟩ := Outcome.bind_eq_ok.1 hw
    obtain ⟨ws, hws, hw⟩ := Outcome.bind_eq_ok.1 hw
    obtain ⟨wf', hwf', hw'⟩ := Outcome.bind_eq_ok.1 hw'
    obtain ⟨ws', hws', hw'⟩ := Outcome.bind_eq_ok.1 hw'
    -- both values agree at this field, so both write the same bytes for it
    rw [field_run_congr (heq i (by omega)), hwf'] at hwf
    obtain rfl := Outcome.ok.inj hwf
    rw [hsucc, List.getElem?_cons_succ] at hx
    obtain ⟨n, bit, pre, hinit, ⟨r, hpre⟩, ⟨r', hpre'⟩, hlen, hmore⟩ :=
      ih (i + 1) k _ ws ws' (hG.field hf).2 h hus' hws hws' x (by omega) hx hxf
    refine ⟨n, bit, wf' ++ pre, ?_, ⟨r, ?_⟩, ⟨r', ?_⟩, by rw [List.length_append]; omega, ?_⟩
    · rw [writeInitializers_field hG hf, hsucc, List.getElem?_cons_succ, hinit]
    · rw [← Outcome.ok.inj hw, ← hpre, List.append_assoc]
    · rw [← Outcome.ok.inj hw', ← hpre', List.append_assoc]
    · rintro ⟨g, hg, hgf, hgs⟩
      rw [List.length_append]
      rw [hsucc, List.take_succ_cons] at hg
      rcases List.mem_cons.1 hg with rfl | hg
      · have hne : wf' ≠ [] := by
          rintro rfl
          rw [← field_run_congr (heq i (by omega))] at hwf'
          obtain ⟨m', hm', hv, hser⟩ := field_eq_nil hu hget hwf'
          exact hgs ⟨hf, m', m, hm', hsub m' _ hv hser⟩
        have := List.length_pos_iff.2 hne
        omega
      · have := hmore ⟨g, hg, hgf, hgs⟩
        omega
  | group g fs hne hg hfs ih =>
    intro i k us w w' hG h hus hw hw' x hp hx hxf
    rcases Nat.lt_or_ge (p - i) g.length with hlt | hge
    · -- the flag is one of this group, whose byte comes next
      refine ⟨0, p - i, [], ?_, List.nil_prefix, List.nil_prefix, Nat.zero_le _, ?_⟩
      · rw [writeInitializers_group hG hne hg hfs, List.getElem?_append_left (by simpa using hlt)]
        simp [hlt]
      · rintro ⟨y, hy, hyf, -⟩
        rw [List.take_append_of_le_length (Nat.le_of_lt hlt)] at hy
        rw [hg y (List.mem_of_mem_take hy)] at hyf
        cases hyf
    · -- the group comes before the flag, and one byte is written for it
      have hsub' : p - i = g.length + (p - (i + g.length)) := by omega
      rw [List.map_append] at h
      obtain ⟨us₁, us₂, h₁, h₂, rfl⟩ := forall₂_append_split h
      have hl₁ : us₁.length = g.length := by rw [← h₁.length_eq, List.length_map]
      have hus' : vs.drop (i + g.length) = us₂ := by
        rw [← List.drop_drop, hus, ← hl₁, List.drop_left]
      rw [writeSerializeBody_group hG hne hg hfs, runStatements] at hw hw'
      obtain ⟨wf, hwf, hw⟩ := Outcome.bind_eq_ok.1 hw
      obtain ⟨ws, hws, hw⟩ := Outcome.bind_eq_ok.1 hw
      obtain ⟨wf', hwf', hw'⟩ := Outcome.bind_eq_ok.1 hw'
      obtain ⟨ws', hws', hw'⟩ := Outcome.bind_eq_ok.1 hw'
      obtain ⟨byte, hbyte, hb⟩ := Outcome.bind_eq_ok.1 hwf
      obtain ⟨byte', hbyte', hb'⟩ := Outcome.bind_eq_ok.1 hwf'
      rw [packFlags_congr _ (fun j hj => heq (i + j) (by omega)), hbyte'] at hbyte
      obtain rfl := Outcome.ok.inj hbyte
      rw [hsub', List.getElem?_append_right (Nat.le_add_right ..), Nat.add_sub_cancel_left] at hx
      obtain ⟨n, bit, pre, hinit, ⟨r, hpre⟩, ⟨r', hpre'⟩, hlen, hmore⟩ :=
        ih (i + g.length) (k + 1) us₂ ws ws' (hG.group hne hg hfs).2 h₂ hus' hws hws' x (by omega) hx hxf
      refine ⟨n + 1, bit, byte' :: pre, ?_, ⟨r, ?_⟩, ⟨r', ?_⟩, by rw [List.length_cons]; omega, ?_⟩
      · rw [writeInitializers_group hG hne hg hfs, hsub', List.getElem?_append_right (by simp)]
        rw [List.length_map, List.length_range, Nat.add_sub_cancel_left, hinit]
        congr 2
        omega
      · rw [← Outcome.ok.inj hw, ← hpre, ← Outcome.ok.inj hb]
        rfl
      · rw [← Outcome.ok.inj hw', ← hpre', ← Outcome.ok.inj hb']
        rfl
      · rintro ⟨y, hy, hyf, hys⟩
        rw [hsub', List.take_length_add_append] at hy
        rcases List.mem_append.1 hy with hy | hy
        · rw [hg y hy] at hyf
          cases hyf
        · have := hmore ⟨y, hy, hyf, hys⟩
          rw [List.length_cons]
          omega

/-! ### The layout conditions are necessary -/

variable [ToString ν]

/-- The value read for a flag is a bit of one of the bytes read first. -/
private theorem getFlag_of_reads {m : Nat} {name : ν} {c : ProtocolClass ν} (hc : P.find name = some c)
    {w : List UInt8}
    {vs : List (Value ν)} (hr : Reads (P.deserialize (m + 1) name) w (.struct name vs)) {p n bit : Nat}
    (hi : (deserializeBody c.fields).initializers[p]? = some (.flag n bit)) :
    ∃ b, vs[p]? = some (.bool b) ∧
      BooleanByteWrapper.getFlag ((w.take (deserializeBody c.fields).flagReads).getD n 0) bit = .ok b := by
  have h := hr 0 []
  rw [Protocol.deserialize_succ hc, List.append_nil] at h
  obtain ⟨⟨us, c₁⟩, hbody, h⟩ := Outcome.bind_eq_ok.1 h
  have hus : us = vs := by
    have := congrArg Prod.fst (Outcome.ok.inj h)
    simpa using this
  subst hus
  obtain ⟨⟨flags, c₂⟩, hflags, hfields⟩ := Outcome.bind_eq_ok.1 hbody
  obtain rfl := Wire.Reader.replicate_next_eq_ok hflags
  obtain ⟨v, d, d', hv, hrun⟩ := Wire.Reader.forEach_eq_ok hfields hi
  cases hget : BooleanByteWrapper.getFlag ((w.take (deserializeBody c.fields).flagReads).getD n 0) bit with
  | ok b =>
    simp only [Initializer.run, hget] at hrun
    obtain ⟨rfl, -⟩ := Prod.mk.inj (Outcome.ok.inj hrun)
    exact ⟨b, hv, rfl⟩
  | _ =>
    simp only [Initializer.run, hget] at hrun
    cases hrun

theorem flagsFirst_of_reads {n : Nat} {name : ν} {c : ProtocolClass ν} (hc : P.find name = some c)
    (hs : FieldsSupported c.fields)
    (hr : ∀ v, Encodable P (n + 1) name v → ∃ w, P.serialize (n + 1) v = .ok w ∧
    Reads (P.deserialize (n + 1) name) w v)
    {v : Value ν} (hv : Encodable P (n + 1) name v) : FlagsFirst P c.fields := by
  intro before f after he hf g hg
  by_contra hng
  rw [not_or, Bool.not_eq_true] at hng
  obtain ⟨c', vs, hc', rfl, hvs⟩ := hv
  obtain rfl := Option.some.inj (hc.symm.trans hc')
  have hvs' := hvs
  rw [he, List.map_append] at hvs'
  obtain ⟨us₁, us₂, h₁, h₂, rfl⟩ := forall₂_append_split hvs'
  rw [List.map_cons, (hs f (by rw [he]; simp)).1 hf] at h₂
  rcases h₂ with _ | ⟨hb, h₂⟩
  rename_i us₂
  obtain ⟨b, rfl⟩ := hb
  have hlen : us₁.length = before.length := by rw [← h₁.length_eq, List.length_map]
  -- The same value with the flag negated.
  have hflip : List.Forall₂ (EncodableField P (Encodable P n)) (c.fields.map ProtocolField.fieldType)
      (us₁ ++ .bool (!b) :: us₂) := by
    rw [he, List.map_append, List.map_cons, (hs f (by rw [he]; simp)).1 hf]
    exact List.rel_append h₁ (.cons ⟨!b, rfl⟩ h₂)
  obtain ⟨w, hw, hrw⟩ := hr _ ⟨c, _, hc, rfl, hvs⟩
  obtain ⟨w', hw', hrw'⟩ := hr _ ⟨c, _, hc, rfl, hflip⟩
  simp only [Protocol.serialize, hc] at hw hw'
  have heq : ∀ j, j ≠ before.length → (us₁ ++ Value.bool b :: us₂)[j]? = (us₁ ++ .bool (!b) :: us₂)[j]? := by
    intro j hj
    rcases Nat.lt_or_ge j us₁.length with hlt | hge
    · rw [List.getElem?_append_left hlt, List.getElem?_append_left hlt]
    · rw [List.getElem?_append_right hge, List.getElem?_append_right hge]
      obtain ⟨k, hk⟩ : ∃ k, j - us₁.length = k + 1 := ⟨j - us₁.length - 1, by omega⟩
      rw [hk, List.getElem?_cons_succ, List.getElem?_cons_succ]
  obtain ⟨k, bit, pre, hinit, ⟨r, hpre⟩, ⟨r', hpre'⟩, -, hmore⟩ := flag_position
    (fun name v (hv : Encodable P n name v) h => silent_of_serialize n name v n hv h) heq c.fields 0 0 _ w w'
    (groupsFrom_zero _) hvs rfl hw hw' f (Nat.zero_le _) (by rw [he]; simp) hf
  have hk := hmore ⟨g, by rw [he]; simp [hg], hng⟩
  rw [Nat.sub_zero, Nat.zero_add] at hinit
  obtain ⟨b₁, hb₁, hget₁⟩ := getFlag_of_reads hc hrw hinit
  obtain ⟨b₂, hb₂, hget₂⟩ := getFlag_of_reads hc hrw' hinit
  have hbyte : (w.take (deserializeBody c.fields).flagReads).getD k 0 =
      (w'.take (deserializeBody c.fields).flagReads).getD k 0 := by
    rw [← hpre, ← hpre', List.getD_eq_getElem?_getD, List.getD_eq_getElem?_getD, List.getElem?_take,
      List.getElem?_take,
      List.getElem?_append_left hk, List.getElem?_append_left hk]
  rw [hbyte, hget₂] at hget₁
  rw [← hlen, List.getElem?_append_right (Nat.le_refl _), Nat.sub_self, List.getElem?_cons_zero, Option.some.injEq,
    Value.bool.injEq] at hb₁ hb₂
  rw [← hb₁, ← hb₂, Outcome.ok.injEq] at hget₁
  cases b <;> cases hget₁

/-- The code generated for a class compiles, and every value of the class whose lengths fit their prefixes is written
without a panic and read back, whatever follows it. -/
def RoundTrips (P : Protocol ν) (name : ν) (c : ProtocolClass ν) : Prop :=
  c.compiles = true ∧ ∀ n v, Encodable P n name v → ∀ m, n ≤ m →
    ∃ w, P.serialize m v = .ok w ∧ Reads (P.deserialize m name) w v

theorem roundTrips_iff (hP : P.WellFormed) :
    (∀ name c, P.find name = some c → RoundTrips P name c) ↔
      ∀ name c, P.find name = some c → FieldsSupported c.fields ∧
        ((∃ n v, Encodable P n name v) → FlagsFirst P c.fields ∧ GroupsFit c.fields) := by
  have hcomp : ∀ name c, P.find name = some c → (c.compiles = true ↔ FieldsSupported c.fields) := fun name c hc =>
    compiles_iff (hP.resolved c (List.mem_of_find?_eq_some hc))
  constructor
  · intro h name c hc
    obtain ⟨hcompiles, hr⟩ := h name c hc
    have hs := (hcomp name c hc).1 hcompiles
    refine ⟨hs, ?_⟩
    rintro ⟨n, v, hv⟩
    cases n with
    | zero => exact hv.elim
    | succ n =>
      refine ⟨flagsFirst_of_reads hc hs (fun u hu => hr (n + 1) u hu (n + 1) (Nat.le_refl _)) hv, ?_⟩
      obtain ⟨w, hw, -⟩ := hr (n + 1) v hv (n + 1) (Nat.le_refl _)
      obtain ⟨c', vs, hc', rfl, hvs⟩ := hv
      obtain rfl := Option.some.inj (hc.symm.trans hc')
      simp only [Protocol.serialize, hc] at hw
      exact groupsFit_of_run c.fields 0 vs w (groupsFrom_zero _) hs hvs rfl hw
  · intro h name c hc
    refine ⟨(hcomp name c hc).2 (h name c hc).1, ?_⟩
    intro n v hv m hm
    exact roundTrips_of_layout hP (fun name c hc hex => ⟨(h name c hc).1, (h name c hc).2 hex⟩) n name v hv m hm

/-! ### Small protocols -/

/-- A flag byte before a field. -/
def flagThenByte : ProtocolClass String where
  name := "FlagThenByte"
  protocolId := 1
  parent := none
  isMessage := false
  fields := [⟨"enabled", .bool, "BooleanByteWrapper"⟩, ⟨"level", .byte, "writeByte"⟩]
  booleanByteWrappers := []

/-- A flag byte after a field. -/
def byteThenFlag : ProtocolClass String where
  name := "ByteThenFlag"
  protocolId := 1
  parent := none
  isMessage := false
  fields := [⟨"level", .byte, "writeByte"⟩, ⟨"enabled", .bool, "BooleanByteWrapper"⟩]
  booleanByteWrappers := []

/-- A class that writes nothing. -/
def emptyClass : ProtocolClass String where
  name := "Empty"
  protocolId := 2
  parent := none
  isMessage := false
  fields := []
  booleanByteWrappers := []

/-- A message with flags behind an empty type, then types, vectors and a type that stands behind its id. -/
def nesting : ProtocolClass String where
  name := "NestingMessage"
  protocolId := 3
  parent := none
  isMessage := true
  fields := [⟨"empty", .type (some "Empty"), "serializeAs_Empty"⟩, ⟨"open", .bool, "BooleanByteWrapper"⟩,
    ⟨"locked", .bool, "BooleanByteWrapper"⟩, ⟨"first", .type (some "FlagThenByte"), "serializeAs_FlagThenByte"⟩,
    ⟨"others", .vector (.type (some "FlagThenByte")) "writeShort", "vector"⟩,
    ⟨"names", .vector .string "writeVarInt", "vector"⟩, ⟨"any", .typeManager (some "FlagThenByte"), "TypeManager"⟩]
  booleanByteWrappers := []

/-- The three classes that read back. -/
def nestingProtocol : Protocol String :=
  ⟨[flagThenByte, emptyClass, nesting], [⟨"FlagThenByte", [("FlagThenByte", 1)]⟩]⟩

theorem wellFormed_of_primitive {c : ProtocolClass String} (h : Resolved c.fields) :
    (⟨[c], []⟩ : Protocol String).WellFormed :=
  ⟨fun _ _ hx => (List.not_mem_nil hx).elim, fun _ => List.nodup_nil, fun d hd => by rwa [List.mem_singleton.1 hd]⟩

theorem variants_nestingProtocol (base : String) :
    nestingProtocol.variants base = [("FlagThenByte", 1)] ∨ nestingProtocol.variants base = [] := by
  unfold Protocol.variants
  by_cases h : "FlagThenByte" = base
  · exact .inl (by simp [nestingProtocol, h])
  · exact .inr (by simp [nestingProtocol, h])

theorem wellFormed_nestingProtocol : nestingProtocol.WellFormed where
  id_lt base x hx := by
    rcases variants_nestingProtocol base with h | h
    · rw [h, List.mem_singleton] at hx
      rw [hx]
      decide
    · rw [h] at hx
      cases hx
  ids_nodup base := by
    rcases variants_nestingProtocol base with h | h
    · rw [h]
      decide
    · rw [h]
      exact List.nodup_nil
  resolved := by simp [nestingProtocol, Resolved, flagThenByte, emptyClass, nesting]

theorem roundTrips_iff_nesting : RoundTrips nestingProtocol "FlagThenByte" flagThenByte ∧
    RoundTrips nestingProtocol "Empty" emptyClass ∧ RoundTrips nestingProtocol "NestingMessage" nesting := by
  suffices hall : ∀ name c, nestingProtocol.find name = some c → RoundTrips nestingProtocol name c from
    ⟨hall _ _ rfl, hall _ _ rfl, hall _ _ rfl⟩
  refine (roundTrips_iff wellFormed_nestingProtocol).2 fun name c hc => ?_
  have hmem : c ∈ [flagThenByte, emptyClass, nesting] := List.mem_of_find?_eq_some hc
  simp only [List.mem_cons, List.not_mem_nil, or_false] at hmem
  rcases hmem with rfl | rfl | rfl
  · refine ⟨by simp [FieldsSupported, flagThenByte, ProtocolField.isFlag, Supported], fun _ => ⟨?_, ?_⟩⟩
    · exact flagsFirst_append (flagThenByte.fields.take 1) (by simp [flagThenByte, ProtocolField.isFlag]) (by decide)
    · exact groupsFit_of_countP (by decide)
  · refine ⟨by simp [FieldsSupported, emptyClass], fun _ => ⟨by simp [FlagsFirst, emptyClass], ?_⟩⟩
    exact groupsFit_of_countP (by decide)
  · refine ⟨by simp [FieldsSupported, nesting, ProtocolField.isFlag, Supported, ElementSupported], fun _ => ⟨?_, ?_⟩⟩
    · have hempty : Silent nestingProtocol ⟨"empty", .type (some "Empty"), "serializeAs_Empty"⟩ :=
        ⟨rfl, "Empty", 1, rfl, emptyClass, rfl, by simp [emptyClass]⟩
      have hfirst : ∀ f ∈ nesting.fields.take 3, f.isFlag = true ∨ Silent nestingProtocol f :=
        List.forall_mem_cons.2 ⟨.inr hempty, by simp [ProtocolField.isFlag]⟩
      exact flagsFirst_append (nesting.fields.take 3) hfirst (by decide)
    · exact groupsFit_of_countP (by decide)

/-- Level 1 with the flag cleared is read back as level 0 with the flag set. -/
theorem not_roundTrips_byteThenFlag : ¬∀ P : Protocol String, P.WellFormed →
    ∀ name c, P.find name = some c → RoundTrips P name c := by
  intro h
  obtain ⟨-, hr⟩ := h ⟨[byteThenFlag], []⟩ (wellFormed_of_primitive (by simp [Resolved, byteThenFlag]))
    "ByteThenFlag" byteThenFlag rfl
  obtain ⟨w, hw, hr⟩ := hr 1 (.struct "ByteThenFlag" [.u8 1, .bool false])
    ⟨byteThenFlag, _, rfl, rfl, .cons ⟨1, rfl⟩ (.cons ⟨false, rfl⟩ .nil)⟩ 1 (Nat.le_refl 1)
  obtain rfl : [1, 0] = w := Outcome.ok.inj hw
  have := hr 0 []
  cases this

end Otomai.ProtocolGen
