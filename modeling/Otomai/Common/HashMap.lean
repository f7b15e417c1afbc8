import Mathlib.Data.List.AList
import Mathlib.Data.List.Sort

/-!
# Hash maps

A `HashMap` is an association list with distinct keys; the order of its entries is the order of its iteration.
-/

namespace Otomai

/-- The entries of a hash map, in the order in which it is iterated. -/
abbrev HashMap (κ α : Type) := AList fun _ : κ => α

namespace HashMap

variable {κ α : Type}

def pairs (m : HashMap κ α) : List (κ × α) := m.entries.map fun e => (e.1, e.2)

theorem map_fst_pairs (m : HashMap κ α) : m.pairs.map Prod.fst = m.keys := by
  rw [pairs, List.map_map]
  rfl

theorem nodup_pairs (m : HashMap κ α) : (m.pairs.map Prod.fst).Nodup := by
  rw [map_fst_pairs]
  exact m.keys_nodup

section

variable [DecidableEq κ]

theorem lookup_eq_some {m : HashMap κ α} {key : κ} {a : α} : m.lookup key = some a ↔ (key, a) ∈ m.pairs := by
  rw [← Option.mem_def, AList.mem_lookup_iff, pairs, List.mem_map]
  constructor
  · exact fun h => ⟨_, h, rfl⟩
  · rintro ⟨e, he, hkey⟩
    obtain ⟨rfl, rfl⟩ := Prod.mk.inj hkey
    exact he

/-- The entries of other keys are those from before. -/
theorem filter_pairs_insert {m : HashMap κ α} {key : κ} {p : κ → Bool} (h : p key = false) (a : α) :
    (pairs (m.insert key a)).filter (fun e => p e.1) = m.pairs.filter fun e => p e.1 := by
  have herase : ∀ l : List (Sigma fun _ : κ => α),
      (((l.kerase key).map fun e => (e.1, e.2)).filter fun e => p e.1) =
        (l.map fun e => (e.1, e.2)).filter fun e => p e.1 := by
    intro l
    induction l with
    | nil => rfl
    | cons e l ih =>
      by_cases hkey : key = e.1
      · rw [List.kerase_cons_eq hkey, List.map_cons, List.filter_cons_of_neg]
        simp [← hkey, h]
      · rw [List.kerase_cons_ne hkey, List.map_cons, List.map_cons, List.filter_cons, List.filter_cons, ih]
  rw [pairs, AList.entries_insert, List.map_cons, List.filter_cons_of_neg (by simp [h])]
  exact herase m.entries

/-- The map after inserting some pairs one after the other. -/
def insertAll (m : HashMap κ α) : List (κ × α) → HashMap κ α
  | [] => m
  | p :: ps => insertAll (m.insert p.1 p.2) ps

/-- The map that is filled with some pairs one after the other. -/
def ofPairs (ps : List (κ × α)) : HashMap κ α := insertAll ∅ ps

theorem mem_insertAll {m : HashMap κ α} {ps : List (κ × α)} {key : κ} :
    key ∈ m.insertAll ps ↔ key ∈ m ∨ key ∈ ps.map Prod.fst := by
  induction ps generalizing m with
  | nil => simp [insertAll]
  | cons p ps ih =>
    rw [insertAll, ih, AList.mem_insert, List.map_cons, List.mem_cons]
    tauto

theorem mem_ofPairs {ps : List (κ × α)} {key : κ} : key ∈ ofPairs ps ↔ key ∈ ps.map Prod.fst := by
  rw [ofPairs, mem_insertAll]
  exact or_iff_right (AList.notMem_empty key)

theorem lookup_insertAll_of_notMem {m : HashMap κ α} {ps : List (κ × α)} {key : κ} (h : key ∉ ps.map Prod.fst) :
    (m.insertAll ps).lookup key = m.lookup key := by
  induction ps generalizing m with
  | nil => rfl
  | cons p ps ih =>
    rw [List.map_cons, List.mem_cons, not_or] at h
    rw [insertAll, ih h.2, AList.lookup_insert_ne h.1]

theorem lookup_insertAll_of_mem {m : HashMap κ α} {ps : List (κ × α)} (hnodup : (ps.map Prod.fst).Nodup) {key : κ}
    {a : α} (h : (key, a) ∈ ps) : (m.insertAll ps).lookup key = some a := by
  induction ps generalizing m with
  | nil => exact absurd h List.not_mem_nil
  | cons p ps ih =>
    rw [List.map_cons, List.nodup_cons] at hnodup
    rw [insertAll]
    rcases List.mem_cons.1 h with rfl | h
    · rw [lookup_insertAll_of_notMem hnodup.1, AList.lookup_insert]
    · exact ih hnodup.2 h

theorem mem_of_lookup_insertAll {m : HashMap κ α} {ps : List (κ × α)} {key : κ} {a : α}
    (h : (m.insertAll ps).lookup key = some a) : (key, a) ∈ ps ∨ m.lookup key = some a := by
  induction ps generalizing m with
  | nil => exact .inr h
  | cons p ps ih =>
    rcases ih h with hmem | hlookup
    · exact .inl (List.mem_cons_of_mem _ hmem)
    · by_cases hkey : key = p.1
      · subst hkey
        rw [AList.lookup_insert] at hlookup
        obtain rfl := Option.some.inj hlookup
        exact .inl List.mem_cons_self
      · rw [AList.lookup_insert_ne hkey] at hlookup
        exact .inr hlookup

theorem insertAll_append (m : HashMap κ α) (ps qs : List (κ × α)) :
    m.insertAll (ps ++ qs) = (m.insertAll ps).insertAll qs := by
  induction ps generalizing m with
  | nil => rfl
  | cons p ps ih => exact ih _

theorem split_of_lookup_insertAll {m : HashMap κ α} {ps : List (κ × α)} {key : κ} {a : α}
    (h : (m.insertAll ps).lookup key = some a) :
    (∃ qs rs, ps = qs ++ (key, a) :: rs ∧ key ∉ rs.map Prod.fst) ∨ key ∉ ps.map Prod.fst ∧ m.lookup key = some a := by
  induction ps generalizing m with
  | nil => exact .inr ⟨List.not_mem_nil, h⟩
  | cons p ps ih =>
    rcases ih h with ⟨qs, rs, rfl, hrs⟩ | ⟨hps, hlookup⟩
    · exact .inl ⟨p :: qs, rs, rfl, hrs⟩
    · by_cases hkey : key = p.1
      · subst hkey
        rw [AList.lookup_insert] at hlookup
        obtain rfl := Option.some.inj hlookup
        exact .inl ⟨[], ps, rfl, hps⟩
      · rw [AList.lookup_insert_ne hkey] at hlookup
        exact .inr ⟨by simpa [hkey] using hps, hlookup⟩

/-- The last pair of a key is the one that stays. -/
theorem lookup_ofPairs_eq_some {ps : List (κ × α)} {key : κ} {a : α} :
    (ofPairs ps).lookup key = some a ↔ ∃ qs rs, ps = qs ++ (key, a) :: rs ∧ key ∉ rs.map Prod.fst := by
  constructor
  · intro h
    rcases split_of_lookup_insertAll h with h | ⟨-, h⟩
    · exact h
    · exact absurd h (by simp)
  · rintro ⟨qs, rs, rfl, hrs⟩
    rw [ofPairs, insertAll_append, insertAll, lookup_insertAll_of_notMem hrs, AList.lookup_insert]

/-- What a map was filled with is one of the pairs. -/
theorem mem_of_mem_pairs_ofPairs {ps : List (κ × α)} {p : κ × α} (h : p ∈ (ofPairs ps).pairs) : p ∈ ps := by
  rcases mem_of_lookup_insertAll (lookup_eq_some.2 h) with hmem | hnone
  · exact hmem
  · cases hnone

/-- A map holds no more than it was filled with. -/
theorem length_pairs_ofPairs_le (ps : List (κ × α)) : (ofPairs ps).pairs.length ≤ ps.length := by
  have hsub : (ofPairs ps).pairs.map Prod.fst ⊆ ps.map Prod.fst := fun key hkey => by
    rw [map_fst_pairs] at hkey
    exact mem_ofPairs.1 (AList.mem_keys.1 hkey)
  have hle := (List.subperm_of_subset (ofPairs ps).nodup_pairs hsub).length_le
  rwa [List.length_map, List.length_map] at hle

/-- Filling a map with pairs of distinct keys gives exactly these pairs. -/
theorem lookup_ofPairs {ps : List (κ × α)} (hnodup : (ps.map Prod.fst).Nodup) {key : κ} {a : α} :
    (ofPairs ps).lookup key = some a ↔ (key, a) ∈ ps := by
  constructor
  · intro h
    have hmem : key ∈ ofPairs ps := AList.lookup_isSome.1 (by rw [h]; rfl)
    obtain ⟨⟨key', a'⟩, hp, rfl⟩ := List.mem_map.1 (mem_ofPairs.1 hmem)
    have h' : (ofPairs ps).lookup key' = some a' := lookup_insertAll_of_mem hnodup hp
    obtain rfl : a' = a := Option.some.inj (h'.symm.trans h)
    exact hp
  · exact fun h => lookup_insertAll_of_mem hnodup h

/-- Filling a map with the pairs of another one gives its entries, whatever their order. -/
theorem lookup_ofPairs_perm {m : HashMap κ α} {ps : List (κ × α)} (h : ps.Perm m.pairs) (key : κ) :
    (ofPairs ps).lookup key = m.lookup key := by
  have hnodup : (ps.map Prod.fst).Nodup := (h.map Prod.fst).nodup_iff.2 m.nodup_pairs
  refine Option.ext fun a => ?_
  rw [lookup_ofPairs hnodup, h.mem_iff, lookup_eq_some]

/-- Maps with the same entries are the same map, whatever their order. -/
theorem lookup_of_perm {m m' : HashMap κ α} (h : m'.pairs.Perm m.pairs) (key : κ) : m'.lookup key = m.lookup key := by
  refine Option.ext fun a => ?_
  rw [lookup_eq_some, h.mem_iff, lookup_eq_some]

/-- A map that is filled with the pairs of another one has its entries. -/
theorem pairs_ofPairs_perm {m : HashMap κ α} {ps : List (κ × α)} (h : ps.Perm m.pairs) :
    (ofPairs ps).pairs.Perm m.pairs := by
  have hnodup := (List.perm_ext_iff_of_nodup (List.Nodup.of_map Prod.fst (ofPairs ps).nodup_pairs)
    (List.Nodup.of_map Prod.fst m.nodup_pairs)).2
  refine hnodup fun p => ?_
  rw [← Prod.mk.eta (p := p), ← lookup_eq_some, lookup_ofPairs_perm h, lookup_eq_some]

theorem keys_insertAll {β : Type} {f : α → β} {m : HashMap κ α} {m' : HashMap κ β} (h : m'.keys = m.keys)
    (ps : List (κ × α)) : (m'.insertAll (ps.map fun p => (p.1, f p.2))).keys = (m.insertAll ps).keys := by
  induction ps generalizing m m' with
  | nil => exact h
  | cons p ps ih => exact ih (by rw [AList.keys_insert, AList.keys_insert, h])

theorem lookup_insertAll_map {β : Type} {f : α → β} {m : HashMap κ α} {m' : HashMap κ β}
    (h : ∀ key, m'.lookup key = (m.lookup key).map f) (ps : List (κ × α)) (key : κ) :
    (m'.insertAll (ps.map fun p => (p.1, f p.2))).lookup key = ((m.insertAll ps).lookup key).map f := by
  induction ps generalizing m m' with
  | nil => exact h key
  | cons p ps ih =>
    refine ih fun key' => ?_
    by_cases hkey : key' = p.1
    · subst hkey
      rw [AList.lookup_insert, AList.lookup_insert]
      rfl
    · rw [AList.lookup_insert_ne hkey, AList.lookup_insert_ne hkey]
      exact h key'

theorem keys_ofPairs_map {β : Type} (f : α → β) (ps : List (κ × α)) :
    (ofPairs (ps.map fun p => (p.1, f p.2))).keys = (ofPairs ps).keys :=
  have hempty : (∅ : HashMap κ β).keys = (∅ : HashMap κ α).keys := rfl
  keys_insertAll hempty ps

theorem lookup_ofPairs_map {β : Type} (f : α → β) (ps : List (κ × α)) (key : κ) :
    (ofPairs (ps.map fun p => (p.1, f p.2))).lookup key = ((ofPairs ps).lookup key).map f :=
  lookup_insertAll_map (fun _ => rfl) ps key

/-- The values, in the order of the entries. -/
def values (m : HashMap κ α) : List α := m.pairs.map Prod.snd

theorem mem_values {m : HashMap κ α} {a : α} : a ∈ m.values ↔ ∃ key, m.lookup key = some a := by
  simp only [values, List.mem_map, lookup_eq_some, Prod.exists, exists_eq_right]

/-- The same map, iterated in an order of its own. -/
def Same (m m' : HashMap κ α) : Prop := ∀ key, m.lookup key = m'.lookup key

theorem Same.refl (m : HashMap κ α) : m.Same m := fun _ => rfl

/-- Every entry may be the one that is met first. -/
theorem same_insert {m : HashMap κ α} {key : κ} {a : α} (h : m.lookup key = some a) : m.Same (m.insert key a) := by
  intro key'
  by_cases hkey : key' = key
  · rw [hkey, AList.lookup_insert, h]
  · rw [AList.lookup_insert_ne hkey]

theorem values_insert (m : HashMap κ α) (key : κ) (a : α) : ∃ rest, values (m.insert key a) = a :: rest := by
  rw [values, pairs, AList.entries_insert]
  exact ⟨_, rfl⟩

end

/-- Pairs that are chosen from a list have their keys from the list. -/
theorem map_fst_filterMap_sublist {β : Type} (f : α → κ) (g : α → Option β) (l : List α) :
    ((l.filterMap fun a => (g a).map (f a, ·)).map Prod.fst).Sublist (l.map f) := by
  induction l with
  | nil => exact List.Sublist.slnil
  | cons a l ih =>
    rw [List.filterMap_cons, List.map_cons]
    cases g a with
    | none => exact ih.cons (f a)
    | some b => exact ih.cons_cons (f a)

/-- The pairs of a map in the order of its keys. -/
def sorted [LE κ] [DecidableLE κ] (m : HashMap κ α) : List (κ × α) := m.pairs.insertionSort fun p q => p.1 ≤ q.1

section

variable [LE κ] [DecidableLE κ]

theorem perm_sorted (m : HashMap κ α) : m.sorted.Perm m.pairs := List.perm_insertionSort _ _

theorem length_sorted (m : HashMap κ α) : m.sorted.length = m.pairs.length := List.length_insertionSort _ _

theorem mem_sorted {m : HashMap κ α} {p : κ × α} : p ∈ m.sorted ↔ p ∈ m.pairs := List.mem_insertionSort _

theorem mem_map_fst_sorted {m : HashMap κ α} {key : κ} : key ∈ m.sorted.map Prod.fst ↔ key ∈ m := by
  rw [(m.perm_sorted.map Prod.fst).mem_iff, map_fst_pairs, AList.mem_keys]

theorem nodup_sorted (m : HashMap κ α) : (m.sorted.map Prod.fst).Nodup :=
  (m.perm_sorted.map Prod.fst).nodup_iff.2 m.nodup_pairs

theorem pairwise_sorted [Std.IsLinearOrder κ] (m : HashMap κ α) : m.sorted.Pairwise fun p q => p.1 ≤ q.1 :=
  have : Std.Total fun p q : κ × α => p.1 ≤ q.1 := ⟨fun _ _ => Std.le_total⟩
  have : IsTrans (κ × α) fun p q => p.1 ≤ q.1 := ⟨fun _ _ _ => Std.le_trans⟩
  List.pairwise_insertionSort _ _

end

end HashMap

end Otomai
