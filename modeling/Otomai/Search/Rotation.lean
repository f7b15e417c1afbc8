import Mathlib.Data.List.Basic

/-!
# Going round a list

The elements of a list that satisfy a predicate take turns: after a position comes the next one, and after the last of
them the first.  What is still to come of a round are the positions `beyond` the current one.

* `next_eq`: the search for the next position, which goes once round the list.
* `walk_rounds`: a walk ends the round it is in, and goes through one round after the other.
-/

namespace Search.Rotation

variable {α : Type} (p : α → Bool) (l : List α)

/-- The positions of the elements that satisfy the predicate. -/
def positions : List Nat := (List.range l.length).filter fun i => l[i]?.any p

/-- The first of them from the position after `i` round to `i` itself. -/
def next (i : Nat) : Option Nat :=
  ((List.range l.length).map fun k => (i + (k + 1)) % l.length).find? fun j => l[j]?.any p

/-- Those after `i`. -/
def beyond (i : Nat) : List Nat := (positions p l).filter (i < ·)

/-- The positions that follow one another from `i` on, each with whether it does not come after the one before. -/
def walk : Nat → Nat → List (Nat × Bool)
  | 0, _ => []
  | k + 1, i =>
    match next p l i with
    | some j => (j, j ≤ i) :: walk k j
    | none => walk k i

/-- A round goes through all positions, and the first of them does not come after the one before. -/
def newRound : List Nat → List (Nat × Bool)
  | [] => []
  | j :: js => (j, true) :: js.map fun j => (j, false)

variable {p l} {i j k m : Nat} {js : List Nat}

theorem mem_positions : i ∈ positions p l ↔ ∃ a, l[i]? = some a ∧ p a = true := by
  rw [positions, List.mem_filter, List.mem_range, Option.any_eq_true]
  constructor
  · exact fun h => h.2
  · rintro ⟨a, ha, hp⟩
    exact ⟨(List.getElem?_eq_some_iff.1 ha).1, a, ha, hp⟩

theorem lt_of_mem_positions (h : i ∈ positions p l) : i < l.length :=
  List.mem_range.1 (List.mem_of_mem_filter h)

theorem positions_sorted : (positions p l).Pairwise (· < ·) := List.pairwise_lt_range.filter _

theorem positions_ne_nil (h : ∃ a ∈ l, p a = true) : positions p l ≠ [] := by
  obtain ⟨a, ha, hp⟩ := h
  obtain ⟨i, hi⟩ := List.mem_iff_getElem?.1 ha
  exact List.ne_nil_of_mem (mem_positions.2 ⟨a, hi, hp⟩)

/-- The positions of a list that has grown. -/
theorem positions_append (l l' : List α) :
    positions p (l ++ l') = positions p l ++ (positions p l').map (l.length + ·) := by
  rw [positions, List.length_append, List.range_add, List.filter_append, List.filter_map]
  congr 1
  · refine List.filter_congr fun i hi => ?_
    rw [List.getElem?_append_left (List.mem_range.1 hi)]
  · refine congrArg (List.map _) (List.filter_congr fun i _ => ?_)
    simp only [Function.comp_apply, List.getElem?_append_right (Nat.le_add_right _ _), Nat.add_sub_cancel_left]

theorem beyond_append (hi : i < l.length) (l' : List α) :
    beyond p (l ++ l') i = beyond p l i ++ (positions p l').map (l.length + ·) := by
  rw [beyond, positions_append, List.filter_append, beyond]
  congr 1
  refine List.filter_eq_self.2 fun j hj => ?_
  obtain ⟨j', -, rfl⟩ := List.mem_map.1 hj
  simp only [decide_eq_true_eq]
  omega

/-- The elements at these positions. -/
theorem map_positions : (positions p l).map (l[·]?) = (l.filter p).map some := by
  induction l with
  | nil => rfl
  | cons a l ih =>
    have hrest : (positions p l).map (fun i => (a :: l)[1 + i]?) = (l.filter p).map some := by
      rw [← ih]
      refine List.map_congr_left fun i _ => ?_
      rw [Nat.add_comm, List.getElem?_cons_succ]
    rw [← List.singleton_append, positions_append, List.map_append, List.map_map, List.filter_append, List.map_append]
    refine congrArg₂ _ ?_ hrest
    cases hp : p a with
    | true => simp [positions, hp]
    | false => simp [positions, hp]

/-! ### One step -/

/-- The search goes through what is still to come of the round, and then through what has been. -/
theorem next_eq (hi : i < l.length) : next p l i = (beyond p l i).head?.or (positions p l).head? := by
  obtain ⟨b, hb⟩ : ∃ b, l.length = b + (i + 1) := ⟨l.length - (i + 1), by omega⟩
  have hround : ((List.range l.length).map fun k => (i + (k + 1)) % l.length) =
      (List.range b).map (i + 1 + ·) ++ List.range (i + 1) := by
    rw [hb, List.range_add, List.map_append, List.map_map]
    congr 1
    · refine List.map_congr_left fun k hk => ?_
      have hlt := List.mem_range.1 hk
      rw [Nat.mod_eq_of_lt (by omega)]
      omega
    · refine (List.map_congr_left fun k hk => ?_).trans (List.map_id _)
      have hlt := List.mem_range.1 hk
      simp only [Function.comp_apply, id]
      rw [show i + (b + k + 1) = k + (b + (i + 1)) by omega, Nat.add_mod_right, Nat.mod_eq_of_lt (by omega)]
  have hpositions : positions p l = ((List.range (i + 1)).filter fun j => l[j]?.any p) ++
      ((List.range b).map (i + 1 + ·)).filter fun j => l[j]?.any p := by
    rw [positions, hb, Nat.add_comm b, List.range_add, List.filter_append]
  have hbeyond : beyond p l i = ((List.range b).map (i + 1 + ·)).filter fun j => l[j]?.any p := by
    rw [beyond, hpositions, List.filter_append, List.filter_eq_nil_iff.2, List.nil_append, List.filter_eq_self.2]
    · intro j hj
      obtain ⟨k, -, rfl⟩ := List.mem_map.1 (List.mem_of_mem_filter hj)
      simp only [decide_eq_true_eq]
      omega
    · intro j hj
      have hlt := List.mem_range.1 (List.mem_of_mem_filter hj)
      simp only [decide_eq_true_eq]
      omega
  rw [next, hround, List.find?_append, ← List.head?_filter, ← List.head?_filter, ← hbeyond, hpositions, ← hbeyond,
    List.head?_append]
  cases (beyond p l i).head? with
  | none => simp
  | some j => simp

theorem next_mod (i : Nat) : next p l i = next p l (i % l.length) := by
  simp only [next, Nat.mod_add_mod]

/-- There is a next position if there is any. -/
theorem next_mem (h : positions p l ≠ []) (i : Nat) : ∃ j ∈ positions p l, next p l i = some j := by
  obtain ⟨first, hfirst⟩ := List.exists_mem_of_ne_nil _ h
  have hlt := lt_of_mem_positions hfirst
  rw [next_mod, next_eq (Nat.mod_lt _ (by omega))]
  cases hbeyond : beyond p l (i % l.length) with
  | cons j js =>
    have hmem : j ∈ beyond p l (i % l.length) := hbeyond ▸ List.mem_cons_self
    exact ⟨j, List.mem_of_mem_filter hmem, rfl⟩
  | nil =>
    obtain ⟨j, js, hpositions⟩ := List.exists_cons_of_ne_nil h
    exact ⟨j, hpositions ▸ List.mem_cons_self, by rw [hpositions]; rfl⟩

/-- Within a round. -/
theorem next_beyond (hi : i < l.length) (h : beyond p l i = j :: js) :
    next p l i = some j ∧ i < j ∧ j < l.length ∧ beyond p l j = js := by
  have hmem : j ∈ beyond p l i := h ▸ List.mem_cons_self
  have hlt : i < j := of_decide_eq_true (List.mem_filter.1 hmem).2
  have hsorted : (j :: js).Pairwise (· < ·) := h ▸ positions_sorted.filter _
  have hfrom : beyond p l j = (beyond p l i).filter (j < ·) := by
    rw [beyond, beyond, List.filter_filter]
    refine List.filter_congr fun k _ => ?_
    simp only [← Bool.decide_and]
    exact decide_eq_decide.2 ⟨fun hjk => ⟨hjk, Nat.lt_trans hlt hjk⟩, fun h => h.1⟩
  refine ⟨by rw [next_eq hi, h]; rfl, hlt, lt_of_mem_positions (List.mem_of_mem_filter hmem), ?_⟩
  rw [hfrom, h, List.filter_cons_of_neg (by simp), List.filter_eq_self.2]
  exact fun k hk => decide_eq_true (List.rel_of_pairwise_cons hsorted hk)

/-- At the end of a round. -/
theorem next_round (hi : i < l.length) (h : beyond p l i = []) (hpositions : positions p l = j :: js) :
    next p l i = some j ∧ j ≤ i ∧ j < l.length ∧ beyond p l j = js := by
  have hmem : j ∈ positions p l := hpositions ▸ List.mem_cons_self
  have hsorted : (j :: js).Pairwise (· < ·) := hpositions ▸ positions_sorted
  refine ⟨by rw [next_eq hi, h, hpositions]; rfl, ?_, lt_of_mem_positions hmem, ?_⟩
  · have hnot := List.filter_eq_nil_iff.1 h j hmem
    simpa using hnot
  · rw [beyond, hpositions, List.filter_cons_of_neg (by simp), List.filter_eq_self.2]
    exact fun k hk => decide_eq_true (List.rel_of_pairwise_cons hsorted hk)

/-! ### Walks -/

theorem walk_take (h : positions p l ≠ []) (i k m : Nat) : (walk p l (k + m) i).take k = walk p l k i := by
  induction k generalizing i with
  | zero => rfl
  | succ k ih =>
    obtain ⟨j, -, hnext⟩ := next_mem h i
    rw [Nat.succ_add, walk, walk]
    simp only [hnext, List.take_succ_cons, ih]

/-- The round that the walk is in comes to its end. -/
theorem walk_beyond (hi : i < l.length) :
    ∃ e, e < l.length ∧ beyond p l e = [] ∧
      ∀ k, walk p l ((beyond p l i).length + k) i = (beyond p l i).map (fun j => (j, false)) ++ walk p l k e := by
  generalize hjs : beyond p l i = js
  induction js generalizing i with
  | nil => exact ⟨i, hi, hjs, fun k => by rw [List.length_nil, Nat.zero_add]; rfl⟩
  | cons j js ih =>
    obtain ⟨hnext, hlt, hj, hbeyond⟩ := next_beyond hi hjs
    obtain ⟨e, he, hend, hwalk⟩ := ih hj hbeyond
    refine ⟨e, he, hend, fun k => ?_⟩
    rw [List.length_cons, Nat.succ_add, walk]
    simp only [hnext, hwalk, List.map_cons, List.cons_append, decide_eq_false (Nat.not_le.2 hlt)]

/-- A walk ends the round it is in, and goes through one round after the other. -/
theorem walk_rounds (hi : i < l.length) (h : positions p l ≠ []) (m : Nat) :
    walk p l ((beyond p l i).length + m * (positions p l).length) i =
      (beyond p l i).map (fun j => (j, false)) ++ (List.replicate m (newRound (positions p l))).flatten := by
  obtain ⟨e, he, hend, hwalk⟩ := walk_beyond (p := p) hi
  rw [hwalk]
  congr 1
  clear hwalk
  induction m generalizing e with
  | zero =>
    rw [Nat.zero_mul]
    rfl
  | succ m ih =>
    obtain ⟨j, js, hpositions⟩ := List.exists_cons_of_ne_nil h
    obtain ⟨hnext, hle, hj, hbeyond⟩ := next_round he hend hpositions
    obtain ⟨e', he', hend', hround⟩ := walk_beyond (p := p) hj
    have hsteps : (m + 1) * (positions p l).length = (js.length + m * (positions p l).length) + 1 := by
      rw [hpositions, List.length_cons, Nat.succ_mul]
      omega
    rw [hsteps, walk]
    simp only [hnext]
    rw [hbeyond] at hround
    rw [hround, ih e' he' hend', List.replicate_succ, List.flatten_cons, hpositions, newRound, decide_eq_true hle]
    rfl

end Search.Rotation
