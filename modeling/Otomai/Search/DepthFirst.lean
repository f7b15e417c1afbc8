import Mathlib.Data.List.Basic
import Mathlib.Logic.Relation

/-!
# Depth-first traversals

A traversal keeps the nodes it has visited.  From a node that is new it goes along the edges to its successors one
after the other; at the end of each edge it does something before it goes on from there.

* `Traversed`: what a traversal from some nodes has done.
* `exists_visit`: it ends within one nested call more than there are nodes.
* `visit_spec`: the first traversal goes along the edges of the nodes that can be reached.
-/

namespace Search

open Relation

variable {α σ : Type}

/-- The second node is a successor of the first one. -/
def Edge (succ : α → List α) (a b : α) : Prop := b ∈ succ a

section

variable [DecidableEq α] (succ : α → List α) (edge : σ → α → σ)

/-- The traversal from a node, within a number of nested calls.  The state is changed at the end of each edge. -/
def visit : Nat → α → σ × List α → Option (σ × List α)
  | 0, _, _ => none
  | n + 1, a, (s, visited) =>
    if a ∈ visited then some (s, visited)
    else (succ a).foldlM (fun st b => visit n b (edge st.1 b, st.2)) (s, a :: visited)

end

/-- From the `starts`, the traversal has gone to new nodes, from all of these along all edges, and along no other
ones; `ends` are the ends of the edges, in order. -/
structure Traversed (succ : α → List α) (starts visited visited' ends : List α) : Prop where
  kept : visited ⊆ visited'
  starts_visited : starts ⊆ visited'
  reached : ∀ b ∈ visited', b ∈ visited ∨ ∃ a ∈ starts, ReflTransGen (Edge succ) a b
  closed : ∀ b ∈ visited', b ∉ visited → ∀ c ∈ succ b, c ∈ visited' ∧ c ∈ ends
  ends_of : ∀ c ∈ ends, ∃ b ∈ visited', b ∉ visited ∧ c ∈ succ b

namespace Traversed

variable {succ : α → List α} {a : α} {starts visited visited' visited'' ends ends' : List α}

theorem nil (succ : α → List α) (visited : List α) : Traversed succ [] visited visited [] where
  kept := List.Subset.refl _
  starts_visited := List.nil_subset _
  reached _ hb := .inl hb
  closed _ hb hnew := absurd hb hnew
  ends_of _ hc := absurd hc List.not_mem_nil

/-- A node that has been visited before. -/
theorem skip (succ : α → List α) (h : a ∈ visited) : Traversed succ [a] visited visited [] where
  kept := List.Subset.refl _
  starts_visited b hb := by rwa [List.mem_singleton.1 hb]
  reached _ hb := .inl hb
  closed _ hb hnew := absurd hb hnew
  ends_of _ hc := absurd hc List.not_mem_nil

/-- A new node, after the traversal from its successors. -/
theorem node (hnew : a ∉ visited) (h : Traversed succ (succ a) (a :: visited) visited' ends)
    (hends : ∀ c, c ∈ ends' ↔ c ∈ succ a ∨ c ∈ ends) : Traversed succ [a] visited visited' ends' where
  kept := fun b hb => h.kept (List.mem_cons_of_mem a hb)
  starts_visited b hb := by
    rw [List.mem_singleton.1 hb]
    exact h.kept List.mem_cons_self
  reached b hb := by
    rcases h.reached b hb with hb | ⟨c, hc, hcb⟩
    · rcases List.mem_cons.1 hb with rfl | hb
      · exact .inr ⟨b, List.mem_singleton_self b, .refl⟩
      · exact .inl hb
    · exact .inr ⟨a, List.mem_singleton_self a, .head hc hcb⟩
  closed b hb hb' c hc := by
    rw [hends]
    by_cases hab : b = a
    · rw [hab] at hc
      exact ⟨h.starts_visited hc, .inl hc⟩
    · obtain ⟨hvisited, hmem⟩ := h.closed b hb (List.not_mem_cons_of_ne_of_not_mem hab hb') c hc
      exact ⟨hvisited, .inr hmem⟩
  ends_of c hc := by
    rcases (hends c).1 hc with hc | hc
    · exact ⟨a, h.kept List.mem_cons_self, hnew, hc⟩
    · obtain ⟨b, hb, hb', hcb⟩ := h.ends_of c hc
      exact ⟨b, hb, fun hmem => hb' (List.mem_cons_of_mem a hmem), hcb⟩

/-- One start after the other. -/
theorem append {starts' : List α} (h : Traversed succ starts visited visited' ends)
    (h' : Traversed succ starts' visited' visited'' ends') :
    Traversed succ (starts ++ starts') visited visited'' (ends ++ ends') where
  kept := List.Subset.trans h.kept h'.kept
  starts_visited := List.append_subset.2 ⟨List.Subset.trans h.starts_visited h'.kept, h'.starts_visited⟩
  reached b hb := by
    rcases h'.reached b hb with hb | ⟨a, ha, hab⟩
    · rcases h.reached b hb with hb | ⟨a, ha, hab⟩
      · exact .inl hb
      · exact .inr ⟨a, List.mem_append_left _ ha, hab⟩
    · exact .inr ⟨a, List.mem_append_right _ ha, hab⟩
  closed b hb hnew c hc := by
    by_cases hmem : b ∈ visited'
    · obtain ⟨hvisited, hends⟩ := h.closed b hmem hnew c hc
      exact ⟨h'.kept hvisited, List.mem_append_left _ hends⟩
    · obtain ⟨hvisited, hends⟩ := h'.closed b hb hmem c hc
      exact ⟨hvisited, List.mem_append_right _ hends⟩
  ends_of c hc := by
    rcases List.mem_append.1 hc with hc | hc
    · obtain ⟨b, hb, hnew, hcb⟩ := h.ends_of c hc
      exact ⟨b, h'.kept hb, hnew, hcb⟩
    · obtain ⟨b, hb, hnew, hcb⟩ := h'.ends_of c hc
      exact ⟨b, hb, fun hmem => hnew (h.kept hmem), hcb⟩

/-- From a single start, with nothing visited before, the traversal comes to the nodes that can be reached. -/
theorem mem_iff (h : Traversed succ [a] [] visited' ends) {b : α} : b ∈ visited' ↔ ReflTransGen (Edge succ) a b := by
  constructor
  · intro hb
    rcases h.reached b hb with hb | ⟨c, hc, hcb⟩
    · exact absurd hb List.not_mem_nil
    · rwa [List.mem_singleton.1 hc] at hcb
  · intro hab
    induction hab with
    | refl => exact h.starts_visited (List.mem_singleton_self a)
    | tail _ hedge ih => exact (h.closed _ ih List.not_mem_nil _ hedge).1

/-- It goes along an edge to every node that can be reached over an edge, and to no other one. -/
theorem mem_ends_iff (h : Traversed succ [a] [] visited' ends) {b : α} : b ∈ ends ↔ TransGen (Edge succ) a b := by
  constructor
  · intro hb
    obtain ⟨c, hc, -, hcb⟩ := h.ends_of b hb
    exact .tail' (h.mem_iff.1 hc) hcb
  · intro hab
    obtain ⟨c, hac, hcb⟩ := TransGen.tail'_iff.1 hab
    exact (h.closed c (h.mem_iff.2 hac) List.not_mem_nil b hcb).2

end Traversed

section

variable [DecidableEq α] {succ : α → List α} {edge : σ → α → σ} {a : α} {n : Nat} {s s' : σ}
    {visited visited' : List α}

/-- The step of the traversal along one edge. -/
theorem visit_traversed (h : visit succ edge n a (s, visited) = some (s', visited')) :
    ∃ ends : List α, s' = ends.foldl edge s ∧ Traversed succ [a] visited visited' ends := by
  induction n generalizing a s s' visited visited' with
  | zero => cases h
  | succ n ih =>
    -- the edges of a node, one after the other
    have hfold : ∀ (cs : List α) (s s' : σ) (visited visited' : List α),
        cs.foldlM (fun st b => visit succ edge n b (edge st.1 b, st.2)) (s, visited) = some (s', visited') →
          ∃ all ends : List α, s' = all.foldl edge s ∧ Traversed succ cs visited visited' ends ∧
            ∀ c, c ∈ all ↔ c ∈ cs ∨ c ∈ ends := by
      intro cs
      induction cs with
      | nil =>
        intro s s' visited visited' h
        obtain ⟨rfl, rfl⟩ := Prod.mk.inj (Option.some.inj h)
        exact ⟨[], [], rfl, .nil succ visited, by simp⟩
      | cons b cs ihcs =>
        intro s s' visited visited' h
        rw [List.foldlM_cons] at h
        obtain ⟨⟨s₁, visited₁⟩, hfirst, hrest⟩ := Option.bind_eq_some_iff.1 h
        obtain ⟨ends, rfl, hb⟩ := ih hfirst
        obtain ⟨all, ends', rfl, hcs, hall⟩ := ihcs _ _ _ _ hrest
        refine ⟨b :: ends ++ all, ends ++ ends', by rw [List.foldl_append]; rfl, hb.append hcs, fun c => ?_⟩
        simp only [List.cons_append, List.mem_cons, List.mem_append, hall]
        tauto
    rw [visit] at h
    split at h
    · obtain ⟨rfl, rfl⟩ := Prod.mk.inj (Option.some.inj h)
      exact ⟨[], rfl, .skip succ ‹_›⟩
    · obtain ⟨all, ends, hs, htraversed, hall⟩ := hfold _ _ _ _ _ h
      exact ⟨all, hs, .node ‹_› htraversed hall⟩

/-- The first traversal goes along an edge to exactly the nodes that can be reached over an edge. -/
theorem visit_spec (h : visit succ edge n a (s, []) = some (s', visited')) :
    ∃ ends : List α, s' = ends.foldl edge s ∧ ∀ b, b ∈ ends ↔ TransGen (Edge succ) a b := by
  obtain ⟨ends, hs, htraversed⟩ := visit_traversed h
  exact ⟨ends, hs, fun b => htraversed.mem_ends_iff⟩

/-- A visit leaves fewer nodes to be visited. -/
private theorem countP_visit {nodes : List α} (ha : a ∈ nodes) (hnew : a ∉ visited) :
    nodes.countP (· ∉ a :: visited) < nodes.countP (· ∉ visited) := by
  have hfilter : nodes.filter (· ∉ a :: visited) = (nodes.filter (· ∉ visited)).filter (· ≠ a) := by
    rw [List.filter_filter]
    refine List.filter_congr fun b _ => ?_
    simp [not_or]
  rw [List.countP_eq_length_filter, List.countP_eq_length_filter, hfilter, List.length_filter_lt_length_iff_exists]
  exact ⟨a, by simp [ha, hnew], by simp⟩

/-- The traversal ends: each nested call comes from a node that has been visited meanwhile. -/
theorem exists_visit {nodes : List α} (hnodes : ∀ a ∈ nodes, ∀ b ∈ succ a, b ∈ nodes) (ha : a ∈ nodes)
    (hn : nodes.countP (· ∉ visited) < n) :
    ∃ s' visited', visit succ edge n a (s, visited) = some (s', visited') ∧ visited ⊆ visited' := by
  induction n generalizing a s visited with
  | zero => omega
  | succ n ih =>
    have hfold : ∀ (cs : List α) (s : σ) (visited : List α), (∀ c ∈ cs, c ∈ nodes) →
        nodes.countP (· ∉ visited) < n → ∃ s' visited',
          cs.foldlM (fun st b => visit succ edge n b (edge st.1 b, st.2)) (s, visited) = some (s', visited') ∧
            visited ⊆ visited' := by
      intro cs
      induction cs with
      | nil => exact fun s visited _ _ => ⟨s, visited, rfl, List.Subset.refl _⟩
      | cons b cs ihcs =>
        intro s visited hcs hn
        obtain ⟨s₁, visited₁, hfirst, hsub⟩ := @ih b (edge s b) visited (hcs b List.mem_cons_self) hn
        have hcount : nodes.countP (· ∉ visited₁) ≤ nodes.countP (· ∉ visited) := by
          refine List.countP_mono_left fun c _ hc => ?_
          simp only [decide_eq_true_eq] at hc ⊢
          exact fun hmem => hc (hsub hmem)
        obtain ⟨s', visited', hrest, hsub'⟩ :=
          ihcs s₁ visited₁ (fun c hc => hcs c (List.mem_cons_of_mem b hc)) (by omega)
        refine ⟨s', visited', ?_, List.Subset.trans hsub hsub'⟩
        rw [List.foldlM_cons, hfirst]
        exact hrest
    rw [visit]
    split
    · exact ⟨s, visited, rfl, List.Subset.refl _⟩
    · have hcount := @countP_visit _ _ a visited nodes ha ‹_›
      obtain ⟨s', visited', hrest, hsub⟩ := hfold (succ a) s (a :: visited) (hnodes a ha) (by omega)
      exact ⟨s', visited', hrest, fun b hb => hsub (List.mem_cons_of_mem a hb)⟩

end

end Search
