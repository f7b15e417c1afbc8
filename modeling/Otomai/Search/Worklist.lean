import Mathlib.Logic.Relation

/-!
# Worklists

A search keeps the nodes it has visited and a list of the nodes that wait for a visit.  `Explored` is what it knows:
whatever it has seen can be reached, and an edge from a visited node leads to a node it has seen.  It takes nodes that
have been visited off the list, and visits the others, upon which the ends of their edges have to wait.

* `Explored.mem_iff`: once nothing waits, the visited nodes are those that can be reached.
-/

namespace Search

open Relation

variable {ν : Type} {edge : ν → ν → Prop} {start u v : ν} {visited waiting : List ν}

structure Explored (edge : ν → ν → Prop) (start : ν) (visited waiting : List ν) : Prop where
  reached : ∀ v, v ∈ visited ∨ v ∈ waiting → ReflTransGen edge start v
  start_seen : start ∈ visited ∨ start ∈ waiting
  closed : ∀ u ∈ visited, ∀ v, edge u v → v ∈ visited ∨ v ∈ waiting

namespace Explored

theorem init : Explored edge start [] [start] where
  reached v hv := by
    rcases hv with hv | hv
    · exact absurd hv List.not_mem_nil
    · rw [List.mem_singleton.1 hv]
  start_seen := .inr (List.mem_singleton_self start)
  closed _ hu := absurd hu List.not_mem_nil

/-- A node that has been visited need not wait. -/
theorem skip (h : Explored edge start visited (u :: waiting)) (hu : u ∈ visited) :
    Explored edge start visited waiting := by
  have hseen {v : ν} (hv : v ∈ visited ∨ v ∈ u :: waiting) : v ∈ visited ∨ v ∈ waiting := by
    rcases hv with hv | hv
    · exact .inl hv
    · rcases List.mem_cons.1 hv with rfl | hv
      · exact .inl hu
      · exact .inr hv
  exact ⟨fun v hv => h.reached v (hv.imp_right (List.mem_cons_of_mem u)), hseen h.start_seen,
    fun w hw v hv => hseen (h.closed w hw v hv)⟩

/-- To visit a node, the ends of its edges are put on the list. -/
theorem visit {waiting' : List ν} (h : Explored edge start visited (u :: waiting))
    (hnew : ∀ v ∈ waiting', edge u v ∨ v ∈ waiting) (hkept : ∀ v ∈ waiting, v ∈ waiting')
    (hedges : ∀ v, edge u v → v ∈ u :: visited ∨ v ∈ waiting') : Explored edge start (u :: visited) waiting' := by
  have hu : ReflTransGen edge start u := h.reached u (.inr List.mem_cons_self)
  have hseen {v : ν} (hv : v ∈ visited ∨ v ∈ u :: waiting) : v ∈ u :: visited ∨ v ∈ waiting' := by
    rcases hv with hv | hv
    · exact .inl (List.mem_cons_of_mem u hv)
    · rcases List.mem_cons.1 hv with rfl | hv
      · exact .inl List.mem_cons_self
      · exact .inr (hkept v hv)
  refine ⟨fun v hv => ?_, hseen h.start_seen, fun w hw v hv => ?_⟩
  · rcases hv with hv | hv
    · rcases List.mem_cons.1 hv with rfl | hv
      · exact hu
      · exact h.reached v (.inl hv)
    · rcases hnew v hv with hedge | hv
      · exact hu.tail hedge
      · exact h.reached v (.inr (List.mem_cons_of_mem u hv))
  · rcases List.mem_cons.1 hw with rfl | hw
    · exact hedges v hv
    · exact hseen (h.closed w hw v hv)

theorem mem_iff (h : Explored edge start visited []) : v ∈ visited ↔ ReflTransGen edge start v := by
  have hseen {v : ν} (hv : v ∈ visited ∨ v ∈ []) : v ∈ visited := hv.resolve_right List.not_mem_nil
  refine ⟨fun hv => h.reached v (.inl hv), fun hv => ?_⟩
  induction hv with
  | refl => exact hseen h.start_seen
  | tail _ hedge ih => exact hseen (h.closed _ ih _ hedge)

end Explored

end Search
