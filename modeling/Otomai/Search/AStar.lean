import Mathlib.Data.List.Chain
import Mathlib.Data.List.Dedup
import Mathlib.Logic.Function.Basic
import Otomai.Search.BinaryHeap
import Otomai.Trace.Program

/-!
# Best-first search

A search for a path in a graph whose edges cost one, by a queue ordered by the cost so far and an estimate of the
rest. A node is closed when it is first taken from the queue and is not opened again, and a node whose cost has
reached the limit is not expanded.

What a state of the search knows (`Inv`) needs nothing of the estimate: the result is a path, within the limit.  It is
no longer than any path within the limit along which the estimate falls by at most one at each edge (`IsGuide`): the
closed nodes of such a path cost no more than along it (`Optimal`), since otherwise an open node of the path would
come before them in the queue (`exists_open`).

* `search_ends`: with enough steps, the search ends in a state that satisfies `Inv`.
* `search_path`: what is found is a path within the limit.
* `search_guided`: where there is a guide, something is found, and it is no longer than the guide.
* `search_shortest`: where some shortest path is a guide, a shortest path is found, and where nothing is found there
  is none within the limit.
-/

namespace Search

open Trace

/-! ### Paths -/

section

variable {ν : Type}

/-- A path of a graph, as the list of its nodes. -/
def IsPath (next : ν → List ν) (start goal : ν) (path : List ν) : Prop :=
  path.head? = some start ∧ path.getLast? = some goal ∧ List.IsChain (fun u v => v ∈ next u) path

/-- A node is at the end of some edges. -/
inductive Reach (next : ν → List ν) (start : ν) : Nat → ν → Prop where
  | start : Reach next start 0 start
  | step {n : Nat} {u v : ν} (hu : Reach next start n u) (hv : v ∈ next u) : Reach next start (n + 1) v

variable {next : ν → List ν} {start goal : ν}

theorem Reach.from_edge {u v : ν} {n : Nat} (huv : v ∈ next u) (h : Reach next v n goal) :
    Reach next u (n + 1) goal := by
  induction h with
  | start => exact .step .start huv
  | step _ hv ih => exact .step ih hv

theorem IsPath.reach {path : List ν} (h : IsPath next start goal path) :
    Reach next start (path.length - 1) goal := by
  induction path generalizing start with
  | nil => cases h.1
  | cons u path ih =>
    obtain ⟨hhead, hlast, hchain⟩ := h
    obtain rfl : u = start := Option.some.inj hhead
    cases path with
    | nil =>
      obtain rfl : u = goal := Option.some.inj hlast
      exact .start
    | cons v path =>
      obtain ⟨huv, hrest⟩ := List.isChain_cons_cons.1 hchain
      rw [List.getLast?_cons_cons] at hlast
      exact Reach.from_edge huv (ih ⟨rfl, hlast, hrest⟩)

/-- A shortest path is no longer than another one. -/
theorem exists_shortest {path : List ν} (h : IsPath next start goal path) :
    ∃ shortest, IsPath next start goal shortest ∧ shortest.length ≤ path.length ∧
      ∀ other, IsPath next start goal other → shortest.length ≤ other.length := by
  induction hn : path.length using Nat.strongRecOn generalizing path with
  | ind n ih =>
    by_cases hshorter : ∃ other, IsPath next start goal other ∧ other.length < n
    · obtain ⟨other, hother, hlt⟩ := hshorter
      obtain ⟨shortest, hpath, hle, hall⟩ := ih other.length hlt hother rfl
      exact ⟨shortest, hpath, by omega, hall⟩
    · refine ⟨path, h, Nat.le_of_eq hn, fun other hother => ?_⟩
      rw [hn]
      exact Nat.le_of_not_lt fun hlt => hshorter ⟨other, hother, hlt⟩

/-- The nodes at the end of `n` edges. -/
def level [DecidableEq ν] (next : ν → List ν) (start : ν) : Nat → List ν
  | 0 => [start]
  | n + 1 => ((level next start n).flatMap next).dedup

theorem Reach.mem_level [DecidableEq ν] {n : Nat} {v : ν} (h : Reach next start n v) : v ∈ level next start n := by
  induction h with
  | start => exact List.mem_singleton_self start
  | step _ hv ih => exact List.mem_dedup.2 (List.mem_flatMap.2 ⟨_, ih, hv⟩)

/-- A path is longer than the number of its levels that the goal is not in. -/
theorem IsPath.lt_length [DecidableEq ν] {path : List ν} (h : IsPath next start goal path) {n : Nat}
    (hlevels : ∀ m < n, goal ∉ level next start m) : n < path.length := by
  have hpos : 0 < path.length := List.length_pos_of_ne_nil fun hnil => by
    rw [hnil] at h
    cases h.1
  by_contra hle
  exact hlevels (path.length - 1) (by omega) h.reach.mem_level

theorem IsPath.concat {path : List ν} {u v : ν} (h : IsPath next start u path) (huv : v ∈ next u) :
    IsPath next start v (path ++ [v]) := by
  obtain ⟨hhead, hlast, hchain⟩ := h
  refine ⟨?_, List.getLast?_concat, ?_⟩
  · rw [List.head?_append, hhead]
    rfl
  · refine List.isChain_append.2 ⟨hchain, List.isChain_singleton v, fun x hx y hy => ?_⟩
    obtain rfl : v = y := Option.some.inj hy
    obtain rfl : u = x := Option.some.inj (hlast.symm.trans hx)
    exact huv

end

/-! ### The search -/

/-- An entry of the queue. -/
structure Entry (ν : Type) where
  node : ν
  score : Nat
  deriving DecidableEq, Repr

/-- The order of the queue: an entry with the least score is greatest. -/
def Entry.le {ν : Type} (a b : Entry ν) : Prop := b.score ≤ a.score

instance {ν : Type} : DecidableRel (@Entry.le ν) := fun a b => inferInstanceAs (Decidable (b.score ≤ a.score))

instance {ν : Type} : Std.Total (@Entry.le ν) := ⟨fun a b => Nat.le_total b.score a.score⟩

instance {ν : Type} : IsTrans (Entry ν) Entry.le := ⟨fun _ _ _ hab hbc => Nat.le_trans hbc hab⟩

/-- What is searched. -/
structure Problem (ν : Type) where
  next : ν → List ν
  heuristic : ν → Nat
  maxCost : Option Nat
  start : ν
  goal : ν

/-- A state of the search; a node without a score has not been seen. -/
structure State (ν : Type) where
  gScore : ν → Option Nat
  cameFrom : ν → Option ν
  closed : ν → Bool
  queue : List (Entry ν)

section

variable {ν : Type} [DecidableEq ν] (p : Problem ν)

def State.start : State ν where
  gScore := Function.update (fun _ => none) p.start (some 0)
  cameFrom := fun _ => none
  closed := fun _ => false
  queue := push Entry.le [] ⟨p.start, p.heuristic p.start⟩

/-- The edge from `u`, whose cost is `currentG`, to `v` is looked at. -/
def relax (u : ν) (currentG : Nat) (s : State ν) (v : ν) : State ν :=
  if s.closed v = true then s
  else if ∀ g ∈ s.gScore v, currentG + 1 < g then
    { s with
      gScore := Function.update s.gScore v (some (currentG + 1))
      cameFrom := Function.update s.cameFrom v (some u)
      queue := push Entry.le s.queue ⟨v, currentG + 1 + p.heuristic v⟩ }
  else s

def close (s : State ν) (u : ν) : State ν := { s with closed := Function.update s.closed u true }

/-- A node is closed, and its edges are looked at unless its cost has reached the limit. -/
def expand (s : State ν) (u : ν) : State ν :=
  match s.gScore u with
  | none => close s u
  | some currentG =>
    if ∃ max ∈ p.maxCost, max ≤ currentG then close s u
    else (p.next u).foldl (relax p u currentG) (close s u)

/-- The path is followed back from its end. -/
def traceBack (cameFrom : ν → Option ν) : Nat → ν → List ν → Ending (List ν)
  | 0, current, path => if current = p.start then .value (p.start :: path) else .exhausted
  | steps + 1, current, path =>
    if current = p.start then .value (p.start :: path)
    else match cameFrom current with
      | none => .panic
      | some previous => traceBack cameFrom steps previous (current :: path)

/-- What the search returns when it takes the goal from the queue: each node of the path has a lower score than the
one it leads to. -/
def found (s : State ν) : Ending (Option (List ν)) :=
  match traceBack p s.cameFrom ((s.gScore p.goal).getD 0) p.goal [] with
  | .value path => .value (some path)
  | .panic => .panic
  | .exhausted => .exhausted

def search : Nat → State ν → Ending (Option (List ν))
  | 0, _ => .exhausted
  | steps + 1, s =>
    match pop Entry.le s.queue with
    | none => .value none
    | some (e, queue) =>
      let s := { s with queue }
      if e.node = p.goal then found p s
      else if s.closed e.node = true then search steps s
      else search steps (expand p s e.node)

/-! ### What a state knows -/

/-- The costs are those of paths within the limit, every open node is in the queue with its cost, and an expanded node
has told its open neighbours, apart from the edges that are `waived`. -/
structure Inv (waived : ν → ν → Prop) (s : State ν) : Prop where
  heap : IsHeap Entry.le s.queue
  start : s.gScore p.start = some 0
  goal : s.closed p.goal = false
  reach : ∀ v n, s.gScore v = some n → Reach p.next p.start n v
  limit : ∀ v n, s.gScore v = some n → ∀ max ∈ p.maxCost, n ≤ max
  scored : ∀ v, s.closed v = true → (s.gScore v).isSome
  came : ∀ v n, s.gScore v = some n → v ≠ p.start →
    ∃ u m, s.cameFrom v = some u ∧ v ∈ p.next u ∧ s.closed u = true ∧ s.gScore u = some m ∧ n = m + 1
  queued : ∀ v n, s.gScore v = some n → s.closed v = false → ⟨v, n + p.heuristic v⟩ ∈ s.queue
  entry : ∀ e ∈ s.queue, ∃ n, s.gScore e.node = some n ∧ n + p.heuristic e.node ≤ e.score
  told : ∀ u n v, s.closed u = true → s.gScore u = some n → (∀ max ∈ p.maxCost, n < max) → v ∈ p.next u →
    ¬waived u v → s.closed v = false → ∃ m, s.gScore v = some m ∧ m ≤ n + 1

variable {p} {s : State ν} {waived : ν → ν → Prop}

theorem inv_start : Inv p (fun _ _ => False) (State.start p) := by
  have hstart : (State.start p).gScore = Function.update (fun _ => none) p.start (some 0) := rfl
  have hself : (State.start p).gScore p.start = some 0 := by rw [hstart, Function.update_self]
  have hscore : ∀ v n, (State.start p).gScore v = some n → v = p.start ∧ n = 0 := by
    intro v n h
    by_cases hv : v = p.start
    · subst hv
      rw [hself] at h
      exact ⟨rfl, (Option.some.inj h).symm⟩
    · rw [hstart, Function.update_of_ne hv] at h
      cases h
  -- only the start has a score, and only its entry waits
  have hqueue : ∀ e, e ∈ (State.start p).queue ↔ e = ⟨p.start, p.heuristic p.start⟩ := by
    intro e
    rw [State.start, (push_perm _ _).mem_iff, List.mem_singleton]
  refine ⟨isHeap_push isHeap_nil _, hself, rfl, ?_, ?_, ?_, ?_, ?_, ?_, ?_⟩
  · intro v n h
    obtain ⟨rfl, rfl⟩ := hscore v n h
    exact .start
  · intro v n h max _
    obtain ⟨-, rfl⟩ := hscore v n h
    exact Nat.zero_le max
  · intro v h
    cases h
  · intro v n h hne
    exact absurd (hscore v n h).1 hne
  · intro v n h _
    obtain ⟨rfl, rfl⟩ := hscore v n h
    rw [hqueue, Nat.zero_add]
  · intro e he
    rw [(hqueue e).1 he]
    exact ⟨0, hself, by rw [Nat.zero_add]⟩
  · intro u n v h
    cases h

omit [DecidableEq ν] in
/-- The node of an entry that is taken from the queue was closed already. -/
theorem Inv.skip (h : Inv p waived s) {e : Entry ν} {queue : List (Entry ν)}
    (hpop : pop Entry.le s.queue = some (e, queue)) (hclosed : s.closed e.node = true) :
    Inv p waived { s with queue } := by
  have hperm := pop_perm hpop
  refine { h with heap := isHeap_pop h.heap hpop, queued := fun v n hv hopen => ?_, entry := fun e' he' => ?_ }
  · have hmem := hperm.mem_iff.1 (h.queued v n hv hopen)
    rcases List.mem_cons.1 hmem with rfl | hmem
    · rw [hclosed] at hopen
      cases hopen
    · exact hmem
  · exact h.entry e' (hperm.mem_iff.2 (List.mem_cons_of_mem _ he'))

/-- The node of an entry that is taken from the queue is closed: its edges are to be looked at. -/
theorem Inv.close (h : Inv p (fun _ _ => False) s) {e : Entry ν} {queue : List (Entry ν)}
    (hpop : pop Entry.le s.queue = some (e, queue)) (hgoal : e.node ≠ p.goal) :
    Inv p (fun u _ => u = e.node) (close { s with queue } e.node) := by
  have hperm := pop_perm hpop
  obtain ⟨n, hn, -⟩ := h.entry e (hperm.mem_iff.2 List.mem_cons_self)
  have hclosed : ∀ v, (Search.close { s with queue } e.node).closed v = true ↔ v = e.node ∨ s.closed v = true := by
    intro v
    by_cases hv : v = e.node
    · rw [hv]
      exact iff_of_true (Function.update_self ..) (.inl rfl)
    · have hsame : (Search.close { s with queue } e.node).closed v = s.closed v := Function.update_of_ne hv ..
      rw [hsame, or_iff_right hv]
  -- closing changes neither scores nor predecessors; only the edges out of this node are waived
  refine ⟨isHeap_pop h.heap hpop, h.start, ?_, h.reach, h.limit, ?_, ?_, ?_, ?_, ?_⟩
  · exact (Function.update_of_ne hgoal.symm ..).trans h.goal
  · intro v hv
    rcases (hclosed v).1 hv with rfl | hv
    · exact Option.isSome_iff_exists.2 ⟨n, hn⟩
    · exact h.scored v hv
  · intro v m hv hne
    obtain ⟨u, k, hcame, hedge, hu, hk, hm⟩ := h.came v m hv hne
    exact ⟨u, k, hcame, hedge, (hclosed u).2 (.inr hu), hk, hm⟩
  · intro v m hv hopen
    have hne : v ≠ e.node := fun heq => by
      rw [(hclosed v).2 (.inl heq)] at hopen
      cases hopen
    have hopen' : s.closed v = false := (Function.update_of_ne hne ..).symm.trans hopen
    rcases List.mem_cons.1 (hperm.mem_iff.1 (h.queued v m hv hopen')) with heq | hmem
    · exact absurd (congrArg Entry.node heq) hne
    · exact hmem
  · intro e' he'
    exact h.entry e' (hperm.mem_iff.2 (List.mem_cons_of_mem _ he'))
  · intro u m v hu hm hmax hedge hne hopen
    rcases (hclosed u).1 hu with rfl | hu
    · exact absurd rfl hne
    · refine h.told u m v hu hm hmax hedge not_false ?_
      by_contra hv
      rw [(hclosed v).2 (.inr (Bool.of_not_eq_false hv))] at hopen
      cases hopen

/-- The edge from `u` to `v` is looked at; it need not be waived any more. -/
theorem Inv.relax {u v : ν} {pending : List ν} {n : Nat} (h : Inv p (fun x y => x = u ∧ y ∈ v :: pending) s)
    (hclosed : s.closed u = true) (hn : s.gScore u = some n) (hmax : ∀ max ∈ p.maxCost, n < max) (hv : v ∈ p.next u) :
    Inv p (fun x y => x = u ∧ y ∈ pending) (Search.relax p u n s v) := by
  -- where nothing is done, the edge needs nothing
  have hkeep : (s.closed v = false → ∃ m, s.gScore v = some m ∧ m ≤ n + 1) →
      Inv p (fun x y => x = u ∧ y ∈ pending) s := by
    intro hlow
    refine { h with told := fun x k y hx hk hlt hy hne hopen => ?_ }
    by_cases hedge : x = u ∧ y = v
    · obtain ⟨rfl, rfl⟩ := hedge
      obtain rfl : n = k := Option.some.inj (hn.symm.trans hk)
      exact hlow hopen
    · refine h.told x k y hx hk hlt hy ?_ hopen
      rintro ⟨rfl, hmem⟩
      rcases List.mem_cons.1 hmem with rfl | hmem
      · exact hedge ⟨rfl, rfl⟩
      · exact hne ⟨rfl, hmem⟩
  rw [Search.relax]
  by_cases hvclosed : s.closed v = true
  · rw [if_pos hvclosed]
    exact hkeep fun hopen => by
      rw [hvclosed] at hopen
      cases hopen
  rw [if_neg hvclosed]
  by_cases hlower : ∀ g ∈ s.gScore v, n + 1 < g
  swap
  · rw [if_neg hlower]
    refine hkeep fun _ => ?_
    obtain ⟨g, hg, hle⟩ : ∃ g ∈ s.gScore v, ¬n + 1 < g := by
      by_contra hnone
      exact hlower fun g hg => by_contra fun hle => hnone ⟨g, hg, hle⟩
    exact ⟨g, hg, Nat.le_of_not_lt hle⟩
  rw [if_pos hlower]
  have hopen : s.closed v = false := Bool.of_not_eq_true hvclosed
  have huv : u ≠ v := fun heq => hvclosed (heq ▸ hclosed)
  have hne_start : v ≠ p.start := fun heq => by
    have hlt := hlower 0 (heq ▸ h.start)
    omega
  have hmem : ∀ e, e ∈ push Entry.le s.queue ⟨v, n + 1 + p.heuristic v⟩ ↔
      e = ⟨v, n + 1 + p.heuristic v⟩ ∨ e ∈ s.queue := fun e => by
    rw [(push_perm _ _).mem_iff, List.mem_cons]
  -- the score of `v` falls, and no other one changes
  have hself : Function.update s.gScore v (some (n + 1)) v = some (n + 1) := Function.update_self ..
  have hother : ∀ w, w ≠ v → Function.update s.gScore v (some (n + 1)) w = s.gScore w :=
    fun w hw => Function.update_of_ne hw ..
  have hof_closed : ∀ w, s.closed w = true → w ≠ v := fun w hw heq => hvclosed (heq ▸ hw)
  refine ⟨isHeap_push h.heap _, ?_, h.goal, ?_, ?_, ?_, ?_, ?_, ?_, ?_⟩
  · exact (hother _ hne_start.symm).trans h.start
  · intro w m hm
    by_cases hw : w = v
    · subst hw
      obtain rfl : n + 1 = m := Option.some.inj (hself.symm.trans hm)
      exact .step (h.reach u n hn) hv
    · exact h.reach w m ((hother w hw).symm.trans hm)
  · intro w m hm
    by_cases hw : w = v
    · subst hw
      obtain rfl : n + 1 = m := Option.some.inj (hself.symm.trans hm)
      exact fun max hmem => hmax max hmem
    · exact h.limit w m ((hother w hw).symm.trans hm)
  · intro w hw
    dsimp only
    rw [hother w (hof_closed w hw)]
    exact h.scored w hw
  · intro w m hm hwstart
    by_cases hw : w = v
    · subst hw
      obtain rfl : n + 1 = m := Option.some.inj (hself.symm.trans hm)
      exact ⟨u, n, Function.update_self .., hv, hclosed, (hother u huv).trans hn, rfl⟩
    · obtain ⟨x, k, hcame, hedge, hx, hk, hmk⟩ := h.came w m ((hother w hw).symm.trans hm) hwstart
      exact ⟨x, k, (Function.update_of_ne hw ..).trans hcame, hedge, hx, (hother x (hof_closed x hx)).trans hk, hmk⟩
  · intro w m hm hwopen
    by_cases hw : w = v
    · subst hw
      obtain rfl : n + 1 = m := Option.some.inj (hself.symm.trans hm)
      exact (hmem _).2 (.inl rfl)
    · exact (hmem _).2 (.inr (h.queued w m ((hother w hw).symm.trans hm) hwopen))
  · intro e he
    rcases (hmem e).1 he with rfl | he
    · exact ⟨n + 1, hself, Nat.le_refl _⟩
    · obtain ⟨m, hm, hle⟩ := h.entry e he
      by_cases hw : e.node = v
      · have hlt := hlower m (hw ▸ hm)
        refine ⟨n + 1, ?_, ?_⟩
        · dsimp only
          rw [hw, hself]
        · omega
      · exact ⟨m, (hother _ hw).trans hm, hle⟩
  · intro x k y hx hk hlt hy hne hyopen
    have hk' : s.gScore x = some k := (hother x (hof_closed x hx)).symm.trans hk
    by_cases hyv : y = v
    · subst hyv
      by_cases hxu : x = u
      · subst hxu
        obtain rfl : n = k := Option.some.inj (hn.symm.trans hk')
        exact ⟨n + 1, hself, Nat.le_refl _⟩
      · obtain ⟨m, hm, hle⟩ := h.told x k y hx hk' hlt hy (fun hw => hxu hw.1) hyopen
        have hlt := hlower m hm
        exact ⟨n + 1, hself, by omega⟩
    · have hwaived : ¬(x = u ∧ y ∈ v :: pending) := by
        rintro ⟨rfl, hmem⟩
        rcases List.mem_cons.1 hmem with rfl | hmem
        · exact hyv rfl
        · exact hne ⟨rfl, hmem⟩
      obtain ⟨m, hm, hle⟩ := h.told x k y hx hk' hlt hy hwaived hyopen
      exact ⟨m, (hother y hyv).trans hm, hle⟩

@[simp] theorem closed_relax (u v : ν) (n : Nat) : (Search.relax p u n s v).closed = s.closed := by
  unfold Search.relax
  split_ifs <;> rfl

/-- A closed node keeps its score. -/
theorem gScore_relax {u v w : ν} {n : Nat} (hw : s.closed w = true) :
    (Search.relax p u n s v).gScore w = s.gScore w := by
  unfold Search.relax
  by_cases hv : s.closed v = true
  · rw [if_pos hv]
  · rw [if_neg hv]
    split_ifs
    · exact Function.update_of_ne (fun heq : w = v => hv (heq ▸ hw)) ..
    · rfl

theorem Inv.foldl_relax {u : ν} {n : Nat} {pending : List ν} (h : Inv p (fun x y => x = u ∧ y ∈ pending) s)
    (hclosed : s.closed u = true) (hn : s.gScore u = some n) (hmax : ∀ max ∈ p.maxCost, n < max)
    (hpending : ∀ v ∈ pending, v ∈ p.next u) :
    Inv p (fun _ _ => False) (pending.foldl (Search.relax p u n) s) ∧
      (pending.foldl (Search.relax p u n) s).closed = s.closed ∧
      ∀ w, s.closed w = true → (pending.foldl (Search.relax p u n) s).gScore w = s.gScore w := by
  induction pending generalizing s with
  | nil =>
    refine ⟨{ h with told := fun x k y hx hk hlt hy _ => h.told x k y hx hk hlt hy ?_ }, rfl, fun _ _ => rfl⟩
    exact fun hmem => absurd hmem.2 List.not_mem_nil
  | cons v pending ih =>
    have hstep := h.relax hclosed hn hmax (hpending v List.mem_cons_self)
    obtain ⟨hinv, hsame, hscore⟩ := ih hstep (by rwa [closed_relax]) ((gScore_relax hclosed).trans hn)
      fun w hw => hpending w (List.mem_cons_of_mem _ hw)
    refine ⟨hinv, hsame.trans (closed_relax ..), fun w hw => ?_⟩
    exact (hscore w (by rwa [closed_relax])).trans (gScore_relax hw)

/-- A node is taken from the queue for the first time. -/
theorem Inv.expand (h : Inv p (fun _ _ => False) s) {e : Entry ν} {queue : List (Entry ν)}
    (hpop : pop Entry.le s.queue = some (e, queue)) (hgoal : e.node ≠ p.goal) :
    Inv p (fun _ _ => False) (Search.expand p { s with queue } e.node) ∧
      (Search.expand p { s with queue } e.node).closed = Function.update s.closed e.node true ∧
      ∀ w, w = e.node ∨ s.closed w = true → (Search.expand p { s with queue } e.node).gScore w = s.gScore w := by
  have hclose := h.close hpop hgoal
  obtain ⟨n, hn, -⟩ := h.entry e ((pop_perm hpop).mem_iff.2 List.mem_cons_self)
  have hself : (Search.close { s with queue } e.node).closed e.node = true := Function.update_self ..
  rw [Search.expand]
  dsimp only
  rw [hn]
  dsimp only
  -- beyond the bound the edges are not looked at, and then they need not be told
  by_cases hlimit : ∃ max ∈ p.maxCost, max ≤ n
  · rw [if_pos hlimit]
    refine ⟨{ hclose with told := fun x k y hx hk hlt hy _ => hclose.told x k y hx hk hlt hy ?_ }, rfl,
      fun _ _ => rfl⟩
    rintro rfl
    obtain ⟨max, hmem, hle⟩ := hlimit
    obtain rfl : n = k := Option.some.inj (hn.symm.trans hk)
    exact absurd (hlt max hmem) (Nat.not_lt.2 hle)
  · rw [if_neg hlimit]
    have hwaived : Inv p (fun x y => x = e.node ∧ y ∈ p.next e.node) (Search.close { s with queue } e.node) := by
      refine { hclose with told := fun x k y hx hk hlt hy hne => hclose.told x k y hx hk hlt hy ?_ }
      rintro rfl
      exact hne ⟨rfl, hy⟩
    have hmax : ∀ max ∈ p.maxCost, n < max := fun max hmem => Nat.lt_of_not_le fun hle => hlimit ⟨max, hmem, hle⟩
    obtain ⟨hinv, hsame, hscore⟩ := hwaived.foldl_relax hself hn hmax fun _ hv => hv
    refine ⟨hinv, hsame, fun w hw => hscore w ?_⟩
    by_cases heq : w = e.node
    · rw [heq]
      exact hself
    · exact (Function.update_of_ne heq ..).trans (hw.resolve_left heq)

/-! ### Guides -/

variable (p)

/-- A path to the goal within the limit, along which the estimate falls by at most the cost of each edge. -/
structure IsGuide (path : List ν) : Prop where
  isPath : IsPath p.next p.start p.goal path
  limit : ∀ max ∈ p.maxCost, path.length - 1 ≤ max
  falls : path.IsChain fun u v => p.heuristic u ≤ p.heuristic v + 1

instance (path : List ν) : Decidable (IsGuide p path) :=
  decidable_of_iff ((path.head? = some p.start ∧ path.getLast? = some p.goal ∧ path.IsChain fun u v => v ∈ p.next u) ∧
    (∀ max ∈ p.maxCost, path.length - 1 ≤ max) ∧ path.IsChain fun u v => p.heuristic u ≤ p.heuristic v + 1)
    ⟨fun ⟨hpath, hlimit, hfalls⟩ => ⟨hpath, hlimit, hfalls⟩, fun h => ⟨h.isPath, h.limit, h.falls⟩⟩

variable {p}

/-- Where there is a path to the goal within the limit, some shortest path is a guide. -/
def Guided (p : Problem ν) : Prop :=
  ∀ path, IsPath p.next p.start p.goal path → (∀ max ∈ p.maxCost, path.length - 1 ≤ max) →
    ∃ guide, IsGuide p guide ∧ ∀ other, IsPath p.next p.start p.goal other → guide.length ≤ other.length

/-- The closed nodes of a path cost no more than they do along it. -/
def Optimal (path : List ν) (s : State ν) : Prop :=
  ∀ i v n, path[i]? = some v → s.closed v = true → s.gScore v = some n → n ≤ i

omit [DecidableEq ν] in
/-- Before an open node of a guide, or at it, there is an open node that costs no more than along the guide. -/
theorem exists_open (h : Inv p (fun _ _ => False) s) {path : List ν} (hguide : IsGuide p path) (hopt : Optimal path s)
    {i : Nat} {v : ν} (hv : path[i]? = some v) (hopen : s.closed v = false) :
    ∃ w n, s.closed w = false ∧ s.gScore w = some n ∧ n + p.heuristic w ≤ i + p.heuristic v := by
  induction i generalizing v with
  | zero =>
    have hhead := hguide.isPath.1
    rw [List.head?_eq_getElem?, hv] at hhead
    obtain rfl := Option.some.inj hhead
    exact ⟨p.start, 0, hopen, h.start, Nat.le_refl _⟩
  | succ i ih =>
    obtain ⟨hlt, rfl⟩ := List.getElem?_eq_some_iff.1 hv
    have hu : path[i]? = some path[i] := List.getElem?_eq_getElem _
    cases hclosed : s.closed path[i] with
    | true =>
      -- the node before has told this one
      obtain ⟨n, hn⟩ := Option.isSome_iff_exists.1 (h.scored _ hclosed)
      have hle := hopt i _ n hu hclosed hn
      have hmax : ∀ max ∈ p.maxCost, n < max := fun max hmem => by
        have hlimit := hguide.limit max hmem
        omega
      obtain ⟨k, hk, hkn⟩ := h.told _ n _ hclosed hn hmax (hguide.isPath.2.2.getElem i hlt) not_false hopen
      exact ⟨_, k, hopen, hk, by omega⟩
    | false =>
      obtain ⟨w, n, hw, hn, hle⟩ := ih hu hclosed
      have hfall := hguide.falls.getElem i hlt
      exact ⟨w, n, hw, hn, by omega⟩

omit [DecidableEq ν] in
/-- A node of a guide that is taken from the queue for the first time costs no more than along the guide. -/
theorem le_of_pop_open (h : Inv p (fun _ _ => False) s) {path : List ν} (hguide : IsGuide p path)
    (hopt : Optimal path s)
    {e : Entry ν} {queue : List (Entry ν)} (hpop : pop Entry.le s.queue = some (e, queue))
    (hopen : s.closed e.node = false) {n : Nat} (hn : s.gScore e.node = some n) {i : Nat}
    (hi : path[i]? = some e.node) : n ≤ i := by
  obtain ⟨w, k, hw, hk, hle⟩ := exists_open h hguide hopt hi hopen
  obtain ⟨n', hn', hscore⟩ := h.entry e ((pop_perm hpop).mem_iff.2 List.mem_cons_self)
  obtain rfl : n = n' := Option.some.inj (hn.symm.trans hn')
  have hfirst : e.score ≤ k + p.heuristic w := le_of_pop h.heap hpop (h.queued w k hk hw)
  omega

theorem Optimal.expand (h : Inv p (fun _ _ => False) s) {path : List ν} (hguide : IsGuide p path)
    (hopt : Optimal path s)
    {e : Entry ν} {queue : List (Entry ν)} (hpop : pop Entry.le s.queue = some (e, queue)) (hgoal : e.node ≠ p.goal)
    (hopen : s.closed e.node = false) : Optimal path (Search.expand p { s with queue } e.node) := by
  obtain ⟨-, hclosed, hscore⟩ := h.expand hpop hgoal
  intro i v n hi hv hn
  rw [hclosed] at hv
  by_cases heq : v = e.node
  · subst heq
    rw [hscore e.node (.inl rfl)] at hn
    exact le_of_pop_open h hguide hopt hpop hopen hn hi
  · rw [Function.update_of_ne heq] at hv
    rw [hscore v (.inr hv)] at hn
    exact hopt i v n hi hv hn

/-! ### The end of a search -/

omit [DecidableEq ν] in
theorem Reach.mem {next : ν → List ν} {start : ν} {nodes : List ν} (hstart : start ∈ nodes)
    (hnext : ∀ u ∈ nodes, ∀ v ∈ next u, v ∈ nodes) {n : Nat} {v : ν} (h : Reach next start n v) : v ∈ nodes := by
  induction h with
  | start => exact hstart
  | step _ hv ih => exact hnext _ ih _ hv

/-- The nodes that are not closed. -/
def openCount (nodes : List ν) (closed : ν → Bool) : Nat := nodes.countP fun v => !closed v

theorem openCount_close {nodes : List ν} {closed : ν → Bool} {u : ν} (hmem : u ∈ nodes) (hopen : closed u = false) :
    openCount nodes (Function.update closed u true) + 1 ≤ openCount nodes closed := by
  have hle : ∀ l : List ν, openCount l (Function.update closed u true) ≤ openCount l closed := by
    intro l
    refine List.countP_mono_left fun v _ hv => ?_
    by_cases heq : v = u
    · rw [heq, hopen]
      rfl
    · rwa [Function.update_of_ne heq] at hv
  obtain ⟨before, rest, rfl⟩ := List.append_of_mem hmem
  have hbefore := hle before
  have hrest := hle rest
  unfold openCount at hbefore hrest ⊢
  rw [List.countP_append, List.countP_append, List.countP_cons, List.countP_cons, Function.update_self, hopen]
  simp only [Bool.not_true, Bool.not_false, Bool.false_eq_true, if_false, if_true]
  omega

theorem length_foldl_relax (u : ν) (n : Nat) (pending : List ν) :
    (pending.foldl (Search.relax p u n) s).queue.length ≤ s.queue.length + pending.length := by
  induction pending generalizing s with
  | nil => exact Nat.le_refl _
  | cons v pending ih =>
    have hstep : (Search.relax p u n s v).queue.length ≤ s.queue.length + 1 := by
      unfold Search.relax
      split_ifs
      · exact Nat.le_succ _
      · exact Nat.le_of_eq (push_perm _ _).length_eq
      · exact Nat.le_succ _
    have hrest := @ih (Search.relax p u n s v)
    rw [List.foldl_cons, List.length_cons]
    omega

theorem length_expand (u : ν) : (Search.expand p s u).queue.length ≤ s.queue.length + (p.next u).length := by
  unfold Search.expand
  cases s.gScore u with
  | none => exact Nat.le_add_right _ _
  | some n =>
    dsimp only
    split_ifs
    · exact Nat.le_add_right _ _
    · exact length_foldl_relax u n (p.next u)

/-- Each round takes an entry from the queue, and a node that is closed puts in at most `degree` new ones. -/
theorem search_ends {nodes : List ν} {degree : Nat} (hstart : p.start ∈ nodes)
    (hnext : ∀ u ∈ nodes, ∀ v ∈ p.next u, v ∈ nodes) (hdegree : ∀ u, (p.next u).length ≤ degree) {steps : Nat}
    (h : Inv p (fun _ _ => False) s) (hsteps : s.queue.length + degree * openCount nodes s.closed < steps) :
    ∃ s', Inv p (fun _ _ => False) s' ∧ (∀ path, IsGuide p path → Optimal path s → Optimal path s') ∧
      (s'.queue = [] ∧ search p steps s = .value none ∨
        ∃ e queue, pop Entry.le s'.queue = some (e, queue) ∧ e.node = p.goal ∧ search p steps s = found p s') := by
  induction steps generalizing s with
  | zero => omega
  | succ steps ih =>
    rw [search]
    cases hpop : pop Entry.le s.queue with
    | none => exact ⟨s, h, fun _ _ hopt => hopt, .inl ⟨pop_eq_none.1 hpop, rfl⟩⟩
    | some popped =>
      obtain ⟨e, queue⟩ := popped
      have hlength : s.queue.length = queue.length + 1 := (pop_perm hpop).length_eq
      dsimp only
      by_cases hgoal : e.node = p.goal
      · rw [if_pos hgoal]
        exact ⟨s, h, fun _ _ hopt => hopt, .inr ⟨e, queue, hpop, hgoal, rfl⟩⟩
      rw [if_neg hgoal]
      by_cases hclosed : s.closed e.node = true
      · rw [if_pos hclosed]
        exact ih (h.skip hpop hclosed) (by dsimp only; omega)
      · rw [if_neg hclosed]
        have hopen : s.closed e.node = false := Bool.of_not_eq_true hclosed
        obtain ⟨hinv, hsame, -⟩ := h.expand hpop hgoal
        obtain ⟨n, hn, -⟩ := h.entry e ((pop_perm hpop).mem_iff.2 List.mem_cons_self)
        have hcount := openCount_close ((h.reach e.node n hn).mem hstart hnext) hopen
        have hadded := @length_expand _ _ p { s with queue } e.node
        have hfew := hdegree e.node
        -- the closed node pays for the entries that its edges put in
        have hmeasure : (Search.expand p { s with queue } e.node).queue.length +
            degree * openCount nodes (Search.expand p { s with queue } e.node).closed < steps := by
          rw [hsame]
          have hmul := Nat.mul_le_mul_left degree hcount
          rw [Nat.mul_add, Nat.mul_one] at hmul
          dsimp only at hadded
          omega
        obtain ⟨s', hinv', hopt', hend⟩ := ih hinv hmeasure
        refine ⟨s', hinv', fun path hguide hopt => hopt' path hguide ?_, hend⟩
        exact Optimal.expand h hguide hopt hpop hgoal hopen

/-- The path to a node that has been seen is followed back along its score. -/
theorem traceBack_value (h : Inv p (fun _ _ => False) s) {n : Nat} {v : ν} (hn : s.gScore v = some n)
    (rest : List ν) :
    ∃ path, traceBack p s.cameFrom n v rest = .value (path ++ rest) ∧ IsPath p.next p.start v path ∧
      path.length = n + 1 := by
  induction n generalizing v rest with
  | zero =>
    -- only the start has the score zero
    have hv : v = p.start := by
      by_contra hne
      obtain ⟨u, m, -, -, -, -, hm⟩ := h.came v 0 hn hne
      omega
    subst hv
    refine ⟨[p.start], ?_, ⟨rfl, rfl, List.isChain_singleton _⟩, rfl⟩
    rw [traceBack, if_pos rfl]
    rfl
  | succ n ih =>
    have hv : v ≠ p.start := by
      rintro rfl
      have hzero : n + 1 = 0 := Option.some.inj (hn.symm.trans h.start)
      omega
    obtain ⟨u, m, hcame, hedge, -, hm, hnm⟩ := h.came v (n + 1) hn hv
    obtain rfl : n = m := by omega
    obtain ⟨path, hvalue, hpath, hlength⟩ := ih hm (v :: rest)
    refine ⟨path ++ [v], ?_, hpath.concat hedge, ?_⟩
    · rw [traceBack, if_neg hv, hcame]
      dsimp only
      rw [hvalue, List.append_assoc]
      rfl
    · rw [List.length_append, hlength]
      rfl

theorem found_value (h : Inv p (fun _ _ => False) s) {n : Nat} (hn : s.gScore p.goal = some n) :
    ∃ path, found p s = .value (some path) ∧ IsPath p.next p.start p.goal path ∧ path.length = n + 1 := by
  obtain ⟨path, hvalue, hpath, hlength⟩ := traceBack_value h hn []
  refine ⟨path, ?_, hpath, hlength⟩
  rw [found, hn, Option.getD_some, hvalue, List.append_nil]

theorem measure_start {nodes : List ν} {degree steps : Nat} (hsteps : 1 + degree * nodes.length < steps) :
    (State.start p).queue.length + degree * openCount nodes (State.start p).closed < steps := by
  have hlength : (State.start p).queue.length = 1 := (push_perm _ _).length_eq
  have hcount := Nat.mul_le_mul_left degree (@List.countP_le_length _ (fun v => !(State.start p).closed v) nodes)
  unfold openCount
  omega

/-! ### Results -/

section

variable {nodes : List ν} {degree steps : Nat}

/-- The search ends, and what it finds is a path within the limit. -/
theorem search_path (hstart : p.start ∈ nodes) (hnext : ∀ u ∈ nodes, ∀ v ∈ p.next u, v ∈ nodes)
    (hdegree : ∀ u, (p.next u).length ≤ degree) (hsteps : 1 + degree * nodes.length < steps) :
    ∃ result, search p steps (State.start p) = .value result ∧
      ∀ path ∈ result, IsPath p.next p.start p.goal path ∧ ∀ max ∈ p.maxCost, path.length - 1 ≤ max := by
  obtain ⟨s, hinv, -, hend⟩ := search_ends hstart hnext hdegree inv_start (measure_start hsteps)
  rcases hend with ⟨-, hnone⟩ | ⟨e, queue, hpop, hgoal, hfound⟩
  · exact ⟨none, hnone, fun _ h => by cases h⟩
  · obtain ⟨n, hn, -⟩ := hinv.entry e ((pop_perm hpop).mem_iff.2 List.mem_cons_self)
    rw [hgoal] at hn
    obtain ⟨path, hvalue, hpath, hlength⟩ := found_value hinv hn
    refine ⟨some path, hfound.trans hvalue, fun path' hpath' => ?_⟩
    obtain rfl : path = path' := Option.some.inj hpath'
    refine ⟨hpath, fun max hmax => ?_⟩
    have hle := hinv.limit p.goal n hn max hmax
    omega

/-- Where there is a guide, something is found, and it is no longer than the guide. -/
theorem search_guided (hstart : p.start ∈ nodes) (hnext : ∀ u ∈ nodes, ∀ v ∈ p.next u, v ∈ nodes)
    (hdegree : ∀ u, (p.next u).length ≤ degree) (hsteps : 1 + degree * nodes.length < steps) {guide : List ν}
    (hguide : IsGuide p guide) :
    ∃ path, search p steps (State.start p) = .value (some path) ∧ path.length ≤ guide.length := by
  obtain ⟨s, hinv, hopt, hend⟩ := search_ends hstart hnext hdegree inv_start (measure_start hsteps)
  have hopt : Optimal guide s := hopt guide hguide fun i v n _ hv => by cases hv
  have hpos : 0 < guide.length := List.length_pos_of_ne_nil fun h => by
    have hhead := hguide.isPath.1
    rw [h] at hhead
    cases hhead
  have hlast : guide[guide.length - 1]? = some p.goal := by
    rw [← List.getLast?_eq_getElem?]
    exact hguide.isPath.2.1
  rcases hend with ⟨hempty, -⟩ | ⟨e, queue, hpop, hgoal, hfound⟩
  · obtain ⟨w, n, hw, hn, -⟩ := exists_open hinv hguide hopt hlast hinv.goal
    have hmem := hinv.queued w n hn hw
    rw [hempty] at hmem
    exact absurd hmem List.not_mem_nil
  · obtain ⟨n, hn, -⟩ := hinv.entry e ((pop_perm hpop).mem_iff.2 List.mem_cons_self)
    have hn' := hn
    rw [hgoal] at hn'
    obtain ⟨path, hvalue, -, hlength⟩ := found_value hinv hn'
    have hopen : s.closed e.node = false := by
      rw [hgoal]
      exact hinv.goal
    have hle := le_of_pop_open hinv hguide hopt hpop hopen hn (by rwa [hgoal])
    exact ⟨path, hfound.trans hvalue, by omega⟩

/-- Where some shortest path is a guide, what is found is a shortest path, and nothing is found only where there is no
path within the limit. -/
theorem search_shortest (hstart : p.start ∈ nodes) (hnext : ∀ u ∈ nodes, ∀ v ∈ p.next u, v ∈ nodes)
    (hdegree : ∀ u, (p.next u).length ≤ degree) (hsteps : 1 + degree * nodes.length < steps) (hguided : Guided p) :
    ∃ result, search p steps (State.start p) = .value result ∧
      (∀ path ∈ result, IsPath p.next p.start p.goal path ∧ (∀ max ∈ p.maxCost, path.length - 1 ≤ max) ∧
        ∀ other, IsPath p.next p.start p.goal other → path.length ≤ other.length) ∧
      (result = none → ∀ path, IsPath p.next p.start p.goal path → ¬∀ max ∈ p.maxCost, path.length - 1 ≤ max) := by
  obtain ⟨result, hresult, hpaths⟩ := search_path hstart hnext hdegree hsteps
  refine ⟨result, hresult, fun path hpath => ?_, fun hnone path hpath hmax => ?_⟩
  · obtain ⟨hpath', hmax⟩ := hpaths path hpath
    obtain ⟨guide, hguide, hall⟩ := hguided path hpath' hmax
    obtain ⟨found, hfound, hle⟩ := search_guided hstart hnext hdegree hsteps hguide
    obtain rfl := Option.some.inj (hpath.symm.trans (Ending.value.inj (hresult.symm.trans hfound)))
    exact ⟨hpath', hmax, fun other hother => Nat.le_trans hle (hall other hother)⟩
  · obtain ⟨guide, hguide, -⟩ := hguided path hpath hmax
    obtain ⟨found, hfound, -⟩ := search_guided hstart hnext hdegree hsteps hguide
    rw [hnone] at hresult
    cases hresult.symm.trans hfound

end

end

end Search
