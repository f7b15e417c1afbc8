import Mathlib.Logic.Function.Iterate
import Otomai.Combat.History
import Otomai.Search.Rotation

/-!
# Turn order

The fighters that are alive take turns in the order of the list, and a round ends when there is nobody left behind the
current fighter.  Who joins is appended to the list, and so comes last in the round.

* `turn_order_fair`: in which order the turns come, and when the round is counted.
-/

namespace Otomai.Combat

open Machine Search Rotation

namespace Fight

variable (s : Fight)

def addFighter (f : Fighter) : Fight := { s with fighters := s.fighters ++ [f] }

/-- The positions of the fighters that are alive. -/
def order : List Nat := positions Fighter.isAlive s.fighters

/-- Those whose turn is still to come in the round. -/
def waiting : List Nat := beyond Fighter.isAlive s.fighters s.currentFighterIndex

/-- The turns that come next: whose they are, and whether they start a new round. -/
def turns : Nat → Fight → List (Nat × Bool)
  | 0, _ => []
  | k + 1, s => (s.advanceTurn.currentFighterIndex, s.startsNewRound) :: turns k s.advanceTurn

/-- The positions of fighters that join. -/
def joining (fs : List Fighter) : List Nat := (positions Fighter.isAlive fs).map (s.fighters.length + ·)

/-- Whoever joins, the turns that come next are those that are left of the round, and then one round after the
other. -/
def VisitsInOrder : Prop := ∀ fs m k,
  k ≤ (s.waiting ++ s.joining fs).length + m * (s.order ++ s.joining fs).length →
    turns k (fs.foldl addFighter s) =
      ((s.waiting ++ s.joining fs).map (fun idx => (idx, false)) ++
        (List.replicate m (newRound (s.order ++ s.joining fs))).flatten).take k

variable {s}

theorem nextAlive_eq_next : s.nextAlive = next Fighter.isAlive s.fighters s.currentFighterIndex := rfl

theorem advanceTurn_of_next {idx : Nat} (h : s.nextAlive = some idx) :
    s.advanceTurn = { s with
      currentFighterIndex := idx
      round := if s.startsNewRound then wrap32 (s.round + 1) else s.round } := by
  simp only [advanceTurn, startsNewRound, h, Option.any_some, decide_eq_true_eq]

@[simp] theorem fighters_advanceTurn : s.advanceTurn.fighters = s.fighters := by
  unfold advanceTurn
  split <;> rfl

/-- The turns go round the list. -/
theorem turns_eq_walk (halive : ∃ f ∈ s.fighters, f.isAlive = true) (k : Nat) :
    turns k s = walk Fighter.isAlive s.fighters k s.currentFighterIndex := by
  induction k generalizing s with
  | zero => rfl
  | succ k ih =>
    obtain ⟨idx, -, hnext⟩ := next_mem (positions_ne_nil halive) s.currentFighterIndex
    have hstep : s.advanceTurn.currentFighterIndex = idx := by
      rw [advanceTurn_of_next (nextAlive_eq_next.trans hnext)]
    have hflag : s.startsNewRound = decide (idx ≤ s.currentFighterIndex) := by
      rw [startsNewRound, nextAlive_eq_next, hnext, Option.any_some]
    have hrest := ih (s := s.advanceTurn) (by rwa [fighters_advanceTurn])
    rw [turns, walk, hrest]
    simp only [hnext, hstep, hflag, fighters_advanceTurn]

/-- The counter of rounds goes with the turns. -/
theorem round_advanceTurn (k : Nat) :
    (advanceTurn^[k] s).round = (turns k s).foldl
      (fun round t => if t.2 then wrap32 (round + 1) else round) s.round := by
  induction k generalizing s with
  | zero => rfl
  | succ k ih =>
    rw [Function.iterate_succ_apply, ih, turns, List.foldl_cons]
    congr 1
    cases hnext : s.nextAlive with
    | none => simp [advanceTurn, startsNewRound, hnext]
    | some idx => rw [advanceTurn_of_next hnext]

@[simp] theorem fighters_foldl_addFighter (fs : List Fighter) :
    (fs.foldl addFighter s).fighters = s.fighters ++ fs := by
  induction fs generalizing s with
  | nil => rw [List.foldl_nil, List.append_nil]
  | cons f fs ih => rw [List.foldl_cons, ih, addFighter, List.append_assoc, List.singleton_append]

@[simp] theorem currentFighterIndex_foldl_addFighter (fs : List Fighter) :
    (fs.foldl addFighter s).currentFighterIndex = s.currentFighterIndex := by
  induction fs generalizing s with
  | nil => rfl
  | cons f fs ih => rw [List.foldl_cons, ih, addFighter]

end Fight

/-- The turns of a fight are in order.  The fighters that are alive have theirs as they stand in the list; what is
left of the round comes first, then who has joined, and then one round after the other, each of which goes through all
of them and is counted when it starts. -/
structure FairTurns (s : Fight) : Prop where
  order : s.order.map (s.fighters[·]?) = (s.fighters.filter Fighter.isAlive).map some
  advances : ∃ idx f, s.fighters[idx]? = some f ∧ f.isAlive = true ∧
    (s.startsNewRound = true ↔ idx ≤ s.currentFighterIndex) ∧
    s.advanceTurn = { s with
      currentFighterIndex := idx
      round := if s.startsNewRound then wrap32 (s.round + 1) else s.round }
  visits : s.currentFighterIndex < s.fighters.length → s.VisitsInOrder
  rounds : ∀ k, (Fight.advanceTurn^[k] s).round =
    (Fight.turns k s).foldl (fun round t => if t.2 then wrap32 (round + 1) else round) s.round

/-- Whoever is alive gets its turns in order. -/
theorem turn_order_fair (s : Fight) (halive : ∃ f ∈ s.fighters, f.isAlive = true) : FairTurns s where
  order := map_positions
  advances := by
    obtain ⟨idx, hmem, hnext⟩ := next_mem (positions_ne_nil halive) s.currentFighterIndex
    obtain ⟨f, hf, hfalive⟩ := mem_positions.1 hmem
    refine ⟨idx, f, hf, hfalive, ?_, Fight.advanceTurn_of_next hnext⟩
    rw [Fight.startsNewRound, Fight.nextAlive_eq_next, hnext, Option.any_some, decide_eq_true_eq]
  visits := by
    intro hindex fs m k hk
    have halive' : ∃ f ∈ (fs.foldl Fight.addFighter s).fighters, f.isAlive = true := by
      obtain ⟨f, hf, hfalive⟩ := halive
      exact ⟨f, by rw [Fight.fighters_foldl_addFighter]; exact List.mem_append_left fs hf, hfalive⟩
    -- whoever joins comes behind the fighters who are there, in the round that runs and in the later ones
    have hwaiting : beyond Fighter.isAlive (s.fighters ++ fs) s.currentFighterIndex = s.waiting ++ s.joining fs :=
      beyond_append hindex fs
    have horder : positions Fighter.isAlive (s.fighters ++ fs) = s.order ++ s.joining fs :=
      positions_append s.fighters fs
    have hne : positions Fighter.isAlive (s.fighters ++ fs) ≠ [] := by
      have h := positions_ne_nil halive'
      rwa [Fight.fighters_foldl_addFighter] at h
    have hlt : s.currentFighterIndex < (s.fighters ++ fs).length := by
      rw [List.length_append]
      omega
    have hrounds := walk_rounds hlt hne m
    rw [hwaiting, horder] at hrounds
    rw [Fight.turns_eq_walk halive', Fight.fighters_foldl_addFighter, Fight.currentFighterIndex_foldl_addFighter,
      ← hrounds, ← walk_take hne s.currentFighterIndex k ((s.waiting ++ s.joining fs).length +
        m * (s.order ++ s.joining fs).length - k), Nat.add_sub_cancel' hk]
  rounds := Fight.round_advanceTurn

/-- A player and two monsters, the first of them dead. -/
def threeFighters : Fight :=
  ((startPveFight (fun _ => none) .novice 0 0 0).modifyFighter (-1) fun f => { f with isAlive := false }).addFighter
    (monsterFighter .novice 401)

theorem turn_order_fair_three : FairTurns threeFighters := turn_order_fair threeFighters (by decide)

/-- The dead one is left out. -/
example : Fight.turns 3 threeFighters = [(2, false), (0, true), (2, false)] := by decide

/-- From an index beyond the list two rounds are counted for one turn. -/
theorem not_visitsInOrder_beyond : ¬∀ s : Fight, (∃ f ∈ s.fighters, f.isAlive = true) → s.VisitsInOrder := by
  intro h
  let s : Fight :=
    { (startPveFight (fun _ => none) .novice 0 0 0).addFighter (monsterFighter .novice 401) with
      currentFighterIndex := 4 }
  have hvisits := h s (by decide) [] 1 2 (by decide)
  have hturns : Fight.turns 2 s = [(2, true), (0, true)] := by decide
  have hround : ((s.waiting ++ s.joining []).map (fun idx => (idx, false)) ++
      (List.replicate 1 (newRound (s.order ++ s.joining []))).flatten).take 2 = [(0, true), (1, false)] := by decide
  rw [List.foldl_nil, hturns, hround] at hvisits
  exact absurd hvisits (by decide)

end Otomai.Combat
