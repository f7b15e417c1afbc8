import Otomai.Combat.Change
import Otomai.Combat.TrapNetwork
import Otomai.Common.Steps

/-!
# Movements in a fight

A movement request is a list of keys, the lower twelve bits of which are cells.  Its cost is computed from the number
of keys, and its destination is the last one; the cells in between are not looked at.

* `handleFightMovement_refused`, `handleFightMovement_accepted`: what a request does.
* `movements_paid_iff`: when what it does is a walk that is paid for.
-/

namespace Otomai.Combat

open Machine Otomai.Common Trace Program

/-- The cell of a key. -/
def keyCell (key : Int16) : Nat := (key.toInt % 4096).toNat

theorem keyCell_eq (key : Int16) : (keyCell key : Int) = key.toInt % 4096 := by
  unfold keyCell
  omega

/-- What the code takes for the cost of a movement. -/
def movementCost (keyMovements : List Int16) : Int := max (wrap16 (wrap16 keyMovements.length - 1)) 0

/-- The request passes the checks: it is the turn of the player, who can move and has the points for it. -/
structure Fight.Accepts (s : Fight) (playerId : Int) (keyMovements : List Int16) (f : Fighter) : Prop where
  turn : s.currentFighter = some f
  id : f.id = playerId
  player : f.isPlayer = true
  keys : keyMovements ≠ []
  rooted : f.isRooted = false
  cost : movementCost keyMovements ≤ f.movementPoints

/-- The keys are a walk of the fighter: from its cell from neighbour to neighbour, over cells without anybody else. -/
structure Fight.Walks (s : Fight) (f : Fighter) (keyMovements : List Int16) : Prop where
  start : keyMovements.head?.map (fun key => (keyCell key : Int)) = some f.cellId
  steps : (keyMovements.map keyCell).IsChain IsNeighbour
  free : ∀ key ∈ keyMovements.tail, ∀ g ∈ s.fighters, g.isAlive = true → g.cellId = keyCell key → g.id = f.id

/-- The request has walked the fighter along the keys, and has taken the number of steps from its movement points. -/
structure Fight.PaidWalk (s : Fight) (keyMovements : List Int16) (f : Fighter) (run : Run Action Unit) : Prop where
  turn : s.currentFighter = some f
  walks : s.Walks f keyMovements
  cost_fits : -32768 ≤ wrap16 keyMovements.length - 1
  returns : run.ending = .value ()
  paid : ∃ key f', keyMovements.getLast? = some key ∧ (after s run.trace).currentFighter = some f' ∧ f'.id = f.id ∧
    f'.cellId = keyCell key ∧ f'.movementPoints = f.movementPoints - (keyMovements.length - 1) ∧ 0 ≤ f'.movementPoints

/-- A movement is paid for, or the request does nothing. -/
def Fight.MovementIsPaid (s : Fight) (playerId : Int) (keyMovements : List Int16) : Prop :=
  let run := handleFightMovement playerId keyMovements s
  run = ⟨[], .value ()⟩ ∨ ∃ f, s.PaidWalk keyMovements f run

section

variable {s : Fight} {playerId : Int} {keyMovements : List Int16}

theorem handleFightMovement_refused (h : ∀ f, ¬s.Accepts playerId keyMovements f) :
    handleFightMovement playerId keyMovements s = ⟨[], .value ()⟩ := by
  unfold handleFightMovement
  rw [get_bind_run]
  cases hf : s.currentFighter with
  | none => rfl
  | some current =>
    dsimp only
    split
    · rfl
    rename_i hturn
    rw [not_not] at hturn
    cases hlast : keyMovements.getLast? with
    | none => rfl
    | some key =>
      have hkeys : keyMovements ≠ [] := by
        rintro rfl
        cases hlast
      dsimp only
      split
      · rfl
      rename_i hguards
      obtain ⟨hrooted, hcost⟩ := not_or.1 hguards
      exact absurd ⟨hf, hturn.1, hturn.2, hkeys, by simpa using hrooted, not_lt.1 hcost⟩ (h current)

theorem handleFightMovement_accepted {f : Fighter} (h : s.Accepts playerId keyMovements f) :
    ∃ key, keyMovements.getLast? = some key ∧
      let moved := s.apply (.move (movementCost keyMovements) (keyCell key))
      let rest := triggerTrapsOnCell (keyCell key) playerId moved
      handleFightMovement playerId keyMovements s =
        ⟨[.update (.move (movementCost keyMovements) (keyCell key)), .send (.sequenceStart 2 playerId),
            .send (.mapMovement keyMovements playerId),
            .send (.pointsVariation 129 playerId (-movementCost keyMovements)),
            .send (.sequenceEnd 129 playerId 2)] ++ rest.trace, rest.ending⟩ := by
  refine ⟨keyMovements.getLast h.keys, List.getLast?_eq_getLast_of_ne_nil h.keys, ?_⟩
  have hguards : ¬(f.isRooted = true ∨ f.movementPoints < max (wrap16 (wrap16 keyMovements.length - 1)) 0) :=
    not_or.2 ⟨by rw [h.rooted]; exact Bool.false_ne_true, not_lt.2 h.cost⟩
  unfold handleFightMovement
  rw [get_bind_run, h.turn]
  dsimp only
  rw [if_neg (not_not_intro ⟨h.id, h.player⟩), List.getLast?_eq_getLast_of_ne_nil h.keys]
  dsimp only
  rw [if_neg hguards, ← keyCell_eq]
  rfl

/-- The cost is the number of steps, unless the number of keys is not a machine integer. -/
theorem movementCost_eq (hkeys : keyMovements ≠ []) (hlength : keyMovements.length ≤ 32767) :
    movementCost keyMovements = keyMovements.length - 1 := by
  have hpos := List.length_pos_iff.2 hkeys
  unfold movementCost
  rw [wrap16_of_range (x := keyMovements.length) (by omega) (by omega), wrap16_of_range (by omega) (by omega)]
  omega

theorem length_of_cost (hcost : movementCost keyMovements = keyMovements.length - 1)
    (hfits : -32768 ≤ wrap16 keyMovements.length - 1) : keyMovements.length ≤ 32767 := by
  have hrange := wrap16_range keyMovements.length
  unfold movementCost at hcost
  rw [wrap16_of_range hfits (by omega)] at hcost
  omega

/-- Where the current fighter stands, and what it has left to move. -/
def Fight.position (s : Fight) : Option (Int × Int × Int) :=
  s.currentFighter.map fun f => (f.id, f.cellId, f.movementPoints)

theorem position_congr {s' : Fight} (hindex : s'.currentFighterIndex = s.currentFighterIndex)
    (hmap : (s'.fighters.map fun f => (f.id, f.cellId, f.movementPoints)) =
      s.fighters.map fun f => (f.id, f.cellId, f.movementPoints)) : s'.position = s.position := by
  unfold Fight.position Fight.currentFighter
  rw [hindex, ← List.getElem?_map, ← List.getElem?_map, hmap]

/-- An accepted request returns, with the fighter on the last cell and its points less the cost. -/
theorem accepted_position (hs : ∀ m ∈ s.marks, ∀ c ∈ m.zoneCells, ValidCell c) {f : Fighter}
    (h : s.Accepts playerId keyMovements f) :
    ∃ key, keyMovements.getLast? = some key ∧
      (handleFightMovement playerId keyMovements s).trace ≠ [] ∧
      (handleFightMovement playerId keyMovements s).ending = .value () ∧
      (after s (handleFightMovement playerId keyMovements s).trace).position =
        some (f.id, (keyCell key : Int), wrap16 (f.movementPoints - movementCost keyMovements)) := by
  obtain ⟨key, hlast, hrun⟩ := handleFightMovement_accepted h
  have hcurrent := s.currentFighter_modifyCurrent fun f => (f.spend (movementCost keyMovements)).onCell (keyCell key)
  rw [h.turn, Option.map_some] at hcurrent
  have hmarks (m) (hm : m ∈ (s.apply (.move (movementCost keyMovements) (keyCell key))).marks) :
      ∀ c ∈ m.zoneCells, ValidCell c := hs m hm
  -- the traps hit, poison and are taken away, but move nobody
  have htraps : Keeps Fight.position (triggerTrapsOnCell (keyCell key) playerId)
      (s.apply (.move (movementCost keyMovements) (keyCell key))) :=
    triggerTrapsOnCell_keeps
      (fun s id damage => position_congr rfl (s.map_modifyFighter (g := (·.hit damage)) (fun _ => rfl) id))
      (fun s id b => position_congr rfl (s.map_modifyFighter (g := (·.addBuff b)) (fun _ => rfl) id))
      (fun _ _ => rfl) hmarks _ _
  obtain ⟨⟨⟩, hreturns⟩ := htraps.returns
  refine ⟨key, hlast, ?_, ?_, ?_⟩
  · rw [hrun]
    exact List.cons_ne_nil _ _
  · rw [hrun]
    exact hreturns
  · rw [hrun]
    dsimp only
    rw [after_append]
    refine htraps.same.trans ?_
    unfold Fight.position
    rw [Fight.apply, hcurrent]
    rfl

theorem movementIsPaid_iff (hs : ∀ m ∈ s.marks, ∀ c ∈ m.zoneCells, ValidCell c)
    (hfit : ∀ f ∈ s.fighters, f.PointsFit) :
    s.MovementIsPaid playerId keyMovements ↔
      ∀ f, s.Accepts playerId keyMovements f → s.Walks f keyMovements ∧ keyMovements.length ≤ 32767 := by
  constructor
  · intro hpaid f haccepts
    obtain ⟨key, hlast, htrace, -, hposition⟩ := accepted_position hs haccepts
    rcases hpaid with hrefused | ⟨f', hpaid⟩
    · rw [hrefused] at htrace
      exact absurd rfl htrace
    · obtain rfl : f' = f := Option.some.inj (hpaid.turn.symm.trans haccepts.turn)
      obtain ⟨-, g, -, hg, -, -, hmp, -⟩ := hpaid.paid
      rw [Fight.position, hg, Option.map_some, Option.some.injEq, Prod.mk.injEq, Prod.mk.injEq] at hposition
      have hrange := (hfit f' (List.mem_of_getElem? haccepts.turn)).2
      have hcost := haccepts.cost
      have hnonneg : 0 ≤ movementCost keyMovements := le_max_right _ _
      rw [wrap16_of_range (by omega) (by omega)] at hposition
      exact ⟨hpaid.walks, length_of_cost (by omega) hpaid.cost_fits⟩
  · intro h
    by_cases haccepts : ∃ f, s.Accepts playerId keyMovements f
    · obtain ⟨f, haccepts⟩ := haccepts
      obtain ⟨hwalks, hlength⟩ := h f haccepts
      obtain ⟨key, hlast, -, hreturns, hposition⟩ := accepted_position hs haccepts
      have hcost := movementCost_eq haccepts.keys hlength
      have hrange := (hfit f (List.mem_of_getElem? haccepts.turn)).2
      have hle := haccepts.cost
      have hnonneg : 0 ≤ movementCost keyMovements := le_max_right _ _
      rw [wrap16_of_range (by omega) (by omega)] at hposition
      obtain ⟨g, hg, hsame⟩ := Option.map_eq_some_iff.1 hposition
      simp only [Prod.mk.injEq] at hsame
      have hfits : -32768 ≤ wrap16 keyMovements.length - 1 := by
        have hpos := List.length_pos_iff.2 haccepts.keys
        rw [wrap16_of_range (by omega) (by omega)]
        omega
      exact .inr ⟨f, haccepts.turn, hwalks, hfits, hreturns, key, g, hlast, hg, hsame.1,
        hsame.2.1, by omega, by omega⟩
    · exact .inl (handleFightMovement_refused fun f hf => haccepts ⟨f, hf⟩)

end

/-- In every state of a fight a movement is paid for, exactly if the request is refused, or its keys are a walk of the
fighter, and at most 32767. -/
theorem movements_paid_iff (maps : Int → Option MapData) (n : Nat) (c : Character) (mapId : Int)
    (nextMarkId drawn : Nat) (rs : List Request) :
    let s := startPveFight maps c mapId nextMarkId drawn
    let t := (history maps n c.id rs s).trace
    let paid (s : Fight) : Prop := ∀ keyMovements, s.MovementIsPaid c.id keyMovements ↔
      ∀ f, s.Accepts c.id keyMovements f → s.Walks f keyMovements ∧ keyMovements.length ≤ 32767
    Along (fun s _ => paid s) s t ∧ paid (after s t) := by
  have hcoherent := @startPveFight_coherent maps c mapId nextMarkId drawn
  obtain ⟨hmarks, hmarks'⟩ := @history_marksKept maps n c.id rs _ hcoherent
    (startPveFight_marksKept c mapId nextMarkId drawn)
  obtain ⟨hpoints, hpoints'⟩ := @history_pointsFit maps n c.id rs _ hcoherent
    (startPveFight_pointsFit c mapId nextMarkId drawn)
  exact ⟨(hmarks.and hpoints).imp fun s _ h _ => movementIsPaid_iff h.1.zones h.2,
    fun _ => movementIsPaid_iff hmarks'.zones hpoints'⟩

/-- A request with a single key moves the fighter to any cell, for nothing. -/
theorem movement_jumps : ¬∀ (maps : Int → Option MapData) (n : Nat) (c : Character) (mapId : Int)
    (nextMarkId drawn : Nat) (rs : List Request) (keyMovements : List Int16),
    let s := startPveFight maps c mapId nextMarkId drawn
    (after s (history maps n c.id rs s).trace).MovementIsPaid c.id keyMovements := by
  intro h
  have hpaid := h (fun _ => none) 1 .novice 0 0 0 [.ready true] [0]
  have hcoherent := @startPveFight_coherent (fun _ => none) .novice 0 0 0
  have hmarks := (@history_marksKept (fun _ => none) 1 1 [.ready true] _ hcoherent
    (startPveFight_marksKept .novice 0 0 0)).2
  have hpoints := (@history_pointsFit (fun _ => none) 1 1 [.ready true] _ hcoherent
    (startPveFight_pointsFit .novice 0 0 0)).2
  have hmoves := (movementIsPaid_iff hmarks.zones hpoints).1 hpaid
  have hfighter : (after (startPveFight (fun _ => none) .novice 0 0 0)
      (history (fun _ => none) 1 1 [.ready true]
        (startPveFight (fun _ => none) .novice 0 0 0)).trace).currentFighter.any
      (fun f => f.id = 1 ∧ f.isPlayer ∧ f.isRooted = false ∧ movementCost [0] ≤ f.movementPoints ∧
        f.cellId = 280) := by
    decide +kernel
  obtain ⟨f, hf, hid, hplayer, hrooted, hcost, hcell⟩ := by simpa [Option.any_eq_true] using hfighter
  have hstart := (hmoves f ⟨hf, hid, hplayer, List.cons_ne_nil _ _, hrooted, hcost⟩).1.start
  rw [hcell] at hstart
  exact absurd hstart (by decide)

end Otomai.Combat
