import Otomai.Handlers.Session

/-!
# Changes of map

A client that asks for another map is taken there if its player is on a border and the map is a neighbour, over
whichever border.  It enters across the border it stands on.

* `runOps_changeMap`: what a change of map does, and what is left of it when something fails.
* `changeMap_iff`: it lands where it should, if and only if the map lies over that border.
-/

namespace Otomai.Handlers

open Machine Otomai.Common

/-- A handler runs through its operations without a pause; `faults` tells which of those that may fail do.  A failure
ends the session, and the handler does not come to its end. -/
def Server.runOps (s : Server) (i : Nat) : List Op → List Bool → Server × Bool
  | [], _ => (s, true)
  | op :: ops, faults =>
    if op.mayFail then
      if faults.headD false then (s.close i, false) else (s.perform i op ops).runOps i ops faults.tail
    else (s.perform i op ops).runOps i ops faults

/-- `handle_change_map`, without the quests that are told of it. -/
def changeMap (s : Server) (i : Nat) (characterId currentMapId targetMapId : Int) (faults : List Bool) :
    Server × Bool :=
  s.runOps i (handleChangeMap s characterId currentMapId targetMapId 0) faults

/-- The player left over the border on which its cell is, to the neighbour there, and is on the opposite border of the
new map, where it can walk if anybody can there. -/
def Lands (s s' : Server) (i : Nat) (p : MapPlayer) (currentMapId targetMapId : Int) : Prop :=
  asU16 p.cellId < mapCellsCount ∧
    ∃ (direction : MapDirection) (dest : Nat), cellBorder (asU16 p.cellId) = some direction ∧
      (s.mapData currentMapId).bind (·.neighbour direction) = some targetMapId ∧
      s'.playerOn targetMapId p.characterId = some ⟨p.characterId, dest, i⟩ ∧
      (∀ row ∈ s'.rows, row.id = p.characterId → row.mapId = targetMapId ∧ row.cellId = dest) ∧
      dest < mapCellsCount ∧ OnBorder direction.opposite dest ∧
      ∀ map ∈ s.mapData targetMapId, (∃ v, map.walkable v = true ∧ OnBorder direction.opposite v) →
        map.walkable dest = true

/-- A change of map that is made lands where it should, and one that is refused or fails changes nothing of where the
player is. -/
def ChangesWell (s : Server) (i : Nat) (p : MapPlayer) (currentMapId targetMapId : Int) (faults : List Bool) : Prop :=
  let run := changeMap s i p.characterId currentMapId targetMapId faults
  if (transition s p.characterId currentMapId targetMapId).isSome ∧ run.2 = true then
    Lands s run.1 i p currentMapId targetMapId
  else ∀ mapId, run.1.playerOn mapId p.characterId = s.playerOn mapId p.characterId

/-- The map is a neighbour over some border. -/
def IsNeighbour (s : Server) (currentMapId targetMapId : Int) : Prop :=
  ∃ direction : MapDirection, (s.mapData currentMapId).bind (·.neighbour direction) = some targetMapId

section

variable {s : Server} {i : Nat} {p : MapPlayer} {current target : Int} {faults : List Bool}

theorem isNeighbour_iff : IsNeighbour s current target ↔
    (MapDirection.all.any fun d => (s.mapData current).bind (·.neighbour d) = some target) = true := by
  rw [List.any_eq_true, IsNeighbour]
  constructor
  · rintro ⟨d, hd⟩
    exact ⟨d, by cases d <;> decide, decide_eq_true hd⟩
  · rintro ⟨d, -, hd⟩
    exact ⟨d, of_decide_eq_true hd⟩

theorem transition_eq (hp : s.playerOn current p.characterId = some p) :
    transition s p.characterId current target =
      (cellBorder (asU16 p.cellId)).bind fun direction =>
        if MapDirection.all.any fun d => (s.mapData current).bind (·.neighbour d) = some target then
          some (entryCell (s.mapData target) (asU16 p.cellId) direction)
        else none := by
  unfold transition
  rw [hp]
  simp only [Option.map_some, Option.getD_some]
  cases cellBorder (asU16 p.cellId) with
  | none => rfl
  | some direction =>
    simp only [Option.bind_some]
    split
    · cases s.mapData target with
      | none => rfl
      | some map => rfl
    · rfl

theorem faultless_iff : (∀ b ∈ faults.take 3, b = false) ↔
    faults.headD false = false ∧ faults.tail.headD false = false ∧ faults.tail.tail.headD false = false := by
  match faults with
  | [] => simp
  | [a] => simp
  | [a, b] => simp
  | a :: b :: c :: rest => simp

/-- The players of the maps once a player has left one of them and entered another one. -/
def World.moved (w : World) (current : Int) (target : Int) (p : MapPlayer) : World :=
  (w.leaveMap current p.characterId).joinMap target p

/-- What a change of map does: it leaves the one map and enters the other one, and the position is stored at last. -/
theorem runOps_changeMap {c : Int} {dest : Nat} (hc : (s.sessions i).characterId = some c)
    (ht : transition s c current target = some dest) :
    (faults.headD false = true ∧ (changeMap s i c current target faults).2 = false ∧
      (changeMap s i c current target faults).1.world = s.world.leaveMap current c) ∨
    faults.headD false = false ∧
      (changeMap s i c current target faults).1.world = s.world.moved current target ⟨c, wrap16 dest, i⟩ ∧
      ((changeMap s i c current target faults).2 = false ∧ ¬(∀ b ∈ faults.take 3, b = false) ∨
        (changeMap s i c current target faults).2 = true ∧ (∀ b ∈ faults.take 3, b = false) ∧
          (changeMap s i c current target faults).1.rows = s.updateRow c (·.atPosition target dest)) := by
  rw [faultless_iff]
  unfold changeMap handleChangeMap
  rw [ht]
  simp only [List.replicate_zero, List.append_nil, Server.runOps, Op.mayFail]
  cases h₀ : faults.headD false with
  | true => simp [Server.perform, World.perform, hc]
  | false =>
    cases h₁ : faults.tail.headD false with
    | true => simp [Server.perform, World.perform, Session.perform, World.moved, hc]
    | false =>
      cases h₂ : faults.tail.tail.headD false with
      | true => simp [Server.perform, World.perform, Session.perform, World.moved, hc]
      | false =>
        simp [Server.perform, World.perform, Session.perform, Server.writeRows, Server.updateRow, World.moved, hc]

theorem find_leaveMap (w : World) (current c : Int) : ((w.leaveMap current c).maps current).find c = none := by
  cases hfind : ((w.leaveMap current c).maps current).find c with
  | none => rfl
  | some q =>
    obtain ⟨hq, hid⟩ := WorldMap.find_eq_some.1 hfind
    exact absurd hid ((World.mem_leaveMap.1 hq).2 rfl)

theorem find_moved (w : World) (current target : Int) (p : MapPlayer) :
    ((w.moved current target p).maps target).find p.characterId = some p :=
  WorldMap.find_eq_some.2 ⟨World.mem_joinMap.2 (.inr ⟨rfl, rfl⟩), rfl⟩

theorem find_moved_left (w : World) {current target : Int} (hne : current ≠ target) (p : MapPlayer) :
    ((w.moved current target p).maps current).find p.characterId = none := by
  cases hfind : ((w.moved current target p).maps current).find p.characterId with
  | none => rfl
  | some q =>
    obtain ⟨hq, hid⟩ := WorldMap.find_eq_some.1 hfind
    rcases World.mem_joinMap.1 hq with ⟨hleft, -⟩ | ⟨heq, -⟩
    · exact absurd hid ((World.mem_leaveMap.1 hleft).2 rfl)
    · exact absurd heq hne

/-- The row of the player says where it is now. -/
theorem mem_updateRow_atPosition {c : Int} {mapId cellId : Int} {row : Row}
    (hrow : row ∈ s.updateRow c (·.atPosition mapId cellId)) (hid : row.id = c) :
    row.mapId = mapId ∧ row.cellId = cellId := by
  obtain ⟨before, -, rfl⟩ := List.mem_map.1 hrow
  by_cases hc : before.id = c
  · rw [if_pos hc]
    exact ⟨rfl, rfl⟩
  · rw [if_neg hc] at hid
    exact absurd hid hc

/-- After a failure the player is no longer where it was. -/
theorem moved_ne {direction : MapDirection} (hp : s.playerOn current p.characterId = some p)
    (hborder : cellBorder (asU16 p.cellId) = some direction) :
    ∃ mapId, ((s.world.moved current target
      ⟨p.characterId, wrap16 (entryCell (s.mapData target) (asU16 p.cellId) direction), i⟩).maps mapId).find
        p.characterId ≠
        s.playerOn mapId p.characterId := by
  by_cases hsame : current = target
  · subst hsame
    refine ⟨current, fun heq => ?_⟩
    rw [hp] at heq
    have hfind := find_moved s.world current current
      ⟨p.characterId, wrap16 (entryCell (s.mapData current) (asU16 p.cellId) direction), i⟩
    have hcell := congrArg MapPlayer.cellId (Option.some.inj (hfind.symm.trans heq))
    -- the cell would be the one across the border
    have hlt : asU16 p.cellId < 65536 := by unfold asU16; omega
    have hentry := entryCell_lt (s.mapData current) hborder hlt
    have hne := entryCell_ne (s.mapData current) hborder
    have hround : ∀ dest : Nat, dest < 65536 → asU16 (wrap16 dest) = dest := by
      unfold asU16 wrap16
      omega
    exact hne ((hround _ hentry).symm.trans (congrArg asU16 hcell))
  · refine ⟨current, fun heq => ?_⟩
    have hleft := find_moved_left s.world hsame
      ⟨p.characterId, wrap16 (entryCell (s.mapData target) (asU16 p.cellId) direction), i⟩
    rw [hp] at heq
    exact absurd (hleft.symm.trans heq) (by rintro ⟨⟩)

theorem changesWell_iff (hc : (s.sessions i).characterId = some p.characterId)
    (hp : s.playerOn current p.characterId = some p) :
    ChangesWell s i p current target faults ↔
      ∀ direction, cellBorder (asU16 p.cellId) = some direction → IsNeighbour s current target →
        asU16 p.cellId < mapCellsCount ∧ (s.mapData current).bind (·.neighbour direction) = some target ∧
          ∀ b ∈ faults.take 3, b = false := by
  have heq := @transition_eq s p current target hp
  unfold ChangesWell
  dsimp only
  cases ht : transition s p.characterId current target with
  | none =>
    have hnothing : changeMap s i p.characterId current target faults = (s, true) := by
      rw [changeMap, handleChangeMap, ht]
      rfl
    rw [if_neg (by rintro ⟨h, -⟩; cases h), hnothing]
    refine iff_of_true (fun mapId => rfl) fun direction hborder hneighbour => ?_
    rw [ht, hborder, Option.bind_some, if_pos (isNeighbour_iff.1 hneighbour)] at heq
    cases heq
  | some dest =>
    rw [ht] at heq
    obtain ⟨direction, hborder, hif⟩ := Option.bind_eq_some_iff.1 heq.symm
    have hneighbour : IsNeighbour s current target := by
      by_contra hnot
      rw [if_neg (mt isNeighbour_iff.2 hnot)] at hif
      cases hif
    rw [if_pos (isNeighbour_iff.1 hneighbour)] at hif
    obtain rfl := Option.some.inj hif
    have hcondition : (∀ direction', cellBorder (asU16 p.cellId) = some direction' → IsNeighbour s current target →
        asU16 p.cellId < mapCellsCount ∧ (s.mapData current).bind (·.neighbour direction') = some target ∧
          ∀ b ∈ faults.take 3, b = false) ↔
        asU16 p.cellId < mapCellsCount ∧ (s.mapData current).bind (·.neighbour direction) = some target ∧
          ∀ b ∈ faults.take 3, b = false := by
      refine ⟨fun h => h direction hborder hneighbour, fun h direction' hborder' _ => ?_⟩
      obtain rfl := Option.some.inj (hborder.symm.trans hborder')
      exact h
    rw [hcondition]
    obtain ⟨hfault, hfailed, hworld⟩ | ⟨-, hworld, ⟨hfailed, hfault⟩ | ⟨hdone, hfaultless, hrows⟩⟩ :=
      @runOps_changeMap s i current target faults _ _ hc ht
    · rw [if_neg (by rintro ⟨-, h⟩; rw [hfailed] at h; cases h)]
      refine iff_of_false (fun hsame => ?_) fun h => ?_
      · have hcurrent := hsame current
        rw [Server.playerOn, hworld, find_leaveMap, hp] at hcurrent
        cases hcurrent
      · obtain ⟨hfirst, -⟩ := faultless_iff.1 h.2.2
        rw [hfault] at hfirst
        cases hfirst
    · rw [if_neg (by rintro ⟨-, h⟩; rw [hfailed] at h; cases h)]
      refine iff_of_false (fun hsame => ?_) fun h => hfault h.2.2
      obtain ⟨mapId, hne⟩ := @moved_ne s i p current target direction hp hborder
      have hmap := hsame mapId
      rw [Server.playerOn, hworld] at hmap
      exact hne hmap
    · rw [if_pos ⟨rfl, hdone⟩]
      constructor
      · rintro ⟨hcell, direction', -, hborder', hside, -⟩
        obtain rfl := Option.some.inj (hborder.symm.trans hborder')
        exact ⟨hcell, hside, hfaultless⟩
      · rintro ⟨hcell, hside, -⟩
        obtain ⟨hlt, hopposite, hwalk⟩ := enters_opposite (s.mapData target) hborder hcell
        refine ⟨hcell, direction, _, hborder, hside, ?_, ?_, hlt, hopposite, hwalk⟩
        · have hfind := find_moved s.world current target
            ⟨p.characterId, wrap16 (entryCell (s.mapData target) (asU16 p.cellId) direction), i⟩
          rw [Server.playerOn, hworld, hfind]
          unfold mapCellsCount at hlt
          rw [wrap16_of_range (by omega) (by omega)]
        · intro row hrow hid
          rw [hrows] at hrow
          exact mem_updateRow_atPosition hrow hid

end

/-- A player on a map is taken to its neighbour over the border that its cell is on, to a cell of the opposite border,
if and only if the map it asks for is that neighbour, its cell is one of the grid, and nothing fails on the way; it
stays where it is if its cell is on no border or the map is no neighbour at all. -/
theorem changeMap_iff (s : Server) (i : Nat) (p : MapPlayer) (current target : Int) (faults : List Bool)
    (hc : (s.sessions i).characterId = some p.characterId) (hp : p ∈ (s.world.maps current).players) :
    ChangesWell s i p current target faults ↔
      ∀ direction, cellBorder (asU16 p.cellId) = some direction → IsNeighbour s current target →
        asU16 p.cellId < mapCellsCount ∧ (s.mapData current).bind (·.neighbour direction) = some target ∧
          ∀ b ∈ faults.take 3, b = false :=
  changesWell_iff hc (WorldMap.find_eq_some.2 ⟨hp, rfl⟩)

/-- A map between two neighbours, on which one can walk everywhere. -/
def between (top left : Int) : MapData where
  topNeighbourId := top
  bottomNeighbourId := 0
  leftNeighbourId := left
  rightNeighbourId := 0
  cells := .replicate 560 { mov := true, nonWalkableDuringRp := false, los := true }
  size := List.length_replicate

/-- A player alone on the map 1, on a cell at its top. -/
def atTop : MapPlayer := { characterId := 7, cellId := 5, tx := 0 }

def atTopServer : Server :=
  { Server.start (fun mapId => if mapId = 1 then some (between 2 3) else none) 0 [] (fun _ => 1) with
    world := World.empty.joinMap 1 atTop
    sessions := fun _ => { accountId := 1, characterId := some 7, mapId := some 1 } }

theorem mem_atTop : atTop ∈ (atTopServer.world.maps 1).players := by decide

theorem changeMap_iff_atTop : ChangesWell atTopServer 0 atTop 1 2 [] :=
  (changeMap_iff atTopServer 0 atTop 1 2 [] rfl mem_atTop).2 fun direction hborder _ => by
    obtain rfl : MapDirection.top = direction := Option.some.inj hborder
    exact ⟨by decide, rfl, fun b hb => by cases hb⟩

/-- From the top of its map, a player goes to the map on the left. -/
theorem not_changesWell_left : ¬ChangesWell atTopServer 0 atTop 1 3 [] := by
  rw [changesWell_iff rfl (WorldMap.find_eq_some.2 ⟨mem_atTop, rfl⟩)]
  intro h
  have hside := (h .top rfl ⟨.left, rfl⟩).2.1
  exact absurd hside (by decide)

end Otomai.Handlers
