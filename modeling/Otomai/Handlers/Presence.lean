import Mathlib.Data.List.Nodup
import Mathlib.Logic.Function.Basic

/-!
# Who is present on which map

A map holds the players that have joined it, one entry for each character.  Those present are told of a newcomer
before it is entered, and of a departure after it: the message is put into the queue of the session behind each entry.

* `mem_joinMap`, `mem_leaveMap`: who is present afterwards.
* `queue_broadcast`: what a queue holds afterwards.
-/

namespace Otomai.Handlers

/-- A player present on a map; `tx` is the session whose queue its broadcasts go to. -/
structure MapPlayer where
  characterId : Int
  cellId : Int
  tx : Nat
  deriving DecidableEq, Repr

/-- A map and its players, by their characters. -/
structure WorldMap where
  players : List MapPlayer
  nodup : (players.map MapPlayer.characterId).Nodup

/-- What reaches a session through its queue. -/
inductive Broadcast where
  | showActor (characterId : Int)
  | removeActor (characterId : Int)
  | mapMovement (keyMovements : List Int16) (actorId : Int)
  deriving DecidableEq, Repr

namespace WorldMap

def empty : WorldMap := ⟨[], List.nodup_nil⟩

variable (m : WorldMap)

/-- The characters present. -/
def characters : List Int := m.players.map MapPlayer.characterId

def find (characterId : Int) : Option MapPlayer := m.players.find? (·.characterId = characterId)

def remove (characterId : Int) : WorldMap where
  players := m.players.filter (·.characterId ≠ characterId)
  nodup := m.nodup.sublist (List.filter_sublist.map _)

/-- An entry takes the place of the one of its character. -/
def insert (p : MapPlayer) : WorldMap where
  players := (m.remove p.characterId).players ++ [p]
  nodup := by
    rw [List.map_append, List.map_singleton]
    refine List.nodup_append.2 ⟨(m.remove p.characterId).nodup, List.nodup_singleton _, ?_⟩
    intro c hc c' hc' heq
    obtain ⟨q, hq, rfl⟩ := List.mem_map.1 hc
    rw [List.mem_singleton.1 hc'] at heq
    simp [remove, heq] at hq

def setCell (characterId cellId : Int) : WorldMap where
  players := m.players.map fun p => if p.characterId = characterId then { p with cellId := cellId } else p
  nodup := by
    have hsame : (m.players.map fun p => if p.characterId = characterId then { p with cellId := cellId } else p).map
        MapPlayer.characterId = m.players.map MapPlayer.characterId := by
      rw [List.map_map]
      refine List.map_congr_left fun p _ => ?_
      simp only [Function.comp_apply]
      split <;> rfl
    rw [hsame]
    exact m.nodup

variable {m} {c c' cellId : Int} {p q : MapPlayer}

@[simp] theorem mem_empty : p ∉ empty.players := List.not_mem_nil

@[simp] theorem mem_remove : p ∈ (m.remove c).players ↔ p ∈ m.players ∧ p.characterId ≠ c := by
  simp [remove]

@[simp] theorem mem_insert : q ∈ (m.insert p).players ↔ q ∈ m.players ∧ q.characterId ≠ p.characterId ∨ q = p := by
  simp [insert]

theorem mem_setCell : q ∈ (m.setCell c cellId).players ↔
    ∃ p ∈ m.players, q = if p.characterId = c then { p with cellId := cellId } else p := by
  simp only [setCell, List.mem_map, eq_comm]

theorem mem_characters : c ∈ m.characters ↔ ∃ p ∈ m.players, p.characterId = c := List.mem_map

/-- There is one entry of a character. -/
theorem eq_of_characterId (hp : p ∈ m.players) (hq : q ∈ m.players) (h : p.characterId = q.characterId) : p = q :=
  List.inj_on_of_nodup_map m.nodup hp hq h

theorem find_eq_some : m.find c = some p ↔ p ∈ m.players ∧ p.characterId = c := by
  constructor
  · intro h
    exact ⟨List.mem_of_find?_eq_some h, by simpa using List.find?_some h⟩
  · rintro ⟨hp, rfl⟩
    cases hfind : m.find p.characterId with
    | none =>
      have hne := List.find?_eq_none.1 hfind p hp
      simp at hne
    | some q =>
      have hq : q.characterId = p.characterId := by simpa using List.find?_some hfind
      rw [eq_of_characterId (List.mem_of_find?_eq_some hfind) hp hq]

end WorldMap

/-- The maps, and the queue of each session. -/
structure World where
  maps : Int → WorldMap
  queue : Nat → List Broadcast

namespace World

variable (w : World)

/-- Nobody is present, and nothing is queued. -/
def empty : World := ⟨fun _ => .empty, fun _ => []⟩

/-- Put a message into the queue behind each of some entries. -/
def broadcast (players : List MapPlayer) (b : Broadcast) : World :=
  { w with queue := fun i => w.queue i ++ (players.filter (·.tx = i)).map fun _ => b }

/-- `join_map`. -/
def joinMap (mapId : Int) (player : MapPlayer) : World :=
  { w.broadcast (w.maps mapId).players (.showActor player.characterId) with
    maps := Function.update w.maps mapId ((w.maps mapId).insert player) }

/-- `leave_map`. -/
def leaveMap (mapId characterId : Int) : World :=
  { w.broadcast ((w.maps mapId).remove characterId).players (.removeActor characterId) with
    maps := Function.update w.maps mapId ((w.maps mapId).remove characterId) }

/-- `update_player_cell`. -/
def updatePlayerCell (mapId characterId cellId : Int) : World :=
  { w with maps := Function.update w.maps mapId ((w.maps mapId).setCell characterId cellId) }

/-- Send a message to everybody who is on a map. -/
def broadcastToMap (mapId : Int) (b : Broadcast) : World := w.broadcast (w.maps mapId).players b

/-- Take the first message out of a queue. -/
def popQueue (i : Nat) : World := { w with queue := Function.update w.queue i (w.queue i).tail }

variable {w} {mapId mapId' c cellId : Int} {p q : MapPlayer} {b : Broadcast} {players : List MapPlayer} {i : Nat}

@[simp] theorem maps_broadcast : (w.broadcast players b).maps = w.maps := rfl
@[simp] theorem maps_broadcastToMap : (w.broadcastToMap mapId b).maps = w.maps := rfl
@[simp] theorem maps_popQueue : (w.popQueue i).maps = w.maps := rfl
@[simp] theorem queue_updatePlayerCell : (w.updatePlayerCell mapId c cellId).queue = w.queue := rfl

theorem mem_joinMap : q ∈ ((w.joinMap mapId p).maps mapId').players ↔
    q ∈ (w.maps mapId').players ∧ (mapId' = mapId → q.characterId ≠ p.characterId) ∨ mapId' = mapId ∧ q = p := by
  by_cases h : mapId' = mapId
  · subst h
    simp [joinMap]
  · simp [joinMap, h]

theorem mem_leaveMap : q ∈ ((w.leaveMap mapId c).maps mapId').players ↔
    q ∈ (w.maps mapId').players ∧ (mapId' = mapId → q.characterId ≠ c) := by
  by_cases h : mapId' = mapId
  · subst h
    simp [leaveMap]
  · simp [leaveMap, h]

theorem mem_updatePlayerCell : q ∈ ((w.updatePlayerCell mapId c cellId).maps mapId').players ↔
    ∃ p ∈ (w.maps mapId').players,
      q = if mapId' = mapId ∧ p.characterId = c then { p with cellId := cellId } else p := by
  by_cases h : mapId' = mapId
  · subst h
    simp [updatePlayerCell, WorldMap.mem_setCell]
  · simp [updatePlayerCell, h]

/-- A queue grows by copies of a message, if there is an entry it is behind of. -/
theorem queue_broadcast : ∃ n, (w.broadcast players b).queue i = w.queue i ++ List.replicate n b ∧
    (0 < n ↔ ∃ p ∈ players, p.tx = i) := by
  refine ⟨(players.filter (·.tx = i)).length, ?_, ?_⟩
  · simp only [broadcast, List.map_const']
  · rw [List.length_pos_iff_exists_mem]
    simp

end World

end Otomai.Handlers
