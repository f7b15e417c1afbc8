import Otomai.Combat.History
import Otomai.Common.Path
import Otomai.Handlers.Presence

/-!
# Sessions

Each connection has a session of its own, which handles one message of its client after the other; the maps, the
database and the clock are shared.  A handler is a sequence of atomic operations (`Op`): at an `await` the handlers of
other sessions may come in between, and an operation that sends or asks the database may fail, which ends the session.
`handle` gives the operations that follow a message, `Server.perform` what each of them does, and the server takes one
step at an event (`Event`).  What a message is answered with depends on the row of the character and on what the
session reads before its first operation; these reads are one step with the arrival of the message.

`act_cases` lists the steps, and `Touch` what an operation does to the maps and the queues.
-/

namespace Otomai.Handlers

open Machine Otomai.Common Otomai.Combat Trace

/-! ### Movements -/

/-- `cell_from_key`. -/
def cellFromKey (key : Int16) : Nat := asU16 key.toInt % 4096

/-- `direction_from_key`. -/
def directionFromKey (key : Int16) : Nat := asU16 key.toInt / 4096 % 8

/-- The time a run takes for a step in each direction. -/
def runMsPerCell : List Nat := [255, 170, 150, 170, 255, 170, 150, 170]

/-- The cells of a path. -/
def pathCells (keyMovements : List Int16) : List Nat := keyMovements.map cellFromKey

/-- The cell a path leads to. -/
def destCell (keyMovements : List Int16) : Nat := (pathCells keyMovements).getLast?.getD 0

/-- `expected_path_duration_ms`: by the directions that the client has put into the keys. -/
def expectedPathDurationMs (keyMovements : List Int16) : Nat :=
  (keyMovements.tail.map fun key => (runMsPerCell[min (directionFromKey key) 7]?).getD 0).sum

/-- A run in progress, as far as the session knows. -/
structure MovementState where
  startTime : Nat
  pathCells : List Nat
  expectedDurationMs : Nat
  destCell : Nat
  deriving DecidableEq, Repr

namespace MovementState

/-- The least time the check accepts.  Four fifths of the duration, rounded down, is what the product with the double
0.8 comes to. -/
def minExpected (ms : MovementState) : Nat := ms.expectedDurationMs * 4 / 5

/-- Whether a confirmation at a time is turned down. -/
def tooFast (ms : MovementState) (now : Nat) : Bool :=
  now - ms.startTime < ms.minExpected ∧ 0 < ms.expectedDurationMs

end MovementState

/-! ### The database -/

/-- A character as it is stored. -/
structure Row where
  sheet : Character
  accountId : Int
  mapId : Int
  cellId : Int
  experience : Int

namespace Row

variable (row : Row)

def id : Int := row.sheet.id

/-- The map a character enters; a character without a map enters the default one. -/
def homeMap : Int := if row.mapId = 0 then 154010883 else row.mapId

def atPosition (mapId cellId : Int) : Row := { row with mapId := mapId, cellId := cellId }

def withExperience (experience : Int) : Row := { row with experience := experience }

/-- The next level, up to the last one. -/
def levelUp : Row :=
  if h : row.sheet.level < 200 then
    { row with
      sheet :=
        { row.sheet with
          level := row.sheet.level + 1
          level_pos := by have := row.sheet.level_pos; omega
          level_le := by omega } }
  else row

end Row

/-! ### The state -/

/-- The messages that are sent directly and change what the client shows of a map; `fightEnd` tells of the end of a
fight, and all others are `plain`. -/
inductive Direct where
  | plain
  | currentMap
  | mapComplementary (withPlayers : Bool)
  | showActor (characterId : Int)
  | fightEnd
  deriving DecidableEq, Repr

/-- The atomic operations of the handlers. -/
inductive Op where
  | send (m : Direct)
  | query
  | selectCharacter (characterId : Int)
  | joinMap (mapId cellId : Int)
  | leaveMap (mapId : Int)
  | readPlayers (mapId : Int)
  | setMap (mapId : Int)
  | broadcastMovement (mapId : Int) (keyMovements : List Int16)
  | storePathEnd (mapId : Int) (keyMovements : List Int16)
  | storeCancel (mapId cellId : Int)
  | startMovement (keyMovements : List Int16)
  | clearMovement
  | savePosition (mapId : Int)
  | trySavePosition (mapId : Int)
  | writePosition (mapId cellId : Int)
  | beginFight (f : Fight)
  | putFight (f : Fight)
  | takeFight
  | writeExperience (experience : Int)
  | writeLevelUp
  | crash
  | spin
  | depart
  deriving DecidableEq

/-- What the server knows of a connection: the fields of `PlayerSession`, the players a handler has read, what is left
of the handler that is running, and what the client shows of its map. -/
structure Session where
  accountId : Int
  characterId : Option Int := none
  mapId : Option Int := none
  movement : Option MovementState := none
  fight : Option Fight := none
  players : List Int := []
  pending : List Op := []
  display : List Int := []
  isOpen : Bool := true

/-- The state of the server.  `depth` bounds the turns that a fight plays by itself. -/
structure Server where
  mapData : Int → Option MapData
  depth : Nat
  world : World
  rows : List Row
  sessions : Nat → Session
  clock : Nat

/-- No client has said anything yet. -/
def Server.start (mapData : Int → Option MapData) (depth : Nat) (rows : List Row) (accounts : Nat → Int) :
    Server where
  mapData := mapData
  depth := depth
  world := .empty
  rows := rows
  sessions i := { accountId := accounts i }
  clock := 0

/-! ### Displays -/

/-- What a broadcast does to the actors a client shows. -/
def Broadcast.display (shown : List Int) : Broadcast → List Int
  | .showActor c => shown.insert c
  | .removeActor c => shown.filter (· ≠ c)
  | .mapMovement .. => shown

/-- What a direct message does to them; `players` are those the handler has read, among which it looks for the own
one. -/
def Direct.display (players shown : List Int) : Direct → List Int
  | .currentMap => []
  | .mapComplementary withPlayers => if withPlayers then players else []
  | .showActor c => if c ∈ players then shown.insert c else shown
  | .plain | .fightEnd => shown

/-- The display once the queue has been delivered. -/
def drain (queue : List Broadcast) (shown : List Int) : List Int := queue.foldl Broadcast.display shown

/-! ### Handlers -/

/-- The messages of a client.  A message of a fight comes as `Combat.Request` with what the handler reads for it; the
number of calls is what the handlers of quests and the handlers that touch neither maps nor sessions come to. -/
inductive Message where
  | characterSelection (characterId : Int)
  | gameContextCreateRequest
  | attackMonster (nextMarkId drawn : Nat)
  | fight (r : Request) (calls : Nat)
  | mapMovementRequest (mapId : Int) (keyMovements : List Int16)
  | mapMovementConfirm
  | mapMovementCancel (cellId : Int16)
  | changeMap (mapId : Int) (calls : Nat)
  | other (calls : Nat)
  deriving DecidableEq

def plain (n : Nat) : List Op := .replicate n (.send .plain)

namespace Server

variable (s : Server)

/-- `get_character`. -/
def getCharacter (characterId : Int) : Option Row := s.rows.find? (·.id = characterId)

/-- The entry of a character on a map. -/
def playerOn (mapId characterId : Int) : Option MapPlayer := (s.world.maps mapId).find characterId

end Server

/-- None of the operations satisfies `q`. -/
def Avoids (q : Op → Bool) (ops : List Op) : Prop := ∀ op ∈ ops, q op = false

namespace Avoids

variable {q : Op → Bool} {op : Op} {ops ops' : List Op}

theorem nil : Avoids q [] := fun _ hop => absurd hop List.not_mem_nil

theorem cons (hop : q op = false) (h : Avoids q ops) : Avoids q (op :: ops) := by
  intro op' hop'
  rcases List.mem_cons.1 hop' with rfl | hop'
  · exact hop
  · exact h op' hop'

theorem append (h : Avoids q ops) (h' : Avoids q ops') : Avoids q (ops ++ ops') := by
  intro op hop
  rcases List.mem_append.1 hop with hop | hop
  · exact h op hop
  · exact h' op hop

theorem replicate {n : Nat} (hop : q op = false) : Avoids q (.replicate n op) := by
  intro op' hop'
  rw [List.eq_of_mem_replicate hop']
  exact hop

/-- A handler whose operations are all known. -/
theorem of_all (h : ops.all (!q ·) = true) : Avoids q ops := by
  intro op hop
  simpa using List.all_eq_true.1 h op hop

end Avoids

/-- `handle_game_context_create`.  The players that are read are not sent, except for the own one. -/
def handleGameContextCreate (row : Row) : List Op :=
  [.send .plain, .send .currentMap, .joinMap row.homeMap (wrap16 row.cellId), .readPlayers row.homeMap,
    .send (.mapComplementary false)] ++ plain 3 ++ [.query] ++ plain 5 ++ [.send (.showActor row.id)]

/-- `handle_character_selection` and what the dispatch does after it. -/
def handleCharacterSelection (s : Server) (ps : Session) (characterId : Int) : List Op :=
  match s.getCharacter characterId with
  | some row =>
    if row.accountId = ps.accountId then .query :: plain 4 ++ [.query, .selectCharacter characterId]
    else [.query, .send .plain]
  | none => [.query, .send .plain]

/-- `start_pve_fight`. -/
def startFight (s : Server) (row : Row) (mapId : Int) (nextMarkId drawn : Nat) : List Op :=
  [.send .plain, .leaveMap mapId] ++ plain 3 ++ plain 4 ++
    [.beginFight (startPveFight s.mapData row.sheet mapId nextMarkId drawn)]

/-- `handle_fight_end`. -/
def handleFightEnd (row : Row) (won : Bool) : List Op :=
  .send .fightEnd ::
    (if won then
      [.send .plain, .writeExperience (row.experience + 50 * row.sheet.level)] ++
        if row.sheet.level * 100 ≤ row.experience + 50 * row.sheet.level ∧ row.sheet.level < 200 then
          [.writeLevelUp, .send .plain]
        else []
    else []) ++
    plain 2 ++ handleGameContextCreate row

/-- `check_fight_end`, for a fight that is over. -/
def endFight (s : Server) (characterId : Int) (f : Fight) (calls : Nat) : List Op :=
  .takeFight :: .query ::
    match s.getCharacter characterId with
    | some row =>
      handleFightEnd row f.challengersWon ++ .setMap f.mapId ::
        if f.challengersWon then .replicate calls .query else []
    | none => []

/-- The messages of a fight: everything it sends may fail. -/
def said (t : List Action) : List Op :=
  t.filterMap fun
    | .send _ => some (.send .plain)
    | _ => none

theorem avoids_said {q : Op → Bool} (hq : q (.send .plain) = false) (t : List Action) : Avoids q (said t) := by
  intro op hop
  obtain ⟨a, -, ha⟩ := List.mem_filterMap.1 hop
  cases a with
  | send m =>
    cases ha
    exact hq
  | _ => cases ha

/-- The arms of `combat::dispatch` for a fight that is held. -/
def serveFight (s : Server) (characterId : Int) (f : Fight) (r : Request) (calls : Nat) : List Op :=
  let run := serve s.mapData s.depth characterId r f
  let f' := after f run.trace
  said run.trace ++
    match run.ending with
    | .value _ => .putFight f' :: if r.checksEnd && f'.isOver then endFight s characterId f' calls else []
    | .panic => [.crash]
    | .exhausted => [.spin]

/-- `handle_movement_request`. -/
def handleMovementRequest (s : Server) (currentMapId mapId : Int) (keyMovements : List Int16) : List Op :=
  if mapId ≠ currentMapId ∨ keyMovements = [] then [.clearMovement]
  else
    match (s.mapData currentMapId).map fun map => validatePath map (pathCells keyMovements) with
    | some none => [.crash]
    | some (some false) => [.send .plain, .clearMovement]
    | _ =>
      [.broadcastMovement currentMapId keyMovements, .storePathEnd currentMapId keyMovements,
        .startMovement keyMovements]

/-- `handle_movement_confirm`. -/
def handleMovementConfirm (s : Server) (ps : Session) (currentMapId : Int) : List Op :=
  (if ps.movement.any (·.tooFast s.clock) then [] else [.savePosition currentMapId]) ++ [.clearMovement]

/-- Where a player that leaves a map comes out; `none` if it may not leave. -/
def transition (s : Server) (characterId currentMapId targetMapId : Int) : Option Nat :=
  let currentCell := ((s.playerOn currentMapId characterId).map fun p => asU16 p.cellId).getD 0
  match cellBorder currentCell with
  | none => none
  | some direction =>
    if MapDirection.all.any fun d => (s.mapData currentMapId).bind (·.neighbour d) = some targetMapId then
      let mirror := mirrorCell currentCell direction
      match s.mapData targetMapId with
      | some map => some ((map.nearestWalkableOnBorder mirror direction.opposite).getD mirror)
      | none => some mirror
    else none

/-- `handle_change_map` and what the dispatch does after it. -/
def handleChangeMap (s : Server) (characterId currentMapId targetMapId : Int) (calls : Nat) : List Op :=
  match transition s characterId currentMapId targetMapId with
  | none => []
  | some cell =>
    [.leaveMap currentMapId, .send .currentMap, .joinMap targetMapId (wrap16 cell), .readPlayers targetMapId,
      .send (.mapComplementary true), .writePosition targetMapId cell, .setMap targetMapId] ++ .replicate calls .query

/-- The dispatch of a message: what the session does from here on. -/
def handle (s : Server) (i : Nat) : Message → List Op
  | .characterSelection c => handleCharacterSelection s (s.sessions i) c
  | .gameContextCreateRequest =>
    match (s.sessions i).characterId with
    | none => []
    | some c =>
      .query ::
        match s.getCharacter c with
        | some row => handleGameContextCreate row ++ [.setMap row.homeMap, .send .plain]
        | none => []
  | .attackMonster nextMarkId drawn =>
    match (s.sessions i).characterId, (s.sessions i).mapId with
    | some c, some mapId =>
      .query ::
        match s.getCharacter c with
        | some row => startFight s row mapId nextMarkId drawn
        | none => []
    | _, _ => []
  | .fight r calls =>
    match (s.sessions i).fight, (s.sessions i).characterId with
    | some f, some c => serveFight s c f r calls
    | _, _ => []
  | .mapMovementRequest mapId keyMovements =>
    match (s.sessions i).fight, (s.sessions i).characterId with
    | some f, some c => serveFight s c f (.movement keyMovements) 0
    | none, some _ =>
      match (s.sessions i).mapId with
      | some currentMapId => handleMovementRequest s currentMapId mapId keyMovements
      | none => []
    | _, none => []
  | .mapMovementConfirm =>
    match (s.sessions i).characterId, (s.sessions i).mapId with
    | some _, some mapId => handleMovementConfirm s (s.sessions i) mapId
    | _, _ => []
  | .mapMovementCancel cellId =>
    match (s.sessions i).characterId, (s.sessions i).mapId with
    | some _, some mapId => [.storeCancel mapId cellId.toInt, .clearMovement]
    | _, _ => []
  | .changeMap mapId calls =>
    match (s.sessions i).characterId, (s.sessions i).mapId with
    | some c, some currentMapId =>
      .query ::
        match s.getCharacter c with
        | some _ => handleChangeMap s c currentMapId mapId calls
        | none => []
    | _, _ => []
  | .other calls => .replicate calls .query

/-- What `handle_client` does once the client has hung up. -/
def cleanup (ps : Session) : List Op :=
  match ps.characterId, ps.mapId with
  | some _, some mapId => [.trySavePosition mapId, .depart]
  | _, _ => [.depart]

/-! ### Operations -/

namespace Op

/-- The operation sends, or asks the database, and ends the session if that fails. -/
def mayFail : Op → Bool
  | send _ | query | savePosition _ | writePosition .. => true
  | _ => false

/-- A failure of the operation is ignored. -/
def mayBeRefused : Op → Bool
  | trySavePosition _ | writeExperience _ | writeLevelUp => true
  | _ => false

end Op

/-- What an operation does to the session itself, once it is no longer pending. -/
def Session.perform (ps : Session) (w : World) (clock : Nat) : Op → Session
  | .send m => { ps with display := m.display ps.players ps.display }
  | .selectCharacter c => { ps with characterId := some c }
  | .readPlayers mapId => { ps with players := (w.maps mapId).characters }
  | .setMap mapId => { ps with mapId := some mapId }
  | .startMovement keyMovements =>
    { ps with
      movement := some
        { startTime := clock
          pathCells := pathCells keyMovements
          expectedDurationMs := expectedPathDurationMs keyMovements
          destCell := destCell keyMovements } }
  | .clearMovement => { ps with movement := none }
  | .beginFight f | .putFight f => { ps with fight := some f }
  | .takeFight => { ps with fight := none }
  | .crash | .depart => { ps with pending := [], isOpen := false }
  | _ => ps

/-- What an operation of the session `i` does to the maps and the queues. -/
def World.perform (w : World) (ps : Session) (i : Nat) : Op → World
  | .joinMap mapId cellId =>
    match ps.characterId with
    | some c => w.joinMap mapId ⟨c, cellId, i⟩
    | none => w
  | .leaveMap mapId =>
    match ps.characterId with
    | some c => w.leaveMap mapId c
    | none => w
  | .depart =>
    match ps.characterId, ps.mapId with
    | some c, some mapId => w.leaveMap mapId c
    | _, _ => w
  | .broadcastMovement mapId keyMovements =>
    w.broadcastToMap mapId (.mapMovement keyMovements (ps.characterId.getD 0))
  | .storePathEnd mapId keyMovements =>
    match ps.characterId with
    | some c => w.updatePlayerCell mapId c (destCell keyMovements)
    | none => w
  | .storeCancel mapId cellId =>
    match ps.characterId with
    | some c => w.updatePlayerCell mapId c cellId
    | none => w
  | _ => w

namespace Server

variable (s : Server)

/-- Change the rows of a character. -/
def updateRow (characterId : Int) (g : Row → Row) : List Row :=
  s.rows.map fun row => if row.id = characterId then g row else row

/-- What an operation of the session `i` does to the database. -/
def writeRows (i : Nat) (op : Op) : List Row :=
  match (s.sessions i).characterId with
  | none => s.rows
  | some c =>
    match op with
    | .savePosition mapId | .trySavePosition mapId =>
      match s.playerOn mapId c with
      | some p => s.updateRow c (·.atPosition mapId p.cellId)
      | none => s.rows
    | .writePosition mapId cellId => s.updateRow c (·.atPosition mapId cellId)
    | .writeExperience experience => s.updateRow c (·.withExperience experience)
    | .writeLevelUp => s.updateRow c (·.levelUp)
    | _ => s.rows

def setSession (i : Nat) (ps : Session) : Server := { s with sessions := Function.update s.sessions i ps }

/-- The session `i` performs an operation, and `rest` is left of its handler. -/
def perform (i : Nat) (op : Op) (rest : List Op) : Server :=
  let ps := { s.sessions i with pending := rest }
  { s with
    world := s.world.perform ps i op
    rows := s.writeRows i op
    sessions := Function.update s.sessions i (ps.perform s.world s.clock op) }

/-- The session ends with an error, without a cleanup. -/
def close (i : Nat) : Server := s.setSession i { s.sessions i with pending := [], isOpen := false }

end Server

/-! ### Events -/

/-- What may happen next.  An event that is not possible in a state leaves it as it is. -/
inductive Event where
  | receive (i : Nat) (m : Message)
  | advance (i : Nat)
  | refuse (i : Nat)
  | fail (i : Nat)
  | deliver (i : Nat)
  | hangUp (i : Nat)
  | createCharacter (row : Row)
  | tick (ms : Nat)

/-- The session waits for a message or a broadcast. -/
def Session.isIdle (ps : Session) : Bool := ps.isOpen && ps.pending.isEmpty

instance : Acts Server Event where
  act s
    | .receive i m =>
      if (s.sessions i).isIdle then s.setSession i { s.sessions i with pending := handle s i m } else s
    | .advance i =>
      match (s.sessions i).pending with
      | [] | .spin :: _ => s
      | op :: rest => s.perform i op rest
    | .refuse i =>
      match (s.sessions i).pending with
      | [] => s
      | op :: rest => if op.mayBeRefused then s.setSession i { s.sessions i with pending := rest } else s
    | .fail i =>
      match (s.sessions i).pending with
      | [] => if (s.sessions i).isOpen then s.close i else s
      | op :: _ => if op.mayFail then s.close i else s
    | .deliver i =>
      match s.world.queue i with
      | [] => s
      | b :: _ =>
        if (s.sessions i).isIdle then
          { s.setSession i { s.sessions i with display := b.display (s.sessions i).display } with
            world := s.world.popQueue i }
        else s
    | .hangUp i =>
      if (s.sessions i).isIdle then s.setSession i { s.sessions i with pending := cleanup (s.sessions i) } else s
    | .createCharacter row => if s.getCharacter row.id = none then { s with rows := s.rows ++ [row] } else s
    | .tick ms => { s with clock := s.clock + ms }

/-- The steps of the server. -/
inductive Step (s : Server) : Event → Server → Prop where
  | receive {i : Nat} {m : Message} (hidle : (s.sessions i).isIdle = true) :
    Step s (.receive i m) (s.setSession i { s.sessions i with pending := handle s i m })
  | advance {i : Nat} {op : Op} {rest : List Op} (hpending : (s.sessions i).pending = op :: rest) (hop : op ≠ .spin) :
    Step s (.advance i) (s.perform i op rest)
  | refuse {i : Nat} {op : Op} {rest : List Op} (hpending : (s.sessions i).pending = op :: rest)
      (hop : op.mayBeRefused = true) : Step s (.refuse i) (s.setSession i { s.sessions i with pending := rest })
  | fail {i : Nat} (hfail : ∀ op ∈ (s.sessions i).pending.head?, op.mayFail = true) : Step s (.fail i) (s.close i)
  | deliver {i : Nat} {b : Broadcast} {bs : List Broadcast} (hqueue : s.world.queue i = b :: bs)
      (hidle : (s.sessions i).isIdle = true) :
    Step s (.deliver i)
      { s.setSession i { s.sessions i with display := b.display (s.sessions i).display } with
        world := s.world.popQueue i }
  | hangUp {i : Nat} (hidle : (s.sessions i).isIdle = true) :
    Step s (.hangUp i) (s.setSession i { s.sessions i with pending := cleanup (s.sessions i) })
  | createCharacter {row : Row} : Step s (.createCharacter row) { s with rows := s.rows ++ [row] }
  | tick {ms : Nat} : Step s (.tick ms) { s with clock := s.clock + ms }

theorem act_cases (s : Server) (e : Event) : act s e = s ∨ Step s e (act s e) := by
  cases e with
  | receive i m =>
    simp only [act]
    split
    · exact .inr (.receive ‹_›)
    · exact .inl rfl
  | advance i =>
    simp only [act]
    split
    · exact .inl rfl
    · exact .inl rfl
    · rename_i op rest hspin hpending
      exact .inr (.advance hpending hspin)
  | refuse i =>
    simp only [act]
    split
    · exact .inl rfl
    · split
      · exact .inr (.refuse ‹_› ‹_›)
      · exact .inl rfl
  | fail i =>
    simp only [act]
    split
    · split
      · exact .inr (.fail (by simp [*]))
      · exact .inl rfl
    · split
      · exact .inr (.fail (by simp [*]))
      · exact .inl rfl
  | deliver i =>
    simp only [act]
    split
    · exact .inl rfl
    · split
      · exact .inr (.deliver ‹_› ‹_›)
      · exact .inl rfl
  | hangUp i =>
    simp only [act]
    split
    · exact .inr (.hangUp ‹_›)
    · exact .inl rfl
  | createCharacter row =>
    simp only [act]
    split
    · exact .inr .createCharacter
    · exact .inl rfl
  | tick ms => exact .inr .tick

/-- The session an event is of. -/
def Event.session : Event → Option Nat
  | .receive i _ | .advance i | .refuse i | .fail i | .deliver i | .hangUp i => some i
  | .createCharacter _ | .tick _ => none

/-- An invariant needs to be checked for the steps only. -/
theorem invariant_run {K : Server → Event → Prop} {I : Server → Prop}
    (hstep : ∀ s e s', I s → K s e → Step s e s' → I s') {s : Server} {es : List Event}
    (hK : Along K s es) (hI : I s) :
    Along (fun s _ => I s) s es ∧ I (after s es) := by
  refine hK.invariant (fun s e hI hK => ?_) hI
  rcases act_cases s e with hsame | hs
  · rw [hsame]
    exact hI
  · exact hstep s e _ hI hK hs

theorem Session.isIdle_iff {ps : Session} : ps.isIdle = true ↔ ps.isOpen = true ∧ ps.pending = [] := by
  simp [isIdle]

/-! ### Frames -/

namespace Server

variable {s : Server} {i j : Nat} {ps : Session} {op : Op} {rest : List Op}

@[simp] theorem world_setSession : (s.setSession i ps).world = s.world := rfl
@[simp] theorem sessions_setSession : (s.setSession i ps).sessions i = ps := Function.update_self ..
theorem sessions_setSession_of_ne (h : j ≠ i) : (s.setSession i ps).sessions j = s.sessions j :=
  Function.update_of_ne h ..

@[simp] theorem world_close : (s.close i).world = s.world := rfl
theorem sessions_close : (s.close i).sessions i = { s.sessions i with pending := [], isOpen := false } :=
  sessions_setSession
theorem sessions_close_of_ne (h : j ≠ i) : (s.close i).sessions j = s.sessions j := sessions_setSession_of_ne h

theorem sessions_perform : (s.perform i op rest).sessions i =
    ({ s.sessions i with pending := rest } : Session).perform s.world s.clock op := Function.update_self ..
theorem sessions_perform_of_ne (h : j ≠ i) : (s.perform i op rest).sessions j = s.sessions j :=
  Function.update_of_ne h ..
theorem world_perform : (s.perform i op rest).world =
    s.world.perform { s.sessions i with pending := rest } i op := rfl

end Server

section

variable {s : Server} {w : World} {ps : Session} {i clock : Nat} {op : Op} {rest : List Op}

theorem pending_perform (h : (ps.perform w clock op).isOpen = true) :
    (ps.perform w clock op).pending = ps.pending := by
  cases op <;> first | rfl | cases h

theorem perform_of_mayBeRefused (h : op.mayBeRefused = true) : ps.perform w clock op = ps := by
  cases op <;> first | rfl | cases h

theorem isOpen_perform (h : (ps.perform w clock op).isOpen = true) : ps.isOpen = true := by
  cases op <;> first | exact h | cases h

theorem characterId_perform (h : ∀ c, op ≠ .selectCharacter c) :
    (ps.perform w clock op).characterId = ps.characterId := by
  cases op with
  | selectCharacter c => exact absurd rfl (h c)
  | _ => rfl

theorem isOpen_of_perform (h : ((s.perform i op rest).sessions i).isOpen = true) :
    (s.sessions i).isOpen = true := by
  rw [Server.sessions_perform] at h
  exact @isOpen_perform _ ({ s.sessions i with pending := rest }) _ _ h

end

/-- An event changes one session. -/
theorem sessions_act_of_ne {s : Server} {e : Event} {j : Nat} (h : e.session ≠ some j) :
    (act s e).sessions j = s.sessions j := by
  have hne {i : Nat} (hi : some i ≠ some j) : j ≠ i := fun heq => hi (congrArg some heq.symm)
  rcases act_cases s e with hsame | hs
  · rw [hsame]
  · generalize act s e = s' at hs ⊢
    cases hs with
    | receive hidle => exact Server.sessions_setSession_of_ne (hne h)
    | advance hpending hspin => exact Server.sessions_perform_of_ne (hne h)
    | refuse hpending hop => exact Server.sessions_setSession_of_ne (hne h)
    | fail hfail => exact Server.sessions_close_of_ne (hne h)
    | deliver hqueue hidle => exact Server.sessions_setSession_of_ne (hne h)
    | hangUp hidle => exact Server.sessions_setSession_of_ne (hne h)
    | createCharacter => rfl
    | tick => rfl

/-- What an operation does to the maps and the queues. -/
inductive Touch (w : World) (ps : Session) (i : Nat) : Op → World → Prop where
  | same {op : Op} : Touch w ps i op w
  | join {mapId cellId c : Int} (hc : ps.characterId = some c) :
    Touch w ps i (.joinMap mapId cellId) (w.joinMap mapId ⟨c, cellId, i⟩)
  | leave {op : Op} {mapId c : Int} (hc : ps.characterId = some c)
      (hop : op = .leaveMap mapId ∨ op = .depart ∧ ps.mapId = some mapId) : Touch w ps i op (w.leaveMap mapId c)
  | move {mapId : Int} {keyMovements : List Int16} {b : Broadcast}
      (hb : b = .mapMovement keyMovements (ps.characterId.getD 0)) :
    Touch w ps i (.broadcastMovement mapId keyMovements) (w.broadcastToMap mapId b)
  | store {op : Op} {mapId c cellId : Int} (hc : ps.characterId = some c)
      (hop : (∃ keyMovements, op = .storePathEnd mapId keyMovements) ∨ op = .storeCancel mapId cellId) :
    Touch w ps i op (w.updatePlayerCell mapId c cellId)

theorem touch (w : World) (ps : Session) (i : Nat) (op : Op) : Touch w ps i op (w.perform ps i op) := by
  cases op with
  | joinMap mapId cellId =>
    simp only [World.perform]
    split
    · exact .join ‹_›
    · exact .same
  | leaveMap mapId =>
    simp only [World.perform]
    split
    · exact .leave ‹_› (.inl rfl)
    · exact .same
  | depart =>
    simp only [World.perform]
    split
    · exact .leave ‹_› (.inr ⟨rfl, ‹_›⟩)
    · exact .same
  | broadcastMovement mapId keyMovements => exact .move rfl
  | storePathEnd mapId keyMovements =>
    simp only [World.perform]
    split
    · exact .store ‹_› (.inl ⟨_, rfl⟩)
    · exact .same
  | storeCancel mapId cellId =>
    simp only [World.perform]
    split
    · exact .store ‹_› (.inr rfl)
    · exact .same
  | _ => exact .same

/-! ### A few sessions on a few maps -/

/-- The event is one of the first `n` sessions, and joins one of these maps if it joins one. -/
def staysAmong (n : Nat) (maps : List Int) (s : Server) (e : Event) : Bool :=
  e.session.all (· < n) &&
    match e with
    | .advance i =>
      match (s.sessions i).pending with
      | .joinMap mapId _ :: _ => maps.contains mapId
      | _ => true
    | _ => true

/-- No other session has a character or a map, and nobody is anywhere else. -/
structure Among (n : Nat) (maps : List Int) (s : Server) : Prop where
  characterId : ∀ j, n ≤ j → (s.sessions j).characterId = none
  mapId : ∀ j, n ≤ j → (s.sessions j).mapId = none
  maps : ∀ m, m ∉ maps → ∀ p, p ∉ (s.world.maps m).players

theorem Among.step {n : Nat} {maps : List Int} {s : Server} {e : Event} (h : Among n maps s)
    (hstays : staysAmong n maps s e = true) : Among n maps (act s e) := by
  unfold staysAmong at hstays
  rw [Bool.and_eq_true] at hstays
  obtain ⟨hsession, hjoins⟩ := hstays
  have hsame : ∀ j, n ≤ j → (act s e).sessions j = s.sessions j := by
    intro j hj
    refine sessions_act_of_ne fun heq => ?_
    rw [heq] at hsession
    exact absurd (of_decide_eq_true hsession) (Nat.not_lt.2 hj)
  refine ⟨fun j hj => ?_, fun j hj => ?_, fun m hm p hp => ?_⟩
  · rw [hsame j hj]
    exact h.characterId j hj
  · rw [hsame j hj]
    exact h.mapId j hj
  · rcases act_cases s e with hact | hs
    · rw [hact] at hp
      exact h.maps m hm p hp
    · generalize act s e = s' at hs hp
      cases hs with
      | @advance i op rest hpending hspin =>
        have ht := touch s.world { s.sessions i with pending := rest } i op
        rw [← Server.world_perform] at ht
        generalize (s.perform i op rest).world = w' at ht hp
        cases ht with
        | same => exact h.maps m hm p hp
        | join hc =>
          rcases World.mem_joinMap.1 hp with ⟨hp, -⟩ | ⟨rfl, -⟩
          · exact h.maps m hm p hp
          · simp only [hpending, List.contains_iff_mem] at hjoins
            exact hm hjoins
        | leave hc hop => exact h.maps m hm p (World.mem_leaveMap.1 hp).1
        | move hb => exact h.maps m hm p hp
        | store hc hop =>
          obtain ⟨q, hq, -⟩ := World.mem_updatePlayerCell.1 hp
          exact h.maps m hm q hq
      | _ => exact h.maps m hm p hp

theorem among_run {n : Nat} {maps : List Int} {mapData : Int → Option MapData} {depth : Nat} {rows : List Row}
    {accounts : Nat → Int} {es : List Event}
    (h : Along (fun s e => staysAmong n maps s e = true) (.start mapData depth rows accounts) es) :
    Along (fun s _ => Among n maps s) (.start mapData depth rows accounts) es := by
  refine (h.invariant (fun s e hI hstays => hI.step hstays) ?_).1
  exact ⟨fun _ _ => rfl, fun _ _ => rfl, fun _ _ _ => WorldMap.mem_empty⟩

/-! ### Two players -/

/-- A character as it is created, on a cell of the map where it starts. -/
def Row.novice (account : Nat) (cellId : Int) : Row where
  sheet := { Character.novice with id := account + 1, id_pos := by omega }
  accountId := account
  mapId := 154010883
  cellId := cellId
  experience := 0

/-- The map where characters start, above which there is another one. -/
def startingMap : MapData where
  topNeighbourId := 5
  bottomNeighbourId := 0
  leftNeighbourId := 0
  rightNeighbourId := 0
  cells := .replicate mapCellsCount { mov := true, nonWalkableDuringRp := false, los := true }
  size := List.length_replicate

/-- Two players, who stand on the upper border. -/
def twoPlayers : Server :=
  .start (fun mapId => if mapId = 154010883 then some startingMap else none) 0 [.novice 0 10, .novice 1 10] Int.ofNat

/-- A session receives a message, and handles it in so many steps. -/
def answered (i : Nat) (m : Message) (n : Nat) : List Event := .receive i m :: .replicate n (.advance i)

/-- A session selects its character and enters the world with it. -/
def entering (i : Nat) : List Event :=
  answered i (.characterSelection (i + 1)) 7 ++ answered i .gameContextCreateRequest 20

/-- A spell that kills. -/
def slaying : SpellData := { SpellData.fallback with range := 60, effects := [⟨96, 10000, 0, 0, .earth⟩] }

end Otomai.Handlers
