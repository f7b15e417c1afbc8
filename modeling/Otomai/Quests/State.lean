import Otomai.Common.Fallible
import Otomai.DataReader.D2o
import Otomai.Handlers.Session

/-!
# Quests

The quests of a character: an event validates objectives, a step whose objectives are all completed is rewarded and
left for the next one, and after its last step the quest is finished.  Every step of this is a call of its own, to the
client or to the database, and any of them may fail; the client may then open a new session, and the events go on.

The game data are read by `get_game_data`, whose error some functions take for a missing object.
-/

namespace Otomai.Quests

open Machine Otomai.Common Otomai.DataReader Otomai.Handlers Trace

/-! ### Data -/

/-- An objective as it is stored with a quest. -/
structure Objective where
  id : Int
  type : Int
  param0 : Int
  mapId : Int
  completed : Bool
  deriving DecidableEq, Repr

namespace Objective

def talkToNpc : Int := 0

def defeatMonster : Int := 1

def goToMap : Int := 3

def reachLevel : Int := 7

def winFightOnMap : Int := 8

end Objective

/-- A quest of the character; its status is 0 while it is active and 1 when it is finished. -/
structure CharacterQuest where
  questId : Int
  stepId : Int
  finished : Bool
  objectives : List Objective
  deriving DecidableEq, Repr

/-- The objects of the game data files, in the order of their ids. -/
structure GameData where
  objects : String → List (Int × Value)

/-- What is stored of the character. -/
structure Stored where
  row : Option Row
  kamas : Int
  items : List (Int × Int)
  quests : HashMap Int CharacterQuest

/-! ### Calls -/

inductive Message where
  | questStarted (questId : Int)
  | stepStarted (questId stepId : Int)
  | objectiveValidated (questId objectiveId : Int)
  | stepValidated (questId stepId : Int)
  | questValidated (questId : Int)
  | experienceGain (experience : Int)
  | other
  deriving DecidableEq, Repr

/-- A part of the rewards of a step. -/
inductive Part where
  | experience
  | kamas
  | item (i : Nat)
  deriving DecidableEq, Repr

/-- The calls of the handlers.  `announce` tells the client of an objective of a step, and `reward` writes a part of
the rewards of a step. -/
inductive Call where
  | query
  | lookup (fileName : String) (objectId : Int)
  | send (m : Message)
  | announce (questId stepId objectiveId : Int)
  | rewardExperience (questId stepId experience : Int)
  | rewardKamas (questId stepId kamas : Int)
  | rewardItem (questId stepId : Int) (i : Nat) (itemId quantity : Int)
  | startQuest (questId stepId : Int) (objectives : List Objective)
  | updateQuestStep (questId stepId : Int) (objectives : List Objective)
  | completeQuest (questId : Int)
  | writeExperience (experience : Int)
  | writeLevelUp
  deriving DecidableEq, Repr

namespace Call

/-- What the client is told: ids have sixteen bits. -/
def message : Call → Option Message
  | send m => some m
  | announce questId _ objectiveId => some (.objectiveValidated (wrap16 questId) (wrap16 objectiveId))
  | _ => none

end Call

namespace Stored

/-- Change a quest of the character, if there is one. -/
def updateQuest (s : Stored) (questId : Int) (f : CharacterQuest → CharacterQuest) : Stored :=
  match s.quests.lookup questId with
  | some quest => { s with quests := s.quests.insert questId (f quest) }
  | none => s

/-- What a call does to the database. -/
def perform (s : Stored) : Call → Stored
  | .rewardExperience _ _ experience | .writeExperience experience =>
    { s with row := s.row.map (·.withExperience experience) }
  | .writeLevelUp => { s with row := s.row.map Row.levelUp }
  | .rewardKamas _ _ kamas => { s with kamas := kamas }
  | .rewardItem _ _ _ itemId quantity => { s with items := s.items ++ [(itemId, quantity)] }
  | .startQuest questId stepId objectives =>
    if questId ∈ s.quests then s
    else { s with quests := s.quests.insert questId { questId, stepId, finished := false, objectives } }
  | .updateQuestStep questId stepId objectives =>
    s.updateQuest questId fun quest => { quest with stepId := stepId, objectives := objectives }
  | .completeQuest questId => s.updateQuest questId fun quest => { quest with finished := true }
  | _ => s

end Stored

instance : Acts Stored Call := ⟨Stored.perform⟩

/-- A handler of quest events. -/
abbrev Handler (α : Type) := Fallible Stored Call α

export Fallible (call read attempt)

/-! ### Game data -/

/-- `v.as_i64()` as an integer. -/
def asInt (v : Value) : Option Int := v.asI64.map Int64.toInt

/-- `v.as_i64()`, as a number of thirty-two bits. -/
def asI32 (v : Value) : Option Int := (asInt v).map wrap32

def getGameData (data : GameData) (fileName : String) (objectId : Int) : Handler (Option Value) := do
  call (.lookup fileName objectId)
  pure ((data.objects fileName).lookup objectId)

def getAllGameData (data : GameData) (fileName : String) : Handler (List Value) := do
  call .query
  pure ((data.objects fileName).map Prod.snd)

/-- The steps of a quest. -/
def stepIds (quest : Value) : Option (List Value) := (quest.get? "stepIds").bind Value.asArray

def getFirstStepId (data : GameData) (questId : Int) : Handler (Option Int) := do
  let quest ← attempt (getGameData data "Quests" questId)
  pure ((quest.join.bind stepIds).bind fun steps => steps.head?.bind asI32)

/-- The step after another one in the list of a quest. -/
def nextStep (steps : List Value) (currentStepId : Int) : Option Int :=
  (steps.findIdx? fun v => asInt v = some currentStepId).bind fun idx => steps[idx + 1]?.bind asI32

def getNextStepId (data : GameData) (questId currentStepId : Int) : Handler (Option Int) := do
  let quest ← attempt (getGameData data "Quests" questId)
  pure ((quest.join.bind stepIds).bind fun steps => nextStep steps currentStepId)

/-- The objective that starts with the data of the game. -/
def newObjective (objectiveId : Int) (data : Value) : Objective where
  id := objectiveId
  type := ((data.get? "typeId").bind asI32).getD 0
  param0 := (((data.get? "parameters").bind (·.get? "parameter0")).bind asI32).getD 0
  mapId := asI64 (((data.get? "mapId").bind Value.asF64).elim 0 Float.ofBits)
  completed := false

/-- The objectives of some ids; those that are not found are left out. -/
def getObjectives (data : GameData) : List Value → Handler (List Objective)
  | [] => pure []
  | v :: ids => do
    let objectiveId := (asI32 v).getD 0
    let found ← attempt (getGameData data "QuestObjectives" objectiveId)
    let objectives ← getObjectives data ids
    pure ((found.join.map (newObjective objectiveId)).toList ++ objectives)

def getStepObjectives (data : GameData) (stepId : Int) : Handler (List Objective) := do
  let step ← attempt (getGameData data "QuestSteps" stepId)
  match step.join with
  | some step => getObjectives data (((step.get? "objectiveIds").bind Value.asArray).getD [])
  | none => pure []

/-! ### Rewards -/

/-- `(ratio * level as f64).max(1.0) as i64`. -/
def scaled (ratio : Float) (level : Int) : Int :=
  let x := ratio * Float.ofInt level
  asI64 (if 1 ≤ x then x else 1)

/-- A number of a reward. -/
def ratio (reward : Value) (name : String) : Float := ((reward.get? name).bind Value.asF64).elim 0 Float.ofBits

def rewardedKamas (reward : Value) (level : Int) : Int :=
  if ((reward.get? "kamasScaleWithPlayerLevel").bind Value.asBool).getD false then
    scaled (ratio reward "kamasRatio") level
  else asI64 (ratio reward "kamasRatio")

/-- The item and the quantity of an entry. -/
def rewardedItem (entry : Value) : Option (Int × Int) := do
  let arr ← entry.asArray
  let itemId := (arr.head?.bind asI32).getD 0
  let quantity := (arr[1]?.bind asI32).getD 1
  if 0 < itemId ∧ 0 < quantity then some (itemId, quantity) else none

def awardItems (questId stepId : Int) : Nat → List Value → Handler Unit
  | _, [] => pure ()
  | i, entry :: entries => do
    match rewardedItem entry with
    | some (itemId, quantity) => do
      let _ ← attempt (call (.rewardItem questId stepId i itemId quantity))
      awardItems questId stepId (i + 1) entries
    | none => awardItems questId stepId (i + 1) entries

def awardExperience (questId stepId : Int) (reward : Value) (row : Row) : Handler Unit :=
  if 0 < ratio reward "experienceRatio" then do
    let xp := scaled (ratio reward "experienceRatio") row.sheet.level
    let _ ← attempt (call (.rewardExperience questId stepId (wrap64 (row.experience + xp))))
    call (.send (.experienceGain xp))
  else pure ()

def awardKamas (questId stepId : Int) (reward : Value) (row : Row) (kamas : Int) : Handler Unit :=
  if 0 < ratio reward "kamasRatio" then do
    let newKamas := wrap64 (kamas + rewardedKamas reward row.sheet.level)
    let _ ← attempt (call (.rewardKamas questId stepId newKamas))
    pure ()
  else pure ()

/-- The rewards of a step. -/
def stepReward (allRewards : List Value) (stepId : Int) : Option Value :=
  allRewards.find? fun r => ((r.get? "stepId").bind asI32).getD 0 = stepId

/-- `award_step_rewards`, for a step of the quest `questId`. -/
def awardStepRewards (data : GameData) (questId stepId : Int) : Handler Unit := do
  let allRewards ← getAllGameData data "QuestStepRewards"
  match stepReward allRewards stepId with
  | none => pure ()
  | some reward => do
    call .query
    let stored ← read id
    match stored.row with
    | none => pure ()
    | some row => do
      awardExperience questId stepId reward row
      awardKamas questId stepId reward row stored.kamas
      awardItems questId stepId 0 (((reward.get? "itemsReward").bind Value.asArray).getD [])

/-! ### Steps -/

/-- `start_quest`. -/
def startQuest (data : GameData) (questId : Int) : Handler Unit := do
  let first ← getFirstStepId data questId
  let stepId := first.getD 0
  let objectives ← getStepObjectives data stepId
  call (.startQuest questId stepId objectives)
  call (.send (.questStarted (wrap16 questId)))
  call (.send (.stepStarted (wrap16 questId) (wrap16 stepId)))

/-- `complete_step_if_done`. -/
def completeStepIfDone (data : GameData) (questId stepId : Int) (objectives : List Objective) : Handler Unit := do
  if objectives.all Objective.completed then do
    awardStepRewards data questId stepId
    call (.send (.stepValidated (wrap16 questId) (wrap16 stepId)))
    let next ← getNextStepId data questId stepId
    match next with
    | some nextId => do
      let nextObjectives ← getStepObjectives data nextId
      call (.updateQuestStep questId nextId nextObjectives)
      call (.send (.stepStarted (wrap16 questId) (wrap16 nextId)))
    | none => do
      call (.completeQuest questId)
      call (.send (.questValidated (wrap16 questId)))
  else call (.updateQuestStep questId stepId objectives)

/-! ### Objectives -/

/-- The active quests, in an order in which the database may return them. -/
def getActiveQuests (order : List CharacterQuest) : Handler (List CharacterQuest) := do
  call .query
  let stored ← read id
  let active := (stored.quests.pairs.map Prod.snd).filter fun quest => !quest.finished
  pure (if order.Perm active then order else active)

/-- Mark the objectives that satisfy a condition. -/
def complete (done : Objective → Bool) (objectives : List Objective) : List Objective :=
  objectives.map fun o => if done o then { o with completed := true } else o

/-- `check_talk_to_npc_objective`: one objective of each quest. -/
def checkTalkToNpcObjective (data : GameData) (order : List CharacterQuest) (npcId : Int) : Handler Unit := do
  let active ← getActiveQuests order
  active.forM fun quest =>
    match quest.objectives.find? fun o => o.type = Objective.talkToNpc ∧ o.param0 = npcId ∧ !o.completed with
    | none => pure ()
    | some o => do
      call (.announce quest.questId quest.stepId o.id)
      completeStepIfDone data quest.questId quest.stepId (complete (fun other => other.id = o.id) quest.objectives)

/-- `check_map_objectives`: nothing is stored. -/
def checkMapObjectives (order : List CharacterQuest) (mapId : Int) : Handler Unit := do
  let active ← getActiveQuests order
  active.forM fun quest =>
    (quest.objectives.filter fun o => !o.completed ∧ o.type = Objective.goToMap ∧ o.mapId = mapId).forM fun o =>
      call (.announce quest.questId quest.stepId o.id)

/-- All objectives that satisfy a condition and are not completed are validated. -/
def validateObjectives (data : GameData) (order : List CharacterQuest) (matches' : Objective → Bool) :
    Handler Unit := do
  let active ← getActiveQuests order
  active.forM fun quest => do
    let validated := quest.objectives.filter fun o => !o.completed && matches' o
    validated.forM fun o => call (.announce quest.questId quest.stepId o.id)
    if validated ≠ [] then
      completeStepIfDone data quest.questId quest.stepId (complete matches' quest.objectives)

/-- The objective is completed by a fight. -/
def defeats (killedMonsterIds : List Int) (fightMapId : Int) (o : Objective) : Bool :=
  if o.type = Objective.defeatMonster then killedMonsterIds.contains o.param0
  else if o.type = Objective.winFightOnMap then o.mapId = fightMapId
  else false

def checkDefeatMonsterObjectives (data : GameData) (order : List CharacterQuest) (killedMonsterIds : List Int)
    (fightMapId : Int) : Handler Unit :=
  validateObjectives data order (defeats killedMonsterIds fightMapId)

def checkLevelObjectives (data : GameData) (order : List CharacterQuest) (newLevel : Int) : Handler Unit :=
  validateObjectives data order fun o => o.type = Objective.reachLevel ∧ o.param0 ≤ newLevel

/-! ### Events -/

inductive QuestEvent where
  | start (questId : Int)
  | talk (npcId : Int)
  | enterMap (mapId : Int)
  | winFight (killedMonsterIds : List Int) (fightMapId : Int)
  | reachLevel (newLevel : Int)
  deriving DecidableEq, Repr

/-- An event, the order in which the database returns the quests, and which calls of its handler fail. -/
structure Occasion where
  event : QuestEvent
  order : List CharacterQuest
  faults : List Bool

def Occasion.handler (data : GameData) (o : Occasion) : Handler Unit :=
  match o.event with
  | .start questId => startQuest data questId
  | .talk npcId => checkTalkToNpcObjective data o.order npcId
  | .enterMap mapId => checkMapObjectives o.order mapId
  | .winFight killed mapId => checkDefeatMonsterObjectives data o.order killed mapId
  | .reachLevel level => checkLevelObjectives data o.order level

/-- What is stored, and all calls that were made, the latest first. -/
structure World where
  stored : Stored
  calls : List (Call × Bool)

/-- A handler is run to its end or to its first error. -/
def World.handle (w : World) (p : Handler Unit) (faults : List Bool) : World :=
  let s := (p { state := w.stored, calls := w.calls, faults }).2
  { stored := s.state, calls := s.calls }

def World.step (data : GameData) (w : World) (o : Occasion) : World := w.handle (o.handler data) o.faults

def World.run (data : GameData) (w : World) (os : List Occasion) : World := os.foldl (World.step data) w

end Otomai.Quests
