import Otomai.Common.Criterion
import Otomai.Quests.Rewards

/-!
# The quests of a non-player character

With each non-player character of a map the client is told which quests the player can start there, and which of the
quests that it has started can go on there.

* `keyed_run`: each quest is stored under its id.
* `flags_of_failures`: whatever fails, no quest is told of that does not involve the character.
* `flags_tell`: what the flags tell is what happens when the player then talks to the character or starts the quest.
-/

namespace Otomai.Quests

open Machine Otomai.Common Otomai.DataReader Otomai.Handlers Fallible Trace Wire

/-! ### The flags -/

/-- `get_all_game_data`, with the ids of the objects. -/
def getAllObjects (data : GameData) (fileName : String) : Handler (List (Int × Value)) := do
  call .query
  pure (data.objects fileName)

def getCompletedQuestIds : Handler (List Int) := do
  call .query
  let stored ← read id
  pure (((stored.quests.pairs.map Prod.snd).filter fun quest => quest.finished).map CharacterQuest.questId)

def getCharacterRow : Handler (Option Row) := do
  call .query
  read Stored.row

/-- An objective is open that asks to talk to the character. -/
def CharacterQuest.validAt (npcId : Int) (quest : CharacterQuest) : Bool :=
  quest.objectives.any fun o => o.type = Objective.talkToNpc ∧ o.param0 = npcId ∧ !o.completed

/-- The ids of the quests that can go on at the character. -/
def validIds (npcId : Int) (quests : List CharacterQuest) : List Int :=
  (quests.filter (·.validAt npcId)).map fun quest => wrap16 quest.questId

/-- The data of an objective that asks to talk to the character. -/
def talksTo (npcId : Int) (object : Value) : Bool :=
  ((object.get? "typeId").bind asI32).getD (-1) = Objective.talkToNpc ∧
    (((object.get? "parameters").bind (·.get? "parameter0")).bind asI32).getD 0 = npcId

def asksToTalk (data : GameData) (npcId : Int) : List Value → Handler Bool
  | [] => pure false
  | v :: ids => do
    let found ← attempt (getGameData data "QuestObjectives" ((asI32 v).getD 0))
    match found.join with
    | some object => if talksTo npcId object then pure true else asksToTalk data npcId ids
    | none => asksToTalk data npcId ids

/-- The id of the first step of a quest, if it is a number. -/
def firstStepId (quest : Value) : Option Int := (stepIds quest).bind fun steps => steps.head?.bind asI32

def objectiveValues (step : Value) : List Value := ((step.get? "objectiveIds").bind Value.asArray).getD []

def startsAt (data : GameData) (npcId : Int) (quest : Value) : Handler Bool :=
  match firstStepId quest with
  | some stepId => do
    let step ← attempt (getGameData data "QuestSteps" stepId)
    match step.join with
    | some step => asksToTalk data npcId (objectiveValues step)
    | none => pure false
  | none => pure false

def startCriterion (quest : Value) : List Char := (((quest.get? "startCriterion").bind Value.asStr).getD "").toList

/-- The quests of the data that can be started; the evaluation of a criterion may panic. -/
def questsToStart (data : GameData) (ctx : Criterion.CriterionContext) (npcId : Int) :
    List (Int × Value) → Handler (Outcome Unit (List Int))
  | [] => pure (.ok [])
  | (questId, quest) :: quests =>
    if questId ∈ ctx.activeQuestIds ∨ questId ∈ ctx.completedQuestIds then questsToStart data ctx npcId quests
    else
      match Criterion.evaluate (startCriterion quest) ctx with
      | .ok true => do
        let starts ← startsAt data npcId quest
        let rest ← questsToStart data ctx npcId quests
        pure (if starts then rest.bind fun ids => .ok (wrap16 questId :: ids) else rest)
      | .ok false => questsToStart data ctx npcId quests
      | .err e => pure (.err e)
      | .panic => pure .panic
      | .exhausted => pure .exhausted

/-- `compute_npc_quest_flags`, for a character of a breed and a sex. -/
def computeNpcQuestFlags (data : GameData) (order : List CharacterQuest) (breedId sex npcId : Int) :
    Handler (Outcome Unit (List Int × List Int)) := do
  let completed ← attempt getCompletedQuestIds
  let active ← attempt (getActiveQuests order)
  let row ← attempt getCharacterRow
  match row.join with
  | none => pure (.ok ([], []))
  | some row => do
    let activeQuests := active.getD []
    let ctx : Criterion.CriterionContext :=
      { level := row.sheet.level, breedId, sex, completedQuestIds := completed.getD [],
        activeQuestIds := activeQuests.map CharacterQuest.questId }
    let toValid := validIds npcId activeQuests
    let allQuests ← attempt (getAllObjects data "Quests")
    let toStart ← questsToStart data ctx npcId (allQuests.getD [])
    pure (toStart.bind fun ids => .ok (ids, toValid))

/-! ### Which calls the handlers make -/

/-- The quest of which the client is told that an objective is validated. -/
def Call.validatedQuest (c : Call) : Option Int :=
  match c.message with
  | some (.objectiveValidated questId _) => some questId
  | _ => none

/-- The quests of which the client is told so, in order. -/
def told (u : Record) : List Int := u.reverse.filterMap fun c => if c.2 then c.1.validatedQuest else none

/-- Nothing is validated. -/
def Quiet (c : Call) : Prop := c.validatedQuest = none

theorem told_append (u v : Record) : told (v ++ u) = told u ++ told v := by
  rw [told, List.reverse_append, List.filterMap_append]
  rfl

theorem told_of_quiet {u : Record} (h : ∀ c ∈ u, Quiet c.1) : told u = [] := by
  refine List.filterMap_eq_nil_iff.2 fun c hc => ?_
  rw [h c (List.mem_reverse.1 hc)]
  split <;> rfl

section

variable {data : GameData}

theorem makes_getGameData (fileName : String) (objectId : Int) : Makes Quiet (getGameData data fileName objectId) :=
  Makes.bind (Makes.call rfl) fun _ => .pure _

theorem makes_getFirstStepId (questId : Int) : Makes Quiet (getFirstStepId data questId) :=
  (makes_getGameData _ _).attempt.bind fun _ => .pure _

theorem makes_getNextStepId (questId current : Int) : Makes Quiet (getNextStepId data questId current) :=
  (makes_getGameData _ _).attempt.bind fun _ => .pure _

theorem makes_getObjectives (ids : List Value) : Makes Quiet (getObjectives data ids) := by
  induction ids with
  | nil => exact .pure _
  | cons v ids ih => exact (makes_getGameData _ _).attempt.bind fun _ => ih.bind fun _ => .pure _

theorem makes_getStepObjectives (stepId : Int) : Makes Quiet (getStepObjectives data stepId) := by
  refine (makes_getGameData _ _).attempt.bind fun step => ?_
  cases step.join with
  | none => exact .pure _
  | some step => exact makes_getObjectives _

theorem makes_awardItems (questId stepId : Int) (i : Nat) (entries : List Value) :
    Makes Quiet (awardItems questId stepId i entries) := by
  induction entries generalizing i with
  | nil => exact .pure _
  | cons entry entries ih =>
    rw [awardItems]
    cases rewardedItem entry with
    | none => exact ih (i + 1)
    | some item => exact Makes.bind (Makes.attempt (Makes.call rfl)) fun _ => ih (i + 1)

theorem makes_awardExperience (questId stepId : Int) (reward : Value) (row : Row) :
    Makes Quiet (awardExperience questId stepId reward row) := by
  unfold awardExperience
  exact .ite (Makes.bind (Makes.attempt (Makes.call rfl)) fun _ => .call rfl) (.pure _)

theorem makes_awardKamas (questId stepId : Int) (reward : Value) (row : Row) (kamas : Int) :
    Makes Quiet (awardKamas questId stepId reward row kamas) := by
  unfold awardKamas
  exact .ite (Makes.bind (Makes.attempt (Makes.call rfl)) fun _ => .pure _) (.pure _)

theorem makes_awardStepRewards (questId stepId : Int) : Makes Quiet (awardStepRewards data questId stepId) := by
  refine Makes.bind (Makes.bind (Makes.call rfl) fun _ => .pure _) fun allRewards => ?_
  cases stepReward allRewards stepId with
  | none => exact .pure _
  | some reward =>
    refine Makes.bind (Makes.call rfl) fun _ => Makes.bind (Makes.read _) fun stored => ?_
    cases stored.row with
    | none => exact .pure _
    | some row =>
      refine (makes_awardExperience _ _ _ _).bind fun _ => (makes_awardKamas _ _ _ _ _).bind fun _ => ?_
      exact makes_awardItems _ _ _ _

theorem makes_startQuest (questId : Int) : Makes Quiet (startQuest data questId) := by
  refine (makes_getFirstStepId questId).bind fun _ => (makes_getStepObjectives _).bind fun _ => ?_
  exact Makes.bind (Makes.call rfl) fun _ => Makes.bind (Makes.call rfl) fun _ => .call rfl

theorem makes_completeStepIfDone (questId stepId : Int) (objectives : List Objective) :
    Makes Quiet (completeStepIfDone data questId stepId objectives) := by
  unfold completeStepIfDone
  refine .ite ?_ (.call rfl)
  refine (makes_awardStepRewards _ _).bind fun _ => Makes.bind (Makes.call rfl) fun _ => ?_
  refine (makes_getNextStepId _ _).bind fun next => ?_
  cases next with
  | none => exact Makes.bind (Makes.call rfl) fun _ => .call rfl
  | some nextId => exact (makes_getStepObjectives _).bind fun _ => Makes.bind (Makes.call rfl) fun _ => .call rfl

theorem makes_getActiveQuests (order : List CharacterQuest) : Makes Quiet (getActiveQuests order) :=
  Makes.bind (Makes.call rfl) fun _ => Makes.bind (Makes.read _) fun _ => .pure _

theorem makes_validateObjectives (order : List CharacterQuest) (matches' : Objective → Bool) :
    Makes (fun _ => True) (validateObjectives data order matches') := by
  refine (makes_getActiveQuests order).any.bind fun active => .forM fun quest _ => ?_
  refine (Makes.forM fun o _ => .call trivial).bind fun _ => ?_
  exact .ite (makes_completeStepIfDone _ _ _).any (.pure _)

/-- The handlers of all events only make calls. -/
theorem makes_handler (o : Occasion) : Makes (fun _ => True) (o.handler data) := by
  unfold Occasion.handler
  cases o.event with
  | start questId => exact (makes_startQuest questId).any
  | talk npcId =>
    refine (makes_getActiveQuests _).any.bind fun active => .forM fun quest _ => ?_
    split
    · exact .pure _
    · exact Makes.bind (Makes.call trivial) fun _ => (makes_completeStepIfDone _ _ _).any
  | enterMap mapId =>
    refine (makes_getActiveQuests _).any.bind fun active => .forM fun quest _ => ?_
    exact .forM fun o _ => .call trivial
  | winFight killed mapId => exact makes_validateObjectives _ _
  | reachLevel level => exact makes_validateObjectives _ _

end

/-! ### What is stored -/

/-- Each quest is stored under its id. -/
def Stored.Keyed (s : Stored) : Prop := ∀ questId quest, s.quests.lookup questId = some quest →
    quest.questId = questId

theorem Stored.Keyed.updateQuest {s : Stored} (h : s.Keyed) {questId : Int} {f : CharacterQuest → CharacterQuest}
    (hf : ∀ quest, (f quest).questId = quest.questId) : (s.updateQuest questId f).Keyed := by
  intro other quest hquest
  cases hold : s.quests.lookup questId with
  | none =>
    unfold Stored.updateQuest at hquest
    rw [hold] at hquest
    exact h other quest hquest
  | some old =>
    by_cases hother : other = questId
    · subst hother
      rw [lookup_updateQuest hold] at hquest
      obtain rfl := Option.some.inj hquest
      exact (hf old).trans (h other old hold)
    · rw [lookup_updateQuest_of_ne hother] at hquest
      exact h other quest hquest

theorem Stored.Keyed.act {s : Stored} (h : s.Keyed) (c : Call) : (Trace.act s c).Keyed := by
  cases c with
  | startQuest questId stepId objectives =>
    intro other quest hquest
    -- a quest that is stored already is not replaced
    rcases lookup_startQuest hquest with hold | ⟨rfl, rfl⟩
    · exact h other quest hold
    · rfl
  | updateQuestStep questId stepId objectives => exact h.updateQuest fun _ => rfl
  | completeQuest questId => exact h.updateQuest fun _ => rfl
  | _ => exact h

/-- Whatever happens to the quests of a character, each stays stored under its id. -/
theorem keyed_run {data : GameData} {w : World} (hw : w.stored.Keyed) (os : List Occasion) :
    (w.run data os).stored.Keyed := by
  induction os generalizing w with
  | nil => exact hw
  | cons o os ih =>
    have hstep : (w.step data o).stored.Keyed :=
      (makes_handler o).invariant (fun s c _ h => h.act c) (s := ⟨w.stored, w.calls, o.faults⟩) hw
    exact ih hstep

/-- The active quests, in the order in which they are read. -/
def Stored.activeIn (s : Stored) (order : List CharacterQuest) : List CharacterQuest :=
  let active := (s.quests.pairs.map Prod.snd).filter fun quest => !quest.finished
  if order.Perm active then order else active

def Stored.completedIds (s : Stored) : List Int :=
  ((s.quests.pairs.map Prod.snd).filter fun quest => quest.finished).map CharacterQuest.questId

theorem mem_activeIn {s : Stored} {order : List CharacterQuest} {quest : CharacterQuest} :
    quest ∈ s.activeIn order ↔ quest.finished = false ∧ ∃ questId, s.quests.lookup questId = some quest := by
  have hactive : quest ∈ (s.quests.pairs.map Prod.snd).filter (fun quest => !quest.finished) ↔
      quest.finished = false ∧ ∃ questId, s.quests.lookup questId = some quest := by
    simp only [List.mem_filter, List.mem_map, Bool.not_eq_true', HashMap.lookup_eq_some]
    constructor
    · rintro ⟨⟨p, hp, rfl⟩, hfinished⟩
      exact ⟨hfinished, p.1, hp⟩
    · rintro ⟨hfinished, questId, hp⟩
      exact ⟨⟨_, hp, rfl⟩, hfinished⟩
  unfold Stored.activeIn
  dsimp only
  split_ifs with hperm
  · rw [hperm.mem_iff]
    exact hactive
  · exact hactive

/-- A quest is neither active nor finished if it is not stored. -/
theorem notMem_iff {s : Stored} (h : s.Keyed) (order : List CharacterQuest) (questId : Int) :
    ¬(questId ∈ (s.activeIn order).map CharacterQuest.questId ∨ questId ∈ s.completedIds) ↔
      s.quests.lookup questId = none := by
  rw [← not_iff_not, not_not, ← ne_eq, Option.ne_none_iff_exists']
  constructor
  · rintro (hactive | hcompleted)
    · obtain ⟨quest, hquest, rfl⟩ := List.mem_map.1 hactive
      obtain ⟨-, key, hkey⟩ := mem_activeIn.1 hquest
      exact ⟨quest, by rw [h key quest hkey, hkey]⟩
    · obtain ⟨quest, hquest, rfl⟩ := List.mem_map.1 hcompleted
      obtain ⟨p, hp, rfl⟩ := List.mem_map.1 (List.mem_filter.1 hquest).1
      have hkey := HashMap.lookup_eq_some.2 hp
      exact ⟨p.2, by rw [h p.1 p.2 hkey, hkey]⟩
  · rintro ⟨quest, hquest⟩
    have hid := h questId quest hquest
    cases hfinished : quest.finished with
    | false => exact .inl (List.mem_map.2 ⟨quest, mem_activeIn.2 ⟨hfinished, questId, hquest⟩, hid⟩)
    | true =>
      refine .inr (List.mem_map.2 ⟨quest, List.mem_filter.2 ⟨?_, hfinished⟩, hid⟩)
      exact List.mem_map.2 ⟨(questId, quest), HashMap.lookup_eq_some.1 hquest, rfl⟩

/-! ### What is found -/

/-- Without failures the result is `a`, and the state stays. -/
def Finds {α : Type} (p : Handler α) (s : Stored) (a : α) : Prop := Succeeds p s fun b s' _ => b = a ∧ s' = s

namespace Finds

variable {α β : Type} {p : Handler α} {k : α → Handler β} {s : Stored} {a : α}

protected theorem pure (a : α) : Finds (pure a) s a := Succeeds.pure ⟨rfl, rfl⟩

theorem before (hp : Finds p s a) {R : β → Stored → Prop} (hk : Succeeds (k a) s fun b s' _ => R b s') :
    Succeeds (p >>= k) s fun b s' _ => R b s' := by
  refine .bind (hp.mono fun b s' u h => ?_)
  obtain ⟨rfl, rfl⟩ := h
  exact hk

protected theorem bind {b : β} (hp : Finds p s a) (hk : Finds (k a) s b) : Finds (p >>= k) s b := hp.before hk

protected theorem attempt (hp : Finds p s a) : Finds (attempt p) s (some a) :=
  Succeeds.attempt (hp.mono fun _ _ _ h => ⟨congrArg some h.1, h.2⟩)

end Finds

section

variable {data : GameData} {s : Stored} {npcId : Int}

theorem finds_getGameData (fileName : String) (objectId : Int) :
    Finds (getGameData data fileName objectId) s ((data.objects fileName).lookup objectId) :=
  Succeeds.bind (.call (.pure ⟨rfl, rfl⟩))

theorem finds_getActiveQuests (order : List CharacterQuest) : Finds (getActiveQuests order) s (s.activeIn order) :=
  Succeeds.bind (.call (.bind (.read (.pure ⟨rfl, rfl⟩))))

theorem finds_getFirstStepId (questId : Int) :
    Finds (getFirstStepId data questId) s (((data.objects "Quests").lookup questId).bind firstStepId) := by
  refine (finds_getGameData _ _).attempt.bind ?_
  rw [Option.join_some]
  cases (data.objects "Quests").lookup questId with
  | none => exact .pure _
  | some quest => exact .pure _

/-- The objectives of some ids. -/
def objectivesOf (data : GameData) (ids : List Value) : List Objective :=
  ids.filterMap fun v =>
    ((data.objects "QuestObjectives").lookup ((asI32 v).getD 0)).map (newObjective ((asI32 v).getD 0))

def stepObjectives (data : GameData) (stepId : Int) : List Objective :=
  match (data.objects "QuestSteps").lookup stepId with
  | some step => objectivesOf data (objectiveValues step)
  | none => []

theorem objectivesOf_cons (v : Value) (ids : List Value) : objectivesOf data (v :: ids) =
    (((data.objects "QuestObjectives").lookup ((asI32 v).getD 0)).map (newObjective ((asI32 v).getD 0))).toList ++
      objectivesOf data ids := by
  rw [objectivesOf, List.filterMap_cons]
  cases (data.objects "QuestObjectives").lookup ((asI32 v).getD 0) <;> rfl

theorem finds_getObjectives (ids : List Value) : Finds (getObjectives data ids) s (objectivesOf data ids) := by
  induction ids with
  | nil => exact .pure _
  | cons v ids ih =>
    refine (finds_getGameData _ _).attempt.bind (ih.bind ?_)
    rw [Option.join_some, objectivesOf_cons]
    exact .pure _

theorem finds_getStepObjectives (stepId : Int) :
    Finds (getStepObjectives data stepId) s (stepObjectives data stepId) := by
  refine (finds_getGameData _ _).attempt.bind ?_
  rw [Option.join_some, stepObjectives]
  cases (data.objects "QuestSteps").lookup stepId with
  | none => exact .pure _
  | some step => exact finds_getObjectives _

/-- One of the objectives asks to talk to the character. -/
def anyTalks (data : GameData) (npcId : Int) (ids : List Value) : Bool :=
  ids.any fun v => ((data.objects "QuestObjectives").lookup ((asI32 v).getD 0)).any (talksTo npcId)

theorem finds_asksToTalk (ids : List Value) : Finds (asksToTalk data npcId ids) s (anyTalks data npcId ids) := by
  induction ids with
  | nil => exact .pure _
  | cons v ids ih =>
    refine (finds_getGameData _ _).attempt.bind ?_
    rw [Option.join_some, anyTalks, List.any_cons]
    cases (data.objects "QuestObjectives").lookup ((asI32 v).getD 0) with
    | none => exact ih
    | some object =>
      dsimp only [Option.any_some]
      cases htalks : talksTo npcId object with
      | true => exact .pure _
      | false => exact ih

/-- The first step of the quest asks to talk to the character. -/
def offered (data : GameData) (npcId : Int) (quest : Value) : Bool :=
  (firstStepId quest).any fun stepId =>
    ((data.objects "QuestSteps").lookup stepId).any fun step => anyTalks data npcId (objectiveValues step)

theorem finds_startsAt (quest : Value) : Finds (startsAt data npcId quest) s (offered data npcId quest) := by
  unfold startsAt offered
  cases firstStepId quest with
  | none => exact .pure _
  | some stepId =>
    refine (finds_getGameData _ _).attempt.bind ?_
    rw [Option.join_some, Option.any_some]
    cases (data.objects "QuestSteps").lookup stepId with
    | none => exact .pure _
    | some step => exact finds_asksToTalk _

/-- The quest is shown as one that can be started. -/
def Shown (data : GameData) (ctx : Criterion.CriterionContext) (npcId : Int) (p : Int × Value) : Prop :=
  ¬(p.1 ∈ ctx.activeQuestIds ∨ p.1 ∈ ctx.completedQuestIds) ∧
    Criterion.evaluate (startCriterion p.2) ctx = .ok true ∧ offered data npcId p.2 = true

instance (ctx : Criterion.CriterionContext) (p : Int × Value) : Decidable (Shown data ctx npcId p) :=
  inferInstanceAs (Decidable (_ ∧ _ ∧ _))

theorem succeeds_questsToStart (ctx : Criterion.CriterionContext) (quests : List (Int × Value)) :
    Succeeds (questsToStart data ctx npcId quests) s fun r s' _ => s' = s ∧ ∀ ids, r = .ok ids →
      ids = (quests.filter fun p => Shown data ctx npcId p).map fun p => wrap16 p.1 := by
  induction quests with
  | nil => exact .pure ⟨rfl, fun ids h => (Outcome.ok.inj h).symm⟩
  | cons p quests ih =>
    obtain ⟨questId, quest⟩ := p
    have hskip (hnot : ¬Shown data ctx npcId (questId, quest)) :
        ((questId, quest) :: quests).filter (fun p => Shown data ctx npcId p) =
          quests.filter fun p => Shown data ctx npcId p := List.filter_cons_of_neg (by simpa using hnot)
    rw [questsToStart]
    by_cases htaken : questId ∈ ctx.activeQuestIds ∨ questId ∈ ctx.completedQuestIds
    · rw [if_pos htaken, hskip fun h => h.1 htaken]
      exact ih
    rw [if_neg htaken]
    cases hholds : Criterion.evaluate (startCriterion quest) ctx with
    | ok b =>
      cases b with
      | false =>
        rw [hskip fun h => absurd (hholds.symm.trans h.2.1) (by simp)]
        exact ih
      | true =>
        refine (finds_startsAt quest).before (.bind (ih.mono fun r s' u h => ?_))
        obtain ⟨rfl, hr⟩ := h
        refine .pure ⟨rfl, fun ids hids => ?_⟩
        cases hoffered : offered data npcId quest with
        | false =>
          rw [hoffered, if_neg (by decide)] at hids
          rw [hskip fun h => absurd (hoffered.symm.trans h.2.2) (by decide)]
          exact hr ids hids
        | true =>
          rw [hoffered, if_pos rfl] at hids
          obtain ⟨rest, hrest, hids⟩ := Outcome.bind_eq_ok.1 hids
          rw [List.filter_cons_of_pos (by simpa using ⟨htaken, hholds, hoffered⟩), List.map_cons, ← hr rest hrest]
          exact (Outcome.ok.inj hids).symm
    | _ => exact .pure ⟨rfl, fun ids h => by cases h⟩

end

/-! ### With failures -/

/-- Whichever calls fail, a result satisfies `R`, and the state stays. -/
def Yields {α : Type} (p : Handler α) (s : Stored) (R : α → Prop) : Prop :=
  Triple (fun s' _ => s' = s) p (fun a s' _ => R a ∧ s' = s) fun s' _ => s' = s

namespace Yields

variable {α β : Type} {p : Handler α} {k : α → Handler β} {s : Stored} {R R' : α → Prop} {S : β → Prop}

protected theorem pure {a : α} (h : R a) : Yields (pure a) s R := Triple.pure fun _ _ hs => ⟨h, hs⟩

protected theorem bind (hp : Yields p s R) (hk : ∀ a, R a → Yields (k a) s S) : Yields (p >>= k) s S :=
  Triple.bind hp fun a => .of_imp (hk a)

protected theorem attempt (hp : Yields p s R) : Yields (attempt p) s fun r => ∀ a, r = some a → R a := by
  refine Triple.attempt (Triple.mono hp (fun _ _ hs => hs) (fun a s' _ h => ⟨?_, h.2⟩) fun s' _ hs => ⟨?_, hs⟩)
  · rintro b hb
    obtain rfl := Option.some.inj hb
    exact h.1
  · rintro b hb
    cases hb

theorem mono (hp : Yields p s R) (h : ∀ a, R a → R' a) : Yields p s R' :=
  Triple.mono hp (fun _ _ hs => hs) (fun a _ _ ha => ⟨h a ha.1, ha.2⟩) fun _ _ hs => hs

/-- A call that only reads. -/
theorem call_bind {c : Call} (hc : act s c = s) {k : Unit → Handler β} (hk : Yields (k ()) s S) :
    Yields (call c >>= k) s S := by
  refine Triple.bind (Q := fun _ s' _ => s' = s) (Triple.call (fun s' _ hs => ?_) fun _ _ hs => hs) fun _ => hk
  rw [hs]
  exact hc

theorem read_bind {γ : Type} {f : Stored → γ} {k : γ → Handler β} (hk : Yields (k (f s)) s S) :
    Yields (read f >>= k) s S := by
  intro stage hs
  rw [Fallible.read_bind, hs]
  exact hk stage hs

end Yields

section

variable {data : GameData} {s : Stored} {npcId : Int}

theorem yields_getGameData (fileName : String) (objectId : Int) :
    Yields (getGameData data fileName objectId) s (· = (data.objects fileName).lookup objectId) :=
  .call_bind rfl (.pure rfl)

theorem yields_getActiveQuests (order : List CharacterQuest) :
    Yields (getActiveQuests order) s (· = s.activeIn order) := .call_bind rfl (.read_bind (.pure rfl))

theorem yields_getCompletedQuestIds : Yields getCompletedQuestIds s (· = s.completedIds) :=
  .call_bind rfl (.read_bind (.pure rfl))

theorem yields_getCharacterRow : Yields getCharacterRow s (· = s.row) := .call_bind rfl fun _ hs =>
    ⟨congrArg _ hs, hs⟩

theorem yields_getAllObjects (fileName : String) :
    Yields (getAllObjects data fileName) s (· = data.objects fileName) :=
  .call_bind rfl (.pure rfl)

theorem yields_asksToTalk (ids : List Value) :
    Yields (asksToTalk data npcId ids) s fun b => b = true → anyTalks data npcId ids = true := by
  induction ids with
  | nil => exact .pure fun h => h
  | cons v ids ih =>
    have hrest : Yields (asksToTalk data npcId ids) s fun b => b = true → anyTalks data npcId (v :: ids) = true := by
      refine ih.mono fun b hb h => ?_
      rw [anyTalks, List.any_cons, Bool.or_eq_true]
      exact .inr (hb h)
    refine (yields_getGameData _ _).attempt.bind fun found hfound => ?_
    cases hjoin : found.join with
    | none => exact hrest
    | some object =>
      have hobject := hfound _ (Option.join_eq_some_iff.1 hjoin)
      dsimp only
      split
      · rename_i htalks
        refine .pure fun _ => ?_
        rw [anyTalks, List.any_cons, ← hobject, Option.any_some, htalks, Bool.true_or]
      · exact hrest

theorem yields_startsAt (quest : Value) :
    Yields (startsAt data npcId quest) s fun b => b = true → offered data npcId quest = true := by
  unfold startsAt offered
  cases firstStepId quest with
  | none => exact .pure fun h => h
  | some stepId =>
    refine (yields_getGameData _ _).attempt.bind fun found hfound => ?_
    cases hjoin : found.join with
    | none => exact .pure fun h => by cases h
    | some step =>
      rw [Option.any_some, ← hfound _ (Option.join_eq_some_iff.1 hjoin), Option.any_some]
      exact yields_asksToTalk _

theorem yields_questsToStart (ctx : Criterion.CriterionContext) (quests : List (Int × Value)) :
    Yields (questsToStart data ctx npcId quests) s fun r => ∀ ids, r = .ok ids → ∀ x ∈ ids, ∃ p ∈ quests,
      x = wrap16 p.1 ∧ offered data npcId p.2 = true := by
  induction quests with
  | nil =>
    refine .pure fun ids h => ?_
    obtain rfl := Outcome.ok.inj h
    exact fun x hx => absurd hx List.not_mem_nil
  | cons p quests ih =>
    obtain ⟨questId, quest⟩ := p
    have hrest : Yields (questsToStart data ctx npcId quests) s fun r => ∀ ids, r = .ok ids → ∀ x ∈ ids,
        ∃ p ∈ (questId, quest) :: quests, x = wrap16 p.1 ∧ offered data npcId p.2 = true := by
      refine ih.mono fun r hr ids hids x hx => ?_
      obtain ⟨p, hp, hx⟩ := hr ids hids x hx
      exact ⟨p, List.mem_cons_of_mem _ hp, hx⟩
    rw [questsToStart]
    split
    · exact hrest
    · split
      · refine (yields_startsAt quest).bind fun starts hstarts => hrest.bind fun rest hrest =>
          .pure fun ids hids => ?_
        split at hids
        · rename_i hstart
          obtain ⟨others, hothers, hids⟩ := Outcome.bind_eq_ok.1 hids
          obtain rfl := Outcome.ok.inj hids
          intro x hx
          rcases List.mem_cons.1 hx with rfl | hx
          · exact ⟨_, List.mem_cons_self, rfl, hstarts hstart⟩
          · exact hrest others hothers x hx
        · exact hrest ids hids
      · exact hrest
      all_goals exact .pure fun ids h => by cases h

/-- Whatever fails, the quests that are told to go on at the character are none or those that do, and those that are
told to start there begin with a talk with it. -/
theorem flags_of_failures (order : List CharacterQuest) (breedId sex : Int) :
    Yields (computeNpcQuestFlags data order breedId sex npcId) s fun r =>
      ∀ toStart toValid, r = .ok (toStart, toValid) → (toValid = [] ∨ toValid = validIds npcId (s.activeIn order)) ∧
        ∀ x ∈ toStart, ∃ p ∈ data.objects "Quests", x = wrap16 p.1 ∧ offered data npcId p.2 = true := by
  refine yields_getCompletedQuestIds.attempt.bind fun completed _ => ?_
  refine (yields_getActiveQuests order).attempt.bind fun active hactive => ?_
  refine yields_getCharacterRow.attempt.bind fun row _ => ?_
  cases row.join with
  | none =>
    refine .pure fun toStart toValid h => ?_
    obtain ⟨rfl, rfl⟩ := Prod.mk.inj (Outcome.ok.inj h)
    exact ⟨.inl rfl, fun x hx => absurd hx List.not_mem_nil⟩
  | some row =>
    refine (yields_getAllObjects "Quests").attempt.bind fun allQuests hall => ?_
    refine (yields_questsToStart _ _).bind fun r hr => .pure fun toStart toValid h => ?_
    obtain ⟨ids, hids, h⟩ := Outcome.bind_eq_ok.1 h
    obtain ⟨rfl, rfl⟩ := Prod.mk.inj (Outcome.ok.inj h)
    refine ⟨?_, fun x hx => ?_⟩
    · cases active with
      | none => exact .inl rfl
      | some quests =>
        rw [← hactive quests rfl]
        exact .inr rfl
    · obtain ⟨p, hp, hx⟩ := hr ids hids x hx
      cases allQuests with
      | none => exact absurd hp List.not_mem_nil
      | some quests =>
        rw [hall quests rfl] at hp
        exact ⟨p, hp, hx⟩

end

/-! ### What the flags tell -/

/-- What a criterion is evaluated in. -/
def Stored.context (s : Stored) (order : List CharacterQuest) (breedId sex : Int) (row : Row) :
    Criterion.CriterionContext where
  level := row.sheet.level
  breedId := breedId
  sex := sex
  completedQuestIds := s.completedIds
  activeQuestIds := (s.activeIn order).map CharacterQuest.questId

/-- The quest as it is stored when it is started. -/
def startedQuest (data : GameData) (questId : Int) (quest : Value) : CharacterQuest where
  questId := questId
  stepId := (firstStepId quest).getD 0
  finished := false
  objectives := stepObjectives data ((firstStepId quest).getD 0)

/-- The first step of the quest and the types of its objectives are numbers. -/
def Typed (data : GameData) (quest : Value) : Prop :=
  ∃ stepId, firstStepId quest = some stepId ∧ ∀ step, (data.objects "QuestSteps").lookup stepId = some step →
    ∀ v ∈ objectiveValues step, ∀ object,
      (data.objects "QuestObjectives").lookup ((asI32 v).getD 0) = some object →
        ((object.get? "typeId").bind asI32).isSome = true

section

variable {data : GameData} {s : Stored} {npcId : Int}

theorem finds_getCompletedQuestIds : Finds getCompletedQuestIds s s.completedIds :=
  Succeeds.bind (.call (.bind (.read (.pure ⟨rfl, rfl⟩))))

theorem finds_getCharacterRow : Finds getCharacterRow s s.row :=
  Succeeds.bind (.call (.read ⟨rfl, rfl⟩))

theorem finds_getAllObjects (fileName : String) : Finds (getAllObjects data fileName) s (data.objects fileName) :=
  Succeeds.bind (.call (.pure ⟨rfl, rfl⟩))

theorem succeeds_computeNpcQuestFlags (order : List CharacterQuest) (breedId sex : Int) :
    Succeeds (computeNpcQuestFlags data order breedId sex npcId) s fun r _ _ => ∀ now, s.row = some now →
      ∀ toStart toValid, r = .ok (toStart, toValid) →
        toValid = validIds npcId (s.activeIn order) ∧
        toStart = ((data.objects "Quests").filter fun p => Shown data (s.context order breedId sex now) npcId p).map
          fun p => wrap16 p.1 := by
  refine finds_getCompletedQuestIds.attempt.before ((finds_getActiveQuests order).attempt.before ?_)
  refine finds_getCharacterRow.attempt.before ?_
  rw [Option.join_some]
  cases hrow : s.row with
  | none => exact .pure fun now hnow => by cases hnow
  | some row =>
    refine (finds_getAllObjects "Quests").attempt.before
      (.bind ((succeeds_questsToStart _ _).mono fun r s' u h => ?_))
    obtain ⟨rfl, hr⟩ := h
    refine .pure fun now hnow toStart toValid hok => ?_
    obtain rfl := Option.some.inj hnow
    obtain ⟨ids, hids, hok⟩ := Outcome.bind_eq_ok.1 hok
    obtain ⟨rfl, rfl⟩ := Prod.mk.inj (Outcome.ok.inj hok)
    exact ⟨rfl, hr ids hids⟩

theorem validIds_cons_of_valid {quest : CharacterQuest} (h : quest.validAt npcId = true)
    (rest : List CharacterQuest) :
    validIds npcId (quest :: rest) = wrap16 quest.questId :: validIds npcId rest := by
  rw [validIds, List.filter_cons_of_pos h]
  rfl

theorem validIds_cons_of_not_valid {quest : CharacterQuest} (h : quest.validAt npcId = false)
    (rest : List CharacterQuest) : validIds npcId (quest :: rest) = validIds npcId rest := by
  rw [validIds, List.filter_cons_of_neg (by rw [h]; decide)]
  rfl

/-- Talking to the character validates an objective of each quest that can go on there, and of no other. -/
theorem succeeds_talk (order : List CharacterQuest) :
    Succeeds (checkTalkToNpcObjective data order npcId) s fun _ _ u =>
      told u = validIds npcId (s.activeIn order) := by
  have hactive : Succeeds (getActiveQuests order) s fun active s' u => active = s.activeIn order ∧ told u = [] :=
    .bind (.call (.bind (.read (.pure ⟨rfl, rfl⟩))))
  refine .bind (hactive.mono fun active s' u h => ?_)
  obtain ⟨rfl, hu⟩ := h
  -- what has been told so far, and what the rest of the loop will tell
  refine (Succeeds.forM (J := fun rest _ u => told u ++ validIds npcId rest = validIds npcId (s.activeIn order))
    (fun quest rest s' u hJ => ?_) (by rw [hu]; rfl)).mono fun _ _ v hv => ?_
  · have hvalid : quest.validAt npcId = (quest.objectives.find? fun o =>
        o.type = Objective.talkToNpc ∧ o.param0 = npcId ∧ !o.completed).isSome := by
      rw [Bool.eq_iff_iff, CharacterQuest.validAt, List.any_eq_true, List.find?_isSome]
    split
    · rename_i hnone
      rw [hnone] at hvalid
      rw [validIds_cons_of_not_valid hvalid] at hJ
      exact .pure hJ
    · rename_i o hsome
      rw [hsome] at hvalid
      rw [validIds_cons_of_valid hvalid] at hJ
      refine .bind (.call ((Succeeds.of_makes (makes_completeStepIfDone _ _ _)).mono fun _ s'' v hv => ?_))
      rw [told_append, told_append, told_of_quiet hv, List.append_nil, ← hJ, List.append_assoc]
      rfl
  · have hend : told (v ++ u) ++ validIds npcId [] = validIds npcId (s.activeIn order) := hv
    rw [← hend, told_append, hu]
    exact (List.append_nil _).symm

theorem succeeds_startQuest {questId : Int} {quest : Value}
    (hquest : (data.objects "Quests").lookup questId = some quest) (hnone : s.quests.lookup questId = none) :
    Succeeds (startQuest data questId) s fun _ s' _ =>
      s'.quests.lookup questId = some (startedQuest data questId quest) := by
  refine (finds_getFirstStepId questId).before ((finds_getStepObjectives _).before ?_)
  refine .bind (.call (.bind (.call (.call ?_))))
  rw [hquest, Option.bind_some]
  show (act s (Call.startQuest questId ((firstStepId quest).getD 0)
    (stepObjectives data ((firstStepId quest).getD 0)))
    ).quests.lookup questId = _
  have hmem : questId ∉ s.quests := AList.lookup_eq_none.1 hnone
  show (if questId ∈ s.quests then s else { s with quests := s.quests.insert questId _ }).quests.lookup questId = _
  rw [if_neg hmem]
  exact AList.lookup_insert s.quests

theorem mem_objectivesOf {ids : List Value} {o : Objective} : o ∈ objectivesOf data ids ↔ ∃ v ∈ ids, ∃ object,
    (data.objects "QuestObjectives").lookup ((asI32 v).getD 0) = some object ∧
      newObjective ((asI32 v).getD 0) object = o := by
  simp only [objectivesOf, List.mem_filterMap, Option.map_eq_some_iff]

/-- An objective that asks to talk to the character is stored as one. -/
theorem newObjective_of_talksTo {object : Value} (h : talksTo npcId object = true) (objectiveId : Int) :
    (newObjective objectiveId object).type = Objective.talkToNpc ∧
      (newObjective objectiveId object).param0 = npcId := by
  obtain ⟨htype, hparam⟩ := of_decide_eq_true h
  refine ⟨?_, hparam⟩
  show ((object.get? "typeId").bind asI32).getD 0 = _
  -- a missing type is stored as 0, which is the type of a talk
  cases hvalue : (object.get? "typeId").bind asI32 with
  | none => rfl
  | some type =>
    rw [hvalue] at htype
    exact htype

theorem talksTo_of_newObjective {object : Value} (htyped : ((object.get? "typeId").bind asI32).isSome = true)
    {objectiveId : Int} (htype : (newObjective objectiveId object).type = Objective.talkToNpc)
    (hparam : (newObjective objectiveId object).param0 = npcId) : talksTo npcId object = true := by
  refine decide_eq_true ⟨?_, hparam⟩
  obtain ⟨type, hvalue⟩ := Option.isSome_iff_exists.1 htyped
  have hnew : ((object.get? "typeId").bind asI32).getD 0 = Objective.talkToNpc := htype
  rw [hvalue] at hnew ⊢
  exact hnew

/-- A quest that is offered can go on at the character once it is started. -/
theorem validAt_startedQuest {quest : Value} (questId : Int) (h : offered data npcId quest = true) :
    (startedQuest data questId quest).validAt npcId = true := by
  obtain ⟨stepId, hfirst, h⟩ := (Option.any_eq_true _ _).1 h
  obtain ⟨step, hstep, h⟩ := (Option.any_eq_true _ _).1 h
  obtain ⟨v, hv, h⟩ := List.any_eq_true.1 h
  obtain ⟨object, hobject, h⟩ := (Option.any_eq_true _ _).1 h
  obtain ⟨htype, hparam⟩ := newObjective_of_talksTo h ((asI32 v).getD 0)
  refine List.any_eq_true.2 ⟨newObjective ((asI32 v).getD 0) object, ?_, decide_eq_true ⟨htype, hparam, rfl⟩⟩
  show _ ∈ stepObjectives data ((firstStepId quest).getD 0)
  rw [hfirst, Option.getD_some, stepObjectives, hstep]
  exact mem_objectivesOf.2 ⟨v, hv, object, hobject, rfl⟩

theorem offered_of_validAt {questId : Int} {quest : Value} (htyped : Typed data quest)
    (h : (startedQuest data questId quest).validAt npcId = true) : offered data npcId quest = true := by
  obtain ⟨stepId, hfirst, htypes⟩ := htyped
  obtain ⟨o, ho, htalk⟩ := List.any_eq_true.1 h
  obtain ⟨htype, hparam, -⟩ := of_decide_eq_true htalk
  have hmem : o ∈ stepObjectives data stepId := by
    have hstarted : o ∈ stepObjectives data ((firstStepId quest).getD 0) := ho
    rw [hfirst] at hstarted
    exact hstarted
  unfold stepObjectives at hmem
  cases hstep : (data.objects "QuestSteps").lookup stepId with
  | none =>
    rw [hstep] at hmem
    exact absurd hmem List.not_mem_nil
  | some step =>
    rw [hstep] at hmem
    obtain ⟨v, hv, object, hobject, rfl⟩ := mem_objectivesOf.1 hmem
    refine (Option.any_eq_true _ _).2 ⟨stepId, hfirst, (Option.any_eq_true _ _).2 ⟨step, hstep, ?_⟩⟩
    refine List.any_eq_true.2 ⟨v, hv, (Option.any_eq_true _ _).2 ⟨object, hobject, ?_⟩⟩
    exact talksTo_of_newObjective (htypes step hstep v hv object hobject) htype hparam

theorem lookup_object {objects : List (Int × Value)} (h : (objects.map Prod.fst).Nodup) {questId : Int}
    {quest : Value}
    (hmem : (questId, quest) ∈ objects) : objects.lookup questId = some quest := by
  obtain ⟨before, after, rfl⟩ := List.append_of_mem hmem
  rw [List.map_append, List.map_cons] at h
  refine List.lookup_eq_some_iff.2 ⟨before, after, rfl, fun p hp => bne_iff_ne.2 ?_⟩
  rintro rfl
  exact (List.nodup_append.1 h).2.2 _ (List.mem_map.2 ⟨p, hp, rfl⟩) _ List.mem_cons_self rfl

end

/-- What the flags of a character tell of its quests. -/
structure Tells (data : GameData) (s : Stored) (order : List CharacterQuest) (ctx : Criterion.CriterionContext)
    (npcId : Int) (toStart toValid : List Int) : Prop where
  /-- When the player talks to the character, an objective of these quests is validated, in this order. -/
  valid : told (checkTalkToNpcObjective data order npcId ⟨s, [], []⟩).2.calls = toValid
  /-- A quest that is shown can be started, and can then go on at the character. -/
  start : ∀ x ∈ toStart, ∃ questId quest, x = wrap16 questId ∧ (questId, quest) ∈ data.objects "Quests" ∧
    s.quests.lookup questId = none ∧ Criterion.evaluate (startCriterion quest) ctx = .ok true ∧
    ∃ started, (startQuest data questId ⟨s, [], []⟩).2.state.quests.lookup questId = some started ∧
      started.finished = false ∧ started.validAt npcId = true
  /-- Each such quest is shown. -/
  shown : ∀ questId quest, (questId, quest) ∈ data.objects "Quests" → Typed data quest →
    s.quests.lookup questId = none → Criterion.evaluate (startCriterion quest) ctx = .ok true →
    (∃ started, (startQuest data questId ⟨s, [], []⟩).2.state.quests.lookup questId = some started ∧
      started.validAt npcId = true) → wrap16 questId ∈ toStart

theorem tells {data : GameData} (hdata : ((data.objects "Quests").map Prod.fst).Nodup) {s : Stored} (hs : s.Keyed)
    (order : List CharacterQuest) (breedId sex npcId : Int) {now : Row} (hrow : s.row = some now)
    {toStart toValid : List Int}
    (h : (computeNpcQuestFlags data order breedId sex npcId ⟨s, [], []⟩).1 = some (.ok (toStart, toValid))) :
    Tells data s order (s.context order breedId sex now) npcId toStart toValid := by
  -- the flags, the talk and the start are three runs from the same state
  obtain ⟨r, s', u, hrun, hflags⟩ := @succeeds_computeNpcQuestFlags data s npcId order breedId sex []
  rw [hrun] at h
  obtain rfl := Option.some.inj h
  obtain ⟨rfl, rfl⟩ := hflags now hrow toStart toValid rfl
  have hstart {questId : Int} {quest : Value} (hmem : (questId, quest) ∈ data.objects "Quests")
      (hnone : s.quests.lookup questId = none) :
      (startQuest data questId ⟨s, [], []⟩).2.state.quests.lookup questId =
        some (startedQuest data questId quest) := by
    obtain ⟨_, s'', v, hrun', hlookup⟩ := succeeds_startQuest (lookup_object hdata hmem) hnone []
    rw [hrun']
    exact hlookup
  refine ⟨?_, fun x hx => ?_, fun questId quest hmem htyped hnone hholds hvalid => ?_⟩
  · obtain ⟨_, s'', v, hrun', htold⟩ := @succeeds_talk data s npcId order []
    rw [hrun', ← htold, List.append_nil]
  · obtain ⟨p, hp, rfl⟩ := List.mem_map.1 hx
    obtain ⟨hmem, hshown⟩ := List.mem_filter.1 hp
    obtain ⟨hfree, hholds, hoffered⟩ := of_decide_eq_true hshown
    have hnone := (notMem_iff hs order p.1).1 hfree
    exact ⟨p.1, p.2, rfl, hmem, hnone, hholds, _, hstart hmem hnone, rfl, validAt_startedQuest p.1 hoffered⟩
  · obtain ⟨started, hlookup, hvalid⟩ := hvalid
    rw [hstart hmem hnone] at hlookup
    obtain rfl := Option.some.inj hlookup
    refine List.mem_map.2 ⟨(questId, quest), List.mem_filter.2 ⟨hmem, decide_eq_true ⟨?_, hholds, ?_⟩⟩, rfl⟩
    · exact (notMem_iff hs order questId).2 hnone
    · exact offered_of_validAt htyped hvalid

/-- After any history, with whatever failures, the flags that are computed without one tell what talking to the
character and starting its quests would do. -/
theorem flags_tell (data : GameData) (hdata : ((data.objects "Quests").map Prod.fst).Nodup) (row : Option Row)
    (kamas : Int) (items : List (Int × Int)) (os : List Occasion) (order : List CharacterQuest)
    (breedId sex npcId : Int) {now : Row} (hrow : ((World.start row kamas items).run data os).stored.row = some now)
    {toStart toValid : List Int}
    (h : (computeNpcQuestFlags data order breedId sex npcId
      ⟨((World.start row kamas items).run data os).stored, [], []⟩).1 = some (.ok (toStart, toValid))) :
    Tells data ((World.start row kamas items).run data os).stored order
      (((World.start row kamas items).run data os).stored.context order breedId sex now) npcId toStart toValid := by
  have hkeyed : (World.start row kamas items).stored.Keyed := fun questId quest hquest => by cases hquest
  exact tells hdata (keyed_run hkeyed os) order breedId sex npcId hrow h

/-- Two quests that start with a talk with the character 5; the second one can be started from level 1 on. -/
def guide : GameData where
  objects
    | "Quests" =>
      [(1, .object [("stepIds", .array [.number (.posInt 10)])]),
        (2, .object [("startCriterion", .string "PL>0"), ("stepIds", .array [.number (.posInt 10)])])]
    | "QuestSteps" => [(10, .object [("objectiveIds", .array [.number (.posInt 100)])])]
    | "QuestObjectives" =>
      [(100, .object [("typeId", .number (.posInt 0)),
        ("parameters", .object [("parameter0", .number (.posInt 5))])])]
    | _ => []

theorem flags_tell_guide :
    let s := ((World.start (some (.novice 0 0)) 0 []).run guide [⟨.start 1, [], []⟩]).stored
    Tells guide s [] (s.context [] 1 0 (.novice 0 0)) 5 [2] [1] :=
  flags_tell guide (by decide) (some (.novice 0 0)) 0 [] [⟨.start 1, [], []⟩] [] 1 0 5 rfl rfl

/-- An objective of the errand has no type: it is stored as one that asks to talk, but the flags do not show it. -/
example : (computeNpcQuestFlags errand [] 1 0 5 ⟨(World.start (some (.novice 0 0)) 0 []).stored, [], []⟩).1 =
    some (.ok ([], [])) := rfl

example : (computeNpcQuestFlags errand [] 1 0 5
    ⟨((World.start (some (.novice 0 0)) 0 []).run errand [⟨.start 1, [], []⟩]).stored, [], []⟩).1 =
      some (.ok ([], [1])) := rfl

end Otomai.Quests
