import Otomai.Quests.State

/-!
# Steps of quests

The steps of a quest are listed with it, and it goes from one to the next.  As long as none is listed twice, it never
returns to a step that it has left.

* `precedes_next`: the current step, and what precedes it, precede the next one.
* `triple_getNextStepId`, `triple_getActiveQuests`: what the handlers read of the data and of the quests.
-/

namespace Otomai.Quests

open Machine Otomai.DataReader Otomai.Handlers Fallible Trace

/-- The calls that were made, the latest first, with whether they succeeded. -/
abbrev Record := List (Call × Bool)

/-! ### Steps -/

/-- The steps of a quest, as they are listed. -/
def questSteps (data : GameData) (questId : Int) : List Value :=
  (((data.objects "Quests").lookup questId).bind stepIds).getD []

/-- The id of a step of the list. -/
def stepAt (steps : List Value) (i : Nat) : Option Int := steps[i]?.bind asI32

/-- No step is listed twice for a quest. -/
def DistinctSteps (data : GameData) : Prop :=
  ∀ questId i j stepId, stepAt (questSteps data questId) i = some stepId →
    stepAt (questSteps data questId) j = some stepId →
    i = j

/-- One step is listed before another one. -/
def Precedes (steps : List Value) (earlier later : Int) : Prop :=
  ∃ i j, i < j ∧ stepAt steps i = some earlier ∧ stepAt steps j = some later

theorem wrap32_wrap32 (x : Int) : wrap32 (wrap32 x) = wrap32 x :=
  wrap32_of_range (wrap32_range x).1 (wrap32_range x).2

theorem wrap32_of_asI32 {v : Value} {x : Int} (h : asI32 v = some x) : wrap32 x = x := by
  obtain ⟨y, -, rfl⟩ := Option.map_eq_some_iff.1 h
  exact wrap32_wrap32 y

/-- The next step is listed right after the current one. -/
theorem nextStep_eq_some {steps : List Value} {current next : Int} (h : nextStep steps current = some next)
    (hcurrent : wrap32 current = current) :
    ∃ i, stepAt steps i = some current ∧ stepAt steps (i + 1) = some next := by
  obtain ⟨i, hi, hnext⟩ := Option.bind_eq_some_iff.1 h
  refine ⟨i, ?_, hnext⟩
  obtain ⟨hlt, hfound, -⟩ := List.findIdx?_eq_some_iff_getElem.1 hi
  rw [stepAt, List.getElem?_eq_getElem hlt, Option.bind_some, asI32, of_decide_eq_true hfound,
    Option.map_some, hcurrent]

theorem not_precedes_self {data : GameData} (hdata : DistinctSteps data) (questId stepId : Int) :
    ¬Precedes (questSteps data questId) stepId stepId := by
  rintro ⟨i, j, hlt, hi, hj⟩
  exact absurd (hdata questId i j stepId hi hj) (Nat.ne_of_lt hlt)

/-- What precedes the current step precedes the next one too, and so does the current step itself. -/
theorem precedes_next {data : GameData} (hdata : DistinctSteps data) {questId current next stepId : Int}
    (h : nextStep (questSteps data questId) current = some next) (hcurrent : wrap32 current = current)
    (hstep : stepId = current ∨ Precedes (questSteps data questId) stepId current) :
    Precedes (questSteps data questId) stepId next := by
  obtain ⟨i, hi, hnext⟩ := nextStep_eq_some h hcurrent
  rcases hstep with rfl | ⟨k, j, hlt, hk, hj⟩
  · exact ⟨i, i + 1, Nat.lt_succ_self i, hi, hnext⟩
  · obtain rfl := hdata questId i j current hi hj
    exact ⟨k, i + 1, Nat.lt_succ_of_lt hlt, hk, hnext⟩

theorem wrap32_of_nextStep {steps : List Value} {current next : Int} (h : nextStep steps current = some next) :
    wrap32 next = next := by
  obtain ⟨i, -, hnext⟩ := Option.bind_eq_some_iff.1 h
  obtain ⟨v, -, hv⟩ := Option.bind_eq_some_iff.1 hnext
  exact wrap32_of_asI32 hv

/-! ### What is stored -/

/-- Every quest is stored under its id, at a step whose id has thirty-two bits. -/
def Stored.Filed (s : Stored) : Prop :=
  ∀ questId quest, s.quests.lookup questId = some quest → quest.questId = questId ∧ wrap32 quest.stepId = quest.stepId

/-- The quest is past a step: it is finished, or at a later one. -/
def Stored.IsPast (s : Stored) (data : GameData) (questId stepId : Int) : Prop :=
  ∃ quest, s.quests.lookup questId = some quest ∧
    (quest.finished = true ∨ Precedes (questSteps data questId) stepId quest.stepId)

/-- The quests are stored as they were read. -/
def Waits (quests : List CharacterQuest) (s : Stored) : Prop :=
  ∀ quest ∈ quests, s.quests.lookup quest.questId = some quest

/-- Active quests, each of which is listed once. -/
structure Listed (quests : List CharacterQuest) : Prop where
  active : ∀ quest ∈ quests, quest.finished = false
  distinct : (quests.map CharacterQuest.questId).Nodup

section

variable {s : Stored} {questId : Int} {quest : CharacterQuest} {f : CharacterQuest → CharacterQuest}
  {quests : List CharacterQuest}

theorem lookup_updateQuest (h : s.quests.lookup questId = some quest) :
    (s.updateQuest questId f).quests.lookup questId = some (f quest) := by
  unfold Stored.updateQuest
  rw [h]
  exact AList.lookup_insert s.quests

theorem lookup_updateQuest_of_ne {other : Int} (h : other ≠ questId) :
    (s.updateQuest questId f).quests.lookup other = s.quests.lookup other := by
  unfold Stored.updateQuest
  split
  · exact AList.lookup_insert_ne h
  · rfl

theorem Stored.Filed.updateQuest (hs : s.Filed) (hquest : s.quests.lookup questId = some quest)
    (hid : (f quest).questId = quest.questId) (hstep : wrap32 (f quest).stepId = (f quest).stepId) :
    (s.updateQuest questId f).Filed := by
  intro other quest' h
  by_cases heq : other = questId
  · subst heq
    rw [lookup_updateQuest hquest] at h
    obtain rfl := Option.some.inj h
    exact ⟨hid.trans (hs other quest hquest).1, hstep⟩
  · rw [lookup_updateQuest_of_ne heq] at h
    exact hs other quest' h

/-- The other quests wait while one of them is changed. -/
theorem Waits.updateQuest (h : Waits quests s) (hother : ∀ quest ∈ quests, quest.questId ≠ questId) :
    Waits quests (s.updateQuest questId f) := by
  intro quest hquest
  rw [lookup_updateQuest_of_ne (hother quest hquest)]
  exact h quest hquest

/-- A quest that is stored already is not started again. -/
theorem lookup_startQuest {stepId other : Int} {objectives : List Objective}
    (h : (act s (Call.startQuest questId stepId objectives)).quests.lookup other = some quest) :
    s.quests.lookup other = some quest ∨ other = questId ∧ quest =
      { questId, stepId, finished := false, objectives } := by
  by_cases hmem : questId ∈ s.quests
  · have hact : act s (Call.startQuest questId stepId objectives) = s := if_pos hmem
    rw [hact] at h
    exact .inl h
  · have hact : (act s (Call.startQuest questId stepId objectives)).quests =
        s.quests.insert questId { questId, stepId, finished := false, objectives } :=
          congrArg Stored.quests (if_neg hmem)
    rw [hact] at h
    by_cases hother : other = questId
    · subst hother
      rw [AList.lookup_insert] at h
      exact .inr ⟨rfl, (Option.some.inj h).symm⟩
    · rw [AList.lookup_insert_ne hother] at h
      exact .inl h

theorem lookup_startQuest_of_some {stepId other : Int} {objectives : List Objective}
    (h : s.quests.lookup other = some quest) :
    (act s (Call.startQuest questId stepId objectives)).quests.lookup other = some quest := by
  by_cases hmem : questId ∈ s.quests
  · have hact : act s (Call.startQuest questId stepId objectives) = s := if_pos hmem
    rw [hact]
    exact h
  · have hact : (act s (Call.startQuest questId stepId objectives)).quests =
        s.quests.insert questId { questId, stepId, finished := false, objectives } :=
          congrArg Stored.quests (if_neg hmem)
    have hother : other ≠ questId := by
      rintro rfl
      rw [AList.lookup_eq_none.2 hmem] at h
      cases h
    rw [hact, AList.lookup_insert_ne hother]
    exact h

theorem Stored.Filed.startQuest (hs : s.Filed) {stepId : Int} {objectives : List Objective}
    (hstep : wrap32 stepId = stepId) :
    (act s (Call.startQuest questId stepId objectives)).Filed := by
  intro other quest' h
  rcases lookup_startQuest h with hold | ⟨rfl, rfl⟩
  · exact hs other quest' hold
  · exact ⟨rfl, hstep⟩

theorem Stored.IsPast.startQuest {data : GameData} {other stepId left : Int} {objectives : List Objective}
    (h : s.IsPast data other left) : (act s (Call.startQuest questId stepId objectives)).IsPast data other left := by
  obtain ⟨quest', hquest', hleft⟩ := h
  exact ⟨quest', lookup_startQuest_of_some hquest', hleft⟩

theorem Listed.tail (h : Listed (quest :: quests)) : Listed quests where
  active x hx := h.active x (List.mem_cons_of_mem quest hx)
  distinct := (List.nodup_cons.1 h.distinct).2

theorem Listed.other (h : Listed (quest :: quests)) : ∀ x ∈ quests, x.questId ≠ quest.questId := by
  intro x hx heq
  exact (List.nodup_cons.1 h.distinct).1 (heq ▸ List.mem_map_of_mem hx)

end

/-! ### What is read -/

section

variable {data : GameData} {I E : Stored → Record → Prop}

/-- Lookups are recorded only. -/
def AllowsLookups (I : Stored → Record → Prop) : Prop :=
  ∀ s t fileName objectId ok, I s t → I s ((.lookup fileName objectId, ok) :: t)

/-- An object of the data, or nothing if the lookup fails. -/
theorem triple_getGameData (hI : AllowsLookups I) (fileName : String) (objectId : Int) :
    Triple I (attempt (getGameData data fileName objectId))
      (fun r s t => (r.join = none ∨ r.join = (data.objects fileName).lookup objectId) ∧ I s t) E := by
  unfold getGameData
  refine .attempt (.bind (.call (Q := fun _ => I) (fun s t h => hI s t _ _ _ h) fun s t h => ?_) fun _ => .pure
    fun s t h => ?_)
  · exact ⟨.inl rfl, hI s t _ _ _ h⟩
  · exact ⟨.inr rfl, h⟩

theorem triple_getFirstStepId (hI : AllowsLookups I) (questId : Int) :
    Triple I (getFirstStepId data questId) (fun r s t => wrap32 (r.getD 0) = r.getD 0 ∧ I s t) E := by
  unfold getFirstStepId
  refine (triple_getGameData hI _ _).bind fun quest => .pure fun s t h => ⟨?_, h.2⟩
  cases hfirst : (quest.join.bind stepIds).bind fun steps => steps.head?.bind asI32 with
  | none => rfl
  | some first =>
    obtain ⟨steps, -, hhead⟩ := Option.bind_eq_some_iff.1 hfirst
    obtain ⟨v, -, hv⟩ := Option.bind_eq_some_iff.1 hhead
    exact wrap32_of_asI32 hv

theorem nextStep_questSteps (data : GameData) (questId current : Int) :
    ((((data.objects "Quests").lookup questId).bind stepIds).bind fun steps => nextStep steps current) =
      nextStep (questSteps data questId) current := by
  rw [questSteps]
  cases ((data.objects "Quests").lookup questId).bind stepIds with
  | none => rfl
  | some steps => rfl

/-- The next step of the data, or none if the lookup fails. -/
theorem triple_getNextStepId (hI : AllowsLookups I) (questId current : Int) :
    Triple I (getNextStepId data questId current)
      (fun r s t => (r = none ∨ r = nextStep (questSteps data questId) current) ∧ I s t) E := by
  unfold getNextStepId
  refine (triple_getGameData hI _ _).bind fun quest => .pure fun s t h => ⟨?_, h.2⟩
  rcases h.1 with hnone | hsome
  · rw [hnone]
    exact .inl rfl
  · rw [hsome, nextStep_questSteps]
    exact .inr rfl

/-- The ids of the objectives of a step. -/
def objectiveIds (data : GameData) (stepId : Int) : List Int :=
  (((((data.objects "QuestSteps").lookup stepId).bind (·.get? "objectiveIds")).bind Value.asArray).getD []).map
    fun v =>
    (asI32 v).getD 0

/-- New objectives: some of the ids, in their order, none of them completed. -/
def NewObjectives (ids : List Int) (objectives : List Objective) : Prop :=
  (objectives.map Objective.id).Sublist ids ∧ ∀ o ∈ objectives, o.completed = false

theorem triple_getObjectives (hI : AllowsLookups I) (ids : List Value) :
    Triple I (getObjectives data ids)
      (fun objectives s t => NewObjectives (ids.map fun v => (asI32 v).getD 0) objectives ∧ I s t) E := by
  induction ids with
  | nil => exact .pure fun s t h => ⟨⟨.slnil, fun o ho => absurd ho List.not_mem_nil⟩, h⟩
  | cons v ids ih =>
    unfold getObjectives
    refine (triple_getGameData hI _ _).bind fun found => (ih.pre fun s t h => h.2).bind fun objectives => ?_
    refine .pure fun s t h => ⟨?_, h.2⟩
    obtain ⟨hsub, hnew⟩ := h.1
    cases found.join with
    | none => exact ⟨hsub.cons _, hnew⟩
    | some object =>
      refine ⟨hsub.cons_cons _, fun o ho => ?_⟩
      rcases List.mem_cons.1 ho with rfl | ho
      · rfl
      · exact hnew o ho

theorem triple_getStepObjectives (hI : AllowsLookups I) (stepId : Int) :
    Triple I (getStepObjectives data stepId)
      (fun objectives s t => NewObjectives (objectiveIds data stepId) objectives ∧ I s t) E := by
  have hnil : NewObjectives (objectiveIds data stepId) [] :=
    ⟨List.nil_sublist _, fun o ho => absurd ho List.not_mem_nil⟩
  unfold getStepObjectives
  refine (triple_getGameData hI _ _).bind fun step => ?_
  cases step.join with
  | none => exact .pure fun s t h => ⟨hnil, h.2⟩
  | some object =>
    intro s h
    have hobject : (data.objects "QuestSteps").lookup stepId = some object := by
      rcases h.1 with hnone | hsome
      · cases hnone
      · exact hsome.symm
    have hids := @triple_getObjectives data I E hI (((object.get? "objectiveIds").bind Value.asArray).getD []) s h.2
    unfold objectiveIds
    rw [hobject, Option.bind_some]
    exact hids

/-- The active quests are those that are stored. -/
theorem triple_getActiveQuests (hI : ∀ s t ok, I s t → I s ((.query, ok) :: t)) (hfiled : ∀ s t, I s t → s.Filed)
    (order : List CharacterQuest) :
    Triple I (getActiveQuests order) (fun active s t => Listed active ∧ Waits active s ∧ I s t) I := by
  unfold getActiveQuests
  refine .bind (.call (Q := fun _ => I) (fun s t h => hI s t _ h) fun s t h => hI s t _ h) fun _ => ?_
  refine .bind (.read (Q := fun stored s t => stored = s ∧ I s t) fun s t h => ⟨rfl, h⟩) fun stored => ?_
  refine .pure fun s t h => ?_
  obtain ⟨rfl, h⟩ := h
  have hfile := hfiled _ _ h
  -- the map is filed under the ids of its quests
  have hid : ∀ p ∈ stored.quests.pairs, p.2.questId = p.1 := fun p hp =>
    (hfile p.1 p.2 (HashMap.lookup_eq_some.2 hp)).1
  have hactive : Listed ((stored.quests.pairs.map Prod.snd).filter fun quest => !quest.finished) := by
    constructor
    · intro quest hquest
      simpa using (List.mem_filter.1 hquest).2
    · have hkeys : (stored.quests.pairs.map Prod.snd).map CharacterQuest.questId =
        stored.quests.pairs.map Prod.fst := by
        rw [List.map_map]
        exact List.map_congr_left hid
      exact (hkeys ▸ stored.quests.nodup_pairs).sublist (List.filter_sublist.map _)
  have hwaits : Waits ((stored.quests.pairs.map Prod.snd).filter fun quest => !quest.finished) stored := by
    intro quest hquest
    obtain ⟨p, hp, rfl⟩ := List.mem_map.1 (List.mem_filter.1 hquest).1
    rw [hid p hp]
    exact HashMap.lookup_eq_some.2 hp
  split
  · -- the map yields its quests in some order, which changes neither what is listed nor that it waits
    rename_i hperm
    refine ⟨⟨fun quest hquest => hactive.active quest (hperm.mem_iff.1 hquest), ?_⟩,
      fun quest hquest => hwaits quest (hperm.mem_iff.1 hquest), h⟩
    exact (hperm.map CharacterQuest.questId).nodup_iff.2 hactive.distinct
  · exact ⟨hactive, hwaits, h⟩

end

end Otomai.Quests
