import Otomai.Quests.Rewards

/-!
# Objectives that are announced

The client is told of an objective before it is stored as completed.  The arrival on a map announces objectives
without storing them.  A quest is finished whenever its next step is not found, be it that there is none or that the
lookup fails, and what completes its last step is not stored any more.

* `progress_run`: as long as no arrival is waited for and no quest is finished, what is announced is kept and
  announced once; and no quest that is finished has all its objectives completed.
* `not_progress_run`: two arrivals on a map, a lookup that fails, and the end of a quest.
-/

namespace Otomai.Quests

open Machine Otomai.DataReader Otomai.Handlers Fallible Trace

/-! ### Announcements -/

/-- The objective that a call announces. -/
def Call.announced : Call → Option (Int × Int × Int)
  | .announce questId stepId objectiveId => some (questId, stepId, objectiveId)
  | _ => none

/-- How often an objective of a step has been announced. -/
def announced (t : Record) (x : Int × Int × Int) : Nat := t.countP fun p => p.2 && p.1.announced = some x

/-- The client has just been told that a step is completed. -/
def validated : Record → Bool
  | (.send (.stepValidated ..), true) :: _ => true
  | _ => false

/-- Whether the lookup decides if a quest is finished. -/
def Call.isQuestLookup : Call → Bool
  | .lookup fileName _ => fileName = "Quests"
  | _ => false

/-- Calls fail only where the handlers go on; the lookup of a quest whose step is completed does not fail. -/
def Smooth : Record → Prop
  | [] => True
  | p :: t => (p.2 = true ∨ p.1.isAttempted = true ∧ ¬(p.1.isQuestLookup = true ∧ validated t = true)) ∧ Smooth t

instance decidableSmooth : (t : Record) → Decidable (Smooth t)
  | [] => .isTrue trivial
  | p :: t =>
    have := decidableSmooth t
    inferInstanceAs (Decidable
      ((p.2 = true ∨ p.1.isAttempted = true ∧ ¬(p.1.isQuestLookup = true ∧ validated t = true)) ∧ Smooth t))

section

variable {t : Record} {c : Call} {ok : Bool} {x : Int × Int × Int}

theorem announced_cons_of_ne (h : c.announced ≠ some x) : announced ((c, ok) :: t) x = announced t x := by
  unfold announced
  rw [List.countP_cons_of_neg]
  simp [h]

theorem announced_cons_of_none (h : c.announced = none) : announced ((c, ok) :: t) x = announced t x :=
  announced_cons_of_ne (by rw [h]; rintro ⟨⟩)

theorem announced_cons_of_some (h : c.announced = some x) : announced ((c, true) :: t) x = announced t x + 1 := by
  unfold announced
  rw [List.countP_cons_of_pos]
  simp [h]

/-- A failure that ends a handler. -/
theorem not_smooth (h : c.isAttempted = false) : ¬Smooth ((c, false) :: t) := by
  rintro ⟨hok | ⟨hattempted, -⟩, -⟩
  · cases hok
  · rw [h] at hattempted
    cases hattempted

end

/-! ### Invariants -/

/-- An objective is stored as completed. -/
def Stored.Keeps (s : Stored) (questId stepId objectiveId : Int) : Prop :=
  ∃ quest, s.quests.lookup questId = some quest ∧ quest.stepId = stepId ∧
    ∃ o ∈ quest.objectives, o.id = objectiveId ∧ o.completed = true

/-- The quest has left a step for a later one. -/
def Stored.HasLeft (s : Stored) (data : GameData) (questId stepId : Int) : Prop :=
  ∃ quest, s.quests.lookup questId = some quest ∧ Precedes (questSteps data questId) stepId quest.stepId

/-- The step is the last one of the quest. -/
def IsLast (steps : List Value) (stepId : Int) : Prop := steps.getLast?.bind asI32 = some stepId

instance (steps : List Value) (stepId : Int) : Decidable (IsLast steps stepId) :=
  inferInstanceAs (Decidable (steps.getLast?.bind asI32 = some stepId))

/-- The quest is at its last step, with all objectives that are listed for the step. -/
def AtEnd (data : GameData) (questId : Int) (quest : CharacterQuest) : Prop :=
  IsLast (questSteps data questId) quest.stepId ∧
    ∀ objectiveId ∈ objectiveIds data quest.stepId, ∃ o ∈ quest.objectives, o.id = objectiveId

instance (data : GameData) (questId : Int) (quest : CharacterQuest) : Decidable (AtEnd data questId quest) :=
  inferInstanceAs (Decidable (IsLast (questSteps data questId) quest.stepId ∧
    ∀ objectiveId ∈ objectiveIds data quest.stepId, ∃ o ∈ quest.objectives, o.id = objectiveId))

/-- A quest that is finished is so at its last step, with all objectives completed. -/
def Stored.Ended (s : Stored) (data : GameData) : Prop :=
  ∀ questId quest, s.quests.lookup questId = some quest → quest.finished = true →
    AtEnd data questId quest ∧ ∀ o ∈ quest.objectives, o.completed = true

/-- A quest that is finished keeps an objective that is not completed. -/
def Stored.LeavesOpen (s : Stored) : Prop :=
  ∀ questId quest, s.quests.lookup questId = some quest → quest.finished = true →
    ∃ o ∈ quest.objectives, o.completed = false

/-- What is announced is kept and announced once, and a quest ends when its last step is completed. -/
structure Progress (data : GameData) (s : Stored) (t : Record) : Prop where
  kept : ∀ questId stepId objectiveId, announced t (questId, stepId, objectiveId) ≠ 0 →
    s.Keeps questId stepId objectiveId ∨ s.HasLeft data questId stepId
  once : ∀ x, announced t x ≤ 1
  ended : s.Ended data

/-- The objectives of each quest have ids of their own. -/
def Stored.Distinct (s : Stored) : Prop :=
  ∀ questId quest, s.quests.lookup questId = some quest → (quest.objectives.map Objective.id).Nodup

/-- The same, while some objectives of the current step of a quest have been announced, but not stored. -/
structure Announcing (data : GameData) (quest : CharacterQuest) (ids : List Int) (s : Stored)
    (t : Record) : Prop where
  kept : ∀ questId stepId objectiveId, announced t (questId, stepId, objectiveId) ≠ 0 →
    questId = quest.questId ∧ stepId = quest.stepId ∧ objectiveId ∈ ids ∨
      s.Keeps questId stepId objectiveId ∨ s.HasLeft data questId stepId
  once : ∀ x, announced t x ≤ 1
  ended : s.Ended data
  distinct : s.Distinct

section

variable {data : GameData} {s s' : Stored} {t : Record} {c : Call} {ok : Bool} {quest : CharacterQuest}
    {ids : List Int}

theorem announced_cons (hc : ok = false ∨ c.announced = none) (x : Int × Int × Int) :
    announced ((c, ok) :: t) x = announced t x := by
  rcases hc with rfl | hc
  · unfold announced
    rw [List.countP_cons_of_neg]
    simp
  · exact announced_cons_of_none hc

theorem Progress.cons (h : Progress data s t) (hc : ok = false ∨ c.announced = none) :
    Progress data s ((c, ok) :: t) where
  kept questId stepId objectiveId hne := h.kept questId stepId objectiveId (announced_cons hc _ ▸ hne)
  once x := (announced_cons hc x).symm ▸ h.once x
  ended := h.ended

theorem Announcing.cons (h : Announcing data quest ids s t) (hc : ok = false ∨ c.announced = none) :
    Announcing data quest ids s ((c, ok) :: t) where
  kept questId stepId objectiveId hne := h.kept questId stepId objectiveId (announced_cons hc _ ▸ hne)
  once x := (announced_cons hc x).symm ▸ h.once x
  ended := h.ended
  distinct := h.distinct

theorem Announcing.congr (h : Announcing data quest ids s t) (hs : s'.quests = s.quests) :
    Announcing data quest ids s' t := by
  constructor
  · unfold Stored.Keeps Stored.HasLeft
    rw [hs]
    exact h.kept
  · exact h.once
  · unfold Stored.Ended
    rw [hs]
    exact h.ended
  · unfold Stored.Distinct
    rw [hs]
    exact h.distinct

theorem Progress.announcing (h : Progress data s t) (hdistinct : s.Distinct) (quest : CharacterQuest) :
    Announcing data quest [] s t where
  kept questId stepId objectiveId hne := .inr (h.kept questId stepId objectiveId hne)
  once := h.once
  ended := h.ended
  distinct := hdistinct

/-- An objective that is not completed has not been announced before. -/
theorem Announcing.fresh (hdata : DistinctSteps data) (h : Announcing data quest ids s t)
    (hquest : s.quests.lookup quest.questId = some quest) {o : Objective} (ho : o ∈ quest.objectives)
    (hopen : o.completed = false) (hid : o.id ∉ ids) :
    announced t (quest.questId, quest.stepId, o.id) = 0 := by
  by_contra hne
  rcases h.kept _ _ _ hne with ⟨-, -, hmem⟩ | ⟨quest', hquest', -, o', ho', heq, hcompleted⟩ | ⟨quest',
    hquest', hleft⟩
  · exact hid hmem
  · obtain rfl := Option.some.inj (hquest.symm.trans hquest')
    obtain rfl := List.inj_on_of_nodup_map (h.distinct _ _ hquest) ho' ho heq
    rw [hopen] at hcompleted
    cases hcompleted
  · obtain rfl := Option.some.inj (hquest.symm.trans hquest')
    exact not_precedes_self hdata _ _ hleft

/-- One more objective is announced. -/
theorem Announcing.announce (h : Announcing data quest ids s t) {objectiveId : Int}
    (hfresh : announced t (quest.questId, quest.stepId, objectiveId) = 0) :
    Announcing data quest (ids ++ [objectiveId]) s
      ((.announce quest.questId quest.stepId objectiveId, true) :: t) := by
  have hsome : announced ((.announce quest.questId quest.stepId objectiveId, true) :: t)
      (quest.questId, quest.stepId, objectiveId) = 1 := by
    rw [announced_cons_of_some rfl, hfresh]
  have hother {x : Int × Int × Int} (hx : x ≠ (quest.questId, quest.stepId, objectiveId)) :
      announced ((.announce quest.questId quest.stepId objectiveId, true) :: t) x = announced t x :=
    announced_cons_of_ne fun heq => hx (Option.some.inj heq).symm
  constructor
  · intro questId stepId id hne
    by_cases hx : (questId, stepId, id) = (quest.questId, quest.stepId, objectiveId)
    · obtain ⟨rfl, hrest⟩ := Prod.mk.inj hx
      obtain ⟨rfl, rfl⟩ := Prod.mk.inj hrest
      exact .inl ⟨rfl, rfl, List.mem_append_right _ List.mem_cons_self⟩
    · rw [hother hx] at hne
      exact (h.kept questId stepId id hne).imp_left fun hopen =>
        ⟨hopen.1, hopen.2.1, List.mem_append_left _ hopen.2.2⟩
  · intro x
    by_cases hx : x = (quest.questId, quest.stepId, objectiveId)
    · rw [hx, hsome]
    · rw [hother hx]
      exact h.once x
  · exact h.ended
  · exact h.distinct

/-- A quest is changed but not finished, so that what has been announced of it is kept or left. -/
theorem Announcing.change (h : Announcing data quest ids s t) (hquest : s.quests.lookup quest.questId = some quest)
    {f : CharacterQuest → CharacterQuest}
    (hkept : ∀ stepId objectiveId, announced t (quest.questId, stepId, objectiveId) ≠ 0 →
      (s.updateQuest quest.questId f).Keeps quest.questId stepId objectiveId ∨
        (s.updateQuest quest.questId f).HasLeft data quest.questId stepId)
    (hactive : (f quest).finished = false) (hdistinct : ((f quest).objectives.map Objective.id).Nodup) :
    Progress data (s.updateQuest quest.questId f) t ∧ (s.updateQuest quest.questId f).Distinct := by
  refine ⟨⟨fun questId stepId objectiveId hne => ?_, h.once, fun questId quest' hquest' hfinished => ?_⟩,
    fun questId quest' hquest' => ?_⟩
  · by_cases hid : questId = quest.questId
    · subst hid
      exact hkept stepId objectiveId hne
    · unfold Stored.Keeps Stored.HasLeft
      rw [lookup_updateQuest_of_ne hid]
      exact (h.kept questId stepId objectiveId hne).resolve_left fun hopen => hid hopen.1
  · by_cases hid : questId = quest.questId
    · subst hid
      obtain rfl := Option.some.inj ((lookup_updateQuest hquest).symm.trans hquest')
      exact absurd (hactive.symm.trans hfinished) (by decide)
    · rw [lookup_updateQuest_of_ne hid] at hquest'
      exact h.ended questId quest' hquest' hfinished
  · by_cases hid : questId = quest.questId
    · subst hid
      obtain rfl := Option.some.inj ((lookup_updateQuest hquest).symm.trans hquest')
      exact hdistinct
    · rw [lookup_updateQuest_of_ne hid] at hquest'
      exact h.distinct questId quest' hquest'

/-- What has been announced of a quest. -/
theorem Announcing.current (h : Announcing data quest ids s t) (hquest : s.quests.lookup quest.questId = some quest)
    {stepId objectiveId : Int}
    (hne : announced t (quest.questId, stepId, objectiveId) ≠ 0) :
    stepId = quest.stepId ∧ (objectiveId ∈ ids ∨ ∃ o ∈ quest.objectives, o.id = objectiveId ∧ o.completed = true) ∨
      Precedes (questSteps data quest.questId) stepId quest.stepId := by
  rcases h.kept _ _ _ hne with ⟨-, hstep, hmem⟩ | ⟨quest', hquest', hstep, hkept⟩ | ⟨quest', hquest', hleft⟩
  · exact .inl ⟨hstep, .inl hmem⟩
  · obtain rfl := Option.some.inj (hquest.symm.trans hquest')
    exact .inl ⟨hstep.symm, .inr hkept⟩
  · obtain rfl := Option.some.inj (hquest.symm.trans hquest')
    exact .inr hleft

/-- The quest leaves its step. -/
theorem Announcing.leave (h : Announcing data quest ids s t) (hquest : s.quests.lookup quest.questId = some quest)
    {f : CharacterQuest → CharacterQuest}
    (hf : ∀ stepId, (stepId = quest.stepId ∨ Precedes (questSteps data quest.questId) stepId quest.stepId) →
      Precedes (questSteps data quest.questId) stepId (f quest).stepId)
    (hactive : (f quest).finished = false) (hdistinct : ((f quest).objectives.map Objective.id).Nodup) :
    Progress data (s.updateQuest quest.questId f) t ∧ (s.updateQuest quest.questId f).Distinct := by
  refine h.change hquest (fun stepId objectiveId hne => .inr ⟨f quest, lookup_updateQuest hquest, ?_⟩)
    hactive hdistinct
  exact hf stepId ((h.current hquest hne).imp_left And.left)

theorem map_id_complete (done : Objective → Bool) (objectives : List Objective) :
    (complete done objectives).map Objective.id = objectives.map Objective.id := by
  unfold complete
  rw [List.map_map]
  refine List.map_congr_left fun o _ => ?_
  show (if done o then { o with completed := true } else o).id = o.id
  split <;> rfl

/-- An objective is completed if it has been, or is done. -/
theorem mem_complete {done : Objective → Bool} {objectives : List Objective} {o : Objective} (ho : o ∈ objectives)
    (hdone : done o = true ∨ o.completed = true) : ∃ o' ∈ complete done objectives, o'.id = o.id ∧
    o'.completed = true := by
  refine ⟨_, List.mem_map_of_mem ho, ?_⟩
  by_cases h : done o = true
  · rw [if_pos h]
    exact ⟨rfl, rfl⟩
  · rw [if_neg h]
    exact ⟨rfl, hdone.resolve_left h⟩

/-- The announced objectives are stored, and the quest stays at its step. -/
theorem Announcing.store (h : Announcing data quest ids s t) (hquest : s.quests.lookup quest.questId = some quest)
    {f : CharacterQuest → CharacterQuest} {done : Objective → Bool} (hstep : (f quest).stepId = quest.stepId)
    (hactive : (f quest).finished = false) (hobjectives : (f quest).objectives = complete done quest.objectives)
    (hdone : ∀ objectiveId ∈ ids, ∃ o ∈ quest.objectives, o.id = objectiveId ∧ done o = true) :
    Progress data (s.updateQuest quest.questId f) t ∧ (s.updateQuest quest.questId f).Distinct := by
  refine h.change hquest (fun stepId objectiveId hne => ?_) hactive ?_
  · rcases h.current hquest hne with ⟨heq, htold⟩ | hprecedes
    · refine .inl ⟨f quest, lookup_updateQuest hquest, hstep.trans heq.symm, ?_⟩
      rw [hobjectives]
      rcases htold with hmem | ⟨o, ho, rfl, hcompleted⟩
      · obtain ⟨o, ho, rfl, hdone⟩ := hdone objectiveId hmem
        exact mem_complete ho (.inl hdone)
      · exact mem_complete ho (.inr hcompleted)
    · refine .inr ⟨f quest, lookup_updateQuest hquest, ?_⟩
      rw [hstep]
      exact hprecedes
  · rw [hobjectives, map_id_complete]
    exact h.distinct _ _ hquest

/-- A quest is changed; if it is finished now, one of its objectives is still open. -/
theorem Stored.LeavesOpen.updateQuest (h : s.LeavesOpen) (hquest : s.quests.lookup quest.questId = some quest)
    {f : CharacterQuest → CharacterQuest}
    (hf : (f quest).finished = true → ∃ o ∈ (f quest).objectives, o.completed = false) :
    (s.updateQuest quest.questId f).LeavesOpen := by
  intro questId quest' hquest' hfinished
  by_cases hid : questId = quest.questId
  · subst hid
    obtain rfl := Option.some.inj ((lookup_updateQuest hquest).symm.trans hquest')
    exact hf hfinished
  · rw [lookup_updateQuest_of_ne hid] at hquest'
    exact h questId quest' hquest' hfinished

end

/-! ### Handlers -/

/-- What holds between the handlers, and while some quests wait; `fair` tells whether the events so far have been
fair. -/
structure Settled (data : GameData) (fair : Prop) (waiting : List CharacterQuest) (s : Stored)
    (t : Record) : Prop where
  filed : s.Filed
  waits : Waits waiting s
  leavesOpen : s.LeavesOpen
  progress : fair → Smooth t → Progress data s t ∧ s.Distinct

/-- What holds while objectives of a quest are announced. -/
structure Telling (data : GameData) (fair : Prop) (quest : CharacterQuest) (ids : List Int)
    (waiting : List CharacterQuest)
    (s : Stored) (t : Record) : Prop where
  filed : s.Filed
  waits : Waits (quest :: waiting) s
  leavesOpen : s.LeavesOpen
  announcing : fair → Smooth t → Announcing data quest ids s t

/-- No step lists an objective twice. -/
def DistinctObjectives (data : GameData) : Prop := ∀ stepId, (objectiveIds data stepId).Nodup

section

variable {data : GameData} {fair : Prop} {s : Stored} {t : Record} {c : Call} {ok : Bool} {quest : CharacterQuest}
  {ids : List Int} {waiting : List CharacterQuest} {E : Stored → Record → Prop}

theorem Settled.cons (h : Settled data fair waiting s t) (hc : ok = false ∨ c.announced = none) :
    Settled data fair waiting s ((c, ok) :: t) where
  filed := h.filed
  waits := h.waits
  leavesOpen := h.leavesOpen
  progress hfair hsmooth := ⟨(h.progress hfair hsmooth.2).1.cons hc, (h.progress hfair hsmooth.2).2⟩

theorem Settled.tail (h : Settled data fair (quest :: waiting) s t) : Settled data fair waiting s t where
  filed := h.filed
  waits x hx := h.waits x (List.mem_cons_of_mem quest hx)
  leavesOpen := h.leavesOpen
  progress := h.progress

theorem Settled.telling (h : Settled data fair (quest :: waiting) s t) : Telling data fair quest [] waiting s t where
  filed := h.filed
  waits := h.waits
  leavesOpen := h.leavesOpen
  announcing hfair hsmooth := (h.progress hfair hsmooth).1.announcing (h.progress hfair hsmooth).2 quest

/-- Nothing has been announced, unless some event has not been fair. -/
theorem Telling.settled (h : Telling data fair quest ids waiting s t) (hids : fair → ids = []) :
    Settled data fair waiting s t := by
  refine ⟨h.filed, fun x hx => h.waits x (List.mem_cons_of_mem quest hx), h.leavesOpen, fun hfair hsmooth => ?_⟩
  have hannouncing := h.announcing hfair hsmooth
  refine ⟨⟨fun questId stepId objectiveId hne => ?_, hannouncing.once, hannouncing.ended⟩, hannouncing.distinct⟩
  refine (hannouncing.kept questId stepId objectiveId hne).resolve_left fun hopen => ?_
  exact absurd (hids hfair ▸ hopen.2.2) List.not_mem_nil

/-- A call that ends the handler has failed. -/
theorem Settled.interrupted (hfiled : s.Filed) (hopen : s.LeavesOpen) (hc : c.isAttempted = false) :
    Settled data fair [] s ((c, false) :: t) :=
  ⟨hfiled, fun _ hquest => absurd hquest List.not_mem_nil, hopen, fun _ hsmooth => absurd hsmooth (not_smooth hc)⟩

theorem Telling.interrupted (h : Telling data fair quest ids waiting s t) (hc : c.isAttempted = false) :
    Settled data fair [] s ((c, false) :: t) :=
  .interrupted h.filed h.leavesOpen hc

theorem Telling.cons (h : Telling data fair quest ids waiting s t) (hc : ok = false ∨ c.announced = none) :
    Telling data fair quest ids waiting s ((c, ok) :: t) where
  filed := h.filed
  waits := h.waits
  leavesOpen := h.leavesOpen
  announcing hfair hsmooth := (h.announcing hfair hsmooth.2).cons hc

theorem Telling.congr {s' : Stored} (h : Telling data fair quest ids waiting s t) (hs : s'.quests = s.quests) :
    Telling data fair quest ids waiting s' t := by
  constructor
  · unfold Stored.Filed
    rw [hs]
    exact h.filed
  · unfold Waits
    rw [hs]
    exact h.waits
  · unfold Stored.LeavesOpen
    rw [hs]
    exact h.leavesOpen
  · exact fun hfair hsmooth => (h.announcing hfair hsmooth).congr hs

/-- The quest is changed, and what has been announced of it is kept or left. -/
theorem Telling.updateQuest (h : Telling data fair quest ids waiting s t) (hlisted : Listed (quest :: waiting))
    (hc : c.announced = none) {f : CharacterQuest → CharacterQuest} (hid : (f quest).questId = quest.questId)
    (hstep : wrap32 (f quest).stepId = (f quest).stepId)
    (hopen : (f quest).finished = true → ∃ o ∈ (f quest).objectives, o.completed = false)
    (hprogress : fair → Smooth t →
      Progress data (s.updateQuest quest.questId f) t ∧ (s.updateQuest quest.questId f).Distinct) :
    Settled data fair waiting (s.updateQuest quest.questId f) ((c, true) :: t) := by
  have hquest := h.waits quest List.mem_cons_self
  refine Settled.cons ⟨h.filed.updateQuest hquest hid hstep, ?_, h.leavesOpen.updateQuest hquest hopen, hprogress⟩
    (.inr hc)
  exact Waits.updateQuest (fun x hx => h.waits x (List.mem_cons_of_mem quest hx)) hlisted.other

theorem allowsLookups_settled : AllowsLookups (Settled data fair waiting) := fun _ _ _ _ _ h => h.cons (.inr rfl)

theorem allowsLookups_telling : AllowsLookups (Telling data fair quest ids waiting) :=
  fun _ _ _ _ _ h => h.cons (.inr rfl)

/-- A call that is recorded only. -/
theorem triple_settled_call (hact : ∀ s : Stored, act s c = s) (hc : c.announced = none)
    (hattempted : c.isAttempted = false) :
    Triple (Settled data fair waiting) (call c) (fun _ => Settled data fair waiting) (Settled data fair []) :=
  .call (fun s _ h => (hact s).symm ▸ h.cons (.inr hc)) fun _ _ h => .interrupted h.filed h.leavesOpen hattempted

theorem triple_telling_call (hact : ∀ s : Stored, act s c = s) (hc : c.announced = none)
    (hattempted : c.isAttempted = false) :
    Triple (Telling data fair quest ids waiting) (call c) (fun _ => Telling data fair quest ids waiting)
      (Settled data fair []) :=
  .call (fun s _ h => (hact s).symm ▸ h.cons (.inr hc)) fun _ _ h => h.interrupted hattempted

theorem along_telling : Along quest.questId quest.stepId (fun _ => Telling data fair quest ids waiting)
    (Settled data fair []) where
  mono h _ := h
  query _ := triple_telling_call (fun _ => rfl) rfl rfl
  gain _ _ := triple_telling_call (fun _ => rfl) rfl rfl
  reward {_ _ c} hc _ := by
    have hnone : c.announced = none := by
      cases c with
      | announce => cases hc
      | _ => rfl
    refine .attempt (.call (fun s t h => ?_) fun s t h => h.cons (.inl rfl))
    exact (h.cons (.inr hnone)).congr (quests_act_of_reward s hc)

/-- An objective of the quest is announced. -/
theorem triple_tell (hdata : DistinctSteps data) {o : Objective} (ho : o ∈ quest.objectives)
    (hopen : o.completed = false)
    (hnew : (quest.objectives.map Objective.id).Nodup → o.id ∉ ids) :
    Triple (Telling data fair quest ids waiting) (call (.announce quest.questId quest.stepId o.id))
      (fun _ => Telling data fair quest (ids ++ [o.id]) waiting) (Settled data fair []) := by
  refine .call (fun s t h => ⟨h.filed, h.waits, h.leavesOpen, fun hfair hsmooth => ?_⟩) fun s t h => h.interrupted rfl
  have hannouncing := h.announcing hfair hsmooth.2
  have hquest := h.waits quest List.mem_cons_self
  exact hannouncing.announce (hannouncing.fresh hdata hquest ho hopen (hnew (hannouncing.distinct _ _ hquest)))

/-- Objectives of the quest are announced one after the other. -/
theorem triple_telling (hdata : DistinctSteps data) {objectives : List Objective}
    (hsub : objectives.Sublist quest.objectives) (hopen : ∀ o ∈ objectives, o.completed = false) :
    Triple (Settled data fair (quest :: waiting))
      (objectives.forM fun o => call (.announce quest.questId quest.stepId o.id))
      (fun _ => Telling data fair quest (objectives.map Objective.id) waiting) (Settled data fair []) := by
  refine Triple.mono (Triple.forM (J := fun rest s t => ∃ before, objectives = before ++ rest ∧
    Telling data fair quest (before.map Objective.id) waiting s t) fun o rest => ?_)
      (fun s t h => ⟨[], rfl, h.telling⟩)
    (fun _ s t h => ?_) fun _ _ h => h
  · refine .of_exists fun before => .of_imp fun hbefore => ?_
    subst hbefore
    have ho : o ∈ before ++ o :: rest := List.mem_append_right before List.mem_cons_self
    refine (triple_tell hdata (hsub.subset ho) (hopen o ho) fun hnodup hmem => ?_).mono (fun _ _ h => h)
      (fun _ s t h => ⟨before ++ [o], by rw [List.append_assoc]; rfl, ?_⟩) fun _ _ h => h
    · have hnodup := hnodup.sublist (hsub.map Objective.id)
      rw [List.map_append, List.map_cons] at hnodup
      exact (List.nodup_append.1 hnodup).2.2 _ hmem _ List.mem_cons_self rfl
    · rw [List.map_append]
      exact h
  · obtain ⟨before, rfl, h⟩ := h
    rw [List.append_nil]
    exact h

/-- The lookup that decides whether a quest is finished. -/
theorem triple_nextStep (current : Int) :
    Triple (fun s t => validated t = true ∧ Telling data fair quest ids waiting s t)
      (getNextStepId data quest.questId current)
      (fun r s t => (r = none ∨ r = nextStep (questSteps data quest.questId) current) ∧
        (Smooth t → r = nextStep (questSteps data quest.questId) current) ∧
        Telling data fair quest ids waiting s t) E := by
  unfold getNextStepId getGameData
  refine .bind
    (Q := fun found s t => (found.join = none ∨ found.join = (data.objects "Quests").lookup quest.questId) ∧
    (Smooth t → found.join = (data.objects "Quests").lookup quest.questId) ∧
      Telling data fair quest ids waiting s t) ?_
    fun found => ?_
  · refine .attempt (.bind (Q := fun _ => Telling data fair quest ids waiting)
      (.call (fun s t h => h.2.cons (.inr rfl)) fun s t h => ?_) fun _ => .pure fun s t h =>
        ⟨.inr rfl, fun _ => rfl, h⟩)
    refine ⟨.inl rfl, fun hsmooth => ?_, h.2.cons (.inl rfl)⟩
    rcases hsmooth.1 with hok | ⟨-, hlookup⟩
    · cases hok
    · exact absurd ⟨rfl, h.1⟩ hlookup
  · refine .pure fun s t h => ⟨?_, fun hsmooth => ?_, h.2.2⟩
    · rcases h.1 with hnone | hsome
      · rw [hnone]
        exact .inl rfl
      · rw [hsome, nextStep_questSteps]
        exact .inr rfl
    · rw [h.2.1 hsmooth, nextStep_questSteps]

/-- A quest some of whose objectives have been announced: its step is left, or the objectives are stored. -/
theorem triple_completeAnnounced (hsteps : DistinctSteps data) (hobjectives : DistinctObjectives data)
    (hlisted : Listed (quest :: waiting)) {done : Objective → Bool}
    (hdone : ∀ objectiveId ∈ ids, ∃ o ∈ quest.objectives, o.id = objectiveId ∧ done o = true)
    (hopen : ∃ o ∈ quest.objectives, o.completed = false)
    (hnext : fair → (complete done quest.objectives).all Objective.completed = true →
      nextStep (questSteps data quest.questId) quest.stepId ≠ none) :
    Triple (Telling data fair quest ids waiting)
      (completeStepIfDone data quest.questId quest.stepId (complete done quest.objectives))
      (fun _ => Settled data fair waiting) (Settled data fair []) := by
  have hactive := hlisted.active quest List.mem_cons_self
  have hunfinished {stepId : Int} {objectives : List Objective} (h : quest.finished = true) :
      ∃ o ∈ ({ quest with stepId := stepId, objectives := objectives } : CharacterQuest).objectives,
        o.completed = false :=
    absurd (hactive.symm.trans h) (by decide)
  unfold completeStepIfDone
  split
  · rename_i hall
    refine (along_telling.awardStepRewards data).bind fun _ => ?_
    refine .bind (Q := fun _ s t => validated t = true ∧ Telling data fair quest ids waiting s t)
      (.call (fun s t h => ⟨rfl, h.cons (.inr rfl)⟩) fun s t h => h.interrupted rfl) fun _ => ?_
    refine (triple_nextStep quest.stepId).bind fun next => ?_
    cases next with
    | none =>
      refine .bind (Q := fun _ => Settled data fair waiting)
        (.call (fun s t h => ?_) fun s t h => h.2.2.interrupted rfl)
        fun _ => triple_settled_call (fun _ => rfl) rfl rfl
      -- the quest is finished with the objectives that it had before
      obtain ⟨-, hlookup, htelling⟩ := h
      have hquest := htelling.waits quest List.mem_cons_self
      exact htelling.updateQuest hlisted rfl rfl (htelling.filed _ _ hquest).2 (fun _ => hopen) fun hfair hsmooth =>
        absurd (hlookup hsmooth).symm (hnext hfair hall)
    | some next =>
      refine .of_imp fun hfound => ?_
      have hfound := hfound.resolve_left (by rintro ⟨⟩)
      refine ((triple_getStepObjectives allowsLookups_telling next).pre fun s t h => h.2).bind fun objectives => ?_
      refine .bind (Q := fun _ => Settled data fair waiting)
        (.call (fun s t h => ?_) fun s t h => h.2.interrupted rfl)
        fun _ => triple_settled_call (fun _ => rfl) rfl rfl
      -- whatever has been announced of the step is left with it
      obtain ⟨hnew, htelling⟩ := h
      have hquest := htelling.waits quest List.mem_cons_self
      have hcurrent := (htelling.filed _ _ hquest).2
      refine htelling.updateQuest hlisted rfl rfl (wrap32_of_nextStep hfound.symm) hunfinished fun hfair hsmooth => ?_
      exact (htelling.announcing hfair hsmooth).leave hquest
        (fun stepId hstep => precedes_next hsteps hfound.symm hcurrent hstep) hactive
          ((hobjectives next).sublist hnew.1)
  · refine .call (fun s t h => ?_) fun s t h => h.interrupted rfl
    have hquest := h.waits quest List.mem_cons_self
    refine h.updateQuest hlisted rfl rfl (h.filed _ _ hquest).2 hunfinished fun hfair hsmooth => ?_
    exact (h.announcing hfair hsmooth).store hquest rfl hactive rfl hdone

/-- The quests that are read are handled one after the other, each as it was stored before. -/
theorem triple_forM_settled {f : CharacterQuest → Handler PUnit} (order : List CharacterQuest) (stored : Stored)
    (hf : ∀ quest waiting, Listed (quest :: waiting) → stored.quests.lookup quest.questId = some quest →
      Triple (Settled data fair (quest :: waiting)) (f quest) (fun _ => Settled data fair waiting)
        (Settled data fair [])) :
    Triple (fun s t => s = stored ∧ Settled data fair [] s t) (getActiveQuests order >>= fun active => active.forM f)
      (fun _ => Settled data fair []) (Settled data fair []) := by
  refine Triple.bind (Q := fun active s t => Listed active ∧ Waits active stored ∧ Settled data fair active s t) ?_
    fun active => ?_
  · refine (triple_getActiveQuests (fun s t ok h => ⟨h.1, h.2.cons (.inr rfl)⟩) (fun s t h => h.2.filed) order).mono
      (fun _ _ h => h) (fun active s t h => ?_) fun _ _ h => h.2
    obtain ⟨hlisted, hwaits, rfl, hsettled⟩ := h
    exact ⟨hlisted, hwaits, hsettled.filed, hwaits, hsettled.leavesOpen, hsettled.progress⟩
  · refine Triple.mono (Triple.forM (J := fun waiting s t => Listed waiting ∧ Waits waiting stored ∧
      Settled data fair waiting s t) fun quest waiting => ?_) (fun _ _ h => h) (fun _ _ _ h => h.2.2) fun _ _ h => h
    refine .of_imp fun hlisted => .of_imp fun hwaits => ?_
    have hquest := hwaits quest List.mem_cons_self
    refine (hf quest waiting hlisted hquest).mono (fun _ _ h => h) (fun _ _ _ h => ?_) fun _ _ h => h
    exact ⟨hlisted.tail, fun x hx => hwaits x (List.mem_cons_of_mem quest hx), h⟩

theorem triple_startSettled (hobjectives : DistinctObjectives data) (questId : Int) :
    Triple (Settled data fair []) (startQuest data questId) (fun _ => Settled data fair [])
      (Settled data fair []) := by
  unfold startQuest
  refine (triple_getFirstStepId allowsLookups_settled questId).bind fun first => .of_imp fun hfirst => ?_
  refine (triple_getStepObjectives allowsLookups_settled _).bind fun objectives => ?_
  refine .bind (Q := fun _ => Settled data fair []) (.call (fun s t h => ?_) fun s t h => ?_) fun _ =>
    (triple_settled_call (fun _ => rfl) rfl rfl).bind fun _ => triple_settled_call (fun _ => rfl) rfl rfl
  · obtain ⟨hnew, hsettled⟩ := h
    refine Settled.cons ⟨hsettled.filed.startQuest hfirst, fun _ hquest => absurd hquest List.not_mem_nil, ?_,
      fun hfair hsmooth => ?_⟩ (.inr rfl)
    · intro other quest hquest hfinished
      -- a quest that was there keeps its row, and the new one is not finished
      rcases lookup_startQuest hquest with hold | ⟨rfl, rfl⟩
      · exact hsettled.leavesOpen other quest hold hfinished
      · cases hfinished
    obtain ⟨hprogress, hdistinct⟩ := hsettled.progress hfair hsmooth
    refine ⟨⟨fun other stepId objectiveId hne => ?_, hprogress.once, fun other quest hquest hfinished => ?_⟩,
      fun other quest hquest => ?_⟩
    · -- the quests that are there stay, so what was kept or left is still so
      rcases hprogress.kept other stepId objectiveId hne with ⟨quest, hquest, hkept⟩ | ⟨quest, hquest, hleft⟩
      · exact .inl ⟨quest, lookup_startQuest_of_some hquest, hkept⟩
      · exact .inr ⟨quest, lookup_startQuest_of_some hquest, hleft⟩
    · rcases lookup_startQuest hquest with hold | ⟨rfl, rfl⟩
      · exact hprogress.ended other quest hold hfinished
      · cases hfinished
    · rcases lookup_startQuest hquest with hold | ⟨rfl, rfl⟩
      · exact hdistinct other quest hold
      · exact (hobjectives _).sublist hnew.1
  · exact .interrupted h.2.filed h.2.leavesOpen rfl

end

/-! ### Fair events -/

/-- The objectives of a quest after an event. -/
def QuestEvent.after : QuestEvent → List Objective → List Objective
  | .talk npcId, objectives =>
    match objectives.find? fun o => o.type = Objective.talkToNpc ∧ o.param0 = npcId ∧ !o.completed with
    | some o => complete (fun other => other.id = o.id) objectives
    | none => objectives
  | .winFight killed mapId, objectives => complete (defeats killed mapId) objectives
  | .reachLevel level, objectives => complete (fun o => o.type = Objective.reachLevel ∧ o.param0 ≤ level) objectives
  | _, objectives => objectives

/-- The event is the arrival that an objective asks for. -/
def QuestEvent.arrives : QuestEvent → Objective → Bool
  | .enterMap mapId, o => o.type = Objective.goToMap ∧ o.mapId = mapId
  | _, _ => false

/-- The event completes the step of the quest. -/
def QuestEvent.Completes (e : QuestEvent) (quest : CharacterQuest) : Prop :=
  quest.objectives.all Objective.completed = false ∧ (e.after quest.objectives).all Objective.completed = true

instance (e : QuestEvent) (quest : CharacterQuest) : Decidable (e.Completes quest) :=
  inferInstanceAs (Decidable (_ ∧ _))

/-- The event is no arrival that an active quest waits for, and it finishes no quest: there is a next one to each step
that it completes. -/
def Fair (data : GameData) (e : QuestEvent) (s : Stored) : Prop :=
  ∀ p ∈ s.quests.pairs, p.2.finished = false →
    (∀ o ∈ p.2.objectives, e.arrives o = true → o.completed = true) ∧
      (e.Completes p.2 → nextStep (questSteps data p.1) p.2.stepId ≠ none)

instance (data : GameData) (e : QuestEvent) (s : Stored) : Decidable (Fair data e s) :=
  inferInstanceAs (Decidable (∀ p ∈ s.quests.pairs, p.2.finished = false →
    (∀ o ∈ p.2.objectives, e.arrives o = true → o.completed = true) ∧
      (e.Completes p.2 → nextStep (questSteps data p.1) p.2.stepId ≠ none)))

/-- Every event of a history is fair when it happens. -/
def FairRun (data : GameData) : World → List Occasion → Prop
  | _, [] => True
  | w, o :: os => Fair data o.event w.stored ∧ FairRun data (w.step data o) os

instance decidableFairRun (data : GameData) : (w : World) → (os : List Occasion) → Decidable (FairRun data w os)
  | _, [] => .isTrue trivial
  | w, o :: os =>
    have := decidableFairRun data (w.step data o) os
    inferInstanceAs (Decidable (Fair data o.event w.stored ∧ FairRun data (w.step data o) os))

section

variable {data : GameData} {fair : Prop} {s : Stored} {e : QuestEvent} {quest : CharacterQuest}
  {waiting : List CharacterQuest}

theorem Fair.arrives (h : Fair data e s) (hquest : s.quests.lookup quest.questId = some quest)
    (hactive : quest.finished = false) : ∀ o ∈ quest.objectives, e.arrives o = true → o.completed = true :=
  (h (quest.questId, quest) (HashMap.lookup_eq_some.1 hquest) hactive).1

theorem Fair.next (h : Fair data e s) (hquest : s.quests.lookup quest.questId = some quest)
    (hactive : quest.finished = false) {o : Objective} (ho : o ∈ quest.objectives) (hopen : o.completed = false)
    (hafter : (e.after quest.objectives).all Objective.completed = true) :
    nextStep (questSteps data quest.questId) quest.stepId ≠ none := by
  have hbefore : quest.objectives.all Objective.completed = false := by
    by_contra hall
    have hcompleted := List.all_eq_true.1 (Bool.of_not_eq_false hall) o ho
    rw [hopen] at hcompleted
    cases hcompleted
  exact (h (quest.questId, quest) (HashMap.lookup_eq_some.1 hquest) hactive).2 ⟨hbefore, hafter⟩

/-- All objectives that satisfy a condition are validated. -/
theorem triple_validate (hsteps : DistinctSteps data) (hobjectives : DistinctObjectives data)
    (hfair : fair → Fair data e s) {matches' : Objective → Bool}
    (hafter : ∀ objectives, e.after objectives = complete matches' objectives) (order : List CharacterQuest) :
    Triple (fun s' t => s' = s ∧ Settled data fair [] s' t) (validateObjectives data order matches')
      (fun _ => Settled data fair []) (Settled data fair []) := by
  refine triple_forM_settled order s fun quest waiting hlisted hquest => ?_
  have hactive := hlisted.active quest List.mem_cons_self
  have hmem {o : Objective} (ho : o ∈ quest.objectives.filter fun o => !o.completed && matches' o) :
      o ∈ quest.objectives ∧ o.completed = false ∧ matches' o = true := by
    simpa using ho
  refine (triple_telling hsteps List.filter_sublist fun o ho => (hmem ho).2.1).bind fun _ => ?_
  split
  · rename_i hvalidated
    obtain ⟨o, ho⟩ := List.exists_mem_of_ne_nil _ hvalidated
    refine triple_completeAnnounced hsteps hobjectives hlisted (fun objectiveId hid => ?_)
      ⟨o, (hmem ho).1, (hmem ho).2.1⟩
      fun hyp hall => ?_
    · obtain ⟨o, ho, rfl⟩ := List.mem_map.1 hid
      exact ⟨o, (hmem ho).1, rfl, (hmem ho).2.2⟩
    · rw [← hafter] at hall
      exact (hfair hyp).next hquest hactive (hmem ho).1 (hmem ho).2.1 hall
  · rename_i hnone
    refine .pure fun s t h => h.settled fun _ => ?_
    rw [not_not.1 hnone]
    rfl

theorem triple_talk (hsteps : DistinctSteps data) (hobjectives : DistinctObjectives data) {npcId : Int}
    (hfair : fair → Fair data (.talk npcId) s) (order : List CharacterQuest) :
    Triple (fun s' t => s' = s ∧ Settled data fair [] s' t) (checkTalkToNpcObjective data order npcId)
      (fun _ => Settled data fair []) (Settled data fair []) := by
  refine triple_forM_settled order s fun quest waiting hlisted hquest => ?_
  have hactive := hlisted.active quest List.mem_cons_self
  split
  · exact .pure fun s t h => h.tail
  · rename_i o hfound
    have ho := List.mem_of_find?_eq_some hfound
    have hopen : o.completed = false := by
      have htrue := List.find?_some hfound
      simp only [Bool.not_eq_true', Bool.decide_and, Bool.and_eq_true, decide_eq_true_eq] at htrue
      exact htrue.2.2
    refine ((triple_tell hsteps ho hopen fun _ => List.not_mem_nil).pre fun s t h => h.telling).bind fun _ => ?_
    refine triple_completeAnnounced hsteps hobjectives hlisted (fun objectiveId hid => ?_)
      ⟨o, ho, hopen⟩ fun hyp hall => ?_
    · exact ⟨o, ho, (List.mem_singleton.1 hid).symm, decide_eq_true rfl⟩
    · refine (hfair hyp).next hquest hactive ho hopen ?_
      dsimp only [QuestEvent.after]
      rw [hfound]
      exact hall

/-- Nothing is announced on the arrival on a map that no quest waits for. -/
theorem triple_enterMap (hsteps : DistinctSteps data) {mapId : Int} (hfair : fair → Fair data (.enterMap mapId) s)
    (order : List CharacterQuest) :
    Triple (fun s' t => s' = s ∧ Settled data fair [] s' t) (checkMapObjectives order mapId)
      (fun _ => Settled data fair []) (Settled data fair []) := by
  refine triple_forM_settled order s fun quest waiting hlisted hquest => ?_
  refine (triple_telling hsteps List.filter_sublist fun o ho => ?_).mono (fun _ _ h => h)
    (fun _ s t h => h.settled fun hyp => ?_) fun _ _ h => h
  · simpa using (of_decide_eq_true (List.mem_filter.1 ho).2).1
  · rw [List.map_eq_nil_iff]
    refine List.filter_eq_nil_iff.2 fun o ho hwaits => ?_
    have hwaits := of_decide_eq_true hwaits
    have hcompleted := (hfair hyp).arrives hquest (hlisted.active quest List.mem_cons_self) o ho
      (decide_eq_true hwaits.2)
    rw [hcompleted] at hwaits
    exact absurd hwaits.1 (by decide)

theorem triple_occasion (hsteps : DistinctSteps data) (hobjectives : DistinctObjectives data) {o : Occasion}
    (hfair : fair → Fair data o.event s) :
    Triple (fun s' t => s' = s ∧ Settled data fair [] s' t) (o.handler data)
      (fun _ => Settled data fair []) (Settled data fair []) := by
  unfold Occasion.handler
  cases hevent : o.event with
  | start questId => exact (triple_startSettled hobjectives questId).pre fun s t h => h.2
  | talk npcId => exact triple_talk hsteps hobjectives (hevent ▸ hfair) o.order
  | enterMap mapId => exact triple_enterMap hsteps (hevent ▸ hfair) o.order
  | winFight killed mapId =>
    exact triple_validate hsteps hobjectives (hevent ▸ hfair) (fun _ => rfl) o.order
  | reachLevel level =>
    exact triple_validate hsteps hobjectives (hevent ▸ hfair) (fun _ => rfl) o.order

/-! ### Runs -/

/-- What holds between the handlers holds after any history. -/
theorem settled_run (hsteps : DistinctSteps data) (hobjectives : DistinctObjectives data) {w : World}
    (hw : Settled data fair [] w.stored w.calls) {os : List Occasion} (hfair : fair → FairRun data w os) :
    Settled data fair [] (w.run data os).stored (w.run data os).calls := by
  induction os generalizing w with
  | nil => exact hw
  | cons o os ih =>
    have hstep := @Triple.result _ _ _ _ _ _ { state := w.stored, calls := w.calls, faults := o.faults }
      (triple_occasion hsteps hobjectives fun hyp => (hfair hyp).1) ⟨rfl, hw⟩
    exact ih hstep fun hyp => (hfair hyp).2

/-- As long as no arrival is waited for, no quest is finished, and only lookups and awards fail, what the client is
told is kept.  Whatever happens, a quest that is finished keeps an objective that is not completed. -/
theorem progress_run (hsteps : DistinctSteps data) (hobjectives : DistinctObjectives data)
    (row : Option Row) (kamas : Int)
    (items : List (Int × Int)) (os : List Occasion) :
    (FairRun data (World.start row kamas items) os → Smooth ((World.start row kamas items).run data os).calls →
      Progress data ((World.start row kamas items).run data os).stored
        ((World.start row kamas items).run data os).calls) ∧
      ((World.start row kamas items).run data os).stored.LeavesOpen := by
  have hstart : Settled data (FairRun data (World.start row kamas items) os) [] (World.start row kamas items).stored
      (World.start row kamas items).calls := by
    refine ⟨fun questId quest hquest => ?_, fun _ hquest => absurd hquest List.not_mem_nil,
      fun questId quest hquest => ?_,
      fun _ _ => ⟨⟨?_, ?_, ?_⟩, ?_⟩⟩
    · cases hquest
    · cases hquest
    · intro questId stepId objectiveId hne
      exact absurd rfl hne
    · exact fun _ => Nat.zero_le 1
    · intro questId quest hquest
      cases hquest
    · intro questId quest hquest
      cases hquest
  have hrun := settled_run hsteps hobjectives hstart id
  exact ⟨fun hfair hsmooth => (hrun.progress hfair hsmooth).1, hrun.leavesOpen⟩

end

/-! ### Chores -/

/-- The steps of the errand; the first one asks for a talk with the character 5 and for the level 3. -/
def chores : GameData where
  objects
    | "QuestSteps" =>
      [(10, .object [("objectiveIds", .array [.number (.posInt 100), .number (.posInt 102)])]),
        (11, .object [("objectiveIds", .array [.number (.posInt 101)])])]
    | "QuestObjectives" =>
      (102,
        .object [("typeId", .number (.posInt 7)), ("parameters", .object [("parameter0", .number (.posInt 3))])]) ::
        errand.objects "QuestObjectives"
    | fileName => errand.objects fileName

/-- The character talks, reaches the level, and talks again; the rewards of the first step cannot be written. -/
def choresHistory : List Occasion :=
  [⟨.start 1, [], []⟩, ⟨.talk 5, [], []⟩, ⟨.enterMap 154010883, [], []⟩,
    ⟨.reachLevel 3, [], [false, false, false, false, true]⟩, ⟨.talk 6, [], []⟩]

theorem distinctSteps_chores : DistinctSteps chores := distinctSteps_errand

theorem distinctObjectives_chores : DistinctObjectives chores := by
  intro stepId
  by_cases hfirst : stepId = 10
  · subst hfirst
    decide
  · by_cases hsecond : stepId = 11
    · subst hsecond
      decide
    · have hnone : objectiveIds chores stepId = [] := by
        have hfirst : (stepId == 10) = false := beq_eq_false_iff_ne.2 hfirst
        have hsecond : (stepId == 11) = false := beq_eq_false_iff_ne.2 hsecond
        simp [objectiveIds, chores, List.lookup_cons, hfirst, hsecond]
      rw [hnone]
      exact List.nodup_nil

theorem progress_run_chores :
    Progress chores ((World.start (some (.novice 0 0)) 0 []).run chores choresHistory).stored
      ((World.start (some (.novice 0 0)) 0 []).run chores choresHistory).calls :=
  (progress_run distinctSteps_chores distinctObjectives_chores _ _ _ _).1 (by decide +kernel) (by decide +kernel)

/-- A quest of one step, which asks for the arrival on the map 154010883. -/
def arrival : GameData where
  objects
    | "Quests" => [(2, .object [("stepIds", .array [.number (.posInt 20)])])]
    | "QuestSteps" => [(20, .object [("objectiveIds", .array [.number (.posInt 200)])])]
    | "QuestObjectives" =>
      [(200, .object [("typeId", .number (.posInt 3)), ("mapId", .number (.float 4729443756812533760))])]
    | _ => []

/-- The quest is started, and the character arrives twice. -/
def arrivals : List Occasion := [⟨.start 2, [], []⟩, ⟨.enterMap 154010883, [], []⟩, ⟨.enterMap 154010883, [], []⟩]

/-- The first step of the errand is completed, but its quest cannot be looked up. -/
def lostLookup : List Occasion := [⟨.start 1, [], []⟩, ⟨.talk 5, [], [false, false, false, false, false, true]⟩]

/-- The second arrival announces the objective again; the errand is finished at its first step; and where it is
finished at its last step, without a failure, the objective of that step is not stored as completed. -/
theorem not_progress_run :
    ¬Progress arrival ((World.start none 0 []).run arrival arrivals).stored
        ((World.start none 0 []).run arrival arrivals).calls ∧
      ¬Progress errand ((World.start none 0 []).run errand lostLookup).stored
        ((World.start none 0 []).run errand lostLookup).calls ∧
      ¬Progress errand ((World.start none 0 []).run errand (errandHistory [])).stored
        ((World.start none 0 []).run errand (errandHistory [])).calls := by
  refine ⟨fun h => ?_, fun h => ?_, fun h => ?_⟩
  · exact absurd (h.once (2, 20, 200)) (by decide +kernel)
  · have hended := h.ended 1 ⟨1, 10, true, [⟨100, 0, 5, 0, false⟩]⟩ (by decide +kernel) rfl
    exact absurd hended.1 (by decide)
  · have hended := h.ended 1 ⟨1, 11, true, [⟨101, 0, 5, 0, false⟩]⟩ (by decide +kernel) rfl
    exact absurd (hended.2 ⟨101, 0, 5, 0, false⟩ List.mem_cons_self) (by decide)

end Otomai.Quests
