import Otomai.Quests.Steps

/-!
# Rewards of quest steps

The rewards of a step are written before the next step is stored, with sends to the client in between.  Once one of
these calls fails, the step is as it was, and the next event that validates an objective of it awards it again.

* `awarded_le_one`: as long as no such call fails and no quest returns to a step, every part of the rewards of a step
  is written at most once.
* `not_once_lostMessage`: it is written twice after a message that is lost.
-/

namespace Otomai.Quests

open Machine Otomai.DataReader Otomai.Handlers Fallible Trace

/-! ### Records -/

/-- The part of the rewards that a call writes. -/
def Call.reward : Call → Option (Int × Int × Part)
  | .rewardExperience questId stepId _ => some (questId, stepId, .experience)
  | .rewardKamas questId stepId _ => some (questId, stepId, .kamas)
  | .rewardItem questId stepId i _ _ => some (questId, stepId, .item i)
  | _ => none

/-- The call stores how far a quest has come. -/
def Call.storesProgress : Call → Bool
  | .updateQuestStep .. | .completeQuest _ => true
  | _ => false

/-- The handlers go on after a failure of the call. -/
def Call.isAttempted : Call → Bool
  | .lookup .. => true
  | c => c.reward.isSome

/-- How often a part of the rewards of a step has been written. -/
def awarded (t : Record) (x : Int × Int × Part) : Nat := t.countP fun p => p.2 && p.1.reward = some x

/-- A reward has been written, and nothing has been stored of its quest since. -/
def owing : Record → Bool
  | [] => false
  | p :: t =>
    if p.2 && p.1.reward.isSome then true
    else if p.2 && p.1.storesProgress then false
    else owing t

/-- No call that ends a handler has failed while a reward was written whose step was not left yet. -/
def Undisturbed : Record → Prop
  | [] => True
  | p :: t => (p.2 = true ∨ p.1.isAttempted = true ∨ owing t = false) ∧ Undisturbed t

instance decidableUndisturbed : (t : Record) → Decidable (Undisturbed t)
  | [] => .isTrue trivial
  | p :: t =>
    have := decidableUndisturbed t
    inferInstanceAs (Decidable ((p.2 = true ∨ p.1.isAttempted = true ∨ owing t = false) ∧ Undisturbed t))

section

variable {t : Record} {c : Call} {ok : Bool} {x : Int × Int × Part}

/-- A call that writes no reward is not counted. -/
theorem awarded_cons_of_none (h : ok = false ∨ c.reward = none) : awarded ((c, ok) :: t) x = awarded t x := by
  unfold awarded
  rw [List.countP_cons_of_neg]
  rcases h with rfl | h
  · simp
  · simp [h]

theorem awarded_cons_of_some (h : c.reward = some x) : awarded ((c, true) :: t) x = awarded t x + 1 := by
  unfold awarded
  rw [List.countP_cons_of_pos]
  simp [h]

theorem awarded_cons_of_ne (h : c.reward ≠ some x) : awarded ((c, ok) :: t) x = awarded t x := by
  unfold awarded
  rw [List.countP_cons_of_neg]
  simp [h]

theorem owing_cons_of_neutral (h : ok = false ∨ c.reward = none ∧ c.storesProgress = false) :
    owing ((c, ok) :: t) = owing t := by
  rcases h with rfl | ⟨hreward, hprogress⟩
  · simp [owing]
  · simp [owing, hreward, hprogress]

theorem owing_cons_of_reward (h : c.reward = some x) : owing ((c, true) :: t) = true := by
  simp [owing, h]

end

/-! ### Invariants -/

/-- Whatever has been rewarded has been rewarded once, and its step has been left. -/
structure Kept (data : GameData) (s : Stored) (t : Record) : Prop where
  left : ∀ questId stepId part, awarded t (questId, stepId, part) ≠ 0 → s.IsPast data questId stepId
  once : ∀ x, awarded t x ≤ 1

/-- The current step of a quest may have been rewarded as well, except for some parts. -/
structure Owed (data : GameData) (quest : CharacterQuest) (rest : Part → Prop) (s : Stored) (t : Record) : Prop where
  left : ∀ questId stepId part, awarded t (questId, stepId, part) ≠ 0 →
    questId = quest.questId ∧ stepId = quest.stepId ∧ owing t = true ∨ s.IsPast data questId stepId
  once : ∀ x, awarded t x ≤ 1
  rest : ∀ part, rest part → awarded t (quest.questId, quest.stepId, part) = 0

section

variable {data : GameData} {s s' : Stored} {t : Record} {c : Call} {ok : Bool} {quest : CharacterQuest}
  {rest : Part → Prop}

theorem Kept.cons (h : Kept data s t) (hc : ok = false ∨ c.reward = none) : Kept data s ((c, ok) :: t) where
  left questId stepId part hne := h.left questId stepId part (awarded_cons_of_none hc ▸ hne)
  once x := (awarded_cons_of_none hc).symm ▸ h.once x

theorem Owed.cons (h : Owed data quest rest s t)
    (hc : ok = false ∨ c.reward = none ∧ c.storesProgress = false) : Owed data quest rest s ((c, ok) :: t) := by
  have hnone : ok = false ∨ c.reward = none := hc.imp_right And.left
  constructor
  · intro questId stepId part hne
    rw [owing_cons_of_neutral hc]
    exact h.left questId stepId part (awarded_cons_of_none hnone ▸ hne)
  · exact fun x => (awarded_cons_of_none hnone).symm ▸ h.once x
  · exact fun part hpart => (awarded_cons_of_none hnone).trans (h.rest part hpart)

theorem Owed.kept (h : Owed data quest rest s t) (howing : owing t = false) : Kept data s t where
  left questId stepId part hne := by
    rcases h.left questId stepId part hne with ⟨-, -, howed⟩ | hleft
    · rw [howing] at howed
      cases howed
    · exact hleft
  once := h.once

theorem Owed.congr (h : Owed data quest rest s t) (hs : s'.quests = s.quests) : Owed data quest rest s' t where
  left questId stepId part hne := by
    unfold Stored.IsPast
    rw [hs]
    exact h.left questId stepId part hne
  once := h.once
  rest := h.rest

/-- At its current step an active quest has not been rewarded. -/
theorem Kept.owed (hdata : DistinctSteps data) (h : Kept data s t)
    (hquest : s.quests.lookup quest.questId = some quest)
    (hactive : quest.finished = false) : Owed data quest (fun _ => True) s t where
  left questId stepId part hne := .inr (h.left questId stepId part hne)
  once := h.once
  rest part _ := by
    by_contra hne
    obtain ⟨quest', hquest', hleft⟩ := h.left _ _ part hne
    obtain rfl := Option.some.inj (hquest.symm.trans hquest')
    rcases hleft with hfinished | hprecedes
    · rw [hactive] at hfinished
      cases hfinished
    · exact not_precedes_self hdata _ _ hprecedes

/-- A part of the rewards is written. -/
theorem Owed.reward {part : Part} (h : Owed data quest rest s t)
    (hc : c.reward = some (quest.questId, quest.stepId, part)) (hpart : rest part) :
    Owed data quest (fun p => rest p ∧ p ≠ part) s ((c, true) :: t) := by
  have howing : owing ((c, true) :: t) = true := owing_cons_of_reward hc
  have hother {x : Int × Int × Part} (hx : x ≠ (quest.questId, quest.stepId, part)) :
      awarded ((c, true) :: t) x = awarded t x :=
    awarded_cons_of_ne fun heq => hx (Option.some.inj (heq.symm.trans hc))
  constructor
  · intro questId stepId p hne
    by_cases hx : (questId, stepId, p) = (quest.questId, quest.stepId, part)
    · obtain ⟨rfl, hrest⟩ := Prod.mk.inj hx
      obtain ⟨rfl, -⟩ := Prod.mk.inj hrest
      exact .inl ⟨rfl, rfl, howing⟩
    · rw [hother hx] at hne
      exact (h.left questId stepId p hne).imp_left fun howed => ⟨howed.1, howed.2.1, howing⟩
  · intro x
    by_cases hx : x = (quest.questId, quest.stepId, part)
    · rw [hx, awarded_cons_of_some hc, h.rest part hpart]
    · rw [hother hx]
      exact h.once x
  · intro p hp
    rw [hother fun heq => hp.2 (congrArg (fun x => x.2.2) heq)]
    exact h.rest p hp.1

/-- The quest leaves its step. -/
theorem Owed.updateQuest (h : Owed data quest rest s t) (hquest : s.quests.lookup quest.questId = some quest)
    (hc : c.reward = none) {f : CharacterQuest → CharacterQuest}
    (hf : (f quest).finished = true ∨ ∀ stepId,
      (stepId = quest.stepId ∨ Precedes (questSteps data quest.questId) stepId quest.stepId) →
        Precedes (questSteps data quest.questId) stepId (f quest).stepId)
    (hactive : quest.finished = false) : Kept data (s.updateQuest quest.questId f) ((c, true) :: t) := by
  refine Kept.cons ⟨fun questId stepId part hne => ?_, h.once⟩ (.inr hc)
  by_cases hid : questId = quest.questId
  · subst hid
    refine ⟨f quest, lookup_updateQuest hquest, ?_⟩
    refine hf.imp_right fun hf => hf stepId ?_
    rcases h.left _ stepId part hne with ⟨-, hstep, -⟩ | ⟨quest', hquest', hleft⟩
    · exact .inl hstep
    · obtain rfl := Option.some.inj (hquest.symm.trans hquest')
      exact .inr (hleft.resolve_left fun hfinished => by rw [hactive] at hfinished; cases hfinished)
  · rcases h.left questId stepId part hne with ⟨heq, -⟩ | hleft
    · exact absurd heq hid
    · unfold Stored.IsPast
      rw [lookup_updateQuest_of_ne hid]
      exact hleft

/-- The quest stays at its step. -/
theorem Kept.updateQuest (h : Kept data s t) (hquest : s.quests.lookup quest.questId = some quest)
    {f : CharacterQuest → CharacterQuest} (hfinished : (f quest).finished = quest.finished)
    (hstep : (f quest).stepId = quest.stepId) : Kept data (s.updateQuest quest.questId f) t where
  left questId stepId part hne := by
    by_cases hid : questId = quest.questId
    · subst hid
      obtain ⟨quest', hquest', hleft⟩ := h.left _ stepId part hne
      obtain rfl := Option.some.inj (hquest.symm.trans hquest')
      refine ⟨f quest, lookup_updateQuest hquest, ?_⟩
      rw [hfinished, hstep]
      exact hleft
    · unfold Stored.IsPast
      rw [lookup_updateQuest_of_ne hid]
      exact h.left questId stepId part hne
  once := h.once

end

/-! ### Awards -/

/-- An award changes no quest. -/
theorem quests_act_of_reward (s : Stored) {c : Call} {x : Int × Int × Part} (h : c.reward = some x) :
    (act s c).quests = s.quests := by
  cases c with
  | rewardExperience => rfl
  | rewardKamas => rfl
  | rewardItem => rfl
  | _ => cases h

/-- Assertions that hold along the award of a step, while the parts that satisfy `rest` are not written yet. -/
structure Along (questId stepId : Int) (I : (Part → Prop) → Stored → Record → Prop) (E : Stored → Record → Prop) :
    Prop where
  mono : ∀ {rest rest' : Part → Prop} {s t}, I rest s t → (∀ part, rest' part → rest part) → I rest' s t
  query : ∀ rest, Triple (I rest) (call .query) (fun _ => I rest) E
  gain : ∀ rest experience, Triple (I rest) (call (.send (.experienceGain experience))) (fun _ => I rest) E
  reward : ∀ {rest : Part → Prop} {part c}, c.reward = some (questId, stepId, part) → rest part →
    Triple (I rest) (attempt (call c)) (fun _ => I fun p => rest p ∧ p ≠ part) E

namespace Along

variable {questId stepId : Int} {I : (Part → Prop) → Stored → Record → Prop} {E : Stored → Record → Prop}
  {rest : Part → Prop}

theorem awardExperience (h : Along questId stepId I E) (hexperience : rest .experience) (reward : Value) (row : Row) :
    Triple (I rest) (awardExperience questId stepId reward row) (fun _ => I fun p => rest p ∧ p ≠ .experience) E := by
  unfold Quests.awardExperience
  split
  · exact (h.reward rfl hexperience).bind fun _ => h.gain _ _
  · exact .pure fun _ _ hi => h.mono hi fun p hp => hp.1

theorem awardKamas (h : Along questId stepId I E) (hkamas : rest .kamas) (reward : Value) (row : Row) (kamas : Int) :
    Triple (I rest) (awardKamas questId stepId reward row kamas) (fun _ => I fun p => rest p ∧ p ≠ .kamas) E := by
  unfold Quests.awardKamas
  split
  · exact (h.reward rfl hkamas).bind fun _ => .pure fun _ _ hi => hi
  · exact .pure fun _ _ hi => h.mono hi fun p hp => hp.1

/-- The items are written one after the other. -/
theorem awardItems (h : Along questId stepId I E) (entries : List Value) (i : Nat)
    (hitems : ∀ k, i ≤ k → rest (.item k)) :
    Triple (I rest) (awardItems questId stepId i entries) (fun _ => I fun _ => False) E := by
  induction entries generalizing i rest with
  | nil => exact .pure fun _ _ hi => h.mono hi fun p hp => hp.elim
  | cons entry entries ih =>
    unfold Quests.awardItems
    cases rewardedItem entry with
    | none => exact ih (i + 1) fun k hk => hitems k (by omega)
    | some reward =>
      obtain ⟨itemId, quantity⟩ := reward
      refine (h.reward rfl (hitems i le_rfl)).bind fun _ => ih (i + 1) fun k hk => ⟨hitems k (by omega), ?_⟩
      intro heq
      obtain rfl := Part.item.inj heq
      omega

theorem awardStepRewards (h : Along questId stepId I E) (data : GameData) :
    Triple (I fun _ => True) (awardStepRewards data questId stepId) (fun _ => I fun _ => False) E := by
  unfold Quests.awardStepRewards
  have hread : Triple (I fun _ => True) (getAllGameData data "QuestStepRewards") (fun _ => I fun _ => True) E :=
    (h.query _).bind fun _ => .pure fun _ _ hi => hi
  refine hread.bind fun allRewards => ?_
  split
  · exact .pure fun _ _ hi => h.mono hi fun _ hp => hp.elim
  · refine (h.query _).bind fun _ => .bind (.read (Q := fun _ => I fun _ => True) fun _ _ hi => hi) fun stored => ?_
    split
    · exact .pure fun _ _ hi => h.mono hi fun _ hp => hp.elim
    · refine (h.awardExperience trivial _ _).bind fun _ => ?_
      refine (h.awardKamas ⟨trivial, by rintro ⟨⟩⟩ _ _ _).bind fun _ => ?_
      exact h.awardItems _ 0 fun k _ => ⟨⟨trivial, by rintro ⟨⟩⟩, by rintro ⟨⟩⟩

end Along

/-! ### Handlers -/

/-- What holds between the handlers, and while some quests wait. -/
def Safe (data : GameData) (waiting : List CharacterQuest) (s : Stored) (t : Record) : Prop :=
  s.Filed ∧ Waits waiting s ∧ (Undisturbed t → Kept data s t)

/-- What holds while the step of a quest is awarded. -/
def Awarding (data : GameData) (quest : CharacterQuest) (rest : Part → Prop)
    (waiting : List CharacterQuest) (s : Stored)
    (t : Record) : Prop :=
  s.Filed ∧ Waits (quest :: waiting) s ∧ (Undisturbed t → Owed data quest rest s t)

section

variable {data : GameData} {s : Stored} {t : Record} {c : Call} {ok : Bool} {quest : CharacterQuest}
  {rest rest' : Part → Prop} {waiting : List CharacterQuest} {E : Stored → Record → Prop}

theorem Safe.cons (h : Safe data waiting s t) (hc : ok = false ∨ c.reward = none) :
    Safe data waiting s ((c, ok) :: t) :=
  ⟨h.1, h.2.1, fun hundisturbed => (h.2.2 hundisturbed.2).cons hc⟩

theorem Safe.nil (h : Safe data waiting s t) : Safe data [] s t :=
  ⟨h.1, fun _ hquest => absurd hquest List.not_mem_nil, h.2.2⟩

theorem Safe.tail (h : Safe data (quest :: waiting) s t) : Safe data waiting s t :=
  ⟨h.1, fun x hx => h.2.1 x (List.mem_cons_of_mem quest hx), h.2.2⟩

theorem Awarding.cons (h : Awarding data quest rest waiting s t)
    (hc : ok = false ∨ c.reward = none ∧ c.storesProgress = false) :
    Awarding data quest rest waiting s ((c, ok) :: t) :=
  ⟨h.1, h.2.1, fun hundisturbed => (h.2.2 hundisturbed.2).cons hc⟩

theorem Awarding.mono (h : Awarding data quest rest waiting s t) (hrest : ∀ part, rest' part → rest part) :
    Awarding data quest rest' waiting s t :=
  ⟨h.1, h.2.1, fun hundisturbed => ⟨(h.2.2 hundisturbed).left, (h.2.2 hundisturbed).once,
    fun part hpart => (h.2.2 hundisturbed).rest part (hrest part hpart)⟩⟩

/-- An award that is interrupted has either written nothing, or it is a disturbance. -/
theorem Awarding.interrupted (h : Awarding data quest rest waiting s t) (hc : c.isAttempted = false) :
    Safe data [] s ((c, false) :: t) := by
  refine ⟨h.1, fun _ hquest => absurd hquest List.not_mem_nil, fun hundisturbed => ?_⟩
  obtain ⟨hcall, ht⟩ := hundisturbed
  have howing : owing t = false := by
    rcases hcall with hok | hattempted | howing
    · cases hok
    · rw [hc] at hattempted
      cases hattempted
    · exact howing
  exact ((h.2.2 ht).kept howing).cons (.inl rfl)

/-- The quest leaves the step that has been awarded. -/
theorem Awarding.leave (h : Awarding data quest rest waiting s t) (hlisted : Listed (quest :: waiting))
    (hc : c.reward = none)
    {f : CharacterQuest → CharacterQuest}
    (hf : (f quest).finished = true ∨ ∀ stepId,
      (stepId = quest.stepId ∨ Precedes (questSteps data quest.questId) stepId quest.stepId) →
        Precedes (questSteps data quest.questId) stepId (f quest).stepId)
    (hid : (f quest).questId = quest.questId) (hstep : wrap32 (f quest).stepId = (f quest).stepId) :
    Safe data waiting (s.updateQuest quest.questId f) ((c, true) :: t) := by
  have hquest := h.2.1 quest List.mem_cons_self
  refine ⟨h.1.updateQuest hquest hid hstep, ?_, fun hundisturbed => ?_⟩
  · exact Waits.updateQuest (fun x hx => h.2.1 x (List.mem_cons_of_mem quest hx)) hlisted.other
  · exact (h.2.2 hundisturbed.2).updateQuest hquest hc hf (hlisted.active quest List.mem_cons_self)

theorem allowsLookups_awarding : AllowsLookups (Awarding data quest rest waiting) :=
  fun _ _ _ _ _ h => h.cons (.inr ⟨rfl, rfl⟩)

theorem allowsLookups_safe : AllowsLookups (Safe data waiting) := fun _ _ _ _ _ h => h.cons (.inr rfl)

/-- A call that is recorded only. -/
theorem triple_safe_call (hact : ∀ s : Stored, act s c = s) (hc : c.reward = none) :
    Triple (Safe data waiting) (call c) (fun _ => Safe data waiting) (Safe data []) :=
  .call (fun s _ h => (hact s).symm ▸ h.cons (.inr hc)) fun _ _ h => (h.cons (.inl rfl)).nil

theorem triple_awarding_call (hact : ∀ s : Stored, act s c = s) (hc : c.reward = none ∧ c.storesProgress = false)
    (hattempted : c.isAttempted = false) :
    Triple (Awarding data quest rest waiting) (call c) (fun _ => Awarding data quest rest waiting) (Safe data []) :=
  .call (fun s _ h => (hact s).symm ▸ h.cons (.inr hc)) fun _ _ h => h.interrupted hattempted

/-- A part of the rewards is written, or the write fails, which is ignored. -/
theorem triple_reward {part : Part} (hc : c.reward = some (quest.questId, quest.stepId, part)) (hpart : rest part) :
    Triple (Awarding data quest rest waiting) (attempt (call c))
      (fun _ => Awarding data quest (fun p => rest p ∧ p ≠ part) waiting) E := by
  refine .attempt (.call (fun s t h => ?_) fun s t h => (h.cons (.inl rfl)).mono fun p hp => hp.1)
  obtain ⟨hfiled, hwaits, howed⟩ := h
  have hact := quests_act_of_reward s hc
  refine ⟨?_, ?_, fun hundisturbed => ((howed hundisturbed.2).reward hc hpart).congr hact⟩
  · unfold Stored.Filed
    rw [hact]
    exact hfiled
  · unfold Waits
    rw [hact]
    exact hwaits

theorem along_awarding :
    Along quest.questId quest.stepId (fun rest => Awarding data quest rest waiting) (Safe data []) where
  mono h hrest := h.mono hrest
  query _ := triple_awarding_call (fun _ => rfl) ⟨rfl, rfl⟩ rfl
  gain _ _ := triple_awarding_call (fun _ => rfl) ⟨rfl, rfl⟩ rfl
  reward hc hpart := triple_reward hc hpart

/-- A quest whose step may have been completed: it is awarded and left, or its objectives are stored. -/
theorem triple_completeStepIfDone (hdata : DistinctSteps data) (hlisted : Listed (quest :: waiting))
    (objectives : List Objective) :
    Triple (Safe data (quest :: waiting)) (completeStepIfDone data quest.questId quest.stepId objectives)
      (fun _ => Safe data waiting) (Safe data []) := by
  have hactive := hlisted.active quest List.mem_cons_self
  unfold completeStepIfDone
  split
  · have haward : Triple (Safe data (quest :: waiting)) (awardStepRewards data quest.questId quest.stepId)
        (fun _ => Awarding data quest (fun _ => False) waiting) (Safe data []) := by
      refine (along_awarding.awardStepRewards data).pre fun s t h => ⟨h.1, h.2.1, fun hundisturbed => ?_⟩
      exact (h.2.2 hundisturbed).owed hdata (h.2.1 quest List.mem_cons_self) hactive
    refine haward.bind fun _ => (triple_awarding_call (fun _ => rfl) ⟨rfl, rfl⟩ rfl).bind fun _ => ?_
    refine (triple_getNextStepId allowsLookups_awarding _ _).bind fun next => ?_
    cases next with
    | none =>
      refine .bind (Q := fun _ => Safe data waiting)
        (.call (fun s t h => ?_) fun s t h => h.2.interrupted rfl) fun _ =>
        triple_safe_call (fun _ => rfl) rfl
      exact h.2.leave hlisted rfl (.inl rfl) rfl (h.2.1 _ _ (h.2.2.1 quest List.mem_cons_self)).2
    | some next =>
      refine .of_imp fun hnext => ?_
      have hnext := hnext.resolve_left (by rintro ⟨⟩)
      refine (triple_getStepObjectives allowsLookups_awarding _).bind fun objectives => ?_
      refine .bind (Q := fun _ => Safe data waiting)
        (.call (fun s t h => ?_) fun s t h => h.2.interrupted rfl) fun _ =>
        triple_safe_call (fun _ => rfl) rfl
      have hcurrent := (h.2.1 _ _ (h.2.2.1 quest List.mem_cons_self)).2
      exact h.2.leave hlisted rfl (.inr fun stepId hstep => precedes_next hdata hnext.symm hcurrent hstep) rfl
        (wrap32_of_nextStep hnext.symm)
  · refine .call (fun s t h => ?_) fun s t h => (h.cons (.inl rfl)).nil
    have hquest := h.2.1 quest List.mem_cons_self
    refine ⟨h.1.updateQuest hquest rfl (h.1 _ _ hquest).2, ?_, fun hundisturbed => ?_⟩
    · exact Waits.updateQuest (fun x hx => h.2.1 x (List.mem_cons_of_mem quest hx)) hlisted.other
    · exact ((h.2.2 hundisturbed.2).updateQuest hquest rfl rfl).cons (.inr rfl)

/-- The quests that are read are handled one after the other. -/
theorem triple_forM_active {f : CharacterQuest → Handler PUnit} (order : List CharacterQuest)
    (hf : ∀ quest waiting, Listed (quest :: waiting) →
      Triple (Safe data (quest :: waiting)) (f quest) (fun _ => Safe data waiting) (Safe data [])) :
    Triple (Safe data []) (getActiveQuests order >>= fun active => active.forM f) (fun _ => Safe data [])
      (Safe data []) := by
  refine (triple_getActiveQuests (fun _ _ _ h => h.cons (.inr rfl)) (fun _ _ h => h.1) order).bind fun active => ?_
  refine Triple.mono (P := fun s t => Listed active ∧ Safe data active s t)
    (Triple.forM (J := fun waiting s t => Listed waiting ∧ Safe data waiting s t) fun quest waiting => ?_)
    (fun s t h => ⟨h.1, h.2.2.1, h.2.1, h.2.2.2.2⟩) (fun _ _ _ h => h.2) fun _ _ h => h
  refine .of_imp fun hlisted => ?_
  exact (hf quest waiting hlisted).mono (fun _ _ h => h) (fun _ _ _ h => ⟨hlisted.tail, h⟩) fun _ _ h => h

/-- Objectives are announced. -/
theorem triple_announce (objectives : List Objective) (questId stepId : Int) :
    Triple (Safe data waiting) (objectives.forM fun o => call (.announce questId stepId o.id))
      (fun _ => Safe data waiting) (Safe data []) :=
  .forM (J := fun _ => Safe data waiting) fun _ _ => triple_safe_call (fun _ => rfl) rfl

theorem triple_startQuest (questId : Int) :
    Triple (Safe data []) (startQuest data questId) (fun _ => Safe data []) (Safe data []) := by
  unfold startQuest
  refine (triple_getFirstStepId allowsLookups_safe questId).bind fun first => .of_imp fun hfirst => ?_
  refine (triple_getStepObjectives allowsLookups_safe _).bind fun objectives => ?_
  refine .bind (Q := fun _ => Safe data []) (.call (fun s t h => ?_) fun s t h => h.2.cons (.inl rfl)) fun _ =>
    (triple_safe_call (fun _ => rfl) rfl).bind fun _ => triple_safe_call (fun _ => rfl) rfl
  obtain ⟨-, hfiled, -, hkept⟩ := h
  -- a quest that is new has been rewarded for nothing
  refine Safe.cons ⟨hfiled.startQuest hfirst, fun _ hquest => absurd hquest List.not_mem_nil, fun hundisturbed => ?_⟩
    (.inr rfl)
  have hkept := hkept hundisturbed
  exact ⟨fun other stepId part hne => (hkept.left other stepId part hne).startQuest, hkept.once⟩

theorem triple_handler (hdata : DistinctSteps data) (o : Occasion) :
    Triple (Safe data []) (o.handler data) (fun _ => Safe data []) (Safe data []) := by
  have hvalidate (matches' : Objective → Bool) : Triple (Safe data []) (validateObjectives data o.order matches')
      (fun _ => Safe data []) (Safe data []) := by
    refine triple_forM_active o.order fun quest waiting hlisted => (triple_announce _ _ _).bind fun _ => ?_
    split
    · exact triple_completeStepIfDone hdata hlisted _
    · exact .pure fun _ _ h => h.tail
  unfold Occasion.handler
  cases o.event with
  | start questId => exact triple_startQuest questId
  | talk npcId =>
    refine triple_forM_active o.order fun quest waiting hlisted => ?_
    split
    · exact .pure fun _ _ h => h.tail
    · exact (triple_safe_call (fun _ => rfl) rfl).bind fun _ => triple_completeStepIfDone hdata hlisted _
  | enterMap mapId =>
    exact triple_forM_active o.order fun quest waiting _ =>
      (triple_announce _ _ _).mono (fun _ _ h => h) (fun _ _ _ h => h.tail) fun _ _ h => h
  | winFight killed mapId => exact hvalidate _
  | reachLevel level => exact hvalidate _

/-! ### Runs -/

/-- A character without quests. -/
def World.start (row : Option Row) (kamas : Int) (items : List (Int × Int)) : World where
  stored := { row, kamas, items, quests := ∅ }
  calls := []

/-- What holds between the handlers holds after any history. -/
theorem safe_run (hdata : DistinctSteps data) {w : World} (hw : Safe data [] w.stored w.calls) (os : List Occasion) :
    Safe data [] (w.run data os).stored (w.run data os).calls := by
  induction os generalizing w with
  | nil => exact hw
  | cons o os ih =>
    have hstep := @Triple.result _ _ _ _ _ _ { state := w.stored, calls := w.calls, faults := o.faults }
      (triple_handler hdata o) hw
    exact ih hstep

/-- Every part of the rewards of a step is written at most once, as long as no quest lists a step twice and no award
is interrupted. -/
theorem awarded_le_one (hdata : DistinctSteps data) (row : Option Row) (kamas : Int) (items : List (Int × Int))
    (os : List Occasion) (h : Undisturbed ((World.start row kamas items).run data os).calls) (x : Int × Int × Part) :
    awarded ((World.start row kamas items).run data os).calls x ≤ 1 := by
  have hstart : Safe data [] (World.start row kamas items).stored (World.start row kamas items).calls := by
    refine ⟨?_, fun _ hquest => absurd hquest List.not_mem_nil, fun _ => ?_⟩
    · intro questId quest hquest
      cases hquest
    · exact ⟨fun _ _ _ hne => absurd rfl hne, fun _ => Nat.zero_le 1⟩
  exact ((safe_run hdata hstart os).2.2 h).once x

end

/-! ### An errand -/

/-- A quest of two steps; each asks for a talk with the character 5, and the first one is rewarded with an item. -/
def errand : GameData where
  objects
    | "Quests" => [(1, .object [("stepIds", .array [.number (.posInt 10), .number (.posInt 11)])])]
    | "QuestSteps" =>
      [(10, .object [("objectiveIds", .array [.number (.posInt 100)])]),
        (11, .object [("objectiveIds", .array [.number (.posInt 101)])])]
    | "QuestObjectives" =>
      [(100, .object [("parameters", .object [("parameter0", .number (.posInt 5))])]),
        (101, .object [("parameters", .object [("parameter0", .number (.posInt 5))])])]
    | "QuestStepRewards" =>
      [(1, .object [("stepId", .number (.posInt 10)),
        ("itemsReward", .array [.array [.number (.posInt 7), .number (.posInt 1)]])])]
    | _ => []

/-- The quest is started, and the character is talked to twice. -/
def errandHistory (faults : List Bool) : List Occasion :=
  [⟨.start 1, [], []⟩, ⟨.talk 5, [], faults⟩, ⟨.talk 5, [], []⟩]

theorem distinctSteps_errand : DistinctSteps errand := by
  intro questId i j stepId hi hj
  by_cases hid : questId = 1
  · subst hid
    have hstep (k : Nat) (h : stepAt (questSteps errand 1) k = some stepId) :
        k = 0 ∧ stepId = 10 ∨ k = 1 ∧ stepId = 11 := by
      have hfirst : stepAt (questSteps errand 1) 0 = some 10 := by decide
      have hsecond : stepAt (questSteps errand 1) 1 = some 11 := by decide
      rcases k with _ | _ | k
      · exact .inl ⟨rfl, Option.some.inj (h.symm.trans hfirst)⟩
      · exact .inr ⟨rfl, Option.some.inj (h.symm.trans hsecond)⟩
      · cases h
    have hi := hstep i hi
    have hj := hstep j hj
    omega
  · have hnone : questSteps errand questId = [] := by
      have hbeq : (questId == 1) = false := beq_eq_false_iff_ne.2 hid
      simp [questSteps, errand, List.lookup_cons, hbeq]
    rw [hnone] at hi
    cases hi

theorem awarded_le_one_errand :
    awarded ((World.start (some (.novice 0 0)) 0 []).run errand (errandHistory [])).calls (1, 10, .item 0) ≤ 1 :=
  awarded_le_one distinctSteps_errand _ _ _ _ (by decide) _

/-- The client is gone when it is told of the step. -/
theorem not_once_lostMessage :
    awarded ((World.start (some (.novice 0 0)) 0 []).run errand
      (errandHistory [false, false, false, false, false, true])).calls (1, 10, .item 0) = 2 := by
  decide

end Otomai.Quests
