import Mathlib.Data.List.Infix
import Otomai.Common.Double
import Otomai.Quests.State

/-!
# Experience and levels

The level of a character follows its experience: `build_stats` shows the experience between the floor of the level and
that of the next one.  A fight that is won raises the level by at most one, whatever the experience it gives, and the
rewards of a step do not raise it at all.

* `inStep_gain_iff`: after which gains the level is in step, if it was before.
* `inStep_iff`: it is in step in every state of a run if and only if all gains of the run are such.
-/

namespace Otomai.Quests

open Machine Otomai.DataReader Otomai.Handlers Fallible Trace

/-! ### Characteristics -/

/-- The experience at which the first level starts. -/
def level1Xp : Int := 0

/-- What the client shows of the experience of a character. -/
structure ExperienceCharacteristics where
  experience : Int
  experienceLevelFloor : Int
  experienceNextLevelFloor : Int
  deriving DecidableEq, Repr

/-- `build_stats`, as far as it goes by the experience. -/
def buildStats (row : Row) : ExperienceCharacteristics where
  experience := row.experience
  experienceLevelFloor := if row.sheet.level ≤ 1 then level1Xp else (row.sheet.level - 1) * 100
  experienceNextLevelFloor := row.sheet.level * 100

/-- The experience is that of the level; at the last level it no longer matters. -/
def InStep (row : Row) : Prop :=
  row.sheet.level < 200 →
    (buildStats row).experienceLevelFloor ≤ (buildStats row).experience ∧
      (buildStats row).experience < (buildStats row).experienceNextLevelFloor

instance (row : Row) : Decidable (InStep row) := inferInstanceAs (Decidable (_ → _))

/-! ### Gains -/

/-- The level rises by one. -/
def levelUp : Handler Unit := do
  let _ ← attempt (call .writeLevelUp)
  call (.send .other)

/-- The experience of a fight that is won. -/
def gainExperience (row : Row) (xpGained : Int) : Handler Unit := do
  call (.send (.experienceGain xpGained))
  let newXp := wrap64 (row.experience + xpGained)
  let _ ← attempt (call (.writeExperience newXp))
  if row.sheet.level * 100 ≤ newXp ∧ row.sheet.level < 200 then levelUp else pure ()

/-- `handle_fight_end`; what follows the messages, the return to the map, reads and writes neither level nor
experience. -/
def handleFightEnd (won : Bool) (row : Row) : Handler Unit := do
  let xpGained := if won then 50 * row.sheet.level else 0
  call (.send .other)
  (if won ∧ 0 < xpGained then gainExperience row xpGained else pure ())
  call (.send .other)
  call (.send .other)

/-- The end of a fight, for the character that is read before it. -/
def endFight (won : Bool) : Handler Unit := do
  call .query
  let stored ← read id
  match stored.row with
  | some row => handleFightEnd won row
  | none => pure ()

/-- A fight that has ended, or the rewards of a step of a quest. -/
inductive Source where
  | fight (won : Bool)
  | step (data : GameData) (questId stepId : Int)

/-- What gives experience, and which calls of its handler fail. -/
structure Gain where
  source : Source
  faults : List Bool

def Source.handler : Source → Handler Unit
  | .fight won => endFight won
  | .step data questId stepId => awardStepRewards data questId stepId

/-- What is stored after a gain. -/
def Stored.gain (s : Stored) (g : Gain) : Stored :=
  (g.source.handler { state := s, calls := [], faults := g.faults }).2.state

def Stored.gains (s : Stored) (gs : List Gain) : Stored := gs.foldl Stored.gain s

/-- A gain leaves the experience below the next level, or takes the character to a level it is below of.  The third
call after the reads stores the experience, and the fourth one the level. -/
def Gain.Fits (g : Gain) (row : Row) : Prop :=
  row.sheet.level < 200 →
  match g.source with
  | .fight won =>
    won = true → Pass g.faults 3 → row.sheet.level * 100 ≤ row.experience + 50 * row.sheet.level →
      (failsAt g.faults 3 = false → failsAt g.faults 4 = false) ∧
        (failsAt g.faults 4 = false → row.sheet.level + 1 < 200 →
          failsAt g.faults 3 = false ∧ row.experience + 50 * row.sheet.level < (row.sheet.level + 1) * 100)
  | .step data _ stepId =>
    Pass g.faults 3 → ∀ reward ∈ stepReward ((data.objects "QuestStepRewards").map Prod.snd) stepId,
      0 < ratio reward "experienceRatio" →
        row.experience + scaled (ratio reward "experienceRatio") row.sheet.level < row.sheet.level * 100

/-! ### What is stored -/

section

variable {s : Stored} {row : Row}

/-- A character that gains experience, when its experience or its level may fail to be stored. -/
def gained (row : Row) (xpGained : Int) (experienceFails levelFails : Bool) : Row :=
  let newXp := wrap64 (row.experience + xpGained)
  let row' := if experienceFails then row else row.withExperience newXp
  if (row.sheet.level * 100 ≤ newXp ∧ row.sheet.level < 200) ∧ levelFails = false then row'.levelUp else row'

theorem leaves_send (m : Message) : Leaves Stored.row (call (.send m)) := .call fun _ => rfl

/-- What a level makes of a character. -/
theorem row_levelUp (st : Stage Stored Call) : (levelUp st).2.state.row =
    if failsAt st.faults 0 then st.state.row else st.state.row.map Row.levelUp := by
  rw [levelUp, Leaves.bind_run fun _ => leaves_send .other, attempt, state_call]
  split <;> rfl

/-- The level rises if it is due. -/
theorem row_levelUp_if {c : Prop} [Decidable c] {st : Stage Stored Call} (hrow : st.state.row = some row) :
    ((if c then levelUp else pure ()) st).2.state.row =
      some (if c ∧ failsAt st.faults 0 = false then row.levelUp else row) := by
  by_cases hc : c
  · rw [if_pos hc, row_levelUp, hrow]
    cases hfault : failsAt st.faults 0 with
    | true => rw [if_pos rfl, if_neg fun h => by cases h.2]
    | false => rw [if_neg (by decide), if_pos ⟨hc, rfl⟩, Option.map_some]
  · rw [if_neg hc, if_neg fun h => hc h.1]
    exact hrow

theorem row_gainExperience {st : Stage Stored Call} (hrow : st.state.row = some row) (xpGained : Int) :
    (gainExperience row xpGained st).2.state.row = some
      (if failsAt st.faults 0 then row else gained row xpGained (failsAt st.faults 1) (failsAt st.faults 2)) := by
  unfold gainExperience
  cases h0 : failsAt st.faults 0 with
  | true =>
    rw [call_bind_of_fault _ h0]
    exact hrow
  | false =>
    rw [call_bind _ h0]
    cases h1 : failsAt st.faults 1 with
    | true =>
      rw [attempt_call_bind_of_fault _ h1]
      exact row_levelUp_if hrow
    | false =>
      rw [attempt_call_bind _ h1]
      refine row_levelUp_if ?_
      show st.state.row.map _ = some (row.withExperience _)
      rw [hrow, Option.map_some]

/-- What the end of a fight makes of a character. -/
theorem row_endFight {st : Stage Stored Call} (hrow : st.state.row = some row) (won : Bool) :
    (endFight won st).2.state.row = some
      (if won = true ∧ Pass st.faults 3 then
        gained row (50 * row.sheet.level) (failsAt st.faults 3) (failsAt st.faults 4)
      else row) := by
  have hpos := row.sheet.level_pos
  -- the row is as before unless the first three calls succeed
  have hfault {n : Nat} (hn : n < 3) (h : failsAt st.faults n = true) : ¬(won = true ∧ Pass st.faults 3) := by
    rintro ⟨-, hpass⟩
    rw [hpass n hn] at h
    cases h
  unfold endFight
  cases h0 : failsAt st.faults 0 with
  | true =>
    rw [call_bind_of_fault _ h0, if_neg (hfault (by decide) h0)]
    exact hrow
  | false =>
    rw [call_bind _ h0, read_bind]
    have hread : (id (act st.state Call.query) : Stored).row = some row := hrow
    dsimp only
    rw [hread]
    dsimp only
    unfold handleFightEnd
    cases h1 : failsAt st.faults 1 with
    | true =>
      rw [call_bind_of_fault _ h1, if_neg (hfault (by decide) h1)]
      exact hrow
    | false =>
      rw [call_bind _ h1, Leaves.bind_run fun _ => (leaves_send .other).bind fun _ => leaves_send .other]
      cases won with
      | false =>
        rw [if_neg (fun h => by cases h.1), if_neg (fun h => by cases h.1)]
        exact hrow
      | true =>
        rw [if_pos ⟨rfl, by rw [if_pos rfl]; omega⟩]
        -- two calls were made, so the faults of the gain begin with the third
        have hgain := @row_gainExperience row
          ⟨st.state, (.send .other, true) :: (.query, true) :: st.calls, st.faults.tail.tail⟩ hrow
            (50 * row.sheet.level)
        refine hgain.trans (congrArg some ?_)
        show (if failsAt st.faults 2 = true then row
          else gained row (50 * row.sheet.level) (failsAt st.faults 3) (failsAt st.faults 4)) = _
        cases h2 : failsAt st.faults 2 with
        | true => exact (if_neg (hfault (by decide) h2)).symm
        | false =>
          have hpass : Pass st.faults 3 := by
            rw [pass_succ, pass_succ, pass_succ]
            exact ⟨h0, h1, h2, pass_zero⟩
          exact (if_pos ⟨rfl, hpass⟩).symm

/-! ### Rewards -/

theorem leaves_awardItems (questId stepId : Int) (i : Nat) (entries : List Value) :
    Leaves Stored.row (awardItems questId stepId i entries) := by
  induction entries generalizing i with
  | nil => exact .pure ()
  | cons entry entries ih =>
    unfold awardItems
    split
    · exact .bind (.attempt (.call fun _ => rfl)) fun _ => ih (i + 1)
    · exact ih (i + 1)

theorem leaves_awardKamas (questId stepId : Int) (reward : Value) (kamas : Int) :
    Leaves Stored.row (awardKamas questId stepId reward row kamas) :=
  .ite (.bind (.attempt (.call fun _ => rfl)) fun _ => .pure ()) (.pure ())

theorem row_awardExperience {st : Stage Stored Call} (hrow : st.state.row = some row) (questId stepId : Int)
    (reward : Value) :
    (awardExperience questId stepId reward row st).2.state.row = some
      (if 0 < ratio reward "experienceRatio" ∧ failsAt st.faults 0 = false then
        row.withExperience (wrap64 (row.experience + scaled (ratio reward "experienceRatio") row.sheet.level))
      else row) := by
  unfold awardExperience
  by_cases hratio : 0 < ratio reward "experienceRatio"
  · rw [if_pos hratio, Leaves.bind_run fun _ => leaves_send _, attempt, state_call]
    cases h0 : failsAt st.faults 0 with
    | true =>
      rw [if_pos rfl, if_neg fun h => by cases h.2]
      exact hrow
    | false =>
      rw [if_neg (by decide), if_pos ⟨hratio, rfl⟩]
      exact congrArg (Option.map fun r : Row => r.withExperience _) hrow
  · rw [if_neg hratio, if_neg fun h => hratio h.1]
    exact hrow

/-- What the rewards of a step make of a character. -/
theorem row_awardStepRewards {st : Stage Stored Call} (hrow : st.state.row = some row) (data : GameData)
    (questId stepId : Int) {reward : Value}
    (hreward : stepReward ((data.objects "QuestStepRewards").map Prod.snd) stepId = some reward) :
    (awardStepRewards data questId stepId st).2.state.row = some
      (if 0 < ratio reward "experienceRatio" ∧ Pass st.faults 3 then
        row.withExperience (wrap64 (row.experience + scaled (ratio reward "experienceRatio") row.sheet.level))
      else row) := by
  -- the row is as before unless the first three calls succeed
  have hfault {n : Nat} (hn : n < 3) (h : failsAt st.faults n = true) :
      ¬(0 < ratio reward "experienceRatio" ∧ Pass st.faults 3) := by
    rintro ⟨-, hpass⟩
    rw [hpass n hn] at h
    cases h
  unfold awardStepRewards getAllGameData
  rw [bind_assoc]
  cases h0 : failsAt st.faults 0 with
  | true =>
    rw [call_bind_of_fault _ h0, if_neg (hfault (by decide) h0)]
    exact hrow
  | false =>
    rw [call_bind _ h0, pure_bind, hreward]
    dsimp only
    cases h1 : failsAt st.faults 1 with
    | true =>
      rw [call_bind_of_fault _ h1, if_neg (hfault (by decide) h1)]
      exact hrow
    | false =>
      have hread : (id (act (act st.state Call.query) Call.query) : Stored).row = some row := hrow
      rw [call_bind _ h1, read_bind]
      dsimp only
      rw [hread]
      dsimp only
      rw [Leaves.bind_run fun _ =>
        (leaves_awardKamas questId stepId reward _).bind fun _ => leaves_awardItems questId stepId 0 _]
      have haward := @row_awardExperience row
        ⟨st.state, (.query, true) :: (.query, true) :: st.calls, st.faults.tail.tail⟩ hrow questId stepId reward
      refine haward.trans (congrArg some (if_congr (and_congr_right fun _ => ?_) rfl rfl))
      rw [pass_succ, pass_succ, pass_succ]
      exact ⟨fun h2 => ⟨h0, h1, h2, pass_zero⟩, fun h => h.2.2.1⟩

/-- Nothing is awarded for a step without rewards. -/
theorem awardStepRewards_none {st : Stage Stored Call} (data : GameData) (questId stepId : Int)
    (hreward : stepReward ((data.objects "QuestStepRewards").map Prod.snd) stepId = none) :
    (awardStepRewards data questId stepId st).2.state = st.state := by
  unfold awardStepRewards getAllGameData
  rw [bind_assoc]
  cases h0 : failsAt st.faults 0 with
  | true => rw [call_bind_of_fault _ h0]
  | false =>
    rw [call_bind _ h0, pure_bind, hreward]
    rfl

/-! ### One gain -/

theorem inStep_row_iff : InStep row ↔
    (row.sheet.level < 200 → (row.sheet.level - 1) * 100 ≤ row.experience ∧
    row.experience < row.sheet.level * 100) := by
  have hpos := row.sheet.level_pos
  unfold InStep buildStats level1Xp
  dsimp only
  split
  · have hlevel : row.sheet.level = 1 := by omega
    rw [hlevel]
    rfl
  · rfl

theorem level_levelUp (h : row.sheet.level < 200) : row.levelUp.sheet.level = row.sheet.level + 1 := by
  rw [Row.levelUp, dif_pos h]

theorem inStep_levelUp_iff (h : row.sheet.level < 200) : InStep row.levelUp ↔ (row.sheet.level + 1 < 200 →
    row.sheet.level * 100 ≤ row.experience ∧ row.experience < (row.sheet.level + 1) * 100) := by
  have hexperience : row.levelUp.experience = row.experience := by
    rw [Row.levelUp, dif_pos h]
  rw [inStep_row_iff, level_levelUp h, hexperience, Int.add_sub_cancel]

/-- After a fight that is won the level is in step if one level is enough. -/
theorem inStep_gained_iff (h : InStep row) (hlevel : row.sheet.level < 200) (experienceFails levelFails : Bool) :
    InStep (gained row (50 * row.sheet.level) experienceFails levelFails) ↔
      (row.sheet.level * 100 ≤ row.experience + 50 * row.sheet.level →
        (experienceFails = false → levelFails = false) ∧
          (levelFails = false → row.sheet.level + 1 < 200 →
            experienceFails = false ∧ row.experience + 50 * row.sheet.level < (row.sheet.level + 1) * 100)) := by
  have hpos := row.sheet.level_pos
  obtain ⟨hfloor, hnext⟩ := inStep_row_iff.1 h hlevel
  have hwrap : wrap64 (row.experience + 50 * row.sheet.level) = row.experience + 50 * row.sheet.level := by
    unfold wrap64
    omega
  have hstored : InStep (row.withExperience (row.experience + 50 * row.sheet.level)) ↔
      (row.sheet.level < 200 → (row.sheet.level - 1) * 100 ≤ row.experience + 50 * row.sheet.level ∧
        row.experience + 50 * row.sheet.level < row.sheet.level * 100) := inStep_row_iff
  have hraised : InStep (row.withExperience (row.experience + 50 * row.sheet.level)).levelUp ↔
      (row.sheet.level + 1 < 200 → row.sheet.level * 100 ≤ row.experience + 50 * row.sheet.level ∧
        row.experience + 50 * row.sheet.level < (row.sheet.level + 1) * 100) := inStep_levelUp_iff hlevel
  unfold gained
  rw [hwrap]
  -- the level is raised exactly if the next floor is reached, and each write may fail alone
  by_cases hreach : row.sheet.level * 100 ≤ row.experience + 50 * row.sheet.level
  · cases levelFails with
    | true =>
      rw [if_neg fun h => by cases h.2]
      cases experienceFails with
      | true => exact iff_of_true h fun _ => ⟨fun h => (by cases h), fun h => (by cases h)⟩
      | false =>
        refine iff_of_false (fun hs => ?_) fun h => by cases (h hreach).1 rfl
        have hbelow := hstored.1 hs hlevel
        omega
    | false =>
      rw [if_pos ⟨⟨hreach, hlevel⟩, rfl⟩]
      cases experienceFails with
      | true =>
        refine (inStep_levelUp_iff hlevel).trans
          ⟨fun hs _ => ⟨fun h => (by cases h), fun _ hnot => ?_⟩, fun hs hnot => ?_⟩
        · have hfloor' := (hs hnot).1
          omega
        · cases ((hs hreach).2 rfl hnot).1
      | false =>
        refine hraised.trans ⟨fun hs _ => ⟨fun _ => rfl, fun _ hnot => ⟨rfl, (hs hnot).2⟩⟩, fun hs hnot => ?_⟩
        exact ⟨hreach, ((hs hreach).2 rfl hnot).2⟩
  · rw [if_neg fun h => hreach h.1.1]
    refine iff_of_true ?_ fun h => absurd h hreach
    cases experienceFails with
    | true => exact h
    | false => exact hstored.2 fun _ => by omega

theorem one_le_scaled (r : Float) (level : Int) : 1 ≤ scaled r level := by
  unfold scaled
  dsimp only
  split
  · exact one_le_asI64 ‹_›
  · exact one_le_asI64 (by decide)

/-- After a reward the level is in step if it need not rise. -/
theorem inStep_withExperience_iff (h : InStep row) (hlevel : row.sheet.level < 200) {xp : Int} (hxp : 1 ≤ xp)
    (hmax : xp < 9223372036854775808) :
    InStep (row.withExperience (wrap64 (row.experience + xp))) ↔ row.experience + xp < row.sheet.level * 100 := by
  have hpos := row.sheet.level_pos
  obtain ⟨hfloor, hnext⟩ := inStep_row_iff.1 h hlevel
  have hlevel' : (row.withExperience (wrap64 (row.experience + xp))).sheet.level = row.sheet.level := rfl
  have hexperience :
      (row.withExperience (wrap64 (row.experience + xp))).experience = wrap64 (row.experience + xp) := rfl
  rw [inStep_row_iff, hlevel', hexperience]
  unfold wrap64
  omega

/-- At the last level nothing has to be in step any more. -/
theorem inStep_gained_of_last (hlast : ¬row.sheet.level < 200) (xpGained : Int) (experienceFails levelFails : Bool) :
    InStep (gained row xpGained experienceFails levelFails) := by
  unfold gained
  dsimp only
  rw [if_neg fun h => hlast h.1.2]
  cases experienceFails with
  | true => exact fun hlevel => absurd hlevel hlast
  | false => exact fun hlevel => absurd hlevel hlast

theorem inStep_fight_iff (hrow : s.row = some row) (h : InStep row) (won : Bool) (faults : List Bool) :
    ∃ row', (s.gain ⟨.fight won, faults⟩).row = some row' ∧ (InStep row' ↔ Gain.Fits ⟨.fight won, faults⟩ row) := by
  refine ⟨_, @row_endFight row { state := s, calls := [], faults := faults } hrow won, ?_⟩
  by_cases hrun : won = true ∧ Pass faults 3
  · rw [if_pos hrun]
    by_cases hlevel : row.sheet.level < 200
    · exact (inStep_gained_iff h hlevel _ _).trans ⟨fun h _ _ _ => h, fun h => h hlevel hrun.1 hrun.2⟩
    · exact iff_of_true (inStep_gained_of_last hlevel _ _ _) fun hlevel' => absurd hlevel' hlevel
  · rw [if_neg hrun]
    exact iff_of_true h fun _ hwon hpass => absurd ⟨hwon, hpass⟩ hrun

theorem inStep_step_iff (hrow : s.row = some row) (h : InStep row) (data : GameData) (questId stepId : Int)
    (faults : List Bool) :
    ∃ row', (s.gain ⟨.step data questId stepId, faults⟩).row = some row' ∧
      (InStep row' ↔ Gain.Fits ⟨.step data questId stepId, faults⟩ row) := by
  cases hreward : stepReward ((data.objects "QuestStepRewards").map Prod.snd) stepId with
  | none =>
    refine ⟨row, ?_, iff_of_true h fun _ _ reward hmem => ?_⟩
    · have hsame := @awardStepRewards_none { state := s, calls := [], faults := faults } data questId stepId hreward
      exact (congrArg Stored.row hsame).trans hrow
    · rw [hreward] at hmem
      cases hmem
  | some reward =>
    refine ⟨_, @row_awardStepRewards row { state := s, calls := [], faults := faults } hrow data questId stepId reward
      hreward, ?_⟩
    by_cases hrun : 0 < ratio reward "experienceRatio" ∧ Pass faults 3
    · rw [if_pos hrun]
      by_cases hlevel : row.sheet.level < 200
      · refine (inStep_withExperience_iff h hlevel (one_le_scaled _ _) (asI64_lt _)).trans
          ⟨fun h _ _ reward' hmem _ => ?_,
          fun h => h hlevel hrun.2 reward hreward hrun.1⟩
        obtain rfl := Option.some.inj (hreward.symm.trans hmem)
        exact h
      · exact iff_of_true (fun hlevel' => absurd hlevel' hlevel) fun hlevel' => absurd hlevel' hlevel
    · rw [if_neg hrun]
      refine iff_of_true h fun _ hpass reward' hmem hratio => ?_
      obtain rfl := Option.some.inj (hreward.symm.trans hmem)
      exact absurd ⟨hratio, hpass⟩ hrun

/-- A character whose level is in step keeps it in step exactly at the gains that fit. -/
theorem inStep_gain_iff (g : Gain) (hrow : s.row = some row) (h : InStep row) :
    ∃ row', (s.gain g).row = some row' ∧ (InStep row' ↔ g.Fits row) := by
  obtain ⟨source, faults⟩ := g
  cases source with
  | fight won => exact inStep_fight_iff hrow h won faults
  | step data questId stepId => exact inStep_step_iff hrow h data questId stepId faults

/-- From level 4 on no fight that is won, with its experience and its level stored, keeps the level in step, up to the
last one. -/
theorem not_fits_fight (h : InStep row) (hlow : 4 ≤ row.sheet.level) (hhigh : row.sheet.level + 1 < 200)
    (faults : List Bool)
    (hpass : Pass faults 5) : ¬Gain.Fits ⟨.fight true, faults⟩ row := by
  intro hfits
  obtain ⟨hfloor, -⟩ := inStep_row_iff.1 h (by omega)
  have hthree : Pass faults 3 := fun n hn => hpass n (by omega)
  obtain ⟨-, hbelow⟩ := hfits (by omega) rfl hthree (by omega)
  have hlt := (hbelow (hpass 4 (by decide)) hhigh).2
  omega

end

/-! ### Runs -/

/-- The character is stored, and its level is in step. -/
def Stored.InStep (s : Stored) : Prop := ∃ row, s.row = some row ∧ Quests.InStep row

/-- The gain fits the character that is stored. -/
def Gain.FitsIn (g : Gain) (s : Stored) : Prop := ∀ row ∈ s.row, g.Fits row

theorem Stored.inStep_gain_iff {s : Stored} (hs : s.InStep) (g : Gain) : (s.gain g).InStep ↔ g.FitsIn s := by
  obtain ⟨row, hrow, h⟩ := hs
  obtain ⟨row', hrow', hiff⟩ := Quests.inStep_gain_iff g hrow h
  constructor
  · rintro ⟨row'', hrow'', h''⟩ r hr
    obtain rfl := Option.some.inj (hrow.symm.trans hr)
    obtain rfl := Option.some.inj (hrow'.symm.trans hrow'')
    exact hiff.1 h''
  · intro hfits
    exact ⟨row', hrow', hiff.2 (hfits row hrow)⟩

theorem Stored.gains_concat (s : Stored) (gs : List Gain) (g : Gain) : s.gains (gs ++ [g]) = (s.gains gs).gain g := by
  rw [gains, List.foldl_append, List.foldl_cons, List.foldl_nil, gains]

/-- The level is in step in every state of a run if and only if every gain of it fits the state before it. -/
theorem inStep_iff {s : Stored} {row : Row} (hrow : s.row = some row) (hlevel : row.sheet.level = 1)
    (hexperience : row.experience = 0) (gs : List Gain) :
    (∀ past, past <+: gs → (s.gains past).InStep) ↔ ∀ past g, past ++ [g] <+: gs → g.FitsIn (s.gains past) := by
  have hstart : s.InStep := by
    refine ⟨row, hrow, inStep_row_iff.2 fun _ => ?_⟩
    rw [hlevel, hexperience]
    decide
  constructor
  · intro h past g hpast
    have hafter := h _ hpast
    rw [Stored.gains_concat] at hafter
    exact (Stored.inStep_gain_iff (h past ((List.prefix_append past [g]).trans hpast)) g).1 hafter
  · intro hfits past
    induction past using List.reverseRecOn with
    | nil => exact fun _ => hstart
    | append_singleton past g ih =>
      intro hpast
      rw [Stored.gains_concat]
      exact (Stored.inStep_gain_iff (ih ((List.prefix_append past [g]).trans hpast)) g).2 (hfits past g hpast)

/-- What is stored of a character as it is created. -/
def Stored.novice : Stored where
  row := some (.novice 0 0)
  kamas := 0
  items := []
  quests := ∅

/-- Fights that are won, all calls of which succeed. -/
def wins (n : Nat) : List Gain := .replicate n ⟨.fight true, []⟩

theorem fitsIn_win {s : Stored} (level experience : Int)
    (hrow : s.row.map (fun row => (row.sheet.level, row.experience)) = some (level, experience))
    (hbelow : experience + 50 * level < (level + 1) * 100) : Gain.FitsIn ⟨.fight true, []⟩ s := by
  intro row hr
  rw [hr, Option.map_some, Option.some.injEq, Prod.mk.injEq] at hrow
  obtain ⟨rfl, rfl⟩ := hrow
  exact fun _ _ _ _ => ⟨fun _ => rfl, fun _ _ => ⟨rfl, hbelow⟩⟩

/-- The first four fights that are won keep the level in step. -/
theorem inStep_iff_wins : (Stored.novice.gains (wins 4)).row.map (·.sheet.level) = some 4 ∧
    ∀ past, past <+: wins 4 → (Stored.novice.gains past).InStep := by
  refine ⟨by decide, (inStep_iff rfl rfl rfl (wins 4)).2 fun past g hpast => ?_⟩
  obtain ⟨hlength, hall⟩ := List.prefix_replicate_iff.1 hpast
  obtain ⟨hpast', rfl⟩ : past = wins past.length ∧ g = ⟨.fight true, []⟩ := by
    rw [List.length_append, List.length_singleton, List.replicate_succ'] at hall
    obtain ⟨hpast', hg⟩ := List.append_inj' hall rfl
    exact ⟨hpast', List.singleton_injective hg⟩
  rw [List.length_append, List.length_singleton] at hlength
  rw [hpast']
  match past.length, hlength with
  | 0, _ => exact fitsIn_win 1 0 (by decide) (by decide)
  | 1, _ => exact fitsIn_win 1 50 (by decide) (by decide)
  | 2, _ => exact fitsIn_win 2 100 (by decide) (by decide)
  | 3, _ => exact fitsIn_win 3 200 (by decide) (by decide)

/-- The fifth fight takes the experience over two levels at once. -/
theorem not_inStep_fifthWin : (Row.novice 0 0).sheet.level = 1 ∧ (Row.novice 0 0).experience = 0 ∧
    ¬(Stored.novice.gains (wins 5)).InStep := by
  refine ⟨rfl, rfl, ?_⟩
  rintro ⟨row, hrow, h⟩
  have hbuilt : (Stored.novice.gains (wins 5)).row.map buildStats = some ⟨550, 400, 500⟩ := by decide
  rw [hrow] at hbuilt
  have hlevels : (Stored.novice.gains (wins 5)).row.map (·.sheet.level) = some 5 := by decide
  rw [hrow] at hlevels
  have hlevel : row.sheet.level = 5 := Option.some.inj hlevels
  have hnext := (h (by rw [hlevel]; decide)).2
  rw [Option.some.inj hbuilt] at hnext
  exact absurd hnext (by decide)

end Otomai.Quests
