import Otomai.Combat.Shields
import Otomai.Trace.Observer

/-!
# The range of the points

A fighter has between no points and its maximum, together with what its boosts add.  An observer writes down whose
buffs have been counted down and who has not got the points of the turn yet: a boost may have expired there.

* `points_in_range`: when the points stay in this range.
-/

namespace Otomai.Combat

open Machine Otomai.Common Trace Program

namespace BuffList

variable (bs : BuffList)

/-- What the buffs add to a stat, as an integer. -/
def bonus (stat : StatType) : Int := (bs.map fun b => b.statBonus stat).sum

/-- What the boosts among the buffs add to a stat; the maluses are left aside. -/
def boosts (stat : StatType) : Int := (bs.map fun b => max (b.statBonus stat) 0).sum

/-- What the buffs add to a stat is a machine integer. -/
def BonusFits : Prop := ∀ stat, -32768 ≤ bs.bonus stat ∧ bs.bonus stat < 32768

instance : Decidable bs.BonusFits :=
  decidable_of_iff (∀ stat ∈ [StatType.strength, .intelligence, .chance, .agility, .ap, .mp, .range, .damage, .power,
      .critical], -32768 ≤ bs.bonus stat ∧ bs.bonus stat < 32768)
    ⟨fun h stat => h stat (by cases stat <;> simp), fun h stat _ => h stat⟩

variable {bs}

theorem statBonus_eq (h : bs.BonusFits) (stat : StatType) : bs.statBonus stat = bs.bonus stat :=
  wrap16_of_range (h stat).1 (h stat).2

theorem bonus_le_boosts (stat : StatType) : bs.bonus stat ≤ bs.boosts stat := by
  unfold bonus boosts
  induction bs with
  | nil => exact le_rfl
  | cons b bs ih =>
    simp only [List.map_cons, List.sum_cons]
    have hb : b.statBonus stat ≤ max (b.statBonus stat) 0 := le_max_left _ _
    omega

theorem boosts_append (b : Buff) (stat : StatType) :
    boosts (bs ++ [b]) stat = bs.boosts stat + max (b.statBonus stat) 0 := by
  simp [boosts]

theorem boosts_afterShield (damage : Int) (stat : StatType) : boosts (bs.afterShield damage) stat = bs.boosts stat :=
  sum_afterShield (fun b hb => by rw [Buff.statBonus_of_isShield hb, max_self]) damage

theorem bonus_afterShield (damage : Int) (stat : StatType) : bonus (bs.afterShield damage) stat = bs.bonus stat :=
  sum_afterShield (fun _ hb => Buff.statBonus_of_isShield hb stat) damage

theorem BonusFits.afterShield (h : bs.BonusFits) (damage : Int) : BonusFits (bs.afterShield damage) := by
  intro stat
  rw [bonus_afterShield]
  exact h stat

end BuffList

/-! ### Fighters -/

namespace Fighter

variable (f : Fighter)

/-- The points are at least none, and at most the maximum with what the boosts add. -/
structure InRange : Prop where
  ap_nonneg : 0 ≤ f.actionPoints
  ap_le : f.actionPoints ≤ f.maxActionPoints + f.buffs.boosts .ap
  mp_nonneg : 0 ≤ f.movementPoints
  mp_le : f.movementPoints ≤ f.maxMovementPoints + f.buffs.boosts .mp

/-- `stat_bonus` does not overflow. -/
def BonusIsExact : Prop := ∀ stat, f.buffs.statBonus stat = f.buffs.bonus stat

/-- `reset_turn` does not overflow. -/
def ResetIsExact : Prop :=
  f.resetTurn.actionPoints = f.maxActionPoints + f.buffs.bonus .ap ∧
    f.resetTurn.movementPoints = f.maxMovementPoints + f.buffs.bonus .mp

/-- The points that `reset_turn` gives are in the range of the type, and not negative. -/
def ResetFits : Prop :=
  (0 ≤ f.maxActionPoints + f.buffs.bonus .ap ∧ f.maxActionPoints + f.buffs.bonus .ap < 32768) ∧
    0 ≤ f.maxMovementPoints + f.buffs.bonus .mp ∧ f.maxMovementPoints + f.buffs.bonus .mp < 32768

/-- What a fighter keeps; the range, if it is `refreshed`. -/
structure Solvent (refreshed : Prop) : Prop where
  fits : f.buffs.BonusFits
  points : f.PointsFit
  ap_nonneg : 0 ≤ f.actionPoints
  mp_nonneg : 0 ≤ f.movementPoints
  inRange : refreshed → f.InRange

/-- The points of a fighter and its buffs. -/
def account : Int × Int × Int × Int × BuffList :=
  (f.actionPoints, f.maxActionPoints, f.movementPoints, f.maxMovementPoints, f.buffs)

variable {f} {refreshed : Prop}

theorem Solvent.of_account {f' : Fighter} (h : f.Solvent refreshed) (hsame : f'.account = f.account) :
    f'.Solvent refreshed := by
  simp only [account, Prod.mk.injEq] at hsame
  obtain ⟨hap, hmaxAp, hmp, hmaxMp, hbuffs⟩ := hsame
  obtain ⟨hfits, hpoints, hapNonneg, hmpNonneg, hrange⟩ := h
  refine ⟨hbuffs ▸ hfits, ?_, hap ▸ hapNonneg, hmp ▸ hmpNonneg, fun hrefreshed => ?_⟩
  · unfold PointsFit
    rw [hap, hmp]
    exact hpoints
  · obtain ⟨hap₀, hap₁, hmp₀, hmp₁⟩ := hrange hrefreshed
    refine ⟨hap ▸ hap₀, ?_, hmp ▸ hmp₀, ?_⟩
    · rw [hap, hmaxAp, hbuffs]
      exact hap₁
    · rw [hmp, hmaxMp, hbuffs]
      exact hmp₁

/-- A fighter without buffs. -/
theorem Solvent.of_fresh (hbuffs : f.buffs = []) (hpoints : f.PointsFit) (hap : 0 ≤ f.actionPoints)
    (hmp : 0 ≤ f.movementPoints) (hapMax : f.actionPoints ≤ f.maxActionPoints)
    (hmpMax : f.movementPoints ≤ f.maxMovementPoints) : f.Solvent refreshed := by
  have hnone (stat : StatType) : f.buffs.boosts stat = 0 := by
    rw [hbuffs]
    rfl
  refine ⟨fun stat => ?_, hpoints, hap, hmp, fun _ => ⟨hap, ?_, hmp, ?_⟩⟩
  · rw [hbuffs]
    simp [BuffList.bonus]
  · rw [hnone]
    omega
  · rw [hnone]
    omega

theorem Solvent.bonusIsExact (h : f.Solvent refreshed) : f.BonusIsExact :=
  fun stat => BuffList.statBonus_eq h.fits stat

theorem resetIsExact (hfits : f.buffs.BonusFits) (hreset : f.ResetFits) : f.ResetIsExact := by
  obtain ⟨hap, hmp⟩ := hreset
  unfold ResetIsExact resetTurn
  dsimp only
  rw [BuffList.statBonus_eq hfits, BuffList.statBonus_eq hfits]
  exact ⟨wrap16_of_range (by omega) hap.2, wrap16_of_range (by omega) hmp.2⟩

namespace Solvent

theorem spend (h : f.Solvent refreshed) {mp : Int} (hnonneg : 0 ≤ mp) (hle : mp ≤ f.movementPoints) :
    (f.spend mp).Solvent refreshed := by
  have hpoints := h.points
  have hspent : wrap16 (f.movementPoints - mp) = f.movementPoints - mp := by
    have hrange := hpoints.2
    exact wrap16_of_range (by omega) (by omega)
  have hleft : 0 ≤ (f.spend mp).movementPoints := by
    simp only [Fighter.spend, hspent]
    omega
  refine ⟨h.fits, ⟨hpoints.1, wrap16_range _⟩, h.ap_nonneg, hleft, fun hrefreshed => ?_⟩
  have hrange := h.inRange hrefreshed
  refine ⟨hrange.ap_nonneg, hrange.ap_le, hleft, ?_⟩
  have hmax := hrange.mp_le
  simp only [Fighter.spend, hspent]
  omega

theorem payCast (h : f.Solvent refreshed) {spellId apCost : Int} (hle : apCost ≤ f.actionPoints)
    (hcost : 0 ≤ apCost ∨ f.actionPoints - apCost < 32768 ∧
      f.actionPoints - apCost ≤ f.maxActionPoints + f.buffs.boosts .ap) :
    (f.payCast spellId apCost).Solvent refreshed := by
  have hpoints := h.points
  have hpaid : wrap16 (f.actionPoints - apCost) = f.actionPoints - apCost := by
    have hrange := hpoints.1
    exact wrap16_of_range (by omega) (by omega)
  have hleft : 0 ≤ (f.payCast spellId apCost).actionPoints := by
    simp only [Fighter.payCast, hpaid]
    omega
  refine ⟨h.fits, ⟨wrap16_range _, hpoints.2⟩, hleft, h.mp_nonneg, fun hrefreshed => ?_⟩
  have hrange := h.inRange hrefreshed
  refine ⟨hleft, ?_, hrange.mp_nonneg, hrange.mp_le⟩
  have hmax := hrange.ap_le
  simp only [Fighter.payCast, hpaid]
  omega

/-- A buff does not narrow the range. -/
theorem addBuff (h : f.Solvent refreshed) {b : Buff} (hfits : BuffList.BonusFits (f.buffs ++ [b])) :
    (f.addBuff b).Solvent refreshed := by
  refine ⟨hfits, h.points, h.ap_nonneg, h.mp_nonneg, fun hrefreshed => ?_⟩
  have hrange := h.inRange hrefreshed
  have hap := hrange.ap_le
  have hmp := hrange.mp_le
  refine ⟨hrange.ap_nonneg, ?_, hrange.mp_nonneg, ?_⟩
  · simp only [Fighter.addBuff, BuffList.boosts_append]
    omega
  · simp only [Fighter.addBuff, BuffList.boosts_append]
    omega

theorem hit (h : f.Solvent refreshed) (damage : Int) : (f.hit damage).Solvent refreshed := by
  refine ⟨h.fits.afterShield damage, h.points, h.ap_nonneg, h.mp_nonneg, fun hrefreshed => ?_⟩
  have hrange := h.inRange hrefreshed
  refine ⟨hrange.ap_nonneg, ?_, hrange.mp_nonneg, ?_⟩
  · simp only [Fighter.hit, BuffList.boosts_afterShield]
    exact hrange.ap_le
  · simp only [Fighter.hit, BuffList.boosts_afterShield]
    exact hrange.mp_le

/-- When the buffs are counted down, the fighter has the points of its last turn still. -/
theorem tickBuffs (h : f.Solvent refreshed) (hfits : BuffList.BonusFits f.buffs.tick) : f.tickBuffs.Solvent False :=
  ⟨hfits, h.points, h.ap_nonneg, h.mp_nonneg, False.elim⟩

theorem resetTurn (h : f.Solvent refreshed) (hreset : f.ResetFits) : f.resetTurn.Solvent True := by
  obtain ⟨hap, hmp⟩ := resetIsExact h.fits hreset
  obtain ⟨hapFits, hmpFits⟩ := hreset
  have hapLe : f.buffs.bonus .ap ≤ f.resetTurn.buffs.boosts .ap := BuffList.bonus_le_boosts .ap
  have hmpLe : f.buffs.bonus .mp ≤ f.resetTurn.buffs.boosts .mp := BuffList.bonus_le_boosts .mp
  have hapMax : f.resetTurn.maxActionPoints = f.maxActionPoints := rfl
  have hmpMax : f.resetTurn.maxMovementPoints = f.maxMovementPoints := rfl
  refine ⟨h.fits, ⟨?_, ?_⟩, by omega, by omega, fun _ => ⟨by omega, by omega, by omega, by omega⟩⟩
  · rw [hap]
    omega
  · rw [hmp]
    omega

end Solvent

end Fighter

/-! ### What a handler may spend -/

/-- Who pays has the points; a movement costs at least nothing. -/
def Affords (s : Fight) : Action → Prop
  | .update (.move mpCost _) => ∀ f ∈ s.currentFighter, 0 ≤ mpCost ∧ mpCost ≤ f.movementPoints
  | .update (.spendMovement mpUsed) => ∀ f ∈ s.currentFighter, 0 ≤ mpUsed ∧ mpUsed ≤ f.movementPoints
  | .update (.payCast _ apCost) => ∀ f ∈ s.currentFighter, apCost ≤ f.actionPoints
  | _ => True

theorem Effect.affords {s : Fight} {b : List Action} (h : Effect s b) : Along Affords s b := by
  cases h with
  | @quiet u hu _ _ =>
    refine ⟨?_, trivial⟩
    cases u <;> trivial
  | hit _ _ _ => split <;> simp [Affords]
  | heal _ => split <;> simp [Affords]
  | _ => simp [Affords]

theorem Block.affords {s : Fight} {b : List Action} (h : Block s b) : Along Affords s b := by
  cases h with
  | spell h =>
    cases h with
    | effect h => exact h.affords
    | summon _ _ _ _ => simp [Affords]
  | turn h =>
    cases h with
    | effect h => exact h.affords
    | tick hu => rcases Update.eq_of_isTick hu with rfl | rfl <;> exact ⟨trivial, trivial⟩
    | spendMovement _ hf hnonneg hle =>
      refine ⟨fun f hf' => ?_, trivial⟩
      obtain rfl := Option.some.inj (hf.symm.trans hf')
      exact ⟨hnonneg, hle⟩
    | _ => simp [Affords]
  | cast _ hf _ hap _ _ =>
    refine ⟨trivial, trivial, fun f hf' => ?_, trivial⟩
    obtain rfl := Option.some.inj (hf.symm.trans hf')
    exact hap
  | move hf _ _ _ hnonneg hle =>
    refine ⟨trivial, fun f hf' => ?_, trivial, trivial, trivial, trivial, trivial⟩
    obtain rfl := Option.some.inj (hf.symm.trans hf')
    exact ⟨hnonneg, hle⟩
  | _ => simp [Affords]

/-! ### Fights -/

/-- The steps that keep the points in range: the sums of boosts and maluses are machine integers, the maluses take no
more than the maximum, and no spell gives more points than its caster may have. -/
def PointsAllowed (s : Fight) : Action → Prop
  | .update (.addBuff id b) => ∀ f ∈ s.getFighter id, BuffList.BonusFits (f.buffs ++ [b])
  | .update .tickBuffs => ∀ f ∈ s.currentFighter, BuffList.BonusFits f.buffs.tick
  | .update .resetTurn => ∀ f ∈ s.currentFighter, f.ResetFits
  | .update (.payCast _ apCost) => ∀ f ∈ s.currentFighter, 0 ≤ apCost ∨ f.actionPoints - apCost < 32768 ∧
      f.actionPoints - apCost ≤ f.maxActionPoints + f.buffs.boosts .ap
  | _ => True

instance (f : Fighter) : Decidable f.ResetFits := inferInstanceAs (Decidable ((_ ∧ _) ∧ _ ∧ _))

instance (s : Fight) (a : Action) : Decidable (PointsAllowed s a) := by
  delta PointsAllowed
  induction a using Action.casesOn with
  | update u => induction u using Update.casesOn <;> infer_instance
  | _ => infer_instance

/-- Whose buffs have been counted down, and who has not got the points of the turn yet. -/
structure Unrefreshed where
  ids : List Int

def Unrefreshed.note (g : Unrefreshed) (s : Fight) : Action → Unrefreshed
  | .update .tickBuffs => ⟨(s.currentFighter.map Fighter.id).toList ++ g.ids⟩
  | .update .resetTurn => ⟨g.ids.filter fun id => s.currentFighter.map Fighter.id ≠ some id⟩
  | _ => g

instance : Observes Unrefreshed Fight Action where
  note := Unrefreshed.note

/-- The points of every fighter are in range, from when it gets those of a turn to when its buffs are counted down;
and no sum overflows. -/
def PointsInRange (x : Unrefreshed × Fight) : Prop :=
  ∀ f ∈ x.2.fighters, f.BonusIsExact ∧ (f.id ∉ x.1.ids → f.InRange)

/-- Nor does a sum overflow when the points of a turn are given. -/
def PointsHold (x : Unrefreshed × Fight) (a : Action) : Prop :=
  PointsInRange x ∧ (a = .update .resetTurn → ∀ f ∈ x.2.currentFighter, f.ResetIsExact)

/-- What the fight keeps of its points. -/
structure Ranged (x : Unrefreshed × Fight) : Prop where
  roster : x.2.Roster
  solvent : ∀ f ∈ x.2.fighters, f.Solvent (f.id ∉ x.1.ids)

theorem Fighter.Solvent.imp {f : Fighter} {c c' : Prop} (h : f.Solvent c) (hc : c' → c) : f.Solvent c' :=
  ⟨h.fits, h.points, h.ap_nonneg, h.mp_nonneg, fun hc' => h.inRange (hc hc')⟩

/-- A write other than those of the turn start keeps the points of a fighter in range. -/
theorem Changed.solvent {s : Fight} {u : Update} {f f' : Fighter} {refreshed : Prop} (h : Changed s u f f')
    (htick : u ≠ .tickBuffs) (hreset : u ≠ .resetTurn) (haffords : Affords s (.update u))
    (hallowed : PointsAllowed s (.update u)) (hf : f.Solvent refreshed) : f'.id = f.id ∧ f'.Solvent refreshed := by
  cases h with
  | move hcurrent => exact ⟨rfl, (hf.spend (haffords f hcurrent).1 (haffords f hcurrent).2).of_account rfl⟩
  | hit _ => exact ⟨rfl, hf.hit _⟩
  | payCast hcurrent => exact ⟨rfl, hf.payCast (haffords f hcurrent) (hallowed f hcurrent)⟩
  | spendMovement hcurrent => exact ⟨rfl, hf.spend (haffords f hcurrent).1 (haffords f hcurrent).2⟩
  | addBuff htarget => exact ⟨rfl, hf.addBuff (hallowed f htarget)⟩
  | tickBuffs _ => exact absurd rfl htick
  | resetTurn _ => exact absurd rfl hreset
  | _ => exact ⟨rfl, hf.of_account rfl⟩

namespace Ranged

variable {x : Unrefreshed × Fight}

theorem apply (hx : Ranged x) {u : Update} (hu : Write x.2 u) (haffords : Affords x.2 (.update u))
    (hallowed : PointsAllowed x.2 (.update u)) : Ranged (act x (Action.update u)) := by
  refine ⟨hx.roster.apply hu, ?_⟩
  obtain ⟨current, hcurrent⟩ : ∃ f, x.2.currentFighter = some f := ⟨_, List.getElem?_eq_getElem hx.roster.index⟩
  by_cases hreset : u = .resetTurn
  · -- the current fighter gets its points, and nobody else has its id
    subst hreset
    have hmap := modifyCurrent_eq_map hx.roster.ids hcurrent (·.resetTurn)
    intro f' hf'
    have hmem : f' ∈ x.2.fighters.map fun f => if f.id = current.id then f.resetTurn else f := hmap ▸ hf'
    obtain ⟨f, hf, rfl⟩ := List.mem_map.1 hmem
    split
    · rename_i hid
      obtain rfl := List.inj_on_of_nodup_map hx.roster.ids hf (List.mem_of_getElem? hcurrent) hid
      exact ((hx.solvent f hf).resetTurn (hallowed f hcurrent)).imp fun _ => trivial
    · rename_i hid
      refine (hx.solvent f hf).imp fun hout hin => hout (List.mem_filter.2 ⟨hin, ?_⟩)
      rw [hcurrent, Option.map_some]
      exact decide_eq_true fun h => hid (Option.some.inj h).symm
  intro f' hf'
  by_cases htick : u = .tickBuffs
  · subst htick
    have hids : (act x (Action.update .tickBuffs)).1.ids = current.id :: x.1.ids := by
      show (x.2.currentFighter.map Fighter.id).toList ++ x.1.ids = _
      rw [hcurrent]
      rfl
    rw [hids]
    rcases Fight.mem_apply hf' with hmem | ⟨f, hmem, hchanged⟩ | ⟨casterId, h⟩
    · exact (hx.solvent f' hmem).imp fun hout hin => hout (List.mem_cons_of_mem _ hin)
    · cases hchanged with
      | cell hcells _ => cases hcells
      | tickBuffs hf =>
        obtain rfl := Option.some.inj (hcurrent.symm.trans hf)
        exact ((hx.solvent current hmem).tickBuffs (hallowed current hcurrent)).imp fun hout =>
          hout List.mem_cons_self
    · cases h
  · have hids : (act x (Action.update u)).1 = x.1 := by cases u <;> first | rfl | contradiction
    rw [hids]
    rcases Fight.mem_apply hf' with hmem | ⟨f, hmem, hchanged⟩ | ⟨casterId, rfl⟩
    · exact hx.solvent f' hmem
    · obtain ⟨hid, hsolvent⟩ := hchanged.solvent htick hreset haffords hallowed (hx.solvent f hmem)
      rw [hid]
      exact hsolvent
    · cases hu with
      | quiet hquiet => cases hquiet
      | summon _ _ _ =>
        exact .of_fresh rfl (by simp [Fighter.PointsFit, Fight.summoned]) (by simp [Fight.summoned])
          (by simp [Fight.summoned]) le_rfl le_rfl

theorem pointsHold (hx : Ranged x) {a : Action} (hallowed : PointsAllowed x.2 a) : PointsHold x a := by
  refine ⟨fun f hf => ⟨(hx.solvent f hf).bonusIsExact, (hx.solvent f hf).inRange⟩, ?_⟩
  rintro rfl f hf
  exact Fighter.resetIsExact (hx.solvent f (List.mem_of_getElem? hf)).fits (hallowed f hf)

end Ranged

theorem startPveFight_ranged {maps : Int → Option MapData} (c : Character) (mapId : Int) (nextMarkId drawn : Nat) :
    Ranged (⟨[]⟩, startPveFight maps c mapId nextMarkId drawn) := by
  refine ⟨startPveFight_roster c mapId nextMarkId drawn, fun f hf => ?_⟩
  have hpoints := startPveFight_pointsFit c mapId nextMarkId drawn f hf
  simp only [startPveFight, List.mem_cons, List.not_mem_nil, or_false] at hf
  rcases hf with rfl | rfl
  · exact .of_fresh rfl hpoints (by simp [playerFighter]) (by simp [playerFighter]) le_rfl le_rfl
  · exact .of_fresh rfl hpoints (by simp [monsterFighter]) (by simp [monsterFighter]) le_rfl le_rfl

/-- In a fight whose steps allow for it, the points of every fighter are in range, from when it gets those of a turn
to when its buffs are counted down for the next one; and no sum overflows. -/
theorem points_in_range (maps : Int → Option MapData) (n : Nat) (c : Character) (mapId : Int)
    (nextMarkId drawn : Nat) (rs : List Request) :
    let s := startPveFight maps c mapId nextMarkId drawn
    let t := (history maps n c.id rs s).trace
    Along PointsAllowed s t → Along PointsHold (⟨[]⟩, s) t ∧ PointsInRange (after (⟨[]⟩, s) t) := by
  intro s t hallowed
  have hcoherent := @startPveFight_coherent maps c mapId nextMarkId drawn
  have hblocks : Composed Block s t := history_composed rs hcoherent
  have hwrites : Along MayWrite s t := hblocks.along fun _ _ => Block.mayWrite
  have haffords : Along Affords s t := hblocks.along fun _ _ => Block.affords
  have hactions := (along_observed (γ := Unrefreshed) (x := (⟨[]⟩, s))).2 ((hwrites.and haffords).and hallowed)
  have hrun := hactions.invariant (I := Ranged) (fun x a hx ha => ?_) (startPveFight_ranged c mapId nextMarkId drawn)
  · refine ⟨(hrun.1.and hactions).imp fun x a h => h.1.pointsHold h.2.2, fun f hf => ?_⟩
    exact ⟨(hrun.2.solvent f hf).bonusIsExact, (hrun.2.solvent f hf).inRange⟩
  · cases a with
    | update u => exact hx.apply ha.1.1 ha.1.2 ha.2
    | _ => exact ⟨hx.roster, hx.solvent⟩

/-- A spell for 2 AP that takes `malus` AP for two turns. -/
def malusSpell (malus : Int) : SpellData :=
  { SpellData.fallback with apCost := 2, minRange := 0, effects := [⟨101, malus, 0, 2, .neutral⟩] }

/-- A novice takes 2 of its own AP, and has a turn with 4. -/
theorem points_in_range_novice :
    let s := startPveFight (fun _ => none) .novice 0 0 0
    let t := (history (fun _ => none) 3 1 [.ready true, .cast 1 280 (some (malusSpell 2)) 0, .turnFinish] s).trace
    Along PointsHold (⟨[]⟩, s) t ∧ PointsInRange (after (⟨[]⟩, s) t) :=
  points_in_range (fun _ => none) 3 .novice 0 0 0 [.ready true, .cast 1 280 (some (malusSpell 2)) 0, .turnFinish]
    (by decide +kernel)

theorem PointsInRange.ap_nonneg {x : Unrefreshed × Fight} (h : PointsInRange x) :
    ∀ f ∈ x.2.fighters, f.id ∉ x.1.ids → 0 ≤ f.actionPoints :=
  fun f hf hout => ((h f hf).2 hout).ap_nonneg

/-- A malus of more AP than the maximum leaves less than none. -/
theorem points_fall_below_zero : ¬∀ (maps : Int → Option MapData) (n : Nat) (c : Character) (mapId : Int)
    (nextMarkId drawn : Nat) (rs : List Request),
    let s := startPveFight maps c mapId nextMarkId drawn
    let t := (history maps n c.id rs s).trace
    Along PointsHold (⟨[]⟩, s) t ∧ PointsInRange (after (⟨[]⟩, s) t) := by
  intro h
  have hend : PointsInRange (after (⟨[]⟩, startPveFight (fun _ => none) .novice 0 0 0)
      (history (fun _ => none) 3 1 [.ready true, .cast 1 280 (some (malusSpell 7)) 0, .turnFinish]
        (startPveFight (fun _ => none) .novice 0 0 0)).trace) :=
    (h (fun _ => none) 3 .novice 0 0 0 [.ready true, .cast 1 280 (some (malusSpell 7)) 0, .turnFinish]).2
  exact absurd hend.ap_nonneg (by decide +kernel)

end Otomai.Combat
