import Mathlib.Algebra.Order.BigOperators.Group.List
import Otomai.Combat.Board

/-!
# Life and death

A hit ends at zero life points at the lowest and marks its target dead there; a heal ends at the maximum at the
highest, and does not ask whether its target is alive.

* `Fighter.Living.hit`, `Fighter.Living.heal`: what a hit and a heal keep.
* `fight_keeps_life`: everybody has between none and all of its life points and is alive if it has any, in a fight
  that heals nobody dead.
-/

namespace Otomai.Combat

open Machine Otomai.Common Trace Program

variable {maps : Int → Option MapData} {n : Nat} {playerId : Int}

/-- The life points are within their bounds, and the fighter is alive if it has any. -/
structure Fighter.Living (f : Fighter) : Prop where
  nonneg : 0 ≤ f.lifePoints
  le_max : f.lifePoints ≤ f.maxLifePoints
  alive_iff : f.isAlive = true ↔ 0 < f.lifePoints

/-- What shields of a negative value add to a hit. -/
def BuffList.shieldDebt (buffs : BuffList) : Int := ((buffs.filter Buff.isShield).map fun b => max (-b.value) 0).sum

/-- A hit, with what negative shields add to it, is a machine integer; the target of a heal is alive, if the heal is
positive. -/
def KeepsLife (s : Fight) : Action → Prop
  | .update (.hit targetId damage) => ∀ f ∈ s.getFighter targetId, damage + f.buffs.shieldDebt < 2147483648
  | .update (.heal targetId heal) => ∀ f ∈ s.getFighter targetId, f.isAlive = true ∨ heal ≤ 0
  | _ => True

instance (s : Fight) (a : Action) : Decidable (KeepsLife s a) := by
  delta KeepsLife
  induction a using Action.casesOn with
  | update u => induction u using Update.casesOn <;> infer_instance
  | _ => infer_instance

/-- What shields leave of a hit: at least nothing. -/
theorem BuffList.absorbLoop_range {buffs : BuffList} {damage : Int} (hdamage : 0 ≤ damage)
    (hdebt : damage + buffs.shieldDebt < 2147483648) :
    0 ≤ (buffs.absorbLoop damage).2 ∧ (buffs.absorbLoop damage).2 ≤ damage + buffs.shieldDebt := by
  induction buffs generalizing damage with
  | nil => exact ⟨hdamage, by simp [absorbLoop, shieldDebt]⟩
  | cons b bs ih =>
    have hdebt_nonneg (bs : BuffList) : 0 ≤ bs.shieldDebt := List.sum_nonneg fun x hx => by
      obtain ⟨b, -, rfl⟩ := List.mem_map.1 hx
      exact le_max_right _ _
    have hrest := hdebt_nonneg bs
    unfold absorbLoop
    by_cases hshield : b.isShield = true
    · have hcons : shieldDebt (b :: bs) = max (-b.value) 0 + shieldDebt bs := by
        simp [shieldDebt, hshield]
      rw [hcons] at hdebt ⊢
      by_cases hpos : 0 < damage
      · rw [if_pos ⟨hshield, hpos⟩]
        -- a negative shield takes less than nothing
        have hleft : wrap32 (damage - min damage b.value) = damage - min damage b.value :=
          wrap32_of_range (by omega) (by omega)
        have hstep := @ih (damage - min damage b.value) (by omega) (by omega)
        dsimp only
        rw [hleft]
        omega
      · rw [if_neg fun h => hpos h.2]
        have hstep := ih hdamage (by omega)
        dsimp only
        omega
    · have hcons : shieldDebt (b :: bs) = shieldDebt bs := by
        simp [shieldDebt, hshield]
      rw [hcons] at hdebt ⊢
      rw [if_neg fun h => hshield h.1]
      exact ih hdamage hdebt

namespace Fighter.Living

variable {f : Fighter}

theorem hit (hf : f.Living) (hmax : f.maxLifePoints < 2147483648) {damage : Int} (hdamage : 0 ≤ damage)
    (hdebt : damage + f.buffs.shieldDebt < 2147483648) : (f.hit damage).Living := by
  have hnonneg := hf.nonneg
  have hle := hf.le_max
  obtain ⟨hleft, hleft_le⟩ := BuffList.absorbLoop_range hdamage hdebt
  have hwrap : wrap32 (f.lifePoints - f.buffs.absorbShield damage) = f.lifePoints - f.buffs.absorbShield damage :=
    wrap32_of_range (by unfold BuffList.absorbShield; omega) (by unfold BuffList.absorbShield; omega)
  unfold BuffList.absorbShield at hwrap
  have halive := hf.alive_iff
  constructor
  · exact le_max_right _ _
  · simp only [Fighter.hit, BuffList.absorbShield, hwrap]
    omega
  · simp only [Fighter.hit, BuffList.absorbShield, hwrap]
    split
    · simp only [Bool.false_eq_true, false_iff]
      omega
    · rw [halive]
      omega

/-- A heal of nobody dead. -/
theorem heal (hf : f.Living) (hmax : f.maxLifePoints < 2147483648) {heal : Int}
    (hheal : f.isAlive = true ∨ heal ≤ 0) :
    (f.heal heal).Living := by
  have hnonneg := hf.nonneg
  have hle := hf.le_max
  have halive := hf.alive_iff
  have hmissing : wrap32 (f.maxLifePoints - f.lifePoints) = f.maxLifePoints - f.lifePoints :=
    wrap32_of_range (by omega) (by omega)
  have hactual : 0 ≤ f.actualHeal heal ∧ f.actualHeal heal ≤ f.maxLifePoints - f.lifePoints := by
    unfold actualHeal
    omega
  have hsum : wrap32 (f.lifePoints + f.actualHeal heal) = f.lifePoints + f.actualHeal heal :=
    wrap32_of_range (by omega) (by omega)
  constructor
  · simp only [Fighter.heal, hsum]
    omega
  · simp only [Fighter.heal, hsum]
    omega
  · simp only [Fighter.heal, hsum]
    rw [halive]
    rcases hheal with h | h
    · have hpos := halive.1 h
      omega
    · have hnothing : f.actualHeal heal = 0 := by
        unfold actualHeal
        omega
      rw [hnothing, add_zero]

end Fighter.Living

/-- Everybody's life is in order, and stays a machine integer. -/
def Fight.Lives (s : Fight) : Prop :=
  ∀ f ∈ s.fighters, f.Living ∧ f.maxLifePoints < 2147483648 ∧ 1 ≤ f.level ∧ f.level ≤ 200

namespace Fight

variable {s : Fight}

/-- To change one fighter in an orderly way keeps everybody's life in order. -/
private theorem Lives.modifyFighter (hs : s.Lives) {id : Int} {g : Fighter → Fighter}
    (hg : ∀ f ∈ s.getFighter id, (g f).Living ∧ (g f).maxLifePoints = f.maxLifePoints ∧ (g f).level = f.level) :
    (s.modifyFighter id g).Lives := by
  intro f' hf'
  rcases mem_modifyFirst hf' with hmem | ⟨f, hf, rfl⟩
  · exact hs f' hmem
  · obtain ⟨hliving, hmax, hlevel⟩ := hg f hf
    rw [hmax, hlevel]
    exact ⟨hliving, (hs f (List.mem_of_find?_eq_some hf)).2⟩

private theorem Lives.modifyCurrent (hs : s.Lives) {g : Fighter → Fighter}
    (hg : ∀ f, f.Living → (g f).Living ∧ (g f).maxLifePoints = f.maxLifePoints ∧ (g f).level = f.level) :
    (s.modifyCurrent g).Lives := by
  intro f' hf'
  rcases mem_modify hf' with hmem | ⟨f, hf, rfl⟩
  · exact hs f' hmem
  · obtain ⟨hliving, hrest⟩ := hs f (List.mem_of_getElem? hf)
    obtain ⟨hliving', hmax, hlevel⟩ := hg f hliving
    rw [hmax, hlevel]
    exact ⟨hliving', hrest⟩

/-- A change that concerns no life points. -/
private theorem Lives.modifyFighter_of_rfl (hs : s.Lives) {id : Int} {g : Fighter → Fighter}
    (hg : ∀ f, (g f).lifePoints = f.lifePoints ∧ (g f).maxLifePoints = f.maxLifePoints ∧
      (g f).isAlive = f.isAlive ∧ (g f).level = f.level) : (s.modifyFighter id g).Lives := by
  refine hs.modifyFighter fun f hf => ?_
  obtain ⟨hlife, hmax, halive, hlevel⟩ := hg f
  have hliving := (hs f (List.mem_of_find?_eq_some hf)).1
  refine ⟨⟨?_, ?_, ?_⟩, hmax, hlevel⟩
  · rw [hlife]
    exact hliving.nonneg
  · rw [hlife, hmax]
    exact hliving.le_max
  · rw [halive, hlife]
    exact hliving.alive_iff

/-- A summon has as many life points as its summoner's level gives it. -/
private theorem summoned_living (hs : s.Lives) (casterId cellId monsterId : Int) :
    let f := s.summoned casterId cellId monsterId (((s.getFighter casterId).map Fighter.level).getD 1)
    f.Living ∧ f.maxLifePoints < 2147483648 ∧ 1 ≤ f.level ∧ f.level ≤ 200 := by
  have hlevel : 1 ≤ ((s.getFighter casterId).map Fighter.level).getD 1 ∧
      ((s.getFighter casterId).map Fighter.level).getD 1 ≤ 200 := by
    cases hcaster : s.getFighter casterId with
    | none => exact ⟨le_rfl, by decide⟩
    | some caster => exact (hs caster (List.mem_of_find?_eq_some hcaster)).2.2
  generalize ((s.getFighter casterId).map Fighter.level).getD 1 = level at hlevel
  have hlife : wrap32 (20 + level * 8) = 20 + level * 8 := wrap32_of_range (by omega) (by omega)
  refine ⟨⟨?_, le_rfl, ?_⟩, ?_, hlevel⟩
  · simp only [summoned, hlife]
    omega
  · simp only [summoned, hlife, true_iff]
    omega
  · simp only [summoned, hlife]
    omega

/-- Every write keeps everybody's life in order, if what `KeepsLife` asks of it holds. -/
theorem Lives.apply {u : Update} (hs : s.Lives) (hu : Write s u) (hlife : KeepsLife s (.update u)) :
    (s.apply u).Lives := by
  have hsame {id : Int} {g : Fighter → Fighter} (hg : ∀ f, (g f).lifePoints = f.lifePoints ∧
      (g f).maxLifePoints = f.maxLifePoints ∧ (g f).isAlive = f.isAlive ∧ (g f).level = f.level) :
      (s.modifyFighter id g).Lives := hs.modifyFighter_of_rfl hg
  cases hu with
  | hit hf hdamage =>
    refine hs.modifyFighter fun f hf => ⟨?_, rfl, rfl⟩
    obtain ⟨hliving, hmax, -⟩ := hs f (List.mem_of_find?_eq_some hf)
    exact hliving.hit hmax hdamage (hlife f hf)
  | heal hf =>
    refine hs.modifyFighter fun f hf => ⟨?_, rfl, rfl⟩
    obtain ⟨hliving, hmax, -⟩ := hs f (List.mem_of_find?_eq_some hf)
    exact hliving.heal hmax (hlife f hf)
  | summon _ _ hlevel =>
    intro f' hf'
    rcases List.mem_append.1 hf' with hf' | hf'
    · exact hs f' hf'
    · rw [List.mem_singleton.1 hf', hlevel]
      exact s.summoned_living hs _ _ _
  | exchange _ _ _ _ =>
    have hfirst := fun id cell => @hsame id (·.onCell cell) fun _ => ⟨rfl, rfl, rfl, rfl⟩
    exact (hfirst _ _).modifyFighter_of_rfl fun _ => ⟨rfl, rfl, rfl, rfl⟩
  | slide _ _ => exact hsame fun _ => ⟨rfl, rfl, rfl, rfl⟩
  | teleport _ _ => exact hsame fun _ => ⟨rfl, rfl, rfl, rfl⟩
  | place _ => exact hsame fun _ => ⟨rfl, rfl, rfl, rfl⟩
  | move _ _ _ _ => exact hs.modifyCurrent fun f hf => ⟨⟨hf.nonneg, hf.le_max, hf.alive_iff⟩, rfl, rfl⟩
  | payCast _ _ => exact hs.modifyCurrent fun f hf => ⟨⟨hf.nonneg, hf.le_max, hf.alive_iff⟩, rfl, rfl⟩
  | spendMovement _ => exact hs.modifyCurrent fun f hf => ⟨⟨hf.nonneg, hf.le_max, hf.alive_iff⟩, rfl, rfl⟩
  | resetTurn => exact hs.modifyCurrent fun f hf => ⟨⟨hf.nonneg, hf.le_max, hf.alive_iff⟩, rfl, rfl⟩
  | advance _ =>
    simp only [Fight.apply, advanceTurn]
    split <;> exact hs
  | quiet hquiet =>
    cases u with
    | addShield _ _ => exact hsame fun _ => ⟨rfl, rfl, rfl, rfl⟩
    | addBuff _ _ => exact hsame fun _ => ⟨rfl, rfl, rfl, rfl⟩
    | addState _ _ => exact hsame fun _ => ⟨rfl, rfl, rfl, rfl⟩
    | removeState _ _ => exact hsame fun _ => ⟨rfl, rfl, rfl, rfl⟩
    | vanish _ => exact hsame fun _ => ⟨rfl, rfl, rfl, rfl⟩
    | tickBuffs => exact hs.modifyCurrent fun f hf => ⟨⟨hf.nonneg, hf.le_max, hf.alive_iff⟩, rfl, rfl⟩
    | removeMark _ | tickMarks | drawIds _ _ => exact hs
    | _ => cases hquiet
  | _ => exact hs

end Fight

/-- A dead fighter stays dead, and its life does not rise. -/
def StaysDead (s : Fight) (a : Action) : Prop :=
  ∀ f ∈ s.fighters, f.isAlive = false → ∀ f' ∈ (act s a).fighters, f'.id = f.id →
    f'.isAlive = false ∧ f'.lifePoints ≤ f.lifePoints

theorem Fight.Lives.staysDead {s : Fight} {a : Action} (hroster : s.Roster) (hs : s.Lives) (ha : MayWrite s a)
    (hafter : (act s a).Lives) : StaysDead s a := by
  intro f hf hdead f' hf' hid
  have hstays : f'.isAlive = false := by
    cases a with
    | update u =>
      rcases Fight.origin_apply hf' with ⟨g, hg, hidentity, hback⟩ | ⟨casterId, rfl⟩
      · simp only [Fighter.identity, Prod.mk.injEq] at hidentity
        have hgf := hroster.eq_of_id hg hf (hidentity.1.symm.trans hid)
        rw [hgf] at hback
        exact Bool.eq_false_iff.2 fun halive => by simp [hback halive] at hdead
      · -- a summon has an id of its own
        cases ha with
        | quiet hquiet => cases hquiet
        | summon _ _ _ => exact absurd hid (ne_of_lt (hroster.fresh f hf))
    | _ => rw [hroster.eq_of_id hf' hf hid, hdead]
  refine ⟨hstays, ?_⟩
  have hliving := (hs f hf).1
  have hliving' := (hafter f' hf').1
  have hnone := mt hliving'.alive_iff.2
  rw [hstays] at hnone
  have hnonneg := hliving.nonneg
  have := hnone (by rintro ⟨⟩)
  omega

theorem startPveFight_lives (c : Character) (mapId : Int) (nextMarkId drawn : Nat) :
    (startPveFight maps c mapId nextMarkId drawn).Lives := by
  have hlevel := c.level_pos
  have hlevel_le := c.level_le
  have hvitality := c.vitality_nonneg
  have hvitality_lt := c.vitality_lt
  intro f hf
  rcases List.mem_pair.1 hf with rfl | rfl
  · refine ⟨⟨?_, le_rfl, ?_⟩, ?_, hlevel, hlevel_le⟩
    · simp only [playerFighter, Character.baseHp]
      omega
    · simp only [playerFighter, Character.baseHp, true_iff]
      omega
    · simp only [playerFighter, Character.baseHp]
      omega
  · refine ⟨⟨?_, le_rfl, ?_⟩, ?_, ?_, ?_⟩
    · simp only [monsterFighter]
      omega
    · simp only [monsterFighter, true_iff]
      omega
    · simp only [monsterFighter]
      omega
    · exact le_max_right _ _
    · exact max_le hlevel_le (by decide)

/-- Whatever the client sends, everybody has between none and all of its life points and is alive if it has any, and
nobody dead regains life, in a fight that heals nobody dead and in which no hit on shields overflows. -/
theorem fight_keeps_life (maps : Int → Option MapData) (n : Nat) (c : Character) (mapId : Int)
    (nextMarkId drawn : Nat) (rs : List Request) :
    let s := startPveFight maps c mapId nextMarkId drawn
    let t := (history maps n c.id rs s).trace
    Along KeepsLife s t →
      Along (fun s a => (∀ f ∈ s.fighters, f.Living) ∧ StaysDead s a) s t ∧ ∀ f ∈ (after s t).fighters, f.Living := by
  intro s t h
  have hcoherent := @startPveFight_coherent maps c mapId nextMarkId drawn
  have hblocks : Composed Block s t := history_composed rs hcoherent
  have hwrites : Along MayWrite s t := hblocks.along fun _ _ => Block.mayWrite
  have hstart : s.Roster ∧ s.Lives :=
    ⟨startPveFight_roster c mapId nextMarkId drawn, startPveFight_lives c mapId nextMarkId drawn⟩
  have hrun := writes_invariant (I := fun s => s.Roster ∧ s.Lives)
    (fun s u hs hu hlife => ⟨hs.1.apply hu, hs.2.apply hu hlife⟩) hblocks h hstart
  refine ⟨((hrun.1.and (hwrites.and h)).imp fun s a hs => ?_), fun f hf => (hrun.2.2 f hf).1⟩
  obtain ⟨⟨hroster, hlives⟩, hwrite, hlife⟩ := hs
  refine ⟨fun f hf => (hlives f hf).1, hlives.staysDead hroster hwrite ?_⟩
  cases a with
  | update u => exact hlives.apply hwrite hlife
  | _ => exact hlives

/-- A novice is hit by the monster and heals itself. -/
theorem fight_keeps_life_novice :
    let heal : SpellData := { SpellData.fallback with effects := [⟨108, 20, 0, 0, .neutral⟩] }
    let s := startPveFight (fun _ => none) .novice 0 0 0
    let t := (history (fun _ => none) 3 1 [.ready true, .turnFinish, .cast 0 281 (some heal) 0] s).trace
    Along (fun s a => (∀ f ∈ s.fighters, f.Living) ∧ StaysDead s a) s t ∧ ∀ f ∈ (after s t).fighters, f.Living :=
  fight_keeps_life (fun _ => none) 3 .novice 0 0 0
    [.ready true, .turnFinish,
      .cast 0 281 (some { SpellData.fallback with effects := [⟨108, 20, 0, 0, .neutral⟩] }) 0]
    (by decide +kernel)

/-- A spell that kills its caster and heals it leaves it dead with life points. -/
theorem fight_heals_dead :
    ¬∀ (maps : Int → Option MapData) (n : Nat) (c : Character) (mapId : Int) (nextMarkId drawn : Nat)
      (rs : List Request),
      let s := startPveFight maps c mapId nextMarkId drawn
      ∀ f ∈ (after s (history maps n c.id rs s).trace).fighters, f.Living := by
  intro h
  let spell : SpellData :=
    { SpellData.fallback with effects := [⟨90, 1000, 0, 0, .neutral⟩, ⟨108, 20, 0, 0, .neutral⟩] }
  let s := startPveFight (fun _ => none) .novice 0 0 0
  have hfighters := h (fun _ => none) 0 .novice 0 0 0 [.cast 0 281 (some spell) 0]
  have hdead : ∃ f ∈ (after s (history (fun _ => none) 0 1 [.cast 0 281 (some spell) 0] s).trace).fighters,
      f.isAlive = false ∧ 0 < f.lifePoints := by decide +kernel
  obtain ⟨f, hf, hdead, hlife⟩ := hdead
  have halive := (hfighters f hf).alive_iff.2 hlife
  rw [hdead] at halive
  cases halive

end Otomai.Combat
