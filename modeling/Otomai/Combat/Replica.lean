import Otomai.Trace.Observer
import Otomai.Combat.Life

/-!
# What the client shows of a fight

The client learns of a fight from its messages.  An observer folds them into a replica of the fighters: where each of
them stands, whether it is alive, and how many life points it has.

* `Block.agrees`: a block, with the messages that tell of it, leaves the replica in agreement with the fight.
* `fight_replica_agrees`: so does a run, if what a hit takes is what it announces, or all that is left.
-/

namespace Otomai.Combat

open Machine Otomai.Common Trace Program

variable {maps : Int → Option MapData} {n : Nat} {playerId : Int}

/-! ### The replica -/

/-- What the client shows of a fighter. -/
structure Actor where
  id : Int
  cellId : Int
  isAlive : Bool
  lifePoints : Int
  maxLifePoints : Int
  deriving DecidableEq

namespace Actor

variable (a : Actor)

def onCell (cellId : Int) : Actor := { a with cellId := cellId }

/-- The life points stay between none and all of them. -/
def lose (loss : Int) : Actor := { a with lifePoints := max (min (a.lifePoints - loss) a.maxLifePoints) 0 }

def gain (delta : Int) : Actor := { a with lifePoints := max (min (a.lifePoints + delta) a.maxLifePoints) 0 }

def die : Actor := { a with isAlive := false }

end Actor

/-- What `send_show_fighter` shows. -/
def Fighter.shown (f : Fighter) : Actor := ⟨f.id, f.cellId, f.isAlive, f.lifePoints, f.maxLifePoints⟩

structure Replica where
  actors : List Actor
  deriving DecidableEq

namespace Replica

variable (g : Replica)

def modify (id : Int) (change : Actor → Actor) : Replica := ⟨modifyFirst (·.id = id) change g.actors⟩

/-- What the client makes of a message. -/
def receive : ServerMessage → Replica
  | .showFighter id cellId _ isAlive lifePoints maxLifePoints =>
    ⟨g.actors ++ [⟨id, cellId, isAlive, lifePoints, maxLifePoints⟩]⟩
  | .entityDisposition id cellId => g.modify id (·.onCell cellId)
  | .mapMovement keyMovements actorId =>
    match keyMovements.getLast? with
    | some key => g.modify actorId (·.onCell (key.toInt % 4096))
    | none => g
  | .lifePointsLost _ targetId loss _ => g.modify targetId (·.lose loss)
  | .lifePointsGain targetId delta => g.modify targetId (·.gain delta)
  | .death _ targetId => g.modify targetId (·.die)
  | .slide _ targetId _ endCellId => g.modify targetId (·.onCell endCellId)
  | .teleportOnSameMap _ targetId cellId => g.modify targetId (·.onCell cellId)
  | .exchangePositions sourceId targetId casterCellId targetCellId =>
    (g.modify sourceId (·.onCell casterCellId)).modify targetId (·.onCell targetCellId)
  | _ => g

/-- The replica of a fight that is shown. -/
def ofFight (s : Fight) : Replica := ⟨s.fighters.map Fighter.shown⟩

end Replica

instance : Observes Replica Fight Action where
  note g _
    | .send m => g.receive m
    | _ => g

/-- The replica shows the fight as it is. -/
def Agrees (x : Replica × Fight) : Prop := x.1 = .ofFight x.2

instance (x : Replica × Fight) : Decidable (Agrees x) := inferInstanceAs (Decidable (_ = _))

/-- A hit, a machine integer, is left as it is by the shields of its target; or it takes all the life points there
are, and announces no less. -/
def Announced (s : Fight) : Action → Prop
  | .update (.hit targetId damage) => ∀ f ∈ s.getFighter targetId, damage < 2147483648 ∧
      (f.buffs.absorbShield damage = damage ∨ (f.hit damage).lifePoints = 0 ∧ f.lifePoints ≤ damage)
  | _ => True

instance (s : Fight) (a : Action) : Decidable (Announced s a) := by
  delta Announced
  induction a using Action.casesOn with
  | update u => induction u using Update.casesOn <;> infer_instance
  | _ => infer_instance

/-! ### Life points within their bounds -/

/-- The life points are within their bounds; the level is a level. -/
def Fighter.InBounds (f : Fighter) : Prop :=
  0 ≤ f.lifePoints ∧ f.lifePoints ≤ f.maxLifePoints ∧ f.maxLifePoints < 2147483648 ∧ 1 ≤ f.level ∧ f.level ≤ 200

def Fight.InBounds (s : Fight) : Prop := ∀ f ∈ s.fighters, f.InBounds

section

variable {f : Fighter} {damage : Int}

/-- The life points that an announced hit leaves. -/
theorem Fighter.hit_lifePoints (hf : f.InBounds) (hdamage : 0 ≤ damage) (hmax : damage < 2147483648)
    (hshown : f.buffs.absorbShield damage = damage ∨ (f.hit damage).lifePoints = 0 ∧ f.lifePoints ≤ damage) :
    (f.hit damage).lifePoints = max (f.lifePoints - damage) 0 := by
  obtain ⟨hnonneg, hle, hlt, -⟩ := hf
  rcases hshown with h | ⟨h, hkills⟩
  · have hwrap : wrap32 (f.lifePoints - damage) = f.lifePoints - damage := wrap32_of_range (by omega) (by omega)
    simp only [Fighter.hit, h, hwrap]
  · rw [h]
    omega

theorem Fighter.InBounds.hit (hf : f.InBounds) (hdamage : 0 ≤ damage) (hmax : damage < 2147483648)
    (hshown : f.buffs.absorbShield damage = damage ∨ (f.hit damage).lifePoints = 0 ∧ f.lifePoints ≤ damage) :
    (f.hit damage).InBounds := by
  have hlife := f.hit_lifePoints hf hdamage hmax hshown
  obtain ⟨hnonneg, hle, hlt, hlevel⟩ := hf
  refine ⟨?_, ?_, hlt, hlevel⟩
  · rw [hlife]
    exact le_max_right _ _
  · have hleft : f.lifePoints - damage ≤ f.maxLifePoints := by omega
    rw [hlife]
    exact max_le hleft (hnonneg.trans hle)

/-- A heal adds what it restores, and that is not more than what is missing. -/
theorem Fighter.heal_lifePoints (healing : Int) (hf : f.InBounds) :
    0 ≤ f.actualHeal healing ∧ f.lifePoints + f.actualHeal healing ≤ f.maxLifePoints ∧
      (f.heal healing).lifePoints = f.lifePoints + f.actualHeal healing := by
  obtain ⟨hnonneg, hle, hlt, -⟩ := hf
  have hmissing : wrap32 (f.maxLifePoints - f.lifePoints) = f.maxLifePoints - f.lifePoints :=
    wrap32_of_range (by omega) (by omega)
  have hactual : 0 ≤ f.actualHeal healing ∧ f.lifePoints + f.actualHeal healing ≤ f.maxLifePoints := by
    unfold actualHeal
    omega
  refine ⟨hactual.1, hactual.2, ?_⟩
  simp only [Fighter.heal]
  exact wrap32_of_range (by omega) (by omega)

theorem Fighter.InBounds.heal (healing : Int) (hf : f.InBounds) : (f.heal healing).InBounds := by
  obtain ⟨hactual, hle, hlife⟩ := f.heal_lifePoints healing hf
  obtain ⟨hnonneg, -, hlt, hlevel⟩ := hf
  refine ⟨?_, ?_, hlt, hlevel⟩
  · rw [hlife]
    omega
  · rw [hlife]
    exact hle

end

namespace Fight

variable {s : Fight}

private theorem InBounds.modifyFighter (hs : s.InBounds) {id : Int} {g : Fighter → Fighter}
    (hg : ∀ f ∈ s.getFighter id, f.InBounds → (g f).InBounds) : (s.modifyFighter id g).InBounds := by
  intro f' hf'
  rcases mem_modifyFirst hf' with hmem | ⟨f, hf, rfl⟩
  · exact hs f' hmem
  · exact hg f hf (hs f (List.mem_of_find?_eq_some hf))

private theorem InBounds.modifyCurrent (hs : s.InBounds) {g : Fighter → Fighter}
    (hg : ∀ f : Fighter, f.InBounds → (g f).InBounds) : (s.modifyCurrent g).InBounds := by
  intro f' hf'
  rcases mem_modify hf' with hmem | ⟨f, hf, rfl⟩
  · exact hs f' hmem
  · exact hg f (hs f (List.mem_of_getElem? hf))

private theorem InBounds.summoned (hs : s.InBounds) (casterId cellId monsterId : Int) :
    (s.summoned casterId cellId monsterId (((s.getFighter casterId).map Fighter.level).getD 1)).InBounds := by
  have hlevel : 1 ≤ ((s.getFighter casterId).map Fighter.level).getD 1 ∧
      ((s.getFighter casterId).map Fighter.level).getD 1 ≤ 200 := by
    cases hcaster : s.getFighter casterId with
    | none => exact ⟨le_rfl, by decide⟩
    | some caster => exact (hs caster (List.mem_of_find?_eq_some hcaster)).2.2.2
  generalize ((s.getFighter casterId).map Fighter.level).getD 1 = level at hlevel
  have hlife : wrap32 (20 + level * 8) = 20 + level * 8 := wrap32_of_range (by omega) (by omega)
  refine ⟨?_, le_rfl, ?_, hlevel⟩
  · simp only [Fight.summoned, hlife]
    omega
  · simp only [Fight.summoned, hlife]
    omega

/-- A write keeps everybody's life points within their bounds, if what a hit takes is announced. -/
theorem InBounds.apply (hs : s.InBounds) {u : Update} (hu : Write s u) (hshown : Announced s (.update u)) :
    (s.apply u).InBounds := by
  cases u with
  | hit targetId damage =>
    have hdamage : 0 ≤ damage := by
      cases hu with
      | quiet hquiet => cases hquiet
      | hit _ hdamage => exact hdamage
    exact hs.modifyFighter fun f hf hbounds => hbounds.hit hdamage (hshown f hf).1 (hshown f hf).2
  | heal targetId heal => exact hs.modifyFighter fun f _ hbounds => hbounds.heal heal
  | summon casterId f =>
    cases hu with
    | quiet hquiet => cases hquiet
    | summon _ _ hlevel =>
      intro f' hf'
      rcases List.mem_append.1 hf' with hf' | hf'
      · exact hs f' hf'
      · rw [List.mem_singleton.1 hf', hlevel]
        exact hs.summoned _ _ _
  | exchange sourceId targetId cellA cellB =>
    have hfirst : (s.modifyFighter sourceId (·.onCell cellB)).InBounds := hs.modifyFighter fun _ _ h => h
    exact hfirst.modifyFighter fun _ _ h => h
  | move _ _ | payCast _ _ | spendMovement _ | tickBuffs | resetTurn => exact hs.modifyCurrent fun _ h => h
  | advanceTurn =>
    simp only [Fight.apply, Fight.advanceTurn]
    split <;> exact hs
  | placeMark _ | removeMark _ | tickMarks | setPhase _ | drawIds _ _ => exact hs
  | _ => exact hs.modifyFighter fun _ _ h => h

end Fight

/-! ### Agreement -/

section

variable {α β : Type} {p : α → Bool} {q : β → Bool} {g : α → α} {h : β → β} {k : α → β} {l : List α}

/-- A change of the first element is shown if it is shown of that element. -/
theorem map_modifyFirst_comm (hq : ∀ a, q (k a) = p a) (hg : ∀ a, l.find? p = some a → k (g a) = h (k a)) :
    (modifyFirst p g l).map k = modifyFirst q h (l.map k) := by
  induction l with
  | nil => rfl
  | cons a l ih =>
    cases ha : p a with
    | true => simp [modifyFirst, hq, ha, hg a (by simp [ha])]
    | false =>
      have hrest := ih fun b hb => hg b (by simpa [ha] using hb)
      simp [modifyFirst, hq, ha, hrest]

theorem map_modifyFirst_of_find (hg : ∀ a, l.find? p = some a → k (g a) = k a) :
    (modifyFirst p g l).map k = l.map k := by
  induction l with
  | nil => rfl
  | cons a l ih =>
    cases ha : p a with
    | true => simp [modifyFirst, ha, hg a (by simp [ha])]
    | false =>
      have hrest := ih fun b hb => hg b (by simpa [ha] using hb)
      simp [modifyFirst, ha, hrest]

end

namespace Replica

variable {s : Fight}

/-- A change of a fighter is shown by a change of its actor. -/
theorem modify_ofFight {id : Int} {g : Fighter → Fighter} {change : Actor → Actor}
    (hg : ∀ f ∈ s.getFighter id, (g f).shown = change f.shown) :
    (ofFight s).modify id change = ofFight (s.modifyFighter id g) :=
  congrArg Replica.mk (map_modifyFirst_comm (fun _ => rfl) hg).symm

theorem modify_modify {g : Replica} {id : Int} {change change' : Actor → Actor} (hid : ∀ a, (change a).id = a.id) :
    (g.modify id change).modify id change' = g.modify id fun a => change' (change a) :=
  congrArg Replica.mk (modifyFirst_modifyFirst fun a => by rw [hid])

/-- A write that does not concern what is shown. -/
theorem ofFight_apply {u : Update} (hcells : u.keepsCells = true) (hlives : u.keepsLives = true)
    (hheal : ∀ targetId heal, u ≠ .heal targetId heal) : ofFight (s.apply u) = ofFight s := by
  refine congrArg Replica.mk ?_
  cases u with
  | place _ _ => cases hcells
  | move _ _ => cases hcells
  | slide _ _ => cases hcells
  | teleport _ _ => cases hcells
  | exchange _ _ _ _ => cases hcells
  | hit _ _ => cases hlives
  | summon _ _ => cases hlives
  | heal targetId heal => exact absurd rfl (hheal targetId heal)
  | payCast _ _ => exact s.map_modifyCurrent fun _ => rfl
  | spendMovement _ => exact s.map_modifyCurrent fun _ => rfl
  | tickBuffs => exact s.map_modifyCurrent fun _ => rfl
  | resetTurn => exact s.map_modifyCurrent fun _ => rfl
  | advanceTurn =>
    simp only [Fight.apply, Fight.advanceTurn]
    split <;> rfl
  | addShield _ _ => exact s.map_modifyFighter (fun f => show (f.addShield _).shown = f.shown from rfl) _
  | addBuff _ _ => exact s.map_modifyFighter (fun f => show (f.addBuff _).shown = f.shown from rfl) _
  | addState _ _ => exact s.map_modifyFighter (fun f => show (f.addState _).shown = f.shown from rfl) _
  | removeState _ _ => exact s.map_modifyFighter (fun f => show (f.removeState _).shown = f.shown from rfl) _
  | vanish _ => exact s.map_modifyFighter (fun f => show f.vanish.shown = f.shown from rfl) _
  | _ => rfl

/-- A hit that is announced, and the death that it causes. -/
theorem receive_hit (hs : s.InBounds) {sourceId targetId damage : Int} {element : Element} {f : Fighter}
    (hf : s.getFighter targetId = some f) (hdamage : 0 ≤ damage)
    (hshown : Announced s (.update (.hit targetId damage))) :
    let lost := (ofFight s).receive (.lifePointsLost sourceId targetId damage element)
    (if (f.hit damage).isAlive then lost else lost.receive (.death sourceId targetId)) =
      ofFight (s.apply (.hit targetId damage)) := by
  have hbounds := hs f (List.mem_of_find?_eq_some hf)
  have hlife := f.hit_lifePoints hbounds hdamage (hshown f hf).1 (hshown f hf).2
  obtain ⟨hnonneg, hle, -⟩ := hbounds
  have hclamped : max (min (f.lifePoints - damage) f.maxLifePoints) 0 = (f.hit damage).lifePoints := by
    rw [hlife]
    omega
  have hlose : (f.shown.lose damage) = { (f.hit damage).shown with isAlive := f.isAlive } := by
    simp only [Actor.lose, Fighter.shown, hclamped, Fighter.hit]
  have hfound : ∀ g ∈ s.getFighter targetId, g = f := fun g hg => Option.some.inj (hg.symm.trans hf)
  dsimp only
  split
  · rename_i halive
    refine modify_ofFight fun g hg => ?_
    rw [hfound g hg, hlose, hit_isAlive halive]
    exact congrArg (fun alive => { (f.hit damage).shown with isAlive := alive }) halive
  · rename_i hdead
    have hboth : ((ofFight s).receive (.lifePointsLost sourceId targetId damage element)).receive
        (.death sourceId targetId) = (ofFight s).modify targetId fun a => (a.lose damage).die :=
      modify_modify fun _ => rfl
    refine hboth.trans (modify_ofFight fun g hg => ?_)
    rw [hfound g hg, hlose]
    exact congrArg (fun alive => { (f.hit damage).shown with isAlive := alive }) (Bool.eq_false_iff.2 hdead)

/-- A heal, which is announced if it restores anything. -/
theorem receive_heal (hs : s.InBounds) {targetId heal : Int} {f : Fighter} (hf : s.getFighter targetId = some f) :
    (if 0 < f.actualHeal heal then (ofFight s).receive (.lifePointsGain targetId (f.actualHeal heal))
      else ofFight s) =
      ofFight (s.apply (.heal targetId heal)) := by
  have hbounds := hs f (List.mem_of_find?_eq_some hf)
  obtain ⟨hactual, hle, hlife⟩ := f.heal_lifePoints heal hbounds
  obtain ⟨hnonneg, -⟩ := hbounds
  have hfound : ∀ g ∈ s.getFighter targetId, g = f := fun g hg => Option.some.inj (hg.symm.trans hf)
  have hshown : (f.heal heal).shown = { f.shown with lifePoints := f.lifePoints + f.actualHeal heal } := by
    simp only [Fighter.shown, hlife]
    rfl
  split
  · refine modify_ofFight fun g hg => ?_
    have hclamped : max (min (f.lifePoints + f.actualHeal heal) f.maxLifePoints) 0 =
      f.lifePoints + f.actualHeal heal := by
      omega
    rw [hfound g hg, hshown]
    simp only [Actor.gain, Fighter.shown, hclamped]
  · have hnothing : f.actualHeal heal = 0 := by omega
    refine congrArg Replica.mk (map_modifyFirst_of_find fun g hg => ?_).symm
    rw [hfound g hg, hshown, hnothing, add_zero]
    rfl

end Replica

/-! ### Blocks -/

section

variable {x : Replica × Fight} {b : List Action}

theorem Effect.agrees (hx : Agrees x) (hs : x.2.InBounds) (hb : Effect x.2 b) (hshown : Along Announced x.2 b) :
    Agrees (after x b) := by
  obtain ⟨g, s⟩ := x
  obtain rfl : g = .ofFight s := hx
  cases hb with
  | @say m hm => cases m <;> first | rfl | cases hm
  | @quiet u hu _ _ =>
    refine (Replica.ofFight_apply ?_ (Update.keepsLives_of_isQuiet hu) ?_).symm
    · cases u <;> first | rfl | cases hu
    · rintro targetId heal rfl
      cases hu
  | @shield targetId b _ =>
    have hfirst := @Replica.ofFight_apply s (.addShield targetId b.value) rfl rfl (by rintro _ _ ⟨⟩)
    exact ((Replica.ofFight_apply (u := .addBuff targetId b) rfl rfl (by rintro _ _ ⟨⟩)).trans hfirst).symm
  | placeMark _ _ _ => rfl
  | @hit sourceId targetId damage element f hf _ hdamage =>
    have hagree := @Replica.receive_hit _ hs sourceId _ _ element _ hf hdamage hshown.1
    dsimp only at hagree
    split at hagree
    · rw [if_pos ‹_›]
      exact hagree
    · rw [if_neg ‹_›]
      exact hagree
  | @heal targetId heal f hf =>
    have hagree := @Replica.receive_heal _ hs _ heal _ hf
    split at hagree
    · rw [if_pos ‹_›]
      exact hagree
    · rw [if_neg ‹_›]
      exact hagree
  | slide _ _ => exact Replica.modify_ofFight fun _ _ => rfl
  | teleport _ _ => exact Replica.modify_ofFight fun _ _ => rfl
  | @exchange sourceId targetId cellId a b t _ _ _ _ =>
    have hsource : (Replica.ofFight s).modify sourceId (·.onCell b.cellId) =
        .ofFight (s.modifyFighter sourceId (·.onCell b.cellId)) := Replica.modify_ofFight fun _ _ => rfl
    have htarget : (Replica.ofFight (s.modifyFighter sourceId (·.onCell b.cellId))).modify targetId
      (·.onCell a.cellId) =
        .ofFight (s.apply (.exchange sourceId targetId a.cellId b.cellId)) := Replica.modify_ofFight fun _ _ => rfl
    exact (congrArg (·.modify targetId (·.onCell a.cellId)) hsource).trans htarget

theorem SpellBlock.agrees (hx : Agrees x) (hs : x.2.InBounds) (hb : SpellBlock x.2 b)
    (hshown : Along Announced x.2 b) :
    Agrees (after x b) := by
  cases hb with
  | effect h => exact h.agrees hx hs hshown
  | @summon casterId monsterId f cellId level _ _ _ hf =>
    obtain ⟨g, s⟩ := x
    obtain rfl : g = .ofFight s := hx
    subst hf
    have hadded : s.fighters.map Fighter.shown ++ [(s.summoned casterId cellId monsterId level).shown] =
        (s.fighters ++ [s.summoned casterId cellId monsterId level]).map Fighter.shown := by
      rw [List.map_append, List.map_singleton]
    exact congrArg Replica.mk hadded

theorem TurnBlock.agrees (hx : Agrees x) (hs : x.2.InBounds) (hb : TurnBlock x.2 b) (hshown : Along Announced x.2 b) :
    Agrees (after x b) := by
  have hplain {u : Update} (hcells : u.keepsCells = true) (hlives : u.keepsLives = true)
      (hheal : ∀ targetId heal, u ≠ .heal targetId heal) : Agrees (act x (Action.update u)) :=
    hx.trans (Replica.ofFight_apply hcells hlives hheal).symm
  cases hb with
  | effect h => exact h.agrees hx hs hshown
  | tick hu =>
    rcases Update.eq_of_isTick hu with rfl | rfl
    · exact hplain (u := .tickBuffs) rfl rfl nofun
    · exact hplain (u := .tickMarks) rfl rfl nofun
  | finish _ => exact hx
  | poison _ => exact hx
  | beginTurn _ _ _ => exact hplain (u := .resetTurn) rfl rfl nofun
  | autoAttack _ _ _ _ => exact hx
  | spendMovement _ _ _ _ => exact hplain (u := .spendMovement _) rfl rfl nofun
  | advance _ _ => exact hplain (u := .advanceTurn) rfl rfl nofun

/-- Whatever a block does is told to the client. -/
theorem Block.agrees (hx : Agrees x) (hs : x.2.InBounds) (hroster : x.2.Roster) (hb : Block x.2 b)
    (hshown : Along Announced x.2 b) : Agrees (after x b) := by
  cases hb with
  | spell h => exact h.agrees hx hs hshown
  | turn h => exact h.agrees hx hs hshown
  | receive r => exact hx
  | start => exact hx
  | @cast spellId cellId loaded roll f data _ _ _ _ _ _ =>
    exact hx.trans (Replica.ofFight_apply (u := .payCast spellId.toInt data.apCost) rfl rfl nofun).symm
  | @move f mpCost cellId keyMovements key hf _ hlast hcell _ _ =>
    obtain ⟨g, s⟩ := x
    obtain rfl : g = .ofFight s := hx
    have hmoved : (Replica.ofFight s).modify f.id (·.onCell cellId) = .ofFight (s.apply (.move mpCost cellId)) := by
      have hmap : s.modifyCurrent (fun f => (f.spend mpCost).onCell cellId) =
          s.modifyFighter f.id fun f => (f.spend mpCost).onCell cellId := by
        have hsame := (modifyCurrent_eq_map hroster.ids hf _).trans
          (modifyFighter_eq_map hroster.ids f.id fun f => (f.spend mpCost).onCell cellId).symm
        exact congrArg (fun fighters => { s with fighters := fighters }) hsame
      simp only [Fight.apply, hmap]
      exact Replica.modify_ofFight fun _ _ => rfl
    have hreceived : (Replica.ofFight s).receive (.mapMovement keyMovements f.id) =
        (Replica.ofFight s).modify f.id (·.onCell cellId) := by
      simp only [Replica.receive, hlast, hcell]
    exact hreceived.trans hmoved
  | place _ _ =>
    obtain ⟨g, s⟩ := x
    obtain rfl : g = .ofFight s := hx
    exact Replica.modify_ofFight fun _ _ => rfl

end

/-! ### Fights -/

/-- A state of a fight in which the client shows it as it is. -/
structure Shown (x : Replica × Fight) : Prop where
  roster : x.2.Roster
  bounds : x.2.InBounds
  agrees : Agrees x

theorem Shown.block {x : Replica × Fight} {b : List Action} (hx : Shown x) (hb : Block x.2 b)
    (hshown : Along Announced x.2 b) : Shown (after x b) := by
  have hwrites := writes_invariant (I := fun s => s.Roster ∧ s.InBounds)
    (fun s u hs hu hshown => ⟨hs.1.apply hu, hs.2.apply hu hshown⟩) (.single hb) hshown ⟨hx.roster, hx.bounds⟩
  obtain ⟨-, hroster, hbounds⟩ := hwrites
  refine ⟨?_, ?_, hb.agrees hx.agrees hx.bounds hx.roster hshown⟩
  · rw [after_observed]
    exact hroster
  · rw [after_observed]
    exact hbounds

theorem startPveFight_inBounds (c : Character) (mapId : Int) (nextMarkId drawn : Nat) :
    (startPveFight maps c mapId nextMarkId drawn).InBounds := by
  intro f hf
  obtain ⟨hliving, hlt, hlevel⟩ := startPveFight_lives c mapId nextMarkId drawn f hf
  exact ⟨hliving.nonneg, hliving.le_max, hlt, hlevel⟩

/-- Whatever the client sends, it shows every fighter in its cell, alive or dead, with its life points, if what every
hit takes is what it announces, or all that is left. -/
theorem fight_replica_agrees (maps : Int → Option MapData) (n : Nat) (c : Character) (mapId : Int)
    (nextMarkId drawn : Nat) (rs : List Request) :
    let s := startPveFight maps c mapId nextMarkId drawn
    let t := (history maps n c.id rs s).trace
    Along Announced s t → Agrees (after (Replica.ofFight s, s) t) := by
  intro s t h
  have hblocks : Composed Block s t := history_composed rs (startPveFight_coherent c mapId nextMarkId drawn)
  have hstart : Shown (Replica.ofFight s, s) :=
    ⟨startPveFight_roster c mapId nextMarkId drawn, startPveFight_inBounds c mapId nextMarkId drawn, rfl⟩
  have hrun := hblocks.observed.invariant (I := Shown) (P := fun x a => Announced x.2 a)
    (fun _ _ hx hb hshown => hx.block hb (along_observed.1 hshown)) (along_observed.2 h) hstart
  exact hrun.agrees

/-- A novice casts and walks, and the monster attacks it. -/
theorem fight_replica_agrees_novice :
    let s := startPveFight (fun _ => none) .novice 0 0 0
    let t :=
      (history (fun _ => none) 3 1 [.ready true, .cast 0 281 none 0, .movement [280, 294], .turnFinish] s).trace
    Agrees (after (Replica.ofFight s, s) t) :=
  fight_replica_agrees (fun _ => none) 3 .novice 0 0 0
    [.ready true, .cast 0 281 none 0, .movement [280, 294], .turnFinish] (by decide +kernel)

/-- A shielded novice is hit by the monster: the client takes the life points that the shield has kept. -/
theorem fight_replica_drifts :
    ¬∀ (maps : Int → Option MapData) (n : Nat) (c : Character) (mapId : Int) (nextMarkId drawn : Nat)
      (rs : List Request),
      let s := startPveFight maps c mapId nextMarkId drawn
      Agrees (after (Replica.ofFight s, s) (history maps n c.id rs s).trace) := by
  intro h
  let shield : SpellData := { SpellData.fallback with effects := [⟨1040, 5, 0, 3, .neutral⟩] }
  have hagrees := h (fun _ => none) 3 .novice 0 0 0 [.ready true, .cast 1 281 (some shield) 0, .turnFinish]
  have hdrifts : ¬Agrees (after
      (Replica.ofFight (startPveFight (fun _ => none) .novice 0 0 0), startPveFight (fun _ => none) .novice 0 0 0)
      (history (fun _ => none) 3 1 [.ready true, .cast 1 281 (some shield) 0, .turnFinish]
        (startPveFight (fun _ => none) .novice 0 0 0)).trace) := by decide +kernel
  exact hdrifts hagrees

end Otomai.Combat
