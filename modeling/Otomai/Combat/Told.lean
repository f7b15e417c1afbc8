import Otomai.Trace.Only
import Otomai.Combat.Replica

/-!
# What the client is told of a fight

Beside the fighters the client shows the round, the order of the turns, who is dead and who is invisible; it knows
whose turn it is from the turn that was started last, and what belongs together from the sequences.  An observer keeps
all this as the messages tell it.

* `sequences_bracketed`: sequences are not nested, are closed as they were opened, and none is open between requests.
* `turns_alternate`: a turn that was started is ended, or started again, before another one is.
* `told_is_kept`: after every request the client knows the round, the order, the dead and the invisible of the fight.
-/

namespace Otomai.Combat

open Machine Otomai.Common Trace Program

/-! ### What is told -/

/-- What the messages of a fight have told; of a turn that has started, its fighter, and of a sequence that is open,
its type and its author. -/
structure Told where
  round : Int
  order : List Int
  dead : List Int
  hidden : List Int
  turn : Option Int
  sequence : Option (Int × Int)
  deriving DecidableEq

namespace Told

variable (g : Told)

/-- What the client makes of a message. -/
def receive : ServerMessage → Told
  | .newRound roundNumber => { g with round := roundNumber }
  | .turnList ids deadsIds => { g with order := ids, dead := deadsIds }
  | .death _ id => { g with order := g.order.filter (· ≠ id), dead := id :: g.dead }
  | .invisibility id state =>
    { g with hidden := if state = 1 then id :: g.hidden else g.hidden.filter (· ≠ id) }
  | .turnStart id => { g with turn := some id }
  | .turnEnd _ => { g with turn := none }
  | .sequenceStart sequenceType authorId => { g with sequence := some (sequenceType, authorId) }
  | .sequenceEnd .. => { g with sequence := none }
  | _ => g

/-- At the start of a fight the order of the turns is told, nobody is dead and everybody is seen. -/
def ofStart (s : Fight) : Told := ⟨1, s.turnOrder, [], [], none, none⟩

end Told

instance : Observes Told Fight Action where
  note g _
    | .send m => g.receive m
    | _ => g

/-- A sequence is opened when none is open, and closed by its author as it was opened.  Casts, steps and attacks, and
what they cost, are told within a sequence of theirs; a request comes when no sequence is open. -/
def Bracketed (x : Told × Fight) : Action → Prop
  | .receive _ => x.1.sequence = none
  | .autoAttack id _ => x.1.sequence = some (1, id)
  | .send (.sequenceStart ..) => x.1.sequence = none
  | .send (.sequenceEnd _ authorId sequenceType) => x.1.sequence = some (sequenceType, authorId)
  | .send (.spellCast id ..) => x.1.sequence = some (1, id)
  | .send (.mapMovement _ id) => x.1.sequence = some (2, id)
  | .send (.pointsVariation _ id _) => x.1.sequence = some (1, id) ∨ x.1.sequence = some (2, id)
  | _ => True

/-- While a turn has started, no other one starts or ends. -/
def TakesTurns (x : Told × Fight) : Action → Prop
  | .send (.turnStart id) | .send (.turnEnd id) => ∀ id', x.1.turn = some id' → id' = id
  | _ => True

/-- What is told is so. -/
structure Told.Kept (x : Told × Fight) : Prop where
  round : x.1.round = x.2.round
  order : x.1.order = x.2.turnOrder
  dead : ∀ id, id ∈ x.1.dead ↔ id ∈ x.2.deadIds
  hidden : ∀ id, id ∈ x.1.hidden ↔ ∃ f ∈ x.2.fighters, f.id = id ∧ f.invisible = true

/-- When a request comes, what is told is so. -/
def Abreast (x : Told × Fight) : Action → Prop
  | .receive _ => Told.Kept x
  | _ => True

/-- What is told is so, and the turn that has started is the current one. -/
structure UpToDate (x : Told × Fight) : Prop where
  roster : x.2.Roster
  kept : Told.Kept x
  turn : ∀ id, x.1.turn = some id → x.2.currentFighter.map Fighter.id = some id

/-! ### Writes -/

/-- Who the fighter is, and whether it is alive. -/
def Fighter.living (f : Fighter) : Int × Bool := (f.id, f.isAlive)

/-- What the client is told of a fighter here. -/
def Fighter.told (f : Fighter) : (Int × Bool) × Bool := (f.living, f.invisible)

/-- The write leaves alone what is told. -/
def Update.keepsTold : Update → Bool
  | .hit .. | .summon .. | .payCast .. | .vanish _ | .advanceTurn => false
  | _ => true

theorem exists_map_congr {α β : Type} {l l' : List α} {k : α → β} (h : l'.map k = l.map k) (P : β → Prop) :
    (∃ a ∈ l', P (k a)) ↔ ∃ a ∈ l, P (k a) := by
  have hmap (l : List α) : (∃ a ∈ l, P (k a)) ↔ ∃ b ∈ l.map k, P b := by
    simp only [List.mem_map, exists_exists_and_eq_and]
  rw [hmap, hmap, h]

namespace Fight

variable (s : Fight)

theorem map_told_apply {u : Update} (hu : u.keepsTold = true) :
    (s.apply u).fighters.map Fighter.told = s.fighters.map Fighter.told := by
  cases u with
  | hit _ _ => cases hu
  | summon _ _ => cases hu
  | payCast _ _ => cases hu
  | vanish _ => cases hu
  | advanceTurn => cases hu
  | exchange sourceId targetId cellA cellB =>
    have hfirst := s.map_modifyFighter (k := Fighter.told) (g := (·.onCell cellB)) (fun _ => rfl) sourceId
    exact (map_modifyFighter (g := (·.onCell cellA)) _ (fun _ => rfl) targetId).trans hfirst
  | move _ _ => exact s.map_modifyCurrent fun _ => rfl
  | spendMovement _ => exact s.map_modifyCurrent fun _ => rfl
  | tickBuffs => exact s.map_modifyCurrent fun _ => rfl
  | resetTurn => exact s.map_modifyCurrent fun _ => rfl
  | place playerId cellId => exact s.map_modifyFighter (g := (·.onCell cellId)) (fun _ => rfl) playerId
  | slide targetId cellId => exact s.map_modifyFighter (g := (·.onCell cellId)) (fun _ => rfl) targetId
  | teleport targetId cellId => exact s.map_modifyFighter (g := (·.onCell cellId)) (fun _ => rfl) targetId
  | heal _ _ => exact s.map_modifyFighter (fun f => show (f.heal _).told = f.told from rfl) _
  | addShield _ _ => exact s.map_modifyFighter (fun f => show (f.addShield _).told = f.told from rfl) _
  | addBuff _ _ => exact s.map_modifyFighter (fun f => show (f.addBuff _).told = f.told from rfl) _
  | addState _ _ => exact s.map_modifyFighter (fun f => show (f.addState _).told = f.told from rfl) _
  | removeState _ _ => exact s.map_modifyFighter (fun f => show (f.removeState _).told = f.told from rfl) _
  | _ => rfl

theorem mem_deadIds {id : Int} : id ∈ s.deadIds ↔ ∃ f ∈ s.fighters, f.living = (id, false) := by
  simp only [deadIds, List.mem_map, List.mem_filter, Bool.not_eq_true', Fighter.living, Prod.mk.injEq]
  constructor
  · intro h
    obtain ⟨f, hf, hid⟩ := h
    exact ⟨f, hf.1, hid, hf.2⟩
  · intro h
    obtain ⟨f, hf, hid, hdead⟩ := h
    exact ⟨f, ⟨hf, hdead⟩, hid⟩

variable {s}

theorem turnOrder_congr {s' : Fight} (h : s'.fighters.map Fighter.living = s.fighters.map Fighter.living) :
    s'.turnOrder = s.turnOrder := by
  have hmap (s : Fight) : s.turnOrder = ((s.fighters.map Fighter.living).filter Prod.snd).map Prod.fst := by
    rw [List.filter_map, List.map_map]
    rfl
  rw [hmap, hmap, h]

theorem currentId_congr {s' : Fight} (h : s'.fighters.map Fighter.id = s.fighters.map Fighter.id)
    (hindex : s'.currentFighterIndex = s.currentFighterIndex) :
    s'.currentFighter.map Fighter.id = s.currentFighter.map Fighter.id := by
  have hmap (s : Fight) : s.currentFighter.map Fighter.id = (s.fighters.map Fighter.id)[s.currentFighterIndex]? :=
    List.getElem?_map.symm
  rw [hmap, hmap, h, hindex]

end Fight

section

variable {fs : List Fighter} {g : Fighter → Fighter} {id : Int}

/-- To kill whoever has an id takes the id out of the living. -/
theorem living_kill (hdead : ∀ f ∈ fs, f.id = id → (g f).isAlive = false) :
    ((fs.map fun f => if f.id = id then g f else f).filter (·.isAlive)).map Fighter.id =
      ((fs.filter (·.isAlive)).map Fighter.id).filter (· ≠ id) := by
  induction fs with
  | nil => rfl
  | cons f fs ih =>
    have hrest := ih fun f' hf' => hdead f' (List.mem_cons_of_mem f hf')
    by_cases hf : f.id = id
    · have hkilled := hdead f List.mem_cons_self hf
      cases halive : f.isAlive with
      | true => simp [hf, hkilled, halive, hrest]
      | false => simp [hf, hkilled, halive, hrest]
    · cases halive : f.isAlive with
      | true => simp [hf, halive, hrest]
      | false => simp [hf, halive, hrest]

/-- To change whoever has an id concerns nobody else. -/
theorem exists_change (hid : ∀ f, (g f).id = f.id) {P : Fighter → Prop} {id' : Int} :
    (∃ f ∈ fs.map fun f => if f.id = id then g f else f, f.id = id' ∧ P f) ↔
      ∃ f ∈ fs, f.id = id' ∧ if id' = id then P (g f) else P f := by
  simp only [List.mem_map, exists_exists_and_eq_and]
  refine exists_congr fun f => and_congr_right fun _ => ?_
  by_cases hf : f.id = id
  · rw [if_pos hf, hid]
    refine and_congr_right fun hf' => ?_
    rw [if_pos (hf'.symm.trans hf)]
  · rw [if_neg hf]
    refine and_congr_right fun hf' => ?_
    rw [if_neg fun h => hf (hf'.trans h)]

end

namespace UpToDate

variable {g : Told} {s s' : Fight}

theorem currentId (hx : UpToDate (g, s)) (hids : s'.fighters.map Fighter.id = s.fighters.map Fighter.id)
    (hindex : s'.currentFighterIndex = s.currentFighterIndex) :
    ∀ id, g.turn = some id → s'.currentFighter.map Fighter.id = some id := by
  intro id hid
  rw [Fight.currentId_congr hids hindex]
  exact hx.turn id hid

/-- Nobody dies, and it is told who is invisible. -/
theorem of_living {hidden : List Int} (hx : UpToDate (g, s)) (hroster : s'.Roster)
    (hsame : s'.fighters.map Fighter.living = s.fighters.map Fighter.living) (hround : s'.round = s.round)
    (hindex : s'.currentFighterIndex = s.currentFighterIndex)
    (hhidden : ∀ id, id ∈ hidden ↔ ∃ f ∈ s'.fighters, f.id = id ∧ f.invisible = true) :
    UpToDate ({ g with hidden := hidden }, s') := by
  have hids : s'.fighters.map Fighter.id = s.fighters.map Fighter.id := by
    have h := congrArg (List.map Prod.fst) hsame
    rwa [List.map_map, List.map_map] at h
  refine ⟨hroster, ⟨?_, ?_, fun id => ?_, hhidden⟩, hx.currentId hids hindex⟩
  · exact hx.kept.round.trans hround.symm
  · exact hx.kept.order.trans (Fight.turnOrder_congr hsame).symm
  · have hdead := exists_map_congr hsame fun p => p = (id, false)
    rw [← Fight.mem_deadIds, ← Fight.mem_deadIds] at hdead
    exact (hx.kept.dead id).trans hdead.symm

/-- Nothing that is told has changed. -/
theorem of_told (hx : UpToDate (g, s)) (hroster : s'.Roster)
    (hsame : s'.fighters.map Fighter.told = s.fighters.map Fighter.told) (hround : s'.round = s.round)
    (hindex : s'.currentFighterIndex = s.currentFighterIndex) : UpToDate (g, s') := by
  have hliving : s'.fighters.map Fighter.living = s.fighters.map Fighter.living := by
    have h := congrArg (List.map Prod.fst) hsame
    rwa [List.map_map, List.map_map] at h
  refine @of_living g s s' g.hidden hx hroster hliving hround hindex fun id => ?_
  have hhidden := exists_map_congr hsame fun p => p.1.1 = id ∧ p.2 = true
  exact (hx.kept.hidden id).trans hhidden.symm

/-- A write that leaves alone what is told. -/
theorem apply (hx : UpToDate (g, s)) {u : Update} (hw : Write s u) (hu : u.keepsTold = true) :
    UpToDate (g, s.apply u) := by
  have hround : (s.apply u).round = s.round := by cases u <;> first | rfl | cases hu
  have hindex : (s.apply u).currentFighterIndex = s.currentFighterIndex := by cases u <;> first | rfl | cases hu
  exact hx.of_told (hx.roster.apply hw) (s.map_told_apply hu) hround hindex

/-- A hit is told, and so is the death of whom it kills. -/
theorem hit (hx : UpToDate (g, s)) {sourceId targetId damage : Int} {f : Fighter}
    (hf : s.getFighter targetId = some f) (hdamage : 0 ≤ damage) :
    UpToDate (if (f.hit damage).isAlive then g else g.receive (.death sourceId targetId),
      s.apply (.hit targetId damage)) := by
  have hroster := hx.roster.apply (.hit hf hdamage)
  have hmem := List.mem_of_find?_eq_some hf
  have hid : f.id = targetId := by simpa using List.find?_some hf
  split
  · rename_i halive
    refine hx.of_told hroster (map_modifyFirst_of_find fun f' hf' => ?_) rfl rfl
    obtain rfl : f' = f := Option.some.inj (hf'.symm.trans hf)
    have hbefore := hit_isAlive halive
    simp only [Fighter.told, Fighter.living, Prod.mk.injEq]
    exact ⟨⟨rfl, halive.trans hbefore.symm⟩, rfl⟩
  · rename_i hkilled
    have hmap : (s.apply (.hit targetId damage)).fighters =
        s.fighters.map fun f => if f.id = targetId then f.hit damage else f :=
      modifyFighter_eq_map hx.roster.ids targetId _
    have hdead : ∀ f' ∈ s.fighters, f'.id = targetId → (f'.hit damage).isAlive = false := by
      intro f' hf' hid'
      obtain rfl : f' = f := List.inj_on_of_nodup_map hx.roster.ids hf' hmem (hid'.trans hid.symm)
      exact Bool.eq_false_iff.2 hkilled
    refine ⟨hroster, ⟨hx.kept.round, ?_, fun id => ?_, fun id => ?_⟩, ?_⟩
    · have horder := living_kill (g := (·.hit damage)) hdead
      rw [← hmap] at horder
      exact (congrArg (List.filter (· ≠ targetId)) hx.kept.order).trans horder.symm
    · have hsameId : ∀ f : Fighter, (f.hit damage).id = f.id := fun _ => rfl
      have hchange : (∃ f ∈ s.fighters.map fun f => if f.id = targetId then f.hit damage else f,
          f.id = id ∧ f.isAlive = false) ↔ _ := exists_change hsameId
      rw [← hmap] at hchange
      have hold := hx.kept.dead id
      rw [Fight.mem_deadIds] at hold ⊢
      simp only [Fighter.living, Prod.mk.injEq] at hold ⊢
      rw [hchange]
      simp only [Told.receive, List.mem_cons]
      by_cases htarget : id = targetId
      · subst htarget
        simp only [true_or, if_true, true_iff]
        exact ⟨f, hmem, hid, hdead f hmem hid⟩
      · simp only [htarget, false_or, if_false]
        exact hold
    · have hsame := s.map_modifyFighter (k := fun f => (f.id, f.invisible)) (g := (·.hit damage)) (fun _ => rfl)
        targetId
      have hhidden := exists_map_congr hsame fun p => p.1 = id ∧ p.2 = true
      exact (hx.kept.hidden id).trans hhidden.symm
    · exact hx.currentId (s.map_modifyFighter (k := Fighter.id) (g := (·.hit damage)) (fun _ => rfl) targetId) rfl

/-- Who becomes invisible is told so. -/
theorem hide (hx : UpToDate (g, s)) {id : Int} (hid : ∃ f ∈ s.fighters, f.id = id) :
    UpToDate (g.receive (.invisibility id 1), s.apply (.vanish id)) := by
  have hmap : (s.apply (.vanish id)).fighters = s.fighters.map fun f => if f.id = id then f.vanish else f :=
    modifyFighter_eq_map hx.roster.ids id _
  refine hx.of_living (hx.roster.apply (.quiet rfl)) ?_ rfl rfl fun id' => ?_
  · exact s.map_modifyFighter (k := Fighter.living) (g := (·.vanish)) (fun _ => rfl) id
  · rw [hmap, exists_change (g := (·.vanish)) fun _ => rfl]
    simp only [List.mem_cons, if_true]
    by_cases hsame : id' = id
    · subst hsame
      simp only [true_or, if_true, true_iff]
      obtain ⟨f, hf, hfid⟩ := hid
      exact ⟨f, hf, hfid, rfl⟩
    · simp only [hsame, false_or, if_false]
      exact hx.kept.hidden id'

/-- Who pays for a cast is seen again, and it is told so. -/
theorem reveal (hx : UpToDate (g, s)) {f : Fighter} (hf : s.currentFighter = some f) (spellId apCost : Int) :
    UpToDate (g.receive (.invisibility f.id 0), s.apply (.payCast spellId apCost)) := by
  have hmap : (s.apply (.payCast spellId apCost)).fighters =
      s.fighters.map fun f' => if f'.id = f.id then f'.payCast spellId apCost else f' :=
    modifyCurrent_eq_map hx.roster.ids hf _
  refine hx.of_living (hx.roster.apply (.payCast ..)) ?_ rfl rfl fun id => ?_
  · exact s.map_modifyCurrent (k := Fighter.living) (g := (·.payCast spellId apCost)) fun _ => rfl
  · rw [hmap, exists_change (g := (·.payCast spellId apCost)) fun _ => rfl]
    have hzero : ¬(0 : Int) = 1 := by decide
    simp only [if_neg hzero, List.mem_filter, decide_eq_true_eq]
    by_cases hsame : id = f.id
    · simp [hsame, Fighter.payCast]
    · simp only [ne_eq, hsame, not_false_eq_true, and_true, if_false]
      exact hx.kept.hidden id

/-- Who is summoned is told with the new order of the turns. -/
theorem summon (hx : UpToDate (g, s)) {casterId : Int} {f : Fighter} (hw : Write s (.summon casterId f))
    (hvisible : f.invisible = false) :
    UpToDate (g.receive (.turnList (s.apply (.summon casterId f)).turnOrder (s.apply (.summon casterId f)).deadIds),
      s.apply (.summon casterId f)) := by
  refine ⟨hx.roster.apply hw, ⟨hx.kept.round, rfl, fun _ => Iff.rfl, fun id => ?_⟩, fun id hid => ?_⟩
  · refine (hx.kept.hidden id).trans ?_
    simp only [Fight.apply, List.mem_append, List.mem_singleton]
    constructor
    · intro h
      obtain ⟨f', hf', hid⟩ := h
      exact ⟨f', .inl hf', hid⟩
    · intro h
      obtain ⟨f', hf' | rfl, hid, hhidden⟩ := h
      · exact ⟨f', hf', hid, hhidden⟩
      · rw [hvisible] at hhidden
        cases hhidden
  · have hcurrent : (s.apply (.summon casterId f)).currentFighter = s.currentFighter :=
      List.getElem?_append_left hx.roster.index
    rw [hcurrent]
    exact hx.turn id hid

theorem withSequence (hx : UpToDate (g, s)) (q : Option (Int × Int)) : UpToDate ({ g with sequence := q }, s) :=
  ⟨hx.roster, ⟨hx.kept.round, hx.kept.order, hx.kept.dead, hx.kept.hidden⟩, hx.turn⟩

/-- Whose turn has started is known. -/
theorem turn_eq (hx : UpToDate (g, s)) {f : Fighter} (hf : s.currentFighter = some f) :
    ∀ id, g.turn = some id → id = f.id := by
  intro id hid
  have h := hx.turn id hid
  rw [hf] at h
  exact (Option.some.inj h).symm

end UpToDate

/-! ### Effects -/

/-- The action is one of an effect that neither summons nor hides anybody. -/
def Action.isInner : Action → Bool
  | .send (.lifePointsLost ..) | .send (.lifePointsGain ..) | .send (.death ..) | .send (.slide ..)
  | .send (.teleportOnSameMap ..) | .send (.exchangePositions ..) => true
  | .update (.vanish _) | .update (.summon ..) => false
  | .update _ => true
  | _ => false

/-- The program does nothing but that. -/
abbrev Inner {α : Type} (p : FightProgram α) : Prop := Only (fun a => a.isInner = true) p

theorem applyHeal_inner (targetId heal : Int) : Inner (applyHeal targetId heal) := by
  unfold applyHeal
  refine .get_bind fun s => ?_
  split
  · exact .pure _
  · exact .bind (.perform rfl) fun _ => .when (.perform rfl)

theorem applyDamage_inner (sourceId targetId damage : Int) (element : Element) :
    Inner (applyDamage sourceId targetId damage element) := by
  unfold applyDamage
  refine .get_bind fun s => ?_
  split
  · exact .pure _
  · split
    · exact .pure _
    · refine .bind (.perform rfl) fun _ => .get_bind fun s => .bind (.perform rfl) fun _ => ?_
      exact .bind (.when (.perform rfl)) fun _ => .pure _

theorem applyPush_inner (sourceId targetId distance : Int) : Inner (applyPush sourceId targetId distance) := by
  unfold applyPush
  refine .get_bind fun s => ?_
  split
  · exact .pure _
  · split
    · refine .bind (.ofOption _) fun direction => ?_
      split
      · exact .pure _
      · refine .bind (.ofOption _) fun result => ?_
        refine .bind (.when (.bind (.perform rfl) fun _ => .perform rfl)) fun _ => .when ?_
        refine .bind (applyDamage_inner ..) fun _ => ?_
        split
        · exact .pure _
        · exact .bind (applyDamage_inner ..) fun _ => .pure _
    · exact .pure _

theorem applyPull_inner (sourceId targetId distance : Int) : Inner (applyPull sourceId targetId distance) := by
  unfold applyPull
  refine .get_bind fun s => ?_
  split
  · refine .bind (.ofOption _) fun direction => ?_
    split
    · exact .pure _
    · exact .bind (.ofOption _) fun current => .when (.bind (.perform rfl) fun _ => .perform rfl)
  · exact .pure _

theorem applyTeleport_inner (sourceId targetId destCell : Int) :
    Inner (applyTeleport sourceId targetId destCell) := by
  unfold applyTeleport
  exact .get_bind fun s => .when (.bind (.perform rfl) fun _ => .perform rfl)

theorem applyExchange_inner (sourceId targetId : Int) : Inner (applyExchange sourceId targetId) := by
  unfold applyExchange
  refine .get_bind fun s => ?_
  split
  · exact .bind (.perform rfl) fun _ => .perform rfl
  · exact .pure _

theorem trapEffect_inner (casterId : Int) (casterStats : FighterStats) (triggerFighterId : Int)
    (effect : SpellEffect) :
    Inner (trapEffect casterId casterStats triggerFighterId effect) := by
  unfold trapEffect
  refine .get_bind fun s => ?_
  split
  · exact .bind (applyDamage_inner ..) fun _ => .pure _
  · exact .when (.perform rfl)
  · exact .pure _

theorem triggerTrapsOnCell_inner (cellId triggerFighterId : Int) :
    Inner (triggerTrapsOnCell cellId triggerFighterId) := by
  unfold triggerTrapsOnCell
  refine .get_bind fun s => .when (.bind (.ofEnding _) fun allTrapIds => ?_)
  refine .bind (.forM fun trapId => ?_) fun _ => .forM fun trapId => .perform rfl
  unfold triggerTrap
  refine .get_bind fun s => ?_
  split
  · exact .pure _
  · exact .forM fun effect => trapEffect_inner ..

theorem triggerGlyphsForTurn_inner (casterId : Int) : Inner (triggerGlyphsForTurn casterId) := by
  unfold triggerGlyphsForTurn
  refine .get_bind fun s => .forM fun glyphId => ?_
  unfold triggerGlyph
  refine .get_bind fun s => ?_
  split
  · exact .pure _
  · refine .forM fun fighterId => .forM fun effect => ?_
    unfold glyphEffect
    refine .get_bind fun s => ?_
    split
    · exact .bind (applyDamage_inner ..) fun _ => .pure _
    · exact .pure _

/-- So do the effects of spells, summons and invisibility apart. -/
theorem applyEffect_inner (playerId cellId : Int) (casterStats : FighterStats) (isCritical : Bool)
    {effect : SpellEffect} (hsummon : classify effect.effectId ≠ .summon)
    (hbomb : classify effect.effectId ≠ .bombCast)
    (hhide : classify effect.effectId ≠ .invisibility) :
    Inner (applyEffect playerId cellId casterStats isCritical effect) := by
  unfold applyEffect
  refine .get_bind fun s => ?_
  have hshield (targetId value : Int) : Inner (do
      update (.addShield targetId value)
      update (.addBuff targetId (effect.buff playerId .shield value))) := .bind (.perform rfl) fun _ => .perform rfl
  cases hclass : classify effect.effectId with
  | summon => exact absurd hclass hsummon
  | bombCast => exact absurd hclass hbomb
  | invisibility => exact absurd hclass hhide
  | damage elem =>
    cases s.fighterOnCell cellId with
    | none => exact .pure _
    | some target => exact .bind (applyDamage_inner ..) fun _ => .pure _
  | lifeSteal elem =>
    cases s.fighterOnCell cellId with
    | none => exact .pure _
    | some target => exact .bind (applyDamage_inner ..) fun _ => applyHeal_inner ..
  | heal => exact applyHeal_inner ..
  | healPercent =>
    dsimp only
    cases s.getFighter (((s.fighterOnCell cellId).map Fighter.id).getD playerId) with
    | none => exact .pure _
    | some target => exact applyHeal_inner ..
  | shield => exact .when (hshield ..)
  | poison elem =>
    cases s.fighterOnCell cellId with
    | none => exact .pure _
    | some target => exact .when (.perform rfl)
  | push =>
    cases s.fighterOnCell cellId with
    | none => exact .pure _
    | some target => exact .bind (applyPush_inner ..) fun _ => .get_bind fun _ => triggerTrapsOnCell_inner ..
  | pull =>
    cases s.fighterOnCell cellId with
    | none => exact .pure _
    | some target => exact .bind (applyPull_inner ..) fun _ => .get_bind fun _ => triggerTrapsOnCell_inner ..
  | teleport => exact .bind (applyTeleport_inner ..) fun _ => triggerTrapsOnCell_inner ..
  | exchangePositions =>
    cases s.fighterOnCell cellId with
    | none => exact .pure _
    | some target => exact applyExchange_inner ..
  | placeGlyph => exact .perform rfl
  | placeTrap => exact .perform rfl
  | portal => exact .perform rfl
  | selfDamage => exact .bind (applyDamage_inner ..) fun _ => .pure _
  | shieldPercent =>
    dsimp only
    cases s.getFighter (((s.fighterOnCell cellId).map Fighter.id).getD playerId) with
    | none => exact .pure _
    | some target => exact hshield ..
  | unknown => exact .pure _
  | _ => exact .when (.perform rfl)

/-! ### Programs -/

/-- The sequences are bracketed, the turns alternate, and what is told is so when a request comes. -/
def Proper (x : Told × Fight) (a : Action) : Prop := Bracketed x a ∧ TakesTurns x a ∧ Abreast x a

/-- The action is proper whenever it is performed. -/
def Action.isFree : Action → Bool
  | .receive _ | .autoAttack .. | .send (.sequenceStart ..) | .send (.sequenceEnd ..) | .send (.spellCast ..)
  | .send (.mapMovement ..) | .send (.pointsVariation ..) | .send (.turnStart _) | .send (.turnEnd _) => false
  | _ => true

theorem Proper.free {x : Told × Fight} {a : Action} (ha : a.isFree = true) : Proper x a := by
  cases a with
  | receive r => cases ha
  | autoAttack attackerId targetId => cases ha
  | send m => cases m <;> first | exact ⟨trivial, trivial, trivial⟩ | exact absurd ha Bool.false_ne_true
  | _ => exact ⟨trivial, trivial, trivial⟩

/-- What is told is so after the program as before, within the same sequence; and nobody has left. -/
structure Aside (x x' : Told × Fight) : Prop where
  upToDate : UpToDate x'
  sequence : x'.1.sequence = x.1.sequence
  stay : ∀ f ∈ x.2.fighters, ∃ f' ∈ x'.2.fighters, f'.id = f.id

theorem Aside.refl {x : Told × Fight} (hx : UpToDate x) : Aside x x := ⟨hx, rfl, fun f hf => ⟨f, hf, rfl⟩⟩

theorem Aside.trans {x x' x'' : Told × Fight} (h : Aside x x') (h' : Aside x' x'') : Aside x x'' := by
  refine ⟨h'.upToDate, h'.sequence.trans h.sequence, fun f hf => ?_⟩
  obtain ⟨f', hf', hid⟩ := h.stay f hf
  obtain ⟨f'', hf'', hid'⟩ := h'.stay f' hf'
  exact ⟨f'', hf'', hid'.trans hid⟩

theorem Fight.stay_after (s : Fight) (t : List Action) {f : Fighter} (hf : f ∈ s.fighters) :
    ∃ f' ∈ (after s t).fighters, f'.id = f.id := by
  induction t generalizing s f with
  | nil => exact ⟨f, hf, rfl⟩
  | cons a t ih =>
    have hfirst : ∃ f' ∈ (act s a).fighters, f'.id = f.id := by
      cases a with
      | update u => exact s.id_mem_apply hf
      | _ => exact ⟨f, hf, rfl⟩
    obtain ⟨f', hf', hid⟩ := hfirst
    obtain ⟨f'', hf'', hid'⟩ := ih (act s a) hf'
    exact ⟨f'', hf'', hid'.trans hid⟩

/-- A program that says properly what it says. -/
abbrev Says {α : Type} (p : FightProgram α) (x : Told × Fight) (Q : α → Told × Fight → Prop) : Prop :=
  Observed (fun _ _ => True) Proper p x Q

section

variable {x : Told × Fight} {b : List Action}

theorem Action.isFree_of_isInner {a : Action} (ha : a.isInner = true) : a.isFree = true := by
  cases a with
  | send m => cases m <;> first | rfl | exact absurd ha Bool.false_ne_true
  | update u => rfl
  | _ => exact absurd ha Bool.false_ne_true

theorem proper_of_inner (hb : ∀ a ∈ b, a.isInner = true) : Along Proper x b := by
  induction b generalizing x with
  | nil => trivial
  | cons a b ih =>
    refine ⟨.free (Action.isFree_of_isInner (hb a List.mem_cons_self)), ?_⟩
    exact ih fun a' ha' => hb a' (List.mem_cons_of_mem a ha')

theorem Effect.aside (hx : UpToDate x) (hb : Effect x.2 b) (hin : ∀ a ∈ b, a.isInner = true) :
    Aside x (after x b) := by
  have hstay : ∀ f ∈ x.2.fighters, ∃ f' ∈ (after x b).2.fighters, f'.id = f.id := by
    rw [after_observed]
    exact fun f hf => x.2.stay_after b hf
  obtain ⟨g, s⟩ := x
  have hwrite {u : Update} (hw : Write s u) (hu : u.keepsTold = true) : UpToDate (g, s.apply u) := hx.apply hw hu
  cases hb with
  | @say m hm =>
    have hinner := hin (.send m) List.mem_cons_self
    cases m <;> first | exact absurd hm Bool.false_ne_true | exact absurd hinner Bool.false_ne_true
  | @quiet u hu _ _ =>
    have hinner := hin (.update u) List.mem_cons_self
    refine ⟨hwrite (.quiet hu) ?_, rfl, hstay⟩
    cases u <;> first | rfl | exact absurd hu Bool.false_ne_true | exact absurd hinner Bool.false_ne_true
  | @shield targetId b _ =>
    have hfirst := hwrite (u := .addShield targetId b.value) (.quiet rfl) rfl
    exact ⟨hfirst.apply (u := .addBuff targetId b) (.quiet rfl) rfl, rfl, hstay⟩
  | placeMark _ hzone _ => exact ⟨hwrite (.placeMark hzone) rfl, rfl, hstay⟩
  | @hit sourceId targetId damage element f hf _ hdamage =>
    have hhit := @UpToDate.hit _ _ hx sourceId targetId damage f hf hdamage
    split
    · rename_i halive
      rw [if_pos halive] at hhit hstay
      exact ⟨hhit, rfl, hstay⟩
    · rename_i hdead
      rw [if_neg hdead] at hhit hstay
      exact ⟨hhit, rfl, hstay⟩
  | heal hf =>
    split
    · rename_i hheal
      rw [if_pos hheal] at hstay
      exact ⟨hwrite (.heal hf) rfl, rfl, hstay⟩
    · rename_i hheal
      rw [if_neg hheal] at hstay
      exact ⟨hwrite (.heal hf) rfl, rfl, hstay⟩
  | slide hcell hfree => exact ⟨hwrite (.slide hcell hfree) rfl, rfl, hstay⟩
  | teleport hcell hfree => exact ⟨hwrite (.teleport hcell hfree) rfl, rfl, hstay⟩
  | exchange ha hb ht hid => exact ⟨hwrite (.exchange ha hb ht hid) rfl, rfl, hstay⟩

variable {α : Type} {p : FightProgram α}

/-- A program of effects that neither summons nor hides anybody. -/
theorem says_inner {B : Fight → List Action → Prop} {Q : α → Fight → Prop}
    (hB : ∀ s b, B s b → (∀ a ∈ b, a.isInner = true) → Effect s b) (hp : Ensures B Fault p x.2 Q) (hin : Inner p)
    (hx : UpToDate x) : Says p x fun _ x' => Aside x x' := by
  refine (Observed.of_ensures (I := Aside x) (hp.only hin) (fun x' b hx' hb _ => ?_) (.refl hx)).mono fun _ _ h => h.2
  exact ⟨proper_of_inner hb.2, hx'.trans ((hB _ b hb.1 hb.2).aside hx'.upToDate hb.2)⟩

theorem says_effects {Q : α → Fight → Prop} (hp : Ensures Effect Fault p x.2 Q) (hin : Inner p) (hx : UpToDate x) :
    Says p x fun _ x' => Aside x x' :=
  says_inner (fun _ _ hb _ => hb) hp hin hx

theorem summonCreature_tells {casterId cellId level : Int} (monsterId : Int) (hcell : ValidCell cellId)
    (hlevel : level = ((x.2.getFighter casterId).map Fighter.level).getD 1) (hx : UpToDate x) :
    Says (summonCreature casterId cellId monsterId level) x fun _ x' => Aside x x' := by
  obtain ⟨g, s⟩ := x
  unfold summonCreature
  refine .get_bind (.when (fun hfree => ?_) fun _ => .refl hx)
  refine .perform_bind fun _ => ⟨.free rfl, .get_bind ?_⟩
  refine .perform_bind fun _ => ⟨.free rfl, ?_⟩
  refine .perform fun _ => ⟨.free rfl, ?_, rfl, fun f hf => s.id_mem_apply hf⟩
  exact hx.summon (.summon hcell hfree.2 hlevel) rfl

/-- The effects of a spell. -/
theorem applyEffect_tells {playerId cellId : Int} (hcell : ValidCell cellId) (casterStats : FighterStats)
    (isCritical : Bool) (effect : SpellEffect) (hx : UpToDate x) (hplayer : ∃ f ∈ x.2.fighters, f.id = playerId) :
    Says (applyEffect playerId cellId casterStats isCritical effect) x fun _ x' => Aside x x' := by
  by_cases hsummon : classify effect.effectId = .summon
  · refine .congr (q := summonCreature playerId cellId effect.diceNum _) ?_ (summonCreature_tells _ hcell rfl hx)
    unfold applyEffect
    rw [get_bind_run]
    simp only [hsummon]
  by_cases hbomb : classify effect.effectId = .bombCast
  · refine .congr (q := summonCreature playerId cellId effect.diceNum _) ?_ (summonCreature_tells _ hcell rfl hx)
    unfold applyEffect
    rw [get_bind_run]
    simp only [hbomb]
  by_cases hhide : classify effect.effectId = .invisibility
  · obtain ⟨g, s⟩ := x
    have hfound : (s.getFighter playerId).isSome = true := by
      obtain ⟨f, hf, hid⟩ := hplayer
      rw [← hid, hx.roster.getFighter hf]
      rfl
    refine .congr (q := do
      update (.vanish playerId)
      send (.invisibility playerId 1)) ?_ ?_
    · unfold applyEffect
      rw [get_bind_run]
      simp only [hhide, when, hfound, if_true]
    · refine .perform_bind fun _ => ⟨.free rfl, ?_⟩
      exact .perform fun _ => ⟨.free rfl, hx.hide hplayer, rfl, fun f hf => s.id_mem_apply hf⟩
  · refine says_inner (fun s b hb hin => ?_) (applyEffect_caster playerId hcell casterStats isCritical effect x.2)
      (applyEffect_inner playerId cellId casterStats isCritical hsummon hbomb hhide) hx
    cases hb.1 with
    | effect h => exact h
    | summon _ _ _ _ => cases hin _ List.mem_cons_self

/-- What is told is so, and no sequence is open. -/
structure Idle (x : Told × Fight) : Prop where
  upToDate : UpToDate x
  closed : x.1.sequence = none

theorem Aside.idle {x x' : Told × Fight} (h : Aside x x') (hx : Idle x) : Idle x' :=
  ⟨h.upToDate, h.sequence.trans hx.closed⟩

variable {g : Told} {s : Fight}

/-- What follows an accepted cast: the caster is seen again, and the effects are told in a sequence. -/
theorem castSpell_tells (hx : Idle (g, s)) {f : Fighter} (hf : s.currentFighter = some f) (spellId : Int)
    {cellId : Int}
    (hcell : ValidCell cellId) (data : SpellData) (roll : UInt16) :
    Says (castSpell f.id spellId cellId data roll)
      (g, s.apply (.payCast spellId data.apCost)) fun _ x' => Idle x' := by
  have hpaid := hx.upToDate.reveal hf spellId data.apCost
  have hcurrent : (s.apply (.payCast spellId data.apCost)).currentFighter = some (f.payCast spellId data.apCost) := by
    have h := s.currentFighter_modifyCurrent (·.payCast spellId data.apCost)
    rwa [hf] at h
  have hmem := List.mem_of_getElem? hcurrent
  have hseen : ((s.apply (.payCast spellId data.apCost)).getFighter f.id).any (!·.invisible) = true := by
    have h := hpaid.roster.getFighter hmem
    rw [show f.id = (f.payCast spellId data.apCost).id from rfl, h]
    rfl
  unfold castSpell
  refine .get_bind ?_
  rw [Program.when, if_pos hseen]
  refine .perform_bind fun _ => ⟨.free rfl, ?_⟩
  refine .perform_bind fun _ => ⟨⟨hx.closed, trivial, trivial⟩, ?_⟩
  refine .perform_bind fun _ => ⟨⟨rfl, trivial, trivial⟩, ?_⟩
  have hopen := hpaid.withSequence (some (1, f.id))
  -- the effects follow each other within the sequence of the cast
  refine .bind (.forM (J := Aside ({ g.receive (.invisibility f.id 0) with sequence := some (1, f.id) },
    s.apply (.payCast spellId data.apCost))) (.refl hopen) fun effect x' hx' => ?_) fun _ x' hx' => ?_
  · have hplayer := hx'.stay _ hmem
    exact (applyEffect_tells hcell _ _ effect hx'.upToDate hplayer).mono fun _ _ h => hx'.trans h
  · obtain ⟨g', s'⟩ := x'
    refine .perform_bind fun _ => ⟨⟨.inl hx'.sequence, trivial, trivial⟩, ?_⟩
    exact .perform fun _ => ⟨⟨hx'.sequence, trivial, trivial⟩, hx'.upToDate.withSequence none, rfl⟩

theorem handleSpellCast_tells (maps : Int → Option MapData) (playerId : Int) (spellId cellId : Int16)
    (loaded : Option SpellData) (roll : UInt16) (hx : Idle (g, s)) :
    Says (handleSpellCast maps playerId spellId.toInt cellId.toInt loaded roll) (g, s) fun _ x' => Idle x' := by
  rcases handleSpellCast_run maps playerId spellId cellId loaded roll s with
    ⟨ending, hrun, -⟩ | ⟨f, data, -, hf, -, -, hcell, -, hrun⟩
  · exact .congr (q := ofEnding ending) hrun (.ofEnding fun _ _ => hx)
  · refine .congr (q := do
      perform (.acceptCast f.id spellId.toInt cellId.toInt data)
      update (.payCast spellId.toInt data.apCost)
      castSpell f.id spellId.toInt cellId.toInt data roll) hrun ?_
    refine .perform_bind fun _ => ⟨.free rfl, .perform_bind fun _ => ⟨.free rfl, ?_⟩⟩
    exact castSpell_tells hx hf spellId.toInt hcell data roll

theorem handleFightMovement_tells (playerId : Int) (keyMovements : List Int16) (hx : Idle (g, s)) :
    Says (handleFightMovement playerId keyMovements) (g, s) fun _ x' => Idle x' := by
  rcases handleFightMovement_run playerId keyMovements s with
    hrun | ⟨f, key, mpCost, hf, hplayer, -, -, -, hrun⟩
  · exact .congr (q := pure ()) hrun (.pure hx)
  · refine .congr (q := do
      update (.move mpCost (key.toInt % 4096))
      send (.sequenceStart 2 f.id)
      send (.mapMovement keyMovements f.id)
      send (.pointsVariation 129 f.id (-mpCost))
      send (.sequenceEnd 129 f.id 2)
      triggerTrapsOnCell (key.toInt % 4096) f.id) hrun ?_
    have hmove : Write s (.move mpCost (key.toInt % 4096)) := .move hf hplayer (by omega) (by omega)
    have hmoved := hx.upToDate.apply hmove rfl
    refine .perform_bind fun _ => ⟨.free rfl, .perform_bind fun _ => ⟨⟨hx.closed, trivial, trivial⟩, ?_⟩⟩
    refine .perform_bind fun _ => ⟨⟨rfl, trivial, trivial⟩, .perform_bind fun _ => ⟨⟨.inr rfl, trivial, trivial⟩, ?_⟩⟩
    refine .perform_bind fun _ => ⟨⟨rfl, trivial, trivial⟩, ?_⟩
    have hclosed := hmoved.withSequence none
    exact (says_effects (triggerTrapsOnCell_ensures ..) (triggerTrapsOnCell_inner ..) hclosed).mono fun _ _ h =>
      h.idle ⟨hclosed, rfl⟩

theorem monsterAttack_tells (hx : Idle (g, s)) : Says monsterAttack (g, s) fun _ x' => Idle x' := by
  unfold monsterAttack
  refine .get_bind ?_
  cases s.currentFighter with
  | none => exact .pure hx
  | some monster =>
    dsimp only
    split
    · exact .pure hx
    refine .bind (Q := fun _ x' => x' = (g, s)) (.ofOption fun _ _ => rfl) fun nearest x' hx' => ?_
    subst hx'
    cases nearest with
    | none => exact .pure hx
    | some target =>
      refine .bind (Q := fun _ x' => x' = (g, s)) (.ofOption fun _ _ => rfl) fun dist x' hx' => ?_
      subst hx'
      refine .bind (Q := fun _ x' => Idle x') (.when (fun _ => .perform fun _ => ?_) fun _ => hx) fun _ x' hx' => ?_
      · exact ⟨.free rfl, hx.upToDate.apply (u := .spendMovement _) (.spendMovement _) rfl, hx.closed⟩
      obtain ⟨g', s'⟩ := x'
      refine .perform_bind fun _ => ⟨⟨hx'.closed, trivial, trivial⟩, ?_⟩
      refine .perform_bind fun _ => ⟨⟨rfl, trivial, trivial⟩, ?_⟩
      have hopen := hx'.upToDate.withSequence (some (1, monster.id))
      refine .bind (says_effects (applyDamage_ensures ..) (applyDamage_inner ..) hopen) fun _ x'' hx'' => ?_
      exact .perform fun _ => ⟨⟨hx''.sequence, trivial, trivial⟩, hx''.upToDate.withSequence none, rfl⟩

/-- The turn passes on, and a new round is told. -/
theorem UpToDate.advance (hx : UpToDate (g, s)) (hgoing : s.shouldEnd = false) (hturn : g.turn = none) :
    UpToDate ({ g with round := s.advanceTurn.round }, s.advanceTurn) := by
  have hroster : s.advanceTurn.Roster := hx.roster.apply (.advance hgoing)
  have hfighters : s.advanceTurn.fighters = s.fighters := by
    unfold Fight.advanceTurn
    split <;> rfl
  refine ⟨hroster, ⟨rfl, ?_, fun id => ?_, fun id => ?_⟩, fun id hid => ?_⟩
  · have horder := hx.kept.order
    simp only [Fight.turnOrder, hfighters] at horder ⊢
    exact horder
  · have hdead := hx.kept.dead id
    simp only [Fight.deadIds, hfighters] at hdead ⊢
    exact hdead
  · rw [hfighters]
    exact hx.kept.hidden id
  · rw [hturn] at hid
    cases hid

theorem Fight.round_advanceTurn_of_same (h : ¬s.startsNewRound = true) : s.advanceTurn.round = s.round := by
  unfold Fight.advanceTurn
  unfold Fight.startsNewRound at h
  cases hnext : s.nextAlive with
  | none => rfl
  | some idx =>
    rw [hnext] at h
    have hlater : ¬idx ≤ s.currentFighterIndex := fun hle => h (decide_eq_true hle)
    exact if_neg hlater

theorem endTurnThen_tells {startNext : FightProgram Unit} (hx : Idle (g, s))
    (hnext : ∀ x, Idle x → Says startNext x fun _ x' => Idle x') :
    Says (endTurnThen startNext) (g, s) fun _ x' => Idle x' := by
  unfold endTurnThen
  refine .get_bind (.perform_bind fun _ => ⟨⟨trivial, fun id hid => ?_, trivial⟩, ?_⟩)
  · have h := hx.upToDate.turn id hid
    rw [h]
    rfl
  have hended : UpToDate ({ g with turn := none }, s) := by
    refine ⟨hx.upToDate.roster, ⟨hx.upToDate.kept.round, hx.upToDate.kept.order, hx.upToDate.kept.dead,
      hx.upToDate.kept.hidden⟩, fun id hid => ?_⟩
    cases hid
  cases hend : s.shouldEnd with
  | true =>
    exact .perform fun _ => ⟨.free rfl, hended.apply (u := .setPhase .ended) (.finish hend) rfl, hx.closed⟩
  | false =>
    refine .perform_bind fun _ => ⟨.free rfl, ?_⟩
    have hadvanced := hended.advance hend rfl
    refine .bind (Q := fun _ x' => Idle x') (.when (fun hnew => ?_) fun hold => ?_) fun _ x' hx' => hnext x' hx'
    · exact .get_bind (.perform fun _ => ⟨.free rfl, hadvanced, hx.closed⟩)
    · rw [Fight.round_advanceTurn_of_same hold, ← hx.upToDate.kept.round] at hadvanced
      exact ⟨hadvanced, hx.closed⟩

theorem applyPoison_tells (fighterId : Int) (b : Buff) {x : Told × Fight} (hx : Idle x) :
    Says (applyPoison fighterId b) x fun _ x' => Idle x' := by
  unfold applyPoison
  refine .perform_bind fun _ => ⟨.free rfl, ?_⟩
  refine .bind (says_effects (applyDamage_ensures ..) (applyDamage_inner ..) hx.upToDate) fun _ x' hx' => ?_
  exact .pure (hx'.idle hx)

theorem Idle.apply {x : Told × Fight} (hx : Idle x) {u : Update} (hw : Write x.2 u) (hu : u.keepsTold = true) :
    Idle (x.1, x.2.apply u) := ⟨hx.upToDate.apply hw hu, hx.closed⟩

theorem startNextTurn_tells (n : Nat) {x : Told × Fight} (hx : Idle x) :
    Says (startNextTurn n) x fun _ x' => Idle x' := by
  induction n generalizing x with
  | zero => exact .exhausted
  | succ n ih =>
    unfold startNextTurn
    refine .get_bind ?_
    by_cases hover : x.2.shouldEnd ∨ x.2.phase = .ended
    · rw [if_pos hover]
      exact .pure hx
    rw [if_neg hover]
    refine .perform_bind fun _ => ⟨.free rfl, .get_bind ?_⟩
    have hticked := hx.apply (u := .tickBuffs) (.quiet rfl) rfl
    refine .bind (.forM hticked fun b x hx => applyPoison_tells _ b hx) fun _ x hx => .get_bind ?_
    cases hend : x.2.shouldEnd with
    | true =>
      exact .perform fun _ => ⟨.free rfl, hx.apply (u := .setPhase .ended) (.finish hend) rfl⟩
    | false =>
      refine .perform_bind fun _ => ⟨.free rfl, .get_bind ?_⟩
      have hticked := hx.apply (u := .tickMarks) (.quiet rfl) rfl
      refine .bind (says_effects (triggerGlyphsForTurn_ensures ..) (triggerGlyphsForTurn_inner ..)
        hticked.upToDate) ?_
      intro _ x hx
      replace hx := hx.idle hticked
      refine .get_bind ?_
      cases hend : x.2.shouldEnd with
      | true =>
        exact .perform fun _ => ⟨.free rfl, hx.apply (u := .setPhase .ended) (.finish hend) rfl⟩
      | false =>
        cases hf : x.2.currentFighter with
        | none => exact .pure hx
        | some fighter =>
          obtain ⟨g, s⟩ := x
          refine .perform_bind fun _ => ⟨.free rfl, ?_⟩
          refine .perform_bind fun _ => ⟨⟨trivial, hx.upToDate.turn_eq hf, trivial⟩, ?_⟩
          have hreset := hx.apply (u := .resetTurn) .resetTurn rfl
          have hstarted : Idle ({ g with turn := some fighter.id }, s.apply .resetTurn) := by
            refine ⟨⟨hreset.upToDate.roster, ⟨hreset.upToDate.kept.round, hreset.upToDate.kept.order,
              hreset.upToDate.kept.dead, hreset.upToDate.kept.hidden⟩, fun id hid => ?_⟩, hx.closed⟩
            have hcurrent := s.currentFighter_modifyCurrent (·.resetTurn)
            rw [hf] at hcurrent
            exact (congrArg (Option.map Fighter.id) hcurrent).trans hid
          cases fighter.isPlayer with
          | true => exact .pure hstarted
          | false =>
            refine .bind (monsterAttack_tells hstarted) fun _ x hx => ?_
            exact endTurnThen_tells hx fun x hx => ih hx

theorem serve_tells (maps : Int → Option MapData) (n : Nat) (playerId : Int) (r : Request) (hx : Idle (g, s)) :
    Says (serve maps n playerId r) (g, s) fun _ x' => Idle x' := by
  unfold serve
  refine .perform_bind fun _ => ⟨⟨hx.closed, trivial, hx.upToDate.kept⟩, ?_⟩
  cases r with
  | placement cellId =>
    refine .get_bind (.when (fun hplaces => .perform_bind fun _ => ⟨.free rfl, ?_⟩) fun _ => hx)
    have hcell : cellId.toInt ∈ s.challengerPositions := by simpa using hplaces.2
    exact .perform fun _ => ⟨.free rfl, hx.apply (.place hcell) rfl⟩
  | ready isReady =>
    have hstarted := hx.apply (u := .setPhase .fighting) .start rfl
    refine .perform_bind fun _ => ⟨.free rfl, .perform_bind fun _ => ⟨.free rfl, .get_bind ?_⟩⟩
    refine .perform_bind fun _ => ⟨.free rfl, startNextTurn_tells n ⟨?_, hx.closed⟩⟩
    exact ⟨hstarted.upToDate.roster, ⟨hstarted.upToDate.kept.round, rfl, fun _ => Iff.rfl,
      hstarted.upToDate.kept.hidden⟩, hstarted.upToDate.turn⟩
  | turnFinish =>
    refine .get_bind ?_
    split
    · exact .pure hx
    · exact endTurnThen_tells hx fun x hx => startNextTurn_tells n hx
  | turnReady => exact .pure hx
  | cast spellId cellId loaded roll => exact handleSpellCast_tells maps playerId spellId cellId loaded roll hx
  | movement keyMovements => exact handleFightMovement_tells playerId keyMovements hx
  | elsewhere marks summons =>
    exact .perform fun _ => ⟨.free rfl, hx.apply (u := .drawIds marks summons) (.quiet rfl) rfl⟩

theorem history_tells (maps : Int → Option MapData) (n : Nat) (playerId : Int) (rs : List Request) {x : Told × Fight}
    (hx : Idle x) : Says (history maps n playerId rs) x fun _ x' => Idle x' := by
  induction rs generalizing x with
  | nil => exact .pure hx
  | cons r rs ih =>
    unfold history
    refine .bind (serve_tells maps n playerId r hx) fun _ x hx => .get_bind ?_
    split
    · exact .pure hx
    · exact ih hx

end

/-! ### Fights -/

theorem startPveFight_idle (maps : Int → Option MapData) (c : Character) (mapId : Int) (nextMarkId drawn : Nat) :
    let s := startPveFight maps c mapId nextMarkId drawn
    Idle (Told.ofStart s, s) := by
  refine ⟨⟨startPveFight_roster c mapId nextMarkId drawn, ⟨rfl, rfl, fun id => ?_, fun id => ?_⟩, ?_⟩, rfl⟩
  · simp [Told.ofStart, Fight.deadIds, startPveFight, playerFighter, monsterFighter]
  · simp [Told.ofStart, startPveFight, playerFighter, monsterFighter]
  · intro id hid
    cases hid

theorem startPveFight_tells (maps : Int → Option MapData) (n : Nat) (c : Character) (mapId : Int)
    (nextMarkId drawn : Nat) (rs : List Request) :
    let s := startPveFight maps c mapId nextMarkId drawn
    Says (history maps n c.id rs) (Told.ofStart s, s) fun _ x' => Idle x' :=
  history_tells maps n c.id rs (startPveFight_idle maps c mapId nextMarkId drawn)

/-- Whatever the client sends, the sequences it is sent are not nested, each is closed by its author as it was opened,
and none is left open; what belongs into a sequence is sent in one. -/
theorem sequences_bracketed (maps : Int → Option MapData) (n : Nat) (c : Character) (mapId : Int)
    (nextMarkId drawn : Nat) (rs : List Request) :
    let s := startPveFight maps c mapId nextMarkId drawn
    let run := history maps n c.id rs s
    Along Bracketed (Told.ofStart s, s) run.trace ∧
      ∀ going, run.ending = .value going → (after (Told.ofStart s, s) run.trace).1.sequence = none := by
  intro s run
  obtain ⟨htrace, hend⟩ := startPveFight_tells maps n c mapId nextMarkId drawn rs along_true
  refine ⟨htrace.imp fun _ _ h => h.1, fun going hgoing => ?_⟩
  exact (hend going hgoing).closed

/-- A novice casts and walks, and the monster attacks it. -/
theorem sequences_bracketed_novice :
    let s := startPveFight (fun _ => none) .novice 0 0 0
    let run := history (fun _ => none) 3 Character.novice.id
      [.ready true, .cast 0 281 none 0, .movement [280, 294], .turnFinish] s
    run.ending = .value true ∧ (after (Told.ofStart s, s) run.trace).1.sequence = none :=
  ⟨by decide +kernel, (sequences_bracketed (fun _ => none) 3 .novice 0 0 0
    [.ready true, .cast 0 281 none 0, .movement [280, 294], .turnFinish]).2 true (by decide +kernel)⟩

/-- Whatever the client sends, between the starts of two different fighters' turns the first one's is ended, and the
turn that has started last is the current one. -/
theorem turns_alternate (maps : Int → Option MapData) (n : Nat) (c : Character) (mapId : Int) (nextMarkId drawn : Nat)
    (rs : List Request) :
    let s := startPveFight maps c mapId nextMarkId drawn
    let run := history maps n c.id rs s
    Along TakesTurns (Told.ofStart s, s) run.trace ∧
      ∀ going, run.ending = .value going → ∀ id, (after (Told.ofStart s, s) run.trace).1.turn = some id →
        (after s run.trace).currentFighter.map Fighter.id = some id := by
  intro s run
  obtain ⟨htrace, hend⟩ := startPveFight_tells maps n c mapId nextMarkId drawn rs along_true
  refine ⟨htrace.imp fun _ _ h => h.2.1, fun going hgoing id hid => ?_⟩
  have hturn := (hend going hgoing).upToDate.turn id hid
  rwa [after_observed] at hturn

/-- After the turn of the monster it is the novice's again. -/
theorem turns_alternate_novice :
    let s := startPveFight (fun _ => none) .novice 0 0 0
    let run := history (fun _ => none) 3 Character.novice.id
      [.ready true, .cast 0 281 none 0, .movement [280, 294], .turnFinish] s
    run.ending = .value true ∧ ∀ id, (after (Told.ofStart s, s) run.trace).1.turn = some id →
      (after s run.trace).currentFighter.map Fighter.id = some id :=
  ⟨by decide +kernel, (turns_alternate (fun _ => none) 3 .novice 0 0 0
    [.ready true, .cast 0 281 none 0, .movement [280, 294], .turnFinish]).2 true (by decide +kernel)⟩

/-- Whatever the client sends, before each request and after the last one it knows the round, the order of the turns,
the dead and the invisible as the server keeps them. -/
theorem told_is_kept (maps : Int → Option MapData) (n : Nat) (c : Character) (mapId : Int) (nextMarkId drawn : Nat)
    (rs : List Request) :
    let s := startPveFight maps c mapId nextMarkId drawn
    let run := history maps n c.id rs s
    Along Abreast (Told.ofStart s, s) run.trace ∧
      ∀ going, run.ending = .value going → Told.Kept (after (Told.ofStart s, s) run.trace) := by
  intro s run
  obtain ⟨htrace, hend⟩ := startPveFight_tells maps n c mapId nextMarkId drawn rs along_true
  refine ⟨htrace.imp fun _ _ h => h.2.2, fun going hgoing => ?_⟩
  exact (hend going hgoing).upToDate.kept

/-- A novice casts and walks, and the monster attacks it. -/
theorem told_is_kept_novice :
    let s := startPveFight (fun _ => none) .novice 0 0 0
    let run := history (fun _ => none) 3 Character.novice.id
      [.ready true, .cast 0 281 none 0, .movement [280, 294], .turnFinish] s
    run.ending = .value true ∧ Told.Kept (after (Told.ofStart s, s) run.trace) :=
  ⟨by decide +kernel, (told_is_kept (fun _ => none) 3 .novice 0 0 0
    [.ready true, .cast 0 281 none 0, .movement [280, 294], .turnFinish]).2 true (by decide +kernel)⟩

end Otomai.Combat
