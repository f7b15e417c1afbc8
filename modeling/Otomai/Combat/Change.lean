import Otomai.Combat.History

/-!
# What a write changes in a fighter

* `Fight.mem_apply`: who is in a fight after a write was in it before, `Changed` by the write or not, or is summoned
by it. * `each_fighter_invariant`: what every fighter has and no write takes away, every fighter has throughout a
fight.
-/

namespace Otomai.Combat

open Machine Otomai.Common Trace Program

/-- What a write does to a fighter that it concerns. -/
inductive Changed (s : Fight) : Update → Fighter → Fighter → Prop where
  | cell {u : Update} {f : Fighter} (hu : u.keepsCells = false) (cellId : Int) : Changed s u f (f.onCell cellId)
  | move {f : Fighter} {mpCost cellId : Int} (hf : s.currentFighter = some f) :
    Changed s (.move mpCost cellId) f ((f.spend mpCost).onCell cellId)
  | hit {f : Fighter} {id damage : Int} (hf : s.getFighter id = some f) : Changed s (.hit id damage) f (f.hit damage)
  | heal {f : Fighter} {id heal : Int} (hf : s.getFighter id = some f) : Changed s (.heal id heal) f (f.heal heal)
  | payCast {f : Fighter} {spellId apCost : Int} (hf : s.currentFighter = some f) :
    Changed s (.payCast spellId apCost) f (f.payCast spellId apCost)
  | spendMovement {f : Fighter} {mpUsed : Int} (hf : s.currentFighter = some f) :
    Changed s (.spendMovement mpUsed) f (f.spend mpUsed)
  | addShield {f : Fighter} {id value : Int} (hf : s.getFighter id = some f) :
    Changed s (.addShield id value) f (f.addShield value)
  | addBuff {f : Fighter} {id : Int} {b : Buff} (hf : s.getFighter id = some f) :
    Changed s (.addBuff id b) f (f.addBuff b)
  | addState {f : Fighter} {id stateId : Int} (hf : s.getFighter id = some f) :
    Changed s (.addState id stateId) f (f.addState stateId)
  | removeState {f : Fighter} {id stateId : Int} (hf : s.getFighter id = some f) :
    Changed s (.removeState id stateId) f (f.removeState stateId)
  | vanish {f : Fighter} {id : Int} (hf : s.getFighter id = some f) : Changed s (.vanish id) f f.vanish
  | tickBuffs {f : Fighter} (hf : s.currentFighter = some f) : Changed s .tickBuffs f f.tickBuffs
  | resetTurn {f : Fighter} (hf : s.currentFighter = some f) : Changed s .resetTurn f f.resetTurn

/-- Who is there after a write. -/
theorem Fight.mem_apply {s : Fight} {u : Update} {f' : Fighter} (h : f' ∈ (s.apply u).fighters) :
    f' ∈ s.fighters ∨ (∃ f ∈ s.fighters, Changed s u f f') ∨ ∃ casterId, u = .summon casterId f' := by
  have hfighter {id : Int} {g : Fighter → Fighter} (h : f' ∈ (s.modifyFighter id g).fighters)
      (hg : ∀ f, s.getFighter id = some f → Changed s u f (g f)) :
      f' ∈ s.fighters ∨ (∃ f ∈ s.fighters, Changed s u f f') ∨ ∃ casterId, u = .summon casterId f' := by
    rcases mem_modifyFirst h with hmem | ⟨f, hf, rfl⟩
    · exact .inl hmem
    · exact .inr (.inl ⟨f, List.mem_of_find?_eq_some hf, hg f hf⟩)
  have hcurrent {g : Fighter → Fighter} (h : f' ∈ (s.modifyCurrent g).fighters)
      (hg : ∀ f, s.currentFighter = some f → Changed s u f (g f)) :
      f' ∈ s.fighters ∨ (∃ f ∈ s.fighters, Changed s u f f') ∨ ∃ casterId, u = .summon casterId f' := by
    rcases mem_modify h with hmem | ⟨f, hf, rfl⟩
    · exact .inl hmem
    · exact .inr (.inl ⟨f, List.mem_of_getElem? hf, hg f hf⟩)
  cases u with
  | place _ _ => exact hfighter h fun _ _ => .cell rfl _
  | move _ _ => exact hcurrent h fun _ => .move
  | slide _ _ => exact hfighter h fun _ _ => .cell rfl _
  | teleport _ _ => exact hfighter h fun _ _ => .cell rfl _
  | exchange sourceId targetId cellA cellB =>
    -- the second of the two may be the first one again
    rcases mem_modifyFirst h with hmem | ⟨g, hg, rfl⟩
    · rcases mem_modifyFirst hmem with hmem | ⟨f, hf, rfl⟩
      · exact .inl hmem
      · exact .inr (.inl ⟨f, List.mem_of_find?_eq_some hf, .cell rfl _⟩)
    · rcases mem_modifyFirst (List.mem_of_find?_eq_some hg) with hmem | ⟨f, hf, rfl⟩
      · exact .inr (.inl ⟨g, hmem, .cell rfl _⟩)
      · refine .inr (.inl ⟨f, List.mem_of_find?_eq_some hf, ?_⟩)
        exact .cell (u := .exchange ..) rfl cellA
  | hit _ _ => exact hfighter h fun _ => .hit
  | heal _ _ => exact hfighter h fun _ => .heal
  | summon casterId f =>
    rcases List.mem_append.1 h with hmem | hmem
    · exact .inl hmem
    · exact .inr (.inr ⟨casterId, by rw [List.mem_singleton.1 hmem]⟩)
  | payCast _ _ => exact hcurrent h fun _ => .payCast
  | spendMovement _ => exact hcurrent h fun _ => .spendMovement
  | addShield _ _ => exact hfighter h fun _ => .addShield
  | addBuff _ _ => exact hfighter h fun _ => .addBuff
  | addState _ _ => exact hfighter h fun _ => .addState
  | removeState _ _ => exact hfighter h fun _ => .removeState
  | vanish _ => exact hfighter h fun _ => .vanish
  | tickBuffs => exact hcurrent h fun _ => .tickBuffs
  | resetTurn => exact hcurrent h fun _ => .resetTurn
  | advanceTurn =>
    simp only [Fight.apply, advanceTurn] at h
    split at h <;> exact .inl h
  | _ => exact .inl h

/-- An invariant of every fighter, which the writes that satisfy `C` keep. -/
theorem each_fighter_invariant {P : Fighter → Prop} {C : Fight → Action → Prop}
    (hstep : ∀ s u f f', P f → Changed s u f f' → C s (.update u) → P f')
    (hsummon : ∀ (s : Fight) (casterId cellId monsterId level : Int), P (s.summoned casterId cellId monsterId level))
    {s : Fight} {t : List Action} (h : Composed Block s t) (hC : Along C s t) (hs : ∀ f ∈ s.fighters, P f) :
    Along (fun s _ => ∀ f ∈ s.fighters, P f) s t ∧ ∀ f ∈ (after s t).fighters, P f := by
  refine writes_invariant (I := fun s => ∀ f ∈ s.fighters, P f) (fun s u hs hwrite hCu f' hf' => ?_) h hC hs
  rcases Fight.mem_apply hf' with hmem | ⟨f, hmem, hchanged⟩ | ⟨casterId, rfl⟩
  · exact hs f' hmem
  · exact hstep s u f f' (hs f hmem) hchanged hCu
  · cases hwrite with
    | summon _ _ _ => exact hsummon ..
    | quiet hquiet => cases hquiet

/-! ### Points -/

/-- The points of a fighter are machine integers. -/
def Fighter.PointsFit (f : Fighter) : Prop :=
  (-32768 ≤ f.actionPoints ∧ f.actionPoints < 32768) ∧ -32768 ≤ f.movementPoints ∧ f.movementPoints < 32768

theorem Changed.pointsFit {s : Fight} {u : Update} {f f' : Fighter} (h : Changed s u f f') (hf : f.PointsFit) :
    f'.PointsFit := by
  cases h with
  | payCast _ => exact ⟨wrap16_range _, hf.2⟩
  | move _ => exact ⟨hf.1, wrap16_range _⟩
  | spendMovement _ => exact ⟨hf.1, wrap16_range _⟩
  | resetTurn _ => exact ⟨wrap16_range _, wrap16_range _⟩
  | _ => exact hf

theorem history_pointsFit {maps : Int → Option MapData} {n : Nat} {playerId : Int} (rs : List Request) {s : Fight}
    (hcoherent : s.Coherent) (hs : ∀ f ∈ s.fighters, f.PointsFit) :
    Along (fun s _ => ∀ f ∈ s.fighters, f.PointsFit) s (history maps n playerId rs s).trace ∧
      ∀ f ∈ (after s (history maps n playerId rs s).trace).fighters, f.PointsFit :=
  each_fighter_invariant (C := fun _ _ => True) (fun _ _ _ _ hf hchanged _ => hchanged.pointsFit hf)
    (fun _ _ _ _ _ => by simp [Fighter.PointsFit, Fight.summoned]) (history_composed rs hcoherent) along_true hs

theorem startPveFight_pointsFit {maps : Int → Option MapData} (c : Character) (mapId : Int) (nextMarkId drawn : Nat) :
    ∀ f ∈ (startPveFight maps c mapId nextMarkId drawn).fighters, f.PointsFit := by
  intro f hf
  simp only [startPveFight, List.mem_cons, List.not_mem_nil, or_false] at hf
  rcases hf with rfl | rfl
  · simp [Fighter.PointsFit, playerFighter]
  · simp [Fighter.PointsFit, monsterFighter]

end Otomai.Combat
