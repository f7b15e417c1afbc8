import Otomai.Combat.TrapNetwork

/-!
# What marks do

A trap is triggered by who enters its zone, a glyph by the turn of its caster.  The effect that places a mark is also
the one that the mark stores, and to trigger it is to do nothing.

* `Fight.OnlyPlaces`: the effects of all marks only place marks; so it is in every fight (`history_onlyPlaces`).
* `marks_never_act`: no mark acts on the fighter that triggers it.
-/

namespace Otomai.Combat

open Machine Otomai.Common Trace Program

variable {maps : Int → Option MapData} {n : Nat} {playerId : Int}

/-! ### The triggers -/

/-- `place_mark` sets the flag of traps, and nothing changes it. -/
def Mark.teamOnly (m : Mark) : Bool := m.markType = .trap

/-- The fighter is of the team of the one that placed the mark. -/
def Mark.OwnTeam (s : Fight) (m : Mark) (f : Fighter) : Prop :=
  ∃ caster, s.getFighter m.casterId = some caster ∧ caster.team = f.team

/-- An opponent on the zone of a mark triggers it: of a trap, when it enters; of a glyph, when the turn of the caster
starts. -/
structure Triggers (s : Fight) (m : Mark) (f : Fighter) : Prop where
  placed : m ∈ s.marks
  fighter : f ∈ s.fighters
  alive : f.isAlive = true
  opposing : ∃ caster, s.getFighter m.casterId = some caster ∧ caster.team ≠ f.team
  on_zone : f.cellId ∈ m.zoneCells
  turn : m.markType = .glyph → s.currentFighter.map Fighter.id = some m.casterId

/-- What runs when the fighter triggers the mark. -/
def trigger (m : Mark) (f : Fighter) : FightProgram Unit :=
  match m.markType with
  | .trap => triggerTrapsOnCell f.cellId f.id
  | .glyph => triggerGlyphsForTurn m.casterId

/-- The action deals damage to the fighter, or poisons it. -/
def Action.Harms (id : Int) : Action → Prop
  | .update (.hit targetId _) => targetId = id
  | .update (.addBuff targetId b) => targetId = id ∧ b.poisonElement.isSome = true
  | _ => False

/-- The mark harms the fighter that triggers it, and if it is for one team only, it harms nobody of the caster's
own. -/
structure MarkActs (s : Fight) (m : Mark) (f : Fighter) : Prop where
  harms : ∃ a ∈ (trigger m f s).trace, a.Harms f.id
  spares : m.teamOnly = true → ∀ own ∈ s.fighters, m.OwnTeam s own → own.cellId ∈ m.zoneCells →
    ∀ a ∈ (trigger m own s).trace, ¬a.Harms own.id

/-! ### Marks that place marks -/

/-- The effects of all marks only place marks. -/
def Fight.OnlyPlaces (s : Fight) : Prop := ∀ m ∈ s.marks, m.OnlyPlaces

namespace Fight.OnlyPlaces

variable {s : Fight}

/-- Marks are placed with such effects, and keep them. -/
theorem act (hs : s.OnlyPlaces) {a : Action} (ha : PlacesFresh s a) : (Trace.act s a).OnlyPlaces := by
  cases a with
  | update u =>
    cases u with
    | placeMark m =>
      intro m' hm'
      rcases List.mem_append.1 hm' with hm' | hm'
      · exact hs m' hm'
      · rw [List.mem_singleton.1 hm']
        exact ha.2.2
    | removeMark id => exact fun m hm => hs m (List.mem_of_mem_filter hm)
    | tickMarks =>
      intro m' hm'
      obtain ⟨m, hm, rfl⟩ := List.mem_map.1 hm'
      exact hs m (List.mem_of_mem_filter hm)
    | advanceTurn =>
      simp only [act_update, Fight.apply, Fight.advanceTurn]
      split <;> exact hs
    | _ => exact hs
  | _ => exact hs

theorem effects_silent (hs : s.OnlyPlaces) {m : Mark} (hm : m ∈ s.marks) (casterId : Int) (casterStats : FighterStats)
    (id : Int) :
    m.effects.forM (trapEffect casterId casterStats id) s = ⟨[], .value ()⟩ ∧
      m.effects.forM (glyphEffect casterId casterStats id) s = ⟨[], .value ()⟩ := by
  constructor
  · refine forM_silent fun effect heffect => ?_
    rw [trapEffect, get_bind_run]
    rcases hs m hm effect heffect with hclass | hclass
    · simp only [hclass, pure_run]
    · simp only [hclass, pure_run]
  · refine forM_silent fun effect heffect => ?_
    rw [glyphEffect, get_bind_run]
    rcases hs m hm effect heffect with hclass | hclass
    · simp only [hclass, pure_run]
    · simp only [hclass, pure_run]

theorem triggerTrap_silent (hs : s.OnlyPlaces) (id : Int) (trapId : Nat) :
    triggerTrap id trapId s = ⟨[], .value ()⟩ := by
  rw [triggerTrap, get_bind_run]
  cases hfind : s.findMark trapId with
  | none => rfl
  | some m => exact (hs.effects_silent (List.mem_of_find?_eq_some hfind) ..).1

theorem triggerGlyph_silent (hs : s.OnlyPlaces) (casterId : Int) (glyphId : Nat) :
    triggerGlyph casterId glyphId s = ⟨[], .value ()⟩ := by
  rw [triggerGlyph, get_bind_run]
  cases hfind : s.findMark glyphId with
  | none => rfl
  | some m => exact forM_silent fun id _ => (hs.effects_silent (List.mem_of_find?_eq_some hfind) ..).2

/-- To trigger traps is to take them off the board. -/
theorem triggerTrapsOnCell_removes (hs : s.OnlyPlaces) (cellId id : Int) :
    ∀ a ∈ (triggerTrapsOnCell cellId id s).trace, ∃ trapId, a = .update (.removeMark trapId) := by
  rw [triggerTrapsOnCell, get_bind_run]
  by_cases htraps : s.trapsOnCell cellId ≠ []
  · rw [when, if_pos htraps, bind_run]
    simp only [ofEnding]
    cases s.trapNetwork (s.trapsOnCell cellId) [] with
    | panic => exact fun a ha => absurd ha List.not_mem_nil
    | exhausted => exact fun a ha => absurd ha List.not_mem_nil
    | value network =>
      have hsilent : network.forM (triggerTrap id) s = ⟨[], .value ()⟩ :=
        forM_silent fun trapId _ => hs.triggerTrap_silent id trapId
      dsimp only
      rw [after_nil, List.nil_append, bind_run_value hsilent, after_nil, List.nil_append]
      intro a ha
      unfold update at ha
      rw [forM_perform_trace] at ha
      obtain ⟨trapId, -, rfl⟩ := List.mem_map.1 ha
      exact ⟨trapId, rfl⟩
  · rw [when, if_neg htraps]
    exact fun a ha => absurd ha List.not_mem_nil

/-- To trigger a glyph is to do nothing. -/
theorem triggerGlyphsForTurn_silent (hs : s.OnlyPlaces) (casterId : Int) :
    triggerGlyphsForTurn casterId s = ⟨[], .value ()⟩ := by
  rw [triggerGlyphsForTurn, get_bind_run]
  exact forM_silent fun glyphId _ => hs.triggerGlyph_silent casterId glyphId

/-- Nobody is harmed by a mark. -/
theorem trigger_harmless (hs : s.OnlyPlaces) (m : Mark) (f : Fighter) (id : Int) :
    ∀ a ∈ (trigger m f s).trace, ¬a.Harms id := by
  intro a ha
  rw [trigger] at ha
  cases htype : m.markType with
  | trap =>
    simp only [htype] at ha
    obtain ⟨trapId, rfl⟩ := hs.triggerTrapsOnCell_removes f.cellId f.id a ha
    exact not_false
  | glyph =>
    simp only [htype, hs.triggerGlyphsForTurn_silent] at ha
    cases ha

theorem not_markActs (hs : s.OnlyPlaces) (m : Mark) (f : Fighter) : ¬MarkActs s m f := by
  rintro ⟨⟨a, ha, hharms⟩, -⟩
  exact hs.trigger_harmless m f f.id a ha hharms

end Fight.OnlyPlaces

/-- In every fight, all that marks do is to place marks. -/
theorem history_onlyPlaces (rs : List Request) {s : Fight} (hcoherent : s.Coherent) (hs : s.OnlyPlaces) :
    Along (fun s _ => s.OnlyPlaces) s (history maps n playerId rs s).trace ∧
      (after s (history maps n playerId rs s).trace).OnlyPlaces :=
  ((history_composed rs hcoherent).along fun _ _ => Block.placesFresh).invariant (fun _ _ hs ha => hs.act ha) hs

/-- Every mark acts on the fighters that trigger it. -/
def MarksAct (s : Fight) : Prop := ∀ m f, Triggers s m f → MarkActs s m f

/-- No mark acts on a fighter that triggers it. -/
def MarksIdle (s : Fight) : Prop := ∀ m f, Triggers s m f → ¬MarkActs s m f

/-- In every run, no mark ever acts on a fighter that triggers it. -/
theorem marks_never_act (maps : Int → Option MapData) (n : Nat) (c : Character) (mapId : Int)
    (nextMarkId drawn : Nat) (rs : List Request) :
    let s := startPveFight maps c mapId nextMarkId drawn
    let t := (history maps n c.id rs s).trace
    Along (fun s _ => MarksIdle s) s t ∧ MarksIdle (after s t) := by
  intro s t
  have hcoherent := @startPveFight_coherent maps c mapId nextMarkId drawn
  have hstart : s.OnlyPlaces := fun m hm => absurd hm List.not_mem_nil
  have hrun : Along (fun s _ => s.OnlyPlaces) s t ∧ (after s t).OnlyPlaces := history_onlyPlaces rs hcoherent hstart
  exact ⟨hrun.1.imp fun _ _ hs m f _ => hs.not_markActs m f, fun m f _ => hrun.2.not_markActs m f⟩

/-- A spell for 2 AP that places a glyph for nine turns, within sixty cells. -/
def glyphSpell : SpellData :=
  { SpellData.fallback with apCost := 2, range := 60, effects := [⟨401, 5, 0, 9, .neutral⟩] }

/-- A novice has placed a glyph under the monster and has its next turn. -/
def glyphFight : Fight :=
  after (startPveFight (fun _ => none) .novice 0 0 0) (history (fun _ => none) 3 Character.novice.id
    [.ready true, .cast 1 400 (some glyphSpell) 0, .turnFinish] (startPveFight (fun _ => none) .novice 0 0 0)).trace

theorem glyph_does_nothing : ¬∀ (maps : Int → Option MapData) (n : Nat) (c : Character) (mapId : Int)
    (nextMarkId drawn : Nat) (rs : List Request),
    let s := startPveFight maps c mapId nextMarkId drawn
    let t := (history maps n c.id rs s).trace
    Along (fun s _ => MarksAct s) s t ∧ MarksAct (after s t) := by
  intro h
  have hacts : MarksAct glyphFight :=
    (h (fun _ => none) 3 .novice 0 0 0 [.ready true, .cast 1 400 (some glyphSpell) 0, .turnFinish]).2
  obtain ⟨m, hm, hcaster, hzone⟩ : ∃ m ∈ glyphFight.marks, m.casterId = 1 ∧ 400 ∈ m.zoneCells := by
    decide +kernel
  obtain ⟨f, hf, halive, hteam, hcell⟩ : ∃ f ∈ glyphFight.fighters, f.isAlive = true ∧ f.team = .defenders ∧
      f.cellId = 400 := by
    decide +kernel
  have hturn : glyphFight.currentFighter.map Fighter.id = some 1 := by decide +kernel
  obtain ⟨caster, hfind, hchallenger⟩ : ∃ caster, glyphFight.getFighter 1 = some caster ∧
    caster.team = .challengers := by
    have hsome : (glyphFight.getFighter 1).map Fighter.team = some .challengers := by decide +kernel
    exact Option.map_eq_some_iff.1 hsome
  have hopposing : ∃ caster, glyphFight.getFighter m.casterId = some caster ∧ caster.team ≠ f.team := by
    refine ⟨caster, hcaster ▸ hfind, ?_⟩
    rw [hchallenger, hteam]
    decide
  have hidle : glyphFight.OnlyPlaces := by
    have hall : ∀ m ∈ glyphFight.marks, ∀ effect ∈ m.effects, classify effect.effectId = .placeGlyph := by
      decide +kernel
    exact fun m hm effect heffect => .inl (hall m hm effect heffect)
  have htriggers : Triggers glyphFight m f := ⟨hm, hf, halive, hopposing, hcell ▸ hzone, fun _ => hcaster ▸ hturn⟩
  exact hidle.not_markActs m f (hacts m f htriggers)

end Otomai.Combat
