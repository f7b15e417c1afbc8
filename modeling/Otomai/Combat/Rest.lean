import Otomai.Combat.Alive

/-!
# Turns come to rest

A turn that nobody plays ends by itself and starts the next one.  The search for whose turn is next goes round the
fighters and stops at the player if it is alive, so at most everybody after the current fighter plays before it.

* `nextAlive_of_first`: from the current fighter the search stops at a later one or at the first.
* `startNextTurn_rests`: the turns come to rest before the calls run out.
* `fight_comes_to_rest`: in every state of a fight that is played so that the player does not die before its team.
-/

namespace Otomai.Combat

open Machine Otomai.Common Trace Program

variable {maps : Int → Option MapData}

/-- A hit that kills the player leaves nobody of its team alive; who summons is alive; movements end on the grid. -/
def KeepsPlayer (s : Fight) : Action → Prop
  | .update (.hit targetId damage) => s.Spares 0 targetId damage
  | .update (.summon casterId _) => (s.getFighter casterId).any (·.isAlive) = true
  | .update (.move _ cellId) => cellId < 560
  | _ => True

instance (s : Fight) (a : Action) : Decidable (KeepsPlayer s a) := by
  delta KeepsPlayer
  induction a using Action.casesOn with
  | update u => induction u using Update.casesOn <;> infer_instance
  | _ => infer_instance

/-- It is the turn of a player alive, or the fight must end. -/
def Fight.Resting (s : Fight) : Prop :=
  s.phase = .ended ∨ s.shouldEnd = true ∨ ∃ f ∈ s.currentFighter, f.isPlayer = true ∧ f.isAlive = true

instance (s : Fight) : Decidable s.Resting := by
  unfold Fight.Resting
  infer_instance

/-! ### What the turns keep -/

/-- What the state of a fight keeps through its whole run. -/
structure Fight.Sound (s : Fight) : Prop where
  roster : s.Roster
  grid : s.GridKept
  led : s.LedBy 0

/-- A sound fight in the turn of an index. -/
structure Fight.InTurn (i len : Nat) (s : Fight) : Prop where
  sound : s.Sound
  index : s.currentFighterIndex = i
  size : s.fighters.length = len

theorem Update.keepsRoster_of_isQuiet {u : Update} (hu : u.isQuiet = true) : u.keepsRoster = true := by
  cases u <;> first | rfl | contradiction

/-- An effect adds nobody. -/
theorem Effect.map_identity {s : Fight} {b : List Action} (h : Effect s b) :
    (after s b).fighters.map Fighter.identity = s.fighters.map Fighter.identity := by
  cases h with
  | say _ => rfl
  | quiet hu _ _ => exact s.map_identity_apply (Update.keepsRoster_of_isQuiet hu)
  | shield _ =>
    exact (Fight.map_identity_apply _ (u := .addBuff ..) rfl).trans (s.map_identity_apply (u := .addShield ..) rfl)
  | placeMark _ _ _ => rfl
  | hit _ _ _ => split <;> exact s.map_identity_apply (u := .hit ..) rfl
  | heal _ => split <;> exact s.map_identity_apply (u := .heal ..) rfl
  | slide _ _ => exact s.map_identity_apply (u := .slide ..) rfl
  | teleport _ _ => exact s.map_identity_apply (u := .teleport ..) rfl
  | exchange _ _ _ _ => exact s.map_identity_apply (u := .exchange ..) rfl

namespace Fight

variable {s : Fight} {i len : Nat}

theorem Sound.apply (hs : s.Sound) {u : Update} (hu : Write s u) (hkeeps : KeepsPlayer s (.update u)) :
    (s.apply u).Sound := by
  refine ⟨hs.roster.apply hu, ⟨CellsValid.apply hs.grid hu fun _ _ h => ?_, ?_⟩, ?_⟩
  · subst h
    exact hkeeps
  · rw [s.challengerPositions_apply u]
    exact hs.grid.2
  · refine hs.led.apply hs.roster hu (fun _ _ h => ?_) fun _ _ h => ?_
    · subst h
      exact hkeeps
    · subst h
      exact hkeeps

theorem length_apply {u : Update} (hu : u.keepsRoster = true) : (s.apply u).fighters.length = s.fighters.length := by
  have h := congrArg List.length (s.map_identity_apply hu)
  rwa [List.length_map, List.length_map] at h

theorem InTurn.apply (hs : s.InTurn i len) {u : Update} (hu : Write s u) (hroster : u.keepsRoster = true)
    (hturn : u ≠ .advanceTurn) (hkeeps : KeepsPlayer s (.update u)) : (s.apply u).InTurn i len :=
  ⟨hs.sound.apply hu hkeeps, (s.currentFighterIndex_apply hturn).trans hs.index, (length_apply hroster).trans hs.size⟩

/-- The player is alive in a fight that goes on. -/
theorem Sound.player_alive (hs : s.Sound) (hgoing : s.shouldEnd = false) :
    ∃ p, s.fighters[0]? = some p ∧ p.isPlayer = true ∧ p.isAlive = true := by
  obtain ⟨p, hp, halive⟩ := hs.led.alive hgoing
  obtain ⟨q, rest, hfighters, hplayer, -⟩ := hs.roster.player
  rw [hfighters, List.getElem?_cons_zero, Option.some.injEq] at hp
  subst hp
  exact ⟨q, by rw [hfighters, List.getElem?_cons_zero], hplayer, halive⟩

/-- It is a player's turn if it is the first fighter's. -/
theorem Roster.isPlayer_iff (hs : s.Roster) {f : Fighter} (hf : s.currentFighter = some f) :
    f.isPlayer = true ↔ s.currentFighterIndex = 0 := by
  obtain ⟨p, rest, hfighters, hplayer, -, hrest⟩ := hs.player
  unfold currentFighter at hf
  rw [hfighters] at hf
  cases hindex : s.currentFighterIndex with
  | zero =>
    rw [hindex, List.getElem?_cons_zero, Option.some.injEq] at hf
    simp [← hf, hplayer]
  | succ k =>
    rw [hindex, List.getElem?_cons_succ] at hf
    simp [hrest f (List.mem_of_getElem? hf)]

/-- If the first fighter is alive, the search for the next turn stops at a later fighter than the current one, or at
the first. -/
theorem nextAlive_of_first (hindex : s.currentFighterIndex < s.fighters.length) {p : Fighter}
    (hp : s.fighters[0]? = some p) (halive : p.isAlive = true) :
    ∃ idx, s.nextAlive = some idx ∧ idx < s.fighters.length ∧ (idx = 0 ∨ s.currentFighterIndex < idx) := by
  unfold nextAlive
  rw [List.find?_map]
  let last := s.fighters.length - s.currentFighterIndex - 1
  have hround : (s.currentFighterIndex + (last + 1)) % s.fighters.length = 0 := by
    have hsum : s.currentFighterIndex + (last + 1) = s.fighters.length := by omega
    rw [hsum, Nat.mod_self]
  have hlast : ((fun idx => s.fighters[idx]?.any (·.isAlive)) ∘
      fun i => (s.currentFighterIndex + (i + 1)) % s.fighters.length) last = true := by
    simp only [Function.comp, hround, hp, Option.any_some, halive]
  cases hfind : (List.range s.fighters.length).find? ((fun idx => s.fighters[idx]?.any (·.isAlive)) ∘
      fun i => (s.currentFighterIndex + (i + 1)) % s.fighters.length) with
  | none =>
    have hnone := List.find?_eq_none.1 hfind last (List.mem_range.2 (by omega))
    exact absurd hlast hnone
  | some k =>
    obtain ⟨-, hk, hbefore⟩ := List.find?_range_eq_some.1 hfind
    have hle : k ≤ last := by
      by_contra hgt
      have h := hbefore last (by omega)
      rw [hlast] at h
      cases h
    refine ⟨_, rfl, Nat.mod_lt _ (by omega), ?_⟩
    dsimp only
    by_cases heq : k = last
    · rw [heq]
      exact .inl hround
    · have hlt : s.currentFighterIndex + (k + 1) < s.fighters.length := by omega
      rw [Nat.mod_eq_of_lt hlt]
      exact .inr (by omega)

/-- How many turns there may be before the player's. -/
def turnsToPlayer (s : Fight) : Nat :=
  if s.currentFighterIndex = 0 then 0 else s.fighters.length - s.currentFighterIndex

theorem turnsToPlayer_lt (hindex : s.currentFighterIndex < s.fighters.length) :
    s.turnsToPlayer < s.fighters.length := by
  unfold turnsToPlayer
  split <;> omega

/-- An advance brings the player's turn nearer. -/
theorem Sound.advance (hs : s.Sound) (hgoing : s.shouldEnd = false) :
    (s.apply .advanceTurn).Sound ∧ (s.apply .advanceTurn).fighters.length = s.fighters.length ∧
      (s.currentFighterIndex ≠ 0 → (s.apply .advanceTurn).turnsToPlayer < s.turnsToPlayer) := by
  refine ⟨hs.apply (.advance hgoing) trivial, length_apply rfl, fun hother => ?_⟩
  obtain ⟨p, hp, -, halive⟩ := hs.player_alive hgoing
  have hindex := hs.roster.index
  obtain ⟨idx, hnext, hlt, hidx⟩ := nextAlive_of_first hindex hp halive
  have hturn : (s.apply .advanceTurn).currentFighterIndex = idx := by
    simp only [Fight.apply, advanceTurn, hnext]
  unfold turnsToPlayer
  rw [length_apply rfl, hturn, if_neg hother]
  split <;> omega

/-- Effects belong to a turn. -/
theorem InTurn.effect {s : Fight} (hs : s.InTurn i len) {b : List Action} (hb : Effect s b)
    (hkeeps : Along KeepsPlayer s b) : (after s b).InTurn i len := by
  have hsound := writes_invariant (fun _ _ hs hu hkeeps => hs.apply hu hkeeps) (.single (.turn (.effect hb)))
    hkeeps hs.sound
  have hlength := congrArg List.length hb.map_identity
  rw [List.length_map, List.length_map] at hlength
  exact ⟨hsound.2, hb.keepsTurn.2.1.trans hs.index, hlength.trans hs.size⟩

end Fight

/-! ### The programs of a turn -/

theorem applyDamage_settles (sourceId targetId damage : Int) (element : Element) :
    Settles (applyDamage sourceId targetId damage element) := by
  unfold applyDamage
  refine .get_bind fun s => ?_
  cases s.getFighter targetId with
  | none => exact .pure _
  | some target =>
    dsimp only
    split
    · exact .pure _
    · refine .bind (.perform _) fun _ => .get_bind fun s => .bind (.perform _) fun _ => ?_
      exact .bind (.when (.perform _)) fun _ => .pure _

theorem triggerGlyphsForTurn_settles (casterId : Int) : Settles (triggerGlyphsForTurn casterId) := by
  unfold triggerGlyphsForTurn
  refine .get_bind fun s => .forM fun glyphId => ?_
  unfold triggerGlyph
  refine .get_bind fun s => ?_
  cases s.findMark glyphId with
  | none => exact .pure _
  | some mark =>
    refine .forM fun fighterId => .forM fun effect => ?_
    unfold glyphEffect
    refine .get_bind fun s => ?_
    cases classify effect.effectId with
    | damage elem => exact .bind (applyDamage_settles _ _ _ _) fun _ => .pure _
    | _ => exact .pure _

section

variable {s : Fight} {i len : Nat}

/-- A program of effects returns in the same turn. -/
theorem returns_effects {α : Type} {p : FightProgram α} {Q : α → Fight → Prop} (hp : Ensures Effect Fault p s Q)
    (hsettles : Settles p) (hs : s.InTurn i len) : Returns KeepsPlayer p s fun _ s' => s'.InTurn i len :=
  (Returns.of_ensures hp hsettles (fun _ _ hs hb hkeeps => hs.effect hb hkeeps)
    (fun _ hs hfault => hfault hs.sound.grid.1) hs).mono fun _ _ h => h.2

theorem applyPoison_returns (fighterId : Int) (b : Buff) (hs : s.InTurn i len) :
    Returns KeepsPlayer (applyPoison fighterId b) s fun _ s' => s'.InTurn i len := by
  unfold applyPoison
  refine .perform_bind fun _ => ?_
  exact .bind (returns_effects (applyDamage_ensures ..) (applyDamage_settles _ _ _ _) hs) fun _ _ hs' => .pure hs'

theorem monsterAttack_returns (hs : s.InTurn i len) :
    Returns KeepsPlayer monsterAttack s fun _ s' => s'.InTurn i len := by
  unfold monsterAttack
  refine .get_bind ?_
  cases hf : s.currentFighter with
  | none => exact .pure hs
  | some monster =>
    have hmonster := asU16_lt_of_validCell (hs.sound.grid.1.1 monster (List.mem_of_getElem? hf))
    dsimp only
    split
    · exact .pure hs
    obtain ⟨nearest, hnearest⟩ := Option.isSome_iff_exists.1 (s.nearestPlayer_isSome hs.sound.grid.1 hmonster)
    rw [hnearest]
    refine .bind (Q := fun value s' => value = nearest ∧ s' = s) (.pure ⟨rfl, rfl⟩) ?_
    rintro value s' ⟨rfl, hs'⟩
    subst s'
    cases value with
    | none => exact .pure hs
    | some target =>
      have htarget := asU16_lt_of_validCell (hs.sound.grid.1.1 target (s.nearestPlayer_mem hnearest).1)
      obtain ⟨dist, hdist⟩ := Option.isSome_iff_exists.1 (distance_isSome.2 ⟨hmonster, htarget⟩)
      dsimp only
      rw [hdist]
      refine .bind (Q := fun value s' => value = dist ∧ s' = s) (.pure ⟨rfl, rfl⟩) ?_
      rintro value s' ⟨rfl, hs'⟩
      subst s'
      refine .bind (Q := fun _ s' => s'.InTurn i len) (.when (fun _ => .perform fun hkeeps => ?_) fun _ => hs) ?_
      · exact hs.apply (.spendMovement _) rfl (by rintro ⟨⟩) hkeeps
      · intro _ s' hs'
        refine .perform_bind fun _ => .perform_bind fun _ => ?_
        refine .bind (returns_effects (applyDamage_ensures ..) (applyDamage_settles _ _ _ _) hs') fun _ s'' hs'' => ?_
        exact .perform fun _ => hs''

/-- The end of a turn, if the turns that follow come to rest. -/
theorem endTurnThen_rests {startNext : FightProgram Unit} (hs : s.Sound) (hsize : s.fighters.length = len)
    (hnext : ∀ s' : Fight, s'.Sound → s'.fighters.length = len →
      (s.currentFighterIndex ≠ 0 → s'.turnsToPlayer < s.turnsToPlayer) →
      Returns KeepsPlayer startNext s' fun _ s' => s'.Resting) :
    Returns KeepsPlayer (endTurnThen startNext) s fun _ s' => s'.Resting := by
  unfold endTurnThen
  refine .get_bind (.perform_bind fun _ => ?_)
  cases hgoing : s.shouldEnd with
  | true => exact .perform fun _ => .inl rfl
  | false =>
    obtain ⟨hsound, hlength, hnearer⟩ := hs.advance hgoing
    refine .perform_bind fun _ => ?_
    refine .bind (Q := fun _ s' => s' = s.apply .advanceTurn) (.when (fun _ => .get_bind (.perform fun _ => rfl))
      fun _ => rfl) ?_
    rintro _ s' rfl
    exact hnext _ hsound (hlength.trans hsize) hnearer

/-- The turns come to rest before the calls run out: every turn that nobody plays brings the player's nearer. -/
theorem startNextTurn_rests (n : Nat) (hs : s.Sound) (hn : s.turnsToPlayer < n) :
    Returns KeepsPlayer (startNextTurn n) s fun _ s' => s'.Resting := by
  induction n generalizing s with
  | zero => omega
  | succ n ih =>
    unfold startNextTurn
    refine .get_bind ?_
    by_cases hover : s.shouldEnd ∨ s.phase = .ended
    · rw [if_pos hover]
      exact .pure (hover.elim (fun h => .inr (.inl h)) .inl)
    rw [if_neg hover]
    have hturn : s.InTurn s.currentFighterIndex s.fighters.length := ⟨hs, rfl, rfl⟩
    generalize hi : s.currentFighterIndex = i at hturn
    generalize hlen : s.fighters.length = len at hturn
    refine .perform_bind fun hkeeps => .get_bind ?_
    have hticked := hturn.apply (u := .tickBuffs) (.quiet rfl) rfl (by rintro ⟨⟩) hkeeps
    refine .bind (.forM (J := fun s => s.InTurn i len) hticked fun b _ hs => applyPoison_returns _ b hs) ?_
    intro _ s₁ hs₁
    refine .get_bind ?_
    cases hend : s₁.shouldEnd with
    | true => exact .perform fun _ => .inl rfl
    | false =>
      refine .perform_bind fun hkeeps => .get_bind ?_
      have hticked := hs₁.apply (u := .tickMarks) (.quiet rfl) rfl (by rintro ⟨⟩) hkeeps
      refine .bind (returns_effects (triggerGlyphsForTurn_ensures ..) (triggerGlyphsForTurn_settles _) hticked) ?_
      intro _ s₂ hs₂
      refine .get_bind ?_
      cases hend : s₂.shouldEnd with
      | true => exact .perform fun _ => .inl rfl
      | false =>
        cases hf : s₂.currentFighter with
        | none =>
          -- it is always somebody's turn
          have hindex := hs₂.sound.roster.index
          exact absurd hf (by simpa [Fight.currentFighter] using hindex)
        | some fighter =>
          refine .perform_bind fun hkeeps => .perform_bind fun _ => ?_
          have hreset := hs₂.apply .resetTurn rfl (by rintro ⟨⟩) hkeeps
          have hcurrent := s₂.currentFighter_modifyCurrent (·.resetTurn)
          rw [hf, Option.map_some] at hcurrent
          have hgoing := (s₂.shouldEnd_apply (u := .resetTurn) rfl).trans hend
          cases hplayer : fighter.isPlayer with
          | true =>
            -- the player is alive, or its team would be dead
            obtain ⟨p, hp, hpplayer, hpalive⟩ := hreset.sound.player_alive hgoing
            have hzero := (hreset.sound.roster.isPlayer_iff hcurrent).1 hplayer
            refine .pure (.inr (.inr ⟨p, ?_, hpplayer, hpalive⟩))
            unfold Fight.currentFighter
            exact hzero ▸ hp
          | false =>
            refine .bind (monsterAttack_returns hreset) fun _ s₃ hs₃ => ?_
            refine endTurnThen_rests hs₃.sound hs₃.size fun s' hs' hsize hnearer => ih hs' ?_
            have hother : s₃.currentFighterIndex ≠ 0 := by
              rw [hs₃.index, ← hreset.index]
              intro hzero
              have hfirst : fighter.isPlayer = true := (hreset.sound.roster.isPlayer_iff hcurrent).2 hzero
              rw [hplayer] at hfirst
              cases hfirst
            have hnearer := hnearer hother
            have hsame : s₃.turnsToPlayer = s.turnsToPlayer := by
              unfold Fight.turnsToPlayer
              rw [hs₃.index, hs₃.size, hi, hlen]
            omega

end

/-! ### More calls -/

theorem endTurnThen_extends {startNext startNext' : FightProgram Unit} (h : Extends startNext' startNext) :
    Extends (endTurnThen startNext') (endTurnThen startNext) := by
  unfold endTurnThen
  refine .bind fun s => .bind fun _ => ?_
  split
  · exact .refl _
  · exact .bind fun _ => .bind fun _ => h

/-- With more calls the turns go on as they did. -/
theorem startNextTurn_extends (n : Nat) : Extends (startNextTurn (n + 1)) (startNextTurn n) := by
  induction n with
  | zero => exact fun s hs => absurd rfl hs
  | succ n ih =>
    unfold startNextTurn
    refine .bind fun s => ?_
    split
    · exact .refl _
    refine .bind fun _ => .bind fun s => .bind fun _ => .bind fun s => ?_
    split
    · exact .refl _
    refine .bind fun _ => .bind fun s => .bind fun _ => .bind fun s => ?_
    split
    · exact .refl _
    cases s.currentFighter with
    | none => exact .refl _
    | some fighter =>
      refine .bind fun _ => .bind fun _ => ?_
      split
      · exact .refl _
      · exact .bind fun _ => endTurnThen_extends ih

theorem startNextTurn_eq_of_le {n m : Nat} (hnm : n ≤ m) {s : Fight} (hs : (startNextTurn n s).ending ≠ .exhausted) :
    startNextTurn m s = startNextTurn n s := by
  induction hnm with
  | refl => rfl
  | step _ ih =>
    rw [← ih]
    exact startNextTurn_extends _ s (by rw [ih]; exact hs)

/-! ### Fights -/

/-- In every state of a fight, the start and the end of a turn come to rest within as many turns as there are
fighters, if the player does not die before its team, nobody dead summons and movements end on the grid. -/
theorem fight_comes_to_rest (maps : Int → Option MapData) (m : Nat) (c : Character) (mapId : Int)
    (nextMarkId drawn : Nat) (rs : List Request) (n : Nat) :
    let s := startPveFight maps c mapId nextMarkId drawn
    let t := (history maps m c.id rs s).trace
    let reached := after s t
    Along KeepsPlayer s t → reached.fighters.length ≤ n →
      (Along KeepsPlayer reached (startNextTurn n reached).trace →
        (startNextTurn n reached).ending = .value () ∧ (after reached (startNextTurn n reached).trace).Resting) ∧
      (Along KeepsPlayer reached (endTurn n reached).trace →
        (endTurn n reached).ending = .value () ∧ (after reached (endTurn n reached).trace).Resting) := by
  intro s t reached h hn
  have hcoherent := @startPveFight_coherent maps c mapId nextMarkId drawn
  have hstart : s.Sound :=
    ⟨startPveFight_roster c mapId nextMarkId drawn, startPveFight_gridKept c mapId nextMarkId drawn,
      ⟨_, rfl, .inl rfl⟩⟩
  have hreached : reached.Sound :=
    (writes_invariant (fun _ _ hs hu hkeeps => hs.apply hu hkeeps) (history_composed rs hcoherent) h hstart).2
  have hturns := Fight.turnsToPlayer_lt hreached.roster.index
  constructor
  · intro halong
    obtain ⟨_, hvalue, hrest⟩ := startNextTurn_rests n hreached (by omega) halong
    exact ⟨hvalue, hrest⟩
  · intro halong
    have hend := @endTurnThen_rests _ _ (startNextTurn n) hreached rfl fun s' hs' hsize _ =>
      startNextTurn_rests n hs' (by have := Fight.turnsToPlayer_lt hs'.roster.index; omega)
    obtain ⟨_, hvalue, hrest⟩ := hend halong
    exact ⟨hvalue, hrest⟩

/-- The novice and its summon end their turns. -/
theorem fight_comes_to_rest_novice :
    let summon : SpellData := { SpellData.fallback with effects := [⟨181, 1, 0, 0, .neutral⟩] }
    let s := startPveFight (fun _ => none) .novice 0 0 0
    let t := (history (fun _ => none) 1 1 [.ready true, .cast 1 281 (some summon) 0] s).trace
    let reached := after s t
    ((startNextTurn 3 reached).ending = .value () ∧ (after reached (startNextTurn 3 reached).trace).Resting) ∧
      (endTurn 3 reached).ending = .value () ∧ (after reached (endTurn 3 reached).trace).Resting := by
  have hrests := fight_comes_to_rest (fun _ => none) 1 .novice 0 0 0
    [.ready true, .cast 1 281 (some { SpellData.fallback with effects := [⟨181, 1, 0, 0, .neutral⟩] }) 0] 3
    (by decide +kernel) (by decide +kernel)
  constructor
  · exact hrests.1 (by decide +kernel)
  · exact hrests.2 (by decide +kernel)

/-- The novice summons and poisons itself: it dies when its turn starts, and the turn is still its own. -/
theorem fight_rests_dead :
    ¬∀ (maps : Int → Option MapData) (m : Nat) (c : Character) (mapId : Int) (nextMarkId drawn : Nat)
      (rs : List Request),
      let s := startPveFight maps c mapId nextMarkId drawn
      let reached := after s (history maps m c.id rs s).trace
      ∃ n, (startNextTurn n reached).ending = .value () ∧
        (after reached (startNextTurn n reached).trace).Resting := by
  intro h
  let summon : SpellData := { SpellData.fallback with apCost := 0, effects := [⟨181, 1, 0, 0, .neutral⟩] }
  let poison : SpellData :=
    { SpellData.fallback with apCost := 0, minRange := 0, effects := [⟨131, 1000, 0, 2, .neutral⟩] }
  let s := startPveFight (fun _ => none) .novice 0 0 0
  let reached :=
    after s (history (fun _ => none) 0 1 [.cast 1 281 (some summon) 0, .cast 2 280 (some poison) 0] s).trace
  obtain ⟨n, hvalue, hrest⟩ := h (fun _ => none) 0 .novice 0 0 0
    [.cast 1 281 (some summon) 0, .cast 2 280 (some poison) 0]
  have hending : (startNextTurn 1 reached).ending ≠ .exhausted := by decide +kernel
  have hdead : ¬(after reached (startNextTurn 1 reached).trace).Resting := by decide +kernel
  cases n with
  | zero => cases hvalue
  | succ n =>
    have hsame : startNextTurn (n + 1) reached = startNextTurn 1 reached := startNextTurn_eq_of_le (by omega) hending
    exact hdead (hsame ▸ hrest)

end Otomai.Combat
