import Otomai.Combat.Life

/-!
# Who acts is alive

The current fighter may die in its own turn.  If its team dies with it the fight ends before anybody acts again; if
somebody else of the team is alive, the dead fighter's turn goes on.

* `Fight.LedBy.apply`: what keeps a fighter alive, or its team dead.
* `fight_acts_alive`: nobody dead acts, if no fighter dies in its own turn while another one of its team is alive, no
  dead fighter summons, and nothing is cast or moved in a fight with a dead team.
-/

namespace Otomai.Combat

open Machine Otomai.Common Trace Program

variable {maps : Int → Option MapData} {n : Nat} {playerId : Int}

/-! ### A fighter and its team -/

/-- The fighter of an index is alive, or its team is dead. -/
def Fight.LedBy (s : Fight) (i : Nat) : Prop :=
  ∃ f, s.fighters[i]? = some f ∧ (f.isAlive = true ∨ s.isTeamDead f.team = true)

/-- If a hit kills the fighter of an index, nobody else of its team is alive. -/
def Fight.Spares (s : Fight) (i : Nat) (targetId damage : Int) : Prop :=
  ∀ f ∈ s.fighters[i]?, f.id = targetId → (f.hit damage).isAlive = false →
    ∀ g ∈ s.fighters, g.team = f.team → g.isAlive = true → g.id = f.id

instance (s : Fight) (i : Nat) (targetId damage : Int) : Decidable (s.Spares i targetId damage) := by
  unfold Fight.Spares
  infer_instance

namespace Fight

variable {s : Fight} {i : Nat}

theorem LedBy.alive (hs : s.LedBy i) (hgoing : s.shouldEnd = false) :
    ∃ f, s.fighters[i]? = some f ∧ f.isAlive = true := by
  obtain ⟨f, hf, halive | hdead⟩ := hs
  · exact ⟨f, hf, halive⟩
  · have hend := s.shouldEnd_iff.2 ⟨f.team, hdead⟩
    rw [hgoing] at hend
    cases hend

theorem LedBy.of_lives (hs : s.LedBy i) {u : Update} (hlives : u.keepsLives = true) : (s.apply u).LedBy i := by
  obtain ⟨f, hf, hlead⟩ := hs
  have hlife : (s.apply u).fighters[i]?.map Fighter.life = s.fighters[i]?.map Fighter.life := by
    rw [← List.getElem?_map, ← List.getElem?_map, s.map_life_apply hlives]
  rw [hf, Option.map_some] at hlife
  obtain ⟨f', hf', hsame⟩ := Option.map_eq_some_iff.1 hlife
  simp only [Fighter.life, Fighter.identity, Prod.mk.injEq] at hsame
  refine ⟨f', hf', ?_⟩
  rw [hsame.1.2.1, hsame.2, isTeamDead_congr (s.map_life_apply hlives)]
  exact hlead

/-- A dead team stays dead when somebody is hit. -/
theorem isTeamDead_hit {team : Team} (targetId damage : Int) (h : s.isTeamDead team = true) :
    (s.apply (.hit targetId damage)).isTeamDead team = true := by
  refine (isTeamDead_iff _).2 fun g' hg' hsame => Bool.eq_false_iff.2 fun halive => ?_
  rcases origin_apply hg' with ⟨g, hg, hidentity, hback⟩ | ⟨_, hsummon⟩
  · simp only [Fighter.identity, Prod.mk.injEq] at hidentity
    have hdead := s.isTeamDead_iff.1 h g hg (hidentity.2.1.symm.trans hsame)
    rw [hback halive] at hdead
    cases hdead
  · cases hsummon

/-- A hit kills the fighter together with its team, or not at all. -/
theorem LedBy.hit (hroster : s.Roster) (hs : s.LedBy i) {targetId damage : Int}
    (hspares : s.Spares i targetId damage) :
    (s.apply (.hit targetId damage)).LedBy i := by
  obtain ⟨f, hf, hlead⟩ := hs
  have hmap : (s.apply (.hit targetId damage)).fighters =
      s.fighters.map fun f => if f.id = targetId then f.hit damage else f :=
    modifyFighter_eq_map hroster.ids targetId _
  refine ⟨if f.id = targetId then f.hit damage else f, ?_, ?_⟩
  · rw [hmap, List.getElem?_map, hf]
    rfl
  have hteam : (if f.id = targetId then f.hit damage else f).team = f.team := by split <;> rfl
  rw [hteam]
  by_cases hid : f.id = targetId
  · rw [if_pos hid]
    cases halive : (f.hit damage).isAlive with
    | true => exact .inl rfl
    | false =>
      -- whoever of the team is alive is the fighter that the hit kills
      refine .inr ((isTeamDead_iff _).2 fun g' hg' hsame => Bool.eq_false_iff.2 fun hg'alive => ?_)
      rw [hmap] at hg'
      obtain ⟨g, hg, rfl⟩ := List.mem_map.1 hg'
      by_cases hgid : g.id = targetId
      · have hgf := hroster.eq_of_id hg (List.mem_of_getElem? hf) (hgid.trans hid.symm)
        rw [if_pos hgid, hgf, halive] at hg'alive
        cases hg'alive
      · rw [if_neg hgid] at hg'alive hsame
        exact hgid ((hspares f hf hid halive g hg hsame hg'alive).trans hid)
  · rw [if_neg hid]
    exact hlead.imp_right (isTeamDead_hit _ _)

/-- Who is summoned is of a team with somebody alive. -/
theorem LedBy.summon (hs : s.LedBy i) {casterId cellId monsterId level : Int}
    (halive : (s.getFighter casterId).any (·.isAlive) = true) :
    (s.apply (.summon casterId (s.summoned casterId cellId monsterId level))).LedBy i := by
  obtain ⟨f, hf, hlead⟩ := hs
  refine ⟨f, ?_, ?_⟩
  · have hlt := (List.getElem?_eq_some_iff.1 hf).1
    simp only [Fight.apply]
    rw [List.getElem?_append_left hlt]
    exact hf
  · refine hlead.imp_right fun hdead => (isTeamDead_iff _).2 fun g hg hteam => ?_
    rcases List.mem_append.1 hg with hg | hg
    · exact s.isTeamDead_iff.1 hdead g hg hteam
    · obtain ⟨caster, hcaster, hcasteralive⟩ := (Option.any_eq_true ..).1 halive
      rw [List.mem_singleton.1 hg] at hteam
      simp only [summoned, hcaster, Option.map_some, Option.getD_some] at hteam
      have hcasterdead := s.isTeamDead_iff.1 hdead caster (List.mem_of_find?_eq_some hcaster) hteam
      rw [hcasteralive] at hcasterdead
      cases hcasterdead

theorem LedBy.apply {u : Update} (hroster : s.Roster) (hs : s.LedBy i) (hu : Write s u)
    (hspares : ∀ targetId damage, u = .hit targetId damage → s.Spares i targetId damage)
    (hsummoner : ∀ casterId f, u = .summon casterId f → (s.getFighter casterId).any (·.isAlive) = true) :
    (s.apply u).LedBy i := by
  cases hu with
  | hit _ _ => exact hs.hit hroster (hspares _ _ rfl)
  | summon _ _ _ => exact hs.summon (hsummoner _ _ rfl)
  | quiet hquiet => exact hs.of_lives (Update.keepsLives_of_isQuiet hquiet)
  | _ => exact hs.of_lives rfl

end Fight

/-! ### The current fighter -/

/-- Nothing is cast or moved in a fight with a dead team; a hit that kills the current fighter leaves nobody of its
team alive; who summons is alive. -/
def KeepsTurn (s : Fight) : Action → Prop
  | .receive (.cast ..) => s.shouldEnd = false
  | .receive (.movement _) => s.shouldEnd = false
  | .update (.hit targetId damage) => s.Spares s.currentFighterIndex targetId damage
  | .update (.summon casterId _) => (s.getFighter casterId).any (·.isAlive) = true
  | _ => True

instance (s : Fight) (a : Action) : Decidable (KeepsTurn s a) := by
  delta KeepsTurn
  induction a using Action.casesOn with
  | receive r => induction r using Request.casesOn <;> infer_instance
  | update u => induction u using Update.casesOn <;> infer_instance
  | _ => infer_instance

/-- Where somebody acts, the current fighter is alive. -/
def ActsAlive (s : Fight) : Action → Prop
  | .send (.turnStart _) | .autoAttack _ _ | .acceptCast .. | .update (.move ..) =>
    ∃ f ∈ s.currentFighter, f.isAlive = true
  | _ => True

instance (s : Fight) (a : Action) : Decidable (ActsAlive s a) := by
  delta ActsAlive
  induction a using Action.casesOn with
  | send m => induction m using ServerMessage.casesOn <;> infer_instance
  | update u => induction u using Update.casesOn <;> infer_instance
  | _ => infer_instance

/-- The current fighter is alive, or its team is dead. -/
def Fight.Led (s : Fight) : Prop := s.LedBy s.currentFighterIndex

theorem Fight.Led.apply {s : Fight} {u : Update} (hroster : s.Roster) (hs : s.Led) (hu : Write s u)
    (hkeeps : KeepsTurn s (.update u)) : (s.apply u).Led := by
  by_cases hturn : u = .advanceTurn
  · subst hturn
    cases hnext : s.nextAlive with
    | none =>
      have hsame : s.apply .advanceTurn = s := by simp only [Fight.apply, Fight.advanceTurn, hnext]
      rw [hsame]
      exact hs
    | some idx =>
      obtain ⟨f, hf, halive⟩ := Fight.nextAlive_spec hnext
      refine ⟨f, ?_, .inl halive⟩
      simp only [Fight.apply, Fight.advanceTurn, hnext]
      exact hf
  · unfold Fight.Led
    rw [s.currentFighterIndex_apply hturn]
    refine Fight.LedBy.apply hroster hs hu (fun _ _ h => ?_) fun _ _ h => ?_
    · subst h
      exact hkeeps
    · subst h
      exact hkeeps

/-- Nobody acts in an effect. -/
theorem Effect.actsAlive {s : Fight} {b : List Action} (h : Effect s b) : Along ActsAlive s b := by
  cases h with
  | @say m hm =>
    refine ⟨?_, trivial⟩
    cases m with
    | turnStart id => cases hm
    | _ => trivial
  | @quiet u hu _ _ =>
    refine ⟨?_, trivial⟩
    cases u with
    | move mpCost cellId => cases hu
    | _ => trivial
  | hit _ _ _ => split <;> simp [ActsAlive]
  | heal _ => split <;> simp [ActsAlive]
  | _ => simp [ActsAlive]

/-- Every block keeps the invariant, and who acts in it is alive. -/
theorem Block.actsAlive {s : Fight} {b : List Action} (hs : s.Roster ∧ s.Led) (hb : Block s b)
    (hkeeps : Along KeepsTurn s b) : Along ActsAlive s b ∧ (after s b).Roster ∧ (after s b).Led := by
  have hafter := writes_invariant (I := fun s => s.Roster ∧ s.Led)
    (fun s u hs hu hkeeps => ⟨hs.1.apply hu, hs.2.apply hs.1 hu hkeeps⟩) (.single hb) hkeeps hs
  refine ⟨?_, hafter.2⟩
  cases hb with
  | spell h =>
    cases h with
    | effect h => exact h.actsAlive
    | summon _ _ _ _ => simp [ActsAlive]
  | turn h =>
    cases h with
    | effect h => exact h.actsAlive
    | tick hu => rcases Update.eq_of_isTick hu with rfl | rfl <;> exact ⟨trivial, trivial⟩
    | beginTurn _ hgoing _ =>
      have hled := hs.2.of_lives (u := .resetTurn) rfl
      have hgoing' := (s.shouldEnd_apply (u := .resetTurn) rfl).trans hgoing
      exact ⟨trivial, hled.alive hgoing', trivial⟩
    | autoAttack hgoing _ _ _ => exact ⟨hs.2.alive hgoing, trivial⟩
    | _ => simp [ActsAlive]
  | cast _ _ _ _ _ _ => exact ⟨trivial, hs.2.alive hkeeps.1, trivial, trivial⟩
  | move _ _ _ _ _ _ => exact ⟨trivial, hs.2.alive hkeeps.1, trivial, trivial, trivial, trivial, trivial⟩
  | _ => simp [ActsAlive]

theorem startPveFight_led (c : Character) (mapId : Int) (nextMarkId drawn : Nat) :
    (startPveFight maps c mapId nextMarkId drawn).Led :=
  ⟨_, rfl, .inl rfl⟩

/-- Whatever the client sends, who starts a turn, attacks, casts or moves is alive, if no fighter dies in its own turn
while another one of its team is alive, no dead fighter summons, and nothing is cast or moved in a fight with a dead
team. -/
theorem fight_acts_alive (maps : Int → Option MapData) (n : Nat) (c : Character) (mapId : Int)
    (nextMarkId drawn : Nat) (rs : List Request) :
    let s := startPveFight maps c mapId nextMarkId drawn
    let t := (history maps n c.id rs s).trace
    Along KeepsTurn s t → Along ActsAlive s t := by
  intro s t h
  have hcoherent := @startPveFight_coherent maps c mapId nextMarkId drawn
  have hblocks : Composed Block s t := history_composed rs hcoherent
  have hstart : s.Roster ∧ s.Led :=
    ⟨startPveFight_roster c mapId nextMarkId drawn, startPveFight_led c mapId nextMarkId drawn⟩
  exact (hblocks.along_invariant (fun _ _ hs hb hkeeps => hb.actsAlive hs hkeeps) h hstart).1

/-- A novice casts and walks, and the monster attacks it. -/
theorem fight_acts_alive_novice :
    let s := startPveFight (fun _ => none) .novice 0 0 0
    let t :=
      (history (fun _ => none) 3 1 [.ready true, .cast 0 281 none 0, .movement [280, 294], .turnFinish] s).trace
    Along ActsAlive s t :=
  fight_acts_alive (fun _ => none) 3 .novice 0 0 0
    [.ready true, .cast 0 281 none 0, .movement [280, 294], .turnFinish]
    (by decide +kernel)

/-- The novice summons, kills itself with a spell, and casts again. -/
theorem fight_acts_dead :
    ¬∀ (maps : Int → Option MapData) (n : Nat) (c : Character) (mapId : Int) (nextMarkId drawn : Nat)
      (rs : List Request),
      let s := startPveFight maps c mapId nextMarkId drawn
      Along ActsAlive s (history maps n c.id rs s).trace := by
  intro h
  let summon : SpellData := { SpellData.fallback with apCost := 0, effects := [⟨181, 1, 0, 0, .neutral⟩] }
  let suicide : SpellData := { SpellData.fallback with apCost := 0, effects := [⟨90, 1000, 0, 0, .neutral⟩] }
  have halong := h (fun _ => none) 1 .novice 0 0 0
    [.ready true, .cast 1 281 (some summon) 0, .cast 2 281 (some suicide) 0, .cast 3 282 none 0]
  have hdead : ¬Along ActsAlive (startPveFight (fun _ => none) .novice 0 0 0)
      (history (fun _ => none) 1 1
        [.ready true, .cast 1 281 (some summon) 0, .cast 2 281 (some suicide) 0, .cast 3 282 none 0]
        (startPveFight (fun _ => none) .novice 0 0 0)).trace := by decide +kernel
  exact hdead halong

end Otomai.Combat
