import Otomai.Handlers.Departure
import Otomai.Handlers.Display

/-!
# One place for each character

A handler joins and leaves maps, and the session records the map it is on and the fight it is in; the two are not
written at the same moment.  `Safe` says of the operations that are left of a handler that they agree in the end.

* `safe_handle`: the handlers of a session are safe, under the condition of `GoodMove`.
* `placed_step`: no other session interferes.
* `one_place`: after each message a character is on the map that its session has recorded, or on none, and on none
  during a fight.
* `cleans_up_hangUp`: in such a run a session cleans up when its client hangs up.
-/

namespace Otomai.Handlers

open Machine Otomai.Common Otomai.Combat Trace

/-! ### What is left of a handler -/

namespace Op

def fightAfter : Op → Bool → Bool
  | beginFight _, _ | putFight _, _ => true
  | takeFight, _ => false
  | _, f => f

/-- The maps a character is on afterwards. -/
def standsAfter : Op → (Int → Prop) → Int → Prop
  | joinMap x _, P => fun y => P y ∨ y = x
  | leaveMap x, P => fun y => P y ∧ y ≠ x
  | _, P => P

/-- The operation concerns neither maps nor fights. -/
def isNeutral : Op → Bool
  | selectCharacter _ | joinMap .. | leaveMap _ | setMap _ | beginFight _ | putFight _ | takeFight | crash | depart =>
    false
  | _ => true

end Op

/-- The character is on the recorded map, or on none, and on none during a fight. -/
def Good (mapId : Option Int) (fighting : Bool) (P : Int → Prop) : Prop :=
  (∀ x, P x → mapId = some x) ∧ (fighting = true → ∀ x, ¬P x)

/-- Once the operations are done, the places are good again. -/
def Safe : List Op → Option Int → Bool → (Int → Prop) → Prop
  | [], m, f, P | .depart :: _, m, f, P => Good m f P
  | .crash :: _, _, _, _ => True
  | .selectCharacter _ :: ops, m, f, P => Safe ops m f P ∧ Safe ops m f fun _ => False
  | op :: ops, m, f, P => Safe ops (op.mapAfter m) (op.fightAfter f) (op.standsAfter P)

section

variable {m : Option Int} {f : Bool} {P : Int → Prop} {ops ops' : List Op}

theorem safe_cons_neutral {op : Op} (hop : op.isNeutral = true) : Safe (op :: ops) m f P = Safe ops m f P := by
  cases op <;> first | rfl | cases hop

theorem safe_append_neutral (hops : ∀ op ∈ ops, op.isNeutral = true) :
    Safe (ops ++ ops') m f P = Safe ops' m f P := by
  induction ops with
  | nil => rfl
  | cons op ops ih =>
    rw [List.cons_append, safe_cons_neutral (hops op List.mem_cons_self)]
    exact ih fun op' hop' => hops op' (List.mem_cons_of_mem op hop')

theorem safe_of_neutral (hops : ∀ op ∈ ops, op.isNeutral = true) (h : Good m f P) : Safe ops m f P := by
  have happend := @safe_append_neutral m f P _ [] hops
  rw [List.append_nil] at happend
  rw [happend]
  exact h

theorem safe_joinMap {x cellId : Int} : Safe (.joinMap x cellId :: ops) m f P = Safe ops m f fun y =>
    P y ∨ y = x := rfl
theorem safe_leaveMap {x : Int} : Safe (.leaveMap x :: ops) m f P = Safe ops m f fun y => P y ∧ y ≠ x := rfl
theorem safe_setMap {x : Int} : Safe (.setMap x :: ops) m f P = Safe ops (some x) f P := rfl
theorem safe_beginFight {g : Fight} : Safe (.beginFight g :: ops) m f P = Safe ops m true P := rfl
theorem safe_putFight {g : Fight} : Safe (.putFight g :: ops) m f P = Safe ops m true P := rfl
theorem safe_takeFight : Safe (.takeFight :: ops) m f P = Safe ops m false P := rfl

/-- Any other operation does what it says. -/
theorem safe_cons {op : Op} (hop : op ≠ .crash ∧ op ≠ .depart ∧ ∀ c, op ≠ .selectCharacter c) :
    Safe (op :: ops) m f P = Safe ops (op.mapAfter m) (op.fightAfter f) (op.standsAfter P) := by
  cases op with
  | crash => exact absurd rfl hop.1
  | depart => exact absurd rfl hop.2.1
  | selectCharacter c => exact absurd rfl (hop.2.2 c)
  | _ => rfl

end

theorem neutral_replicate {n : Nat} {op : Op} (hop : op.isNeutral = true) :
    ∀ op' ∈ List.replicate n op, op'.isNeutral = true := by
  intro op' hop'
  rw [List.eq_of_mem_replicate hop']
  exact hop

theorem neutral_said (t : List Action) : ∀ op ∈ said t, op.isNeutral = true := by
  intro op hop
  obtain ⟨a, -, ha⟩ := List.mem_filterMap.1 hop
  cases a with
  | send m =>
    cases ha
    rfl
  | _ => cases ha

section

variable {m : Option Int} {f : Bool} {P : Int → Prop} {ops : List Op}

theorem safe_handleGameContextCreate (row : Row) :
    Safe (handleGameContextCreate row ++ ops) m f P = Safe ops m f fun y => P y ∨ y = row.homeMap := by
  have hneutral :
    ∀ op ∈ [Op.readPlayers row.homeMap, .send (.mapComplementary false)] ++ plain 3 ++ [.query] ++ plain 5 ++
      [.send (.showActor row.id)], op.isNeutral = true := by
    intro op hop
    simp only [List.mem_append, List.mem_cons, List.not_mem_nil, or_false, plain, List.mem_replicate] at hop
    rcases hop with ((((rfl | rfl) | ⟨-, rfl⟩) | rfl) | ⟨-, rfl⟩) | rfl <;> rfl
  have hlist : handleGameContextCreate row ++ ops = .send .plain :: .send .currentMap ::
      .joinMap row.homeMap (wrap16 row.cellId) :: (([Op.readPlayers row.homeMap, .send (.mapComplementary false)] ++
        plain 3 ++ [.query] ++ plain 5 ++ [.send (.showActor row.id)]) ++ ops) := rfl
  rw [hlist, safe_cons_neutral rfl, safe_cons_neutral rfl, safe_joinMap, safe_append_neutral hneutral]

theorem safe_handleFightEnd (row : Row) (won : Bool) :
    Safe (handleFightEnd row won ++ ops) m f P = Safe ops m f fun y => P y ∨ y = row.homeMap := by
  have hneutral : ∀ op ∈ Op.send .fightEnd ::
      (if won then
        [Op.send .plain, .writeExperience (row.experience + 50 * row.sheet.level)] ++
          if row.sheet.level * 100 ≤ row.experience + 50 * row.sheet.level ∧ row.sheet.level < 200 then
            [.writeLevelUp, .send .plain]
          else []
      else []) ++ plain 2, op.isNeutral = true := by
    intro op hop
    rcases List.mem_append.1 hop with hop | hop
    · rcases List.mem_cons.1 hop with rfl | hop
      · rfl
      · split at hop
        · rcases List.mem_append.1 hop with hop | hop
          · simp only [List.mem_cons, List.not_mem_nil, or_false] at hop
            rcases hop with rfl | rfl <;> rfl
          · split at hop
            · simp only [List.mem_cons, List.not_mem_nil, or_false] at hop
              rcases hop with rfl | rfl <;> rfl
            · cases hop
        · cases hop
    · exact neutral_replicate rfl op hop
  unfold handleFightEnd
  rw [List.append_assoc, safe_append_neutral hneutral, safe_handleGameContextCreate]

/-- After a fight the character is on the map of its row, and the session records the one of the fight. -/
theorem safe_endFight {s : Server} {c : Int} {g : Fight} {calls : Nat} (hnone : ∀ x, ¬P x)
    (hhome : ∀ row, s.getCharacter c = some row → row.homeMap = g.mapId) : Safe (endFight s c g calls) m f P := by
  unfold endFight
  rw [safe_takeFight, safe_cons_neutral rfl]
  cases hrow : s.getCharacter c with
  | none => exact ⟨fun x hx => absurd hx (hnone x), nofun⟩
  | some row =>
    dsimp only
    rw [safe_handleFightEnd, safe_setMap]
    refine safe_of_neutral ?_ ⟨fun x hx => ?_, nofun⟩
    · intro op hop
      split at hop
      · exact neutral_replicate rfl op hop
      · cases hop
    · rcases hx with hx | rfl
      · exact absurd hx (hnone x)
      · exact congrArg some (hhome row hrow).symm

/-- No write of a fight moves it to another map. -/
theorem mapId_after (g : Fight) (t : List Action) : (after g t).mapId = g.mapId := by
  induction t generalizing g with
  | nil => rfl
  | cons a t ih =>
    refine (ih _).trans ?_
    cases a with
    | update u =>
      cases u with
      | advanceTurn =>
        simp only [act_update, Fight.apply, Fight.advanceTurn]
        split <;> rfl
      | _ => rfl
    | _ => rfl

theorem safe_serveFight {s : Server} {c : Int} {g : Fight} {r : Request} {calls : Nat} (hnone : ∀ x, ¬P x)
    (hhome : r.checksEnd = true → ∀ row, s.getCharacter c = some row → row.homeMap = g.mapId) :
    Safe (serveFight s c g r calls) m f P := by
  unfold serveFight
  dsimp only
  rw [safe_append_neutral (neutral_said _)]
  split
  · rw [safe_putFight]
    split
    · rename_i hover
      refine safe_endFight hnone fun row hrow => ?_
      rw [mapId_after]
      rw [Bool.and_eq_true] at hover
      exact hhome hover.1 row hrow
    · exact ⟨fun x hx => absurd hx (hnone x), fun _ => hnone⟩
  · trivial
  · rw [safe_cons_neutral rfl]
    exact ⟨fun x hx => absurd hx (hnone x), fun _ => hnone⟩

end

/-! ### The handlers of a session -/

/-- The maps the character of a session is present on. -/
def Stands (s : Server) (i : Nat) (x : Int) : Prop :=
  ∃ c, (s.sessions i).characterId = some c ∧ s.world.Present x c

/-- The session has nobody on a map, and the character is on no map and with no other session. -/
def Free (s : Server) (i : Nat) (c : Int) : Prop :=
  (∀ x, ∀ p ∈ (s.world.maps x).players, p.tx ≠ i) ∧ (∀ x, ¬s.world.Present x c) ∧
    ∀ j, j ≠ i → (s.sessions j).isOpen = true → (s.sessions j).characterId ≠ some c

/-- A message that finds the session prepared for it.  The context is created outside of a fight, and on the map where
the character already is, if it is on one; the map is changed outside of a fight; when a fight may end, the row of the
character names its map.  A session takes a character that is free, or the one it has. -/
def GoodMove (s : Server) : Event → Prop
  | .receive i .gameContextCreateRequest =>
    ∀ c row, (s.sessions i).characterId = some c → s.getCharacter c = some row →
      (s.sessions i).fight = none ∧ ∀ x, s.world.Present x c → x = row.homeMap
  | .receive i (.changeMap target _) =>
    ∀ c current, (s.sessions i).characterId = some c → (s.sessions i).mapId = some current →
      transition s c current target ≠ none → (s.sessions i).fight = none
  | .receive i (.fight r _) =>
    ∀ g c row, (s.sessions i).fight = some g → (s.sessions i).characterId = some c → s.getCharacter c = some row →
      r.checksEnd = true → row.homeMap = g.mapId
  | .advance i =>
    ∀ c rest, (s.sessions i).pending = .selectCharacter c :: rest →
      (s.sessions i).characterId = some c ∨ Free s i c
  | _ => True

theorem neutral_plain (n : Nat) : ∀ op ∈ plain n, op.isNeutral = true := neutral_replicate rfl

section

variable {s : Server} {i : Nat} {m : Message}

theorem safe_handleCharacterSelection {ps : Session} {c : Int} {mapId : Option Int} {f : Bool} {P : Int → Prop}
    (hgood : Good mapId f P) : Safe (handleCharacterSelection s ps c) mapId f P := by
  unfold handleCharacterSelection
  split
  · split
    · have hlist : Op.query :: plain 4 ++ [.query, .selectCharacter c] =
          (.query :: plain 4 ++ [.query]) ++ [.selectCharacter c] := rfl
      have hneutral : ∀ op ∈ Op.query :: plain 4 ++ [.query], op.isNeutral = true := by
        intro op hop
        simp only [List.cons_append, List.mem_cons, List.mem_append, List.not_mem_nil, or_false] at hop
        rcases hop with rfl | hop | rfl
        · rfl
        · exact neutral_plain 4 op hop
        · rfl
      rw [hlist, safe_append_neutral hneutral]
      exact ⟨hgood, nofun, fun _ _ => id⟩
    · rw [safe_cons_neutral rfl, safe_cons_neutral rfl]
      exact hgood
  · rw [safe_cons_neutral rfl, safe_cons_neutral rfl]
    exact hgood

theorem safe_startFight {row : Row} {mapId : Int} {nextMarkId drawn : Nat} {f : Bool} {P : Int → Prop}
    (hgood : Good (some mapId) f P) : Safe (startFight s row mapId nextMarkId drawn) (some mapId) f P := by
  have hneutral : ∀ op ∈ plain 3 ++ plain 4, op.isNeutral = true := by
    intro op hop
    rcases List.mem_append.1 hop with hop | hop
    · exact neutral_plain 3 op hop
    · exact neutral_plain 4 op hop
  have hlist : startFight s row mapId nextMarkId drawn = .send .plain :: .leaveMap mapId :: ((plain 3 ++ plain 4) ++
      [.beginFight (startPveFight s.mapData row.sheet mapId nextMarkId drawn)]) := rfl
  rw [hlist, safe_cons_neutral rfl, safe_leaveMap, safe_append_neutral hneutral, safe_beginFight]
  have hnone (x : Int) : ¬(P x ∧ x ≠ mapId) := by
    rintro ⟨hx, hne⟩
    exact hne (Option.some.inj (hgood.1 x hx)).symm
  exact ⟨fun x hx => absurd hx (hnone x), fun _ => hnone⟩

theorem safe_handleMovementRequest {currentMapId mapId : Int} {keyMovements : List Int16} {m : Option Int} {f : Bool}
    {P : Int → Prop} (hgood : Good m f P) : Safe (handleMovementRequest s currentMapId mapId keyMovements) m f P := by
  unfold handleMovementRequest
  split
  · rw [safe_cons_neutral rfl]
    exact hgood
  · split
    · trivial
    · rw [safe_cons_neutral rfl, safe_cons_neutral rfl]
      exact hgood
    · rw [safe_cons_neutral rfl, safe_cons_neutral rfl, safe_cons_neutral rfl]
      exact hgood

theorem safe_handleChangeMap {c current target : Int} {calls : Nat} {f : Bool} {P : Int → Prop}
    (hgood : Good (some current) f P) (hpeace : transition s c current target ≠ none → f = false) :
    Safe (handleChangeMap s c current target calls) (some current) f P := by
  unfold handleChangeMap
  cases htransition : transition s c current target with
  | none => exact hgood
  | some cell =>
    have hf := hpeace (by rw [htransition]; nofun)
    have hlist : [Op.leaveMap current, .send .currentMap, .joinMap target (wrap16 cell), .readPlayers target,
        .send (.mapComplementary true), .writePosition target cell, .setMap target] ++ .replicate calls .query =
        .leaveMap current :: .send .currentMap :: .joinMap target (wrap16 cell) :: .readPlayers target ::
          .send (.mapComplementary true) :: .writePosition target cell :: .setMap target ::
          .replicate calls .query := rfl
    dsimp only
    rw [hlist, safe_leaveMap, safe_cons_neutral rfl, safe_joinMap, safe_cons_neutral rfl, safe_cons_neutral rfl,
      safe_cons_neutral rfl, safe_setMap]
    refine safe_of_neutral (neutral_replicate rfl) ⟨fun x hx => ?_, fun hfight => ?_⟩
    · rcases hx with ⟨hx, hne⟩ | rfl
      · exact absurd (Option.some.inj (hgood.1 x hx)).symm hne
      · rfl
    · rw [hf] at hfight
      cases hfight

/-- The handler of a message leaves the places of its session good. -/
theorem safe_handle (hgood : Good (s.sessions i).mapId (s.sessions i).fight.isSome (Stands s i))
    (hmove : GoodMove s (.receive i m)) :
    Safe (handle s i m) (s.sessions i).mapId (s.sessions i).fight.isSome (Stands s i) := by
  have hfighting {g : Fight} (hg : (s.sessions i).fight = some g) : ∀ x, ¬Stands s i x :=
    hgood.2 (by rw [hg]; rfl)
  -- a context is created and a map is changed only where `GoodMove` allows it
  cases m with
  | characterSelection c => exact safe_handleCharacterSelection hgood
  | gameContextCreateRequest =>
    simp only [handle]
    cases hc : (s.sessions i).characterId with
    | none => exact hgood
    | some c =>
      dsimp only
      rw [safe_cons_neutral rfl]
      cases hrow : s.getCharacter c with
      | none => exact hgood
      | some row =>
        obtain ⟨hpeace, hhome⟩ := hmove c row hc hrow
        dsimp only
        rw [safe_handleGameContextCreate, safe_setMap, safe_cons_neutral rfl]
        refine ⟨fun x hx => ?_, fun hfight => ?_⟩
        · rcases hx with ⟨c', hc', hpresent⟩ | rfl
          · obtain rfl := Option.some.inj (hc.symm.trans hc')
            rw [hhome x hpresent]
          · rfl
        · rw [hpeace] at hfight
          cases hfight
  | attackMonster nextMarkId drawn =>
    simp only [handle]
    split
    · rename_i c mapId hc hmap
      rw [safe_cons_neutral rfl]
      rw [hmap] at hgood ⊢
      split
      · exact safe_startFight hgood
      · exact hgood
    · exact hgood
  | fight r calls =>
    simp only [handle]
    split
    · rename_i g c hg hc
      exact safe_serveFight (hfighting hg) fun hchecks row hrow => hmove g c row hg hc hrow hchecks
    · exact hgood
  | mapMovementRequest mapId keyMovements =>
    simp only [handle]
    split
    · rename_i g c hg hc
      exact safe_serveFight (hfighting hg) (by rintro ⟨⟩)
    · split
      · exact safe_handleMovementRequest hgood
      · exact hgood
    · exact hgood
  | mapMovementConfirm =>
    simp only [handle]
    split
    · unfold handleMovementConfirm
      split
      · exact hgood
      · exact hgood
    · exact hgood
  | mapMovementCancel cellId =>
    simp only [handle]
    split
    · exact hgood
    · exact hgood
  | changeMap target calls =>
    simp only [handle]
    split
    · rename_i c current hc hmap
      rw [safe_cons_neutral rfl]
      have hpeace := hmove c current hc hmap
      rw [hmap] at hgood ⊢
      split
      · refine safe_handleChangeMap hgood fun hsome => ?_
        rw [hpeace hsome]
        rfl
      · exact hgood
    · exact hgood
  | other calls => exact safe_of_neutral (neutral_replicate rfl) hgood

end

/-! ### All sessions -/

/-- The operation may be left of a handler of a session without a character. -/
def Op.isIdle (op : Op) : Prop := op.isNeutral = true ∨ (∃ c, op = .selectCharacter c) ∨ op = .depart

/-- No two sessions have the same character, the entries of a session are those of its character, and its handler is
safe. -/
structure Placed (s : Server) : Prop where
  closed : ∀ i, (s.sessions i).isOpen = false → (s.sessions i).pending = []
  distinct : ∀ i j c, i ≠ j → (s.sessions i).isOpen = true → (s.sessions j).isOpen = true →
    (s.sessions i).characterId = some c → (s.sessions j).characterId ≠ some c
  own : ∀ i, (s.sessions i).isOpen = true → ∀ x, ∀ p ∈ (s.world.maps x).players,
    p.tx = i ↔ (s.sessions i).characterId = some p.characterId
  idle : ∀ i, (s.sessions i).characterId = none → ∀ op ∈ (s.sessions i).pending, op.isIdle
  safe : ∀ i, (s.sessions i).isOpen = true →
    Safe (s.sessions i).pending (s.sessions i).mapId (s.sessions i).fight.isSome (Stands s i)

section

variable {s s' : Server} {e : Event} {i j : Nat} {w w' : World} {ps : Session} {op : Op} {rest : List Op}

theorem present_iff {x c : Int} : w.Present x c ↔ c ∈ (w.maps x).characters := WorldMap.mem_characters.symm

/-- An operation concerns the entries of its own character only. -/
theorem present_touch (ht : Touch w ps i op w') {c : Int} (hc : ps.characterId ≠ some c) (x : Int) :
    w'.Present x c ↔ w.Present x c := by
  rw [present_iff, present_iff]
  cases ht with
  | same => rfl
  | @join mapId cellId c' hc' =>
    rw [mem_characters_joinMap]
    constructor
    · rintro (h | ⟨-, rfl⟩)
      · exact h
      · exact absurd hc' hc
    · exact .inl
  | @leave _ mapId c' hc' hop =>
    rw [mem_characters_leaveMap]
    refine and_iff_left fun _ heq => hc ?_
    rw [heq]
    exact hc'
  | move hb =>
    subst hb
    rfl
  | store hc' hop => exact mem_characters_updatePlayerCell

/-- Where the character of a session stands after an operation of the session. -/
theorem present_perform {c : Int} (hc : ps.characterId = some c) (hdepart : op ≠ .depart) (x : Int) :
    (w.perform ps i op).Present x c ↔ op.standsAfter (fun y => w.Present y c) x := by
  cases op with
  | joinMap mapId cellId =>
    simp only [World.perform, hc, Op.standsAfter, present_iff, mem_characters_joinMap, and_true]
  | leaveMap mapId =>
    simp only [World.perform, hc, Op.standsAfter, present_iff, mem_characters_leaveMap, ne_eq, not_true_eq_false,
      imp_false]
  | storePathEnd mapId keyMovements =>
    simp only [World.perform, hc, Op.standsAfter, present_iff, mem_characters_updatePlayerCell]
  | storeCancel mapId cellId =>
    simp only [World.perform, hc, Op.standsAfter, present_iff, mem_characters_updatePlayerCell]
  | depart => exact absurd rfl hdepart
  | _ => exact Iff.rfl

/-- An entry after an operation is an entry from before, up to its cell, or the one of a character that joins. -/
theorem entry_touch (ht : Touch w ps i op w') {x : Int} {p : MapPlayer} (hp : p ∈ (w'.maps x).players) :
    (∃ q ∈ (w.maps x).players, q.tx = p.tx ∧ q.characterId = p.characterId) ∨
      p.tx = i ∧ ps.characterId = some p.characterId := by
  cases ht with
  | same => exact .inl ⟨p, hp, rfl, rfl⟩
  | join hc =>
    rcases World.mem_joinMap.1 hp with ⟨hp, -⟩ | ⟨-, rfl⟩
    · exact .inl ⟨p, hp, rfl, rfl⟩
    · exact .inr ⟨rfl, hc⟩
  | leave hc hop => exact .inl ⟨p, (World.mem_leaveMap.1 hp).1, rfl, rfl⟩
  | move hb =>
    subst hb
    exact .inl ⟨p, hp, rfl, rfl⟩
  | store hc hop =>
    obtain ⟨q, hq, rfl⟩ := World.mem_updatePlayerCell.1 hp
    refine .inl ⟨q, hq, ?_⟩
    split <;> exact ⟨rfl, rfl⟩

theorem safe_congr {ops : List Op} {m : Option Int} {f : Bool} {P P' : Int → Prop} (hP : ∀ x, P x ↔ P' x) :
    Safe ops m f P ↔ Safe ops m f P' := by
  rw [show P = P' from funext fun x => propext (hP x)]

theorem mapId_perform {clock : Nat} : (ps.perform w clock op).mapId = op.mapAfter ps.mapId := by cases op <;> rfl

theorem fight_perform {clock : Nat} : (ps.perform w clock op).fight.isSome = op.fightAfter ps.fight.isSome := by
  cases op <;> rfl

theorem Placed.good_of_idle (h : Placed s) (hidle : (s.sessions i).isIdle = true) :
    Good (s.sessions i).mapId (s.sessions i).fight.isSome (Stands s i) := by
  obtain ⟨hopen, hpending⟩ := Session.isIdle_iff.1 hidle
  have hsafe := h.safe i hopen
  rw [hpending] at hsafe
  exact hsafe

/-- A session is given something to do, and nothing else changes. -/
theorem Placed.setPending (h : Placed s) {ops : List Op} (hopen : (s.sessions i).isOpen = true)
    (hops : (s.sessions i).characterId = none → ∀ op ∈ ops, op.isIdle)
    (hsafe : Safe ops (s.sessions i).mapId (s.sessions i).fight.isSome (Stands s i)) :
    Placed (s.setSession i { s.sessions i with pending := ops }) := by
  -- characters and places stay, what is new is what session `i` has to do
  have hkeep : ∀ j, ((s.setSession i { s.sessions i with pending := ops }).sessions j).isOpen =
    (s.sessions j).isOpen ∧
      ((s.setSession i { s.sessions i with pending := ops }).sessions j).characterId =
        (s.sessions j).characterId := by
    intro j
    by_cases hj : j = i
    · subst hj
      rw [Server.sessions_setSession]
      exact ⟨rfl, rfl⟩
    · rw [Server.sessions_setSession_of_ne hj]
      exact ⟨rfl, rfl⟩
  constructor
  · intro j hj
    rw [(hkeep j).1] at hj
    by_cases hji : j = i
    · subst hji
      rw [hopen] at hj
      cases hj
    · rw [Server.sessions_setSession_of_ne hji]
      exact h.closed j hj
  · intro j k c hjk hj hk hc
    rw [(hkeep j).1] at hj
    rw [(hkeep k).1] at hk
    rw [(hkeep j).2] at hc
    rw [(hkeep k).2]
    exact h.distinct j k c hjk hj hk hc
  · intro j hj x p hp
    rw [(hkeep j).1] at hj
    rw [(hkeep j).2]
    exact h.own j hj x p hp
  · intro j hc
    rw [(hkeep j).2] at hc
    by_cases hji : j = i
    · subst hji
      rw [Server.sessions_setSession]
      exact hops hc
    · rw [Server.sessions_setSession_of_ne hji]
      exact h.idle j hc
  · intro j hj
    rw [(hkeep j).1] at hj
    have hstands : ∀ x, Stands (s.setSession i { s.sessions i with pending := ops }) j x ↔ Stands s j x := by
      intro x
      simp only [Stands, (hkeep j).2, Server.world_setSession]
    rw [safe_congr hstands]
    by_cases hji : j = i
    · subst hji
      rw [Server.sessions_setSession]
      exact hsafe
    · rw [Server.sessions_setSession_of_ne hji]
      exact h.safe j hj

/-- A session performs an operation: it keeps its character, or takes a free one. -/
theorem characterId_advance (hmove : GoodMove s (.advance i)) (hpending : (s.sessions i).pending = op :: rest) :
    ((s.perform i op rest).sessions i).characterId = (s.sessions i).characterId ∨
      ∃ c, op = .selectCharacter c ∧ ((s.perform i op rest).sessions i).characterId = some c ∧ Free s i c := by
  rw [Server.sessions_perform]
  by_cases hop : ∃ c, op = .selectCharacter c
  · obtain ⟨c, rfl⟩ := hop
    rcases hmove c rest hpending with hsame | hfree
    · exact .inl (by rw [hsame]; rfl)
    · exact .inr ⟨c, rfl, rfl, hfree⟩
  · exact .inl (characterId_perform fun c hc => hop ⟨c, hc⟩)

theorem isOpen_advance (j : Nat) (h : ((s.perform i op rest).sessions j).isOpen = true) :
    (s.sessions j).isOpen = true := by
  by_cases hj : j = i
  · subst hj
    exact isOpen_of_perform h
  · rwa [Server.sessions_perform_of_ne hj] at h

theorem Placed.isOpen_of_pending (h : Placed s) (hpending : (s.sessions i).pending = op :: rest) :
    (s.sessions i).isOpen = true := by
  cases hclosed : (s.sessions i).isOpen with
  | true => rfl
  | false =>
    have hnil := h.closed i hclosed
    rw [hpending] at hnil
    cases hnil

theorem distinct_advance (h : Placed s) (hmove : GoodMove s (.advance i))
    (hpending : (s.sessions i).pending = op :: rest)
    {j k : Nat} {c : Int} (hjk : j ≠ k) (hj : (s.sessions j).isOpen = true) (hk : (s.sessions k).isOpen = true)
    (hc : ((s.perform i op rest).sessions j).characterId = some c) :
    ((s.perform i op rest).sessions k).characterId ≠ some c := by
  have hopen := h.isOpen_of_pending hpending
  have hfresh : ∀ j c, j ≠ i → (s.sessions j).isOpen = true → (s.sessions j).characterId = some c →
      ((s.perform i op rest).sessions i).characterId ≠ some c := by
    intro j c hji hj hc
    rcases characterId_advance hmove hpending with hsame | ⟨c', -, hc', -, -, hnew⟩
    · rw [hsame]
      exact h.distinct j i c hji hj hopen hc
    · rw [hc']
      intro heq
      obtain rfl := Option.some.inj heq
      exact hnew j hji hj hc
  by_cases hji : j = i
  · subst hji
    rw [Server.sessions_perform_of_ne (Ne.symm hjk)]
    intro hkc
    exact hfresh k c (Ne.symm hjk) hk hkc hc
  · rw [Server.sessions_perform_of_ne hji] at hc
    by_cases hki : k = i
    · subst hki
      exact hfresh j c hji hj hc
    · rw [Server.sessions_perform_of_ne hki]
      exact h.distinct j k c hjk hj hk hc

theorem own_advance (h : Placed s) (hmove : GoodMove s (.advance i)) (hpending : (s.sessions i).pending = op :: rest)
    {j : Nat} (hj : (s.sessions j).isOpen = true) {x : Int} {p : MapPlayer}
    (hp : p ∈ ((s.perform i op rest).world.maps x).players) :
    p.tx = j ↔ ((s.perform i op rest).sessions j).characterId = some p.characterId := by
  have hopen := h.isOpen_of_pending hpending
  have ht := touch s.world { s.sessions i with pending := rest } i op
  rw [← Server.world_perform] at ht
  -- an entry was there before the operation, or it is the one that the session makes
  rcases entry_touch ht hp with ⟨q, hq, htx, hqc⟩ | ⟨htx, hpc⟩
  · have hold := h.own j hj x q hq
    rw [htx, hqc] at hold
    by_cases hji : j = i
    · subst hji
      rcases characterId_advance hmove hpending with hsame | ⟨c, -, hc, hnobody, hnowhere, -⟩
      · rw [hsame]
        exact hold
      · rw [hc]
        constructor
        · exact fun hpj => absurd (htx.trans hpj) (hnobody x q hq)
        · exact fun heq => absurd ⟨q, hq, hqc.trans (Option.some.inj heq).symm⟩ (hnowhere x)
    · rw [Server.sessions_perform_of_ne hji]
      exact hold
  · by_cases hji : j = i
    · subst hji
      rcases characterId_advance hmove hpending with hsame | ⟨c, rfl, -, hnobody, -⟩
      · rw [hsame]
        exact ⟨fun _ => hpc, fun _ => htx⟩
      · exact absurd htx (hnobody x p hp)
    · rw [Server.sessions_perform_of_ne hji]
      constructor
      · exact fun hpj => absurd (hpj.symm.trans htx) hji
      · exact fun heq => absurd hpc (h.distinct j i _ hji hj hopen heq)

/-- The handler of the session itself. -/
theorem safe_advance_own (h : Placed s) (hmove : GoodMove s (.advance i))
    (hpending : (s.sessions i).pending = op :: rest) (hi : ((s.perform i op rest).sessions i).isOpen = true) :
    Safe rest ((s.perform i op rest).sessions i).mapId ((s.perform i op rest).sessions i).fight.isSome
      (Stands (s.perform i op rest) i) := by
  have hsafe := h.safe i (isOpen_of_perform hi)
  rw [hpending] at hsafe
  have hends : op ≠ .crash ∧ op ≠ .depart := by
    rw [Server.sessions_perform] at hi
    constructor
    · rintro rfl
      cases hi
    · rintro rfl
      cases hi
  have hmap : ((s.perform i op rest).sessions i).mapId = op.mapAfter (s.sessions i).mapId := by
    rw [Server.sessions_perform]
    exact mapId_perform
  have hfight : ((s.perform i op rest).sessions i).fight.isSome = op.fightAfter (s.sessions i).fight.isSome := by
    rw [Server.sessions_perform]
    exact fight_perform
  rw [hmap, hfight]
  by_cases hselect : ∃ c, op = .selectCharacter c
  · obtain ⟨c, rfl⟩ := hselect
    rcases characterId_advance hmove hpending with hsame | ⟨c', -, hc', -, hnowhere, -⟩
    · refine (safe_congr fun x => ?_).1 hsafe.1
      simp only [Stands, hsame]
      exact Iff.rfl
    · refine (safe_congr fun x => ?_).1 hsafe.2
      simp only [Stands, hc', false_iff, not_exists, not_and]
      intro d hd
      obtain rfl := Option.some.inj hd
      exact hnowhere x
  · have hnot : ∀ c, op ≠ .selectCharacter c := fun c hc => hselect ⟨c, hc⟩
    have hsame : ((s.perform i op rest).sessions i).characterId = (s.sessions i).characterId := by
      rw [Server.sessions_perform]
      exact characterId_perform hnot
    rw [safe_cons ⟨hends.1, hends.2, hnot⟩] at hsafe
    refine (safe_congr fun x => ?_).1 hsafe
    simp only [Stands, hsame]
    cases hc : (s.sessions i).characterId with
    | none =>
      -- a session without a character joins no map
      have hneutral : op.isNeutral = true := by
        have hidle := h.idle i hc op (by rw [hpending]; exact List.mem_cons_self)
        rcases hidle with hneutral | ⟨c, rfl⟩ | rfl
        · exact hneutral
        · exact absurd rfl (hnot c)
        · exact absurd rfl hends.2
      have hstands (P : Int → Prop) : op.standsAfter P = P := by cases op <;> first | rfl | cases hneutral
      rw [hstands]
      simp [Stands, hc]
    | some c =>
      have hperform := @present_perform i s.world ({ s.sessions i with pending := rest }) _ _ hc hends.2 x
      simp only [Option.some.injEq, exists_eq_left']
      rw [Server.world_perform, hperform]
      have hP : Stands s i = fun y => s.world.Present y c := by
        funext y
        simp [Stands, hc]
      rw [hP]

theorem placed_advance (h : Placed s) (hmove : GoodMove s (.advance i))
    (hpending : (s.sessions i).pending = op :: rest) :
    Placed (s.perform i op rest) := by
  have hopen := h.isOpen_of_pending hpending
  have hsession := @Server.sessions_perform s i op rest
  constructor
  · intro j hj
    by_cases hji : j = i
    · subst hji
      rw [hsession] at hj ⊢
      cases op <;> first | rfl | exact absurd hj (by simp [Session.perform, hopen])
    · rw [Server.sessions_perform_of_ne hji] at hj ⊢
      exact h.closed j hj
  · intro j k c hjk hj hk hc
    exact distinct_advance h hmove hpending hjk (isOpen_advance j hj) (isOpen_advance k hk) hc
  · intro j hj x p hp
    exact own_advance h hmove hpending (isOpen_advance j hj) hp
  · intro j hc op' hop'
    by_cases hji : j = i
    · subst hji
      rcases characterId_advance hmove hpending with hsame | ⟨c, -, hc', -⟩
      · rw [hsame] at hc
        refine h.idle j hc op' ?_
        rw [hpending]
        rw [hsession] at hop'
        have hmem : op' ∈ rest := by
          cases op <;> first | exact hop' | cases hop'
        exact List.mem_cons_of_mem op hmem
      · rw [hc'] at hc
        cases hc
    · rw [Server.sessions_perform_of_ne hji] at hc hop'
      exact h.idle j hc op' hop'
  · intro j hj
    by_cases hji : j = i
    · subst hji
      have hrest : ((s.perform j op rest).sessions j).pending = rest := by
        rw [hsession] at hj ⊢
        exact pending_perform hj
      rw [hrest]
      exact safe_advance_own h hmove hpending hj
    · -- what another session does leaves the places of this one alone
      have ht := touch s.world { s.sessions i with pending := rest } i op
      rw [← Server.world_perform] at ht
      rw [Server.sessions_perform_of_ne hji] at hj ⊢
      refine (safe_congr fun x => ?_).1 (h.safe j hj)
      simp only [Stands, Server.sessions_perform_of_ne hji]
      refine exists_congr fun c => and_congr_right fun hc => ?_
      exact (present_touch ht (h.distinct j i c hji hj hopen hc) x).symm

/-- Only what the server knows of the sessions and who is where matters. -/
theorem Placed.frame (h : Placed s) (hmaps : s'.world.maps = s.world.maps)
    (hsessions : ∀ j, (s'.sessions j).isOpen = (s.sessions j).isOpen ∧
      (s'.sessions j).characterId = (s.sessions j).characterId ∧ (s'.sessions j).mapId = (s.sessions j).mapId ∧
        (s'.sessions j).fight = (s.sessions j).fight ∧ (s'.sessions j).pending = (s.sessions j).pending) :
        Placed s' := by
  constructor
  · intro j hj
    obtain ⟨hopen, -, -, -, hpending⟩ := hsessions j
    rw [hpending]
    exact h.closed j (hopen ▸ hj)
  · intro j k c hjk hj hk hc
    rw [(hsessions j).1] at hj
    rw [(hsessions k).1] at hk
    rw [(hsessions j).2.1] at hc
    rw [(hsessions k).2.1]
    exact h.distinct j k c hjk hj hk hc
  · intro j hj x p hp
    rw [(hsessions j).1] at hj
    rw [hmaps] at hp
    rw [(hsessions j).2.1]
    exact h.own j hj x p hp
  · intro j hc
    obtain ⟨-, hcharacter, -, -, hpending⟩ := hsessions j
    rw [hcharacter] at hc
    rw [hpending]
    exact h.idle j hc
  · intro j hj
    obtain ⟨hopen, hcharacter, hmap, hfight, hpending⟩ := hsessions j
    rw [hpending, hmap, hfight]
    refine (safe_congr fun x => ?_).1 (h.safe j (hopen ▸ hj))
    simp only [Stands, World.Present, hcharacter, hmaps]

theorem placed_close (h : Placed s) : Placed (s.close i) := by
  have hopen : ∀ j, ((s.close i).sessions j).isOpen = true → j ≠ i := by
    rintro j hj rfl
    rw [Server.sessions_close] at hj
    cases hj
  constructor
  · intro j hj
    by_cases hji : j = i
    · rw [hji, Server.sessions_close]
    · rw [Server.sessions_close_of_ne hji] at hj ⊢
      exact h.closed j hj
  · intro j k c hjk hj hk hc
    have hji := hopen j hj
    have hki := hopen k hk
    rw [Server.sessions_close_of_ne hki] at hk ⊢
    rw [Server.sessions_close_of_ne hji] at hj hc
    exact h.distinct j k c hjk hj hk hc
  · intro j hj x p hp
    have hji := hopen j hj
    rw [Server.sessions_close_of_ne hji] at hj ⊢
    exact h.own j hj x p hp
  · intro j hc
    by_cases hji : j = i
    · rw [hji, Server.sessions_close]
      exact fun _ hop => absurd hop List.not_mem_nil
    · rw [Server.sessions_close_of_ne hji] at hc ⊢
      exact h.idle j hc
  · intro j hj
    have hji := hopen j hj
    rw [Server.sessions_close_of_ne hji] at hj ⊢
    refine (safe_congr fun x => ?_).1 (h.safe j hj)
    simp only [Stands, Server.sessions_close_of_ne hji, Server.world_close]

theorem idle_handle {m : Message} (hc : (s.sessions i).characterId = none) : ∀ op ∈ handle s i m, op.isIdle := by
  have hnone : ∀ op ∈ ([] : List Op), op.isIdle := fun _ hop => absurd hop List.not_mem_nil
  cases m with
  | characterSelection c =>
    intro op hop
    simp only [handle, handleCharacterSelection] at hop
    split at hop
    · split at hop
      · simp only [List.mem_append, List.mem_cons, plain, List.mem_replicate, List.not_mem_nil, or_false] at hop
        rcases hop with (rfl | ⟨-, rfl⟩) | rfl | rfl
        · exact .inl rfl
        · exact .inl rfl
        · exact .inl rfl
        · exact .inr (.inl ⟨c, rfl⟩)
      · simp only [List.mem_cons, List.not_mem_nil, or_false] at hop
        rcases hop with rfl | rfl <;> exact .inl rfl
    · simp only [List.mem_cons, List.not_mem_nil, or_false] at hop
      rcases hop with rfl | rfl <;> exact .inl rfl
  | other calls =>
    intro op hop
    rw [List.eq_of_mem_replicate hop]
    exact .inl rfl
  | fight r calls =>
    cases hfight : (s.sessions i).fight <;>
    · simp only [handle, hc, hfight]
      exact hnone
  | _ =>
    simp only [handle, hc]
    exact hnone

theorem placed_step (h : Placed s) (hmove : GoodMove s e) (hs : Step s e s') : Placed s' := by
  cases hs with
  | @receive j m hidle =>
    exact h.setPending (Session.isIdle_iff.1 hidle).1 idle_handle (safe_handle (h.good_of_idle hidle) hmove)
  | advance hpending hspin => exact placed_advance h hmove hpending
  | @refuse j op rest hpending hop =>
    have hopen := h.isOpen_of_pending hpending
    have hneutral : op.isNeutral = true := by cases op <;> first | rfl | cases hop
    have hsafe := h.safe j hopen
    rw [hpending, safe_cons_neutral hneutral] at hsafe
    refine h.setPending hopen (fun hc op' hop' => ?_) hsafe
    exact h.idle j hc op' (by rw [hpending]; exact List.mem_cons_of_mem op hop')
  | fail hfail => exact placed_close h
  | @deliver j b bs hqueue hidle =>
    refine h.frame rfl fun k => ?_
    by_cases hk : k = j
    · subst hk
      simp [Server.setSession]
    · have hsame := @Server.sessions_setSession_of_ne s j k
        { s.sessions j with display := b.display (s.sessions j).display } hk
      dsimp only
      rw [hsame]
      exact ⟨rfl, rfl, rfl, rfl, rfl⟩
  | @hangUp j hidle =>
    refine h.setPending (Session.isIdle_iff.1 hidle).1 (fun hc op hop => ?_) ?_
    · simp only [cleanup, hc, List.mem_singleton] at hop
      exact .inr (.inr hop)
    · have hgood := h.good_of_idle hidle
      unfold cleanup
      split
      · rw [safe_cons_neutral rfl]
        exact hgood
      · exact hgood
  | createCharacter => exact h.frame rfl fun _ => ⟨rfl, rfl, rfl, rfl, rfl⟩
  | tick => exact h.frame rfl fun _ => ⟨rfl, rfl, rfl, rfl, rfl⟩

end

/-- The character of every session that has handled its message is on the map that the session has recorded, or on
none, on none during a fight, and the session has nobody else on a map. -/
def OnePlace (s : Server) : Prop :=
  ∀ i, (s.sessions i).isIdle = true → ∀ c, (s.sessions i).characterId = some c →
    (∀ x, s.world.Present x c → (s.sessions i).mapId = some x) ∧
      ((s.sessions i).fight.isSome = true → ∀ x, ¬s.world.Present x c) ∧
        ∀ x, ∀ p ∈ (s.world.maps x).players, p.tx = i → p.characterId = c

theorem placed_start (mapData : Int → Option MapData) (depth : Nat) (rows : List Row) (accounts : Nat → Int) :
    Placed (.start mapData depth rows accounts) := by
  refine ⟨fun _ hclosed => ?_, fun _ _ _ _ _ _ hc => ?_, fun _ _ _ _ hp => absurd hp WorldMap.mem_empty,
    fun _ _ _ hop => absurd hop List.not_mem_nil, fun _ _ => ⟨fun x hx => ?_, nofun⟩⟩
  · cases hclosed
  · cases hc
  · obtain ⟨c, hc, -⟩ := hx
    cases hc

theorem placed_run {mapData : Int → Option MapData} {depth : Nat} {rows : List Row} {accounts : Nat → Int}
    {es : List Event} (h : Along GoodMove (.start mapData depth rows accounts) es) :
    Along (fun s _ => Placed s) (.start mapData depth rows accounts) es ∧
      Placed (after (.start mapData depth rows accounts) es) :=
  invariant_run (fun _ _ _ hI hmove hs => placed_step hI hmove hs) h (placed_start mapData depth rows accounts)

theorem one_place (mapData : Int → Option MapData) (depth : Nat) (rows : List Row) (accounts : Nat → Int)
    (es : List Event) (h : Along GoodMove (.start mapData depth rows accounts) es) :
    OnePlace (after (.start mapData depth rows accounts) es) := by
  have hplaced := (placed_run h).2
  intro i hidle c hc
  obtain ⟨hrecorded, hpeace⟩ := hplaced.good_of_idle hidle
  refine ⟨fun x hx => hrecorded x ⟨c, hc, hx⟩, fun hfight x hx => hpeace hfight x ⟨c, hc, hx⟩, fun x p hp htx => ?_⟩
  have hown := (hplaced.own i (Session.isIdle_iff.1 hidle).1 x p hp).1 htx
  exact (Option.some.inj (hc.symm.trans hown)).symm

/-- A session whose character is on a map ends only after its client has hung up. -/
def EndsByHangUp (s : Server) (e : Event) : Prop :=
  ∀ i, Ends s e i → ∀ c, (s.sessions i).characterId = some c →
    (∀ mapId, ¬s.world.Present mapId c) ∨ (s.sessions i).pending.head? = some .depart

/-- A session that hangs up has recorded the only map its character may be on. -/
theorem Placed.leavesWell {s : Server} {e : Event} (h : Placed s) (hends : EndsByHangUp s e) : LeavesWell s e := by
  intro i hi c hc
  rcases hends i hi c hc with hnowhere | hdepart
  · exact .inl hnowhere
  · have hsafe := h.safe i hi.1
    obtain ⟨rest, hpending⟩ := List.head?_eq_some_iff.1 hdepart
    rw [hpending] at hsafe
    have hrecorded : ∀ mapId, s.world.Present mapId c → (s.sessions i).mapId = some mapId :=
      fun mapId hpresent => hsafe.1 mapId ⟨c, hc, hpresent⟩
    by_cases hnowhere : ∀ mapId, ¬s.world.Present mapId c
    · exact .inl hnowhere
    · obtain ⟨mapId, hpresent⟩ := not_forall_not.1 hnowhere
      have hmap := hrecorded mapId hpresent
      refine .inr ⟨hdepart, mapId, hmap, fun mapId' hpresent' => ?_⟩
      exact Option.some.inj ((hrecorded mapId' hpresent').symm.trans hmap)

/-- In a run whose moves are good, the sessions clean up exactly if they end by hanging up. -/
theorem cleans_up_hangUp {mapData : Int → Option MapData} {depth : Nat} {rows : List Row} {accounts : Nat → Int}
    {es : List Event} (h : Along GoodMove (.start mapData depth rows accounts) es) :
    Along CleansUp (.start mapData depth rows accounts) es ↔
      Along EndsByHangUp (.start mapData depth rows accounts) es := by
  constructor
  · refine Along.imp fun s e hclean i hi c hc => ?_
    rcases (cleansUp_iff_leavesWell s e).1 hclean i hi c hc with hnowhere | ⟨hdepart, -⟩
    · exact .inl hnowhere
    · exact .inr hdepart
  · intro hends
    exact ((placed_run h).1.and hends).imp fun s e hboth =>
      (cleansUp_iff_leavesWell s e).2 (hboth.1.leavesWell hboth.2)

/-! ### A journey and a fight -/

/-- Among the first `n` sessions and on these maps the event finds its session prepared. -/
def placedAmong (n : Nat) (maps : List Int) (s : Server) (e : Event) : Bool :=
  staysAmong n maps s e &&
    match e with
    | .receive i .gameContextCreateRequest =>
      (s.sessions i).characterId.all fun c => (s.getCharacter c).all fun row =>
        (s.sessions i).fight.isNone && maps.all fun m => m = row.homeMap ∨ c ∉ (s.world.maps m).characters
    | .receive i (.changeMap ..) => (s.sessions i).fight.isNone
    | .receive i (.fight r _) => !r.checksEnd || (s.sessions i).fight.all fun g =>
        (s.sessions i).characterId.all fun c => (s.getCharacter c).all fun row => row.homeMap = g.mapId
    | .advance i =>
      match (s.sessions i).pending with
      | .selectCharacter c :: _ =>
        maps.all (fun m => (s.world.maps m).players.all fun p => p.tx ≠ i ∧ p.characterId ≠ c) &&
          (List.range n).all fun j => j = i ∨ (s.sessions j).characterId ≠ some c
      | _ => true
    | _ => true

theorem goodMove_of_among {n : Nat} {maps : List Int} {s : Server} {e : Event} (h : Among n maps s)
    (hplaced : placedAmong n maps s e = true) : GoodMove s e := by
  unfold placedAmong at hplaced
  rw [Bool.and_eq_true] at hplaced
  obtain ⟨-, hplaced⟩ := hplaced
  cases e with
  | receive i m =>
    cases m with
    | gameContextCreateRequest =>
      intro c row hc hrow
      simp only [hc, hrow, Option.all_some, Bool.and_eq_true, Option.isNone_iff_eq_none, List.all_eq_true,
        decide_eq_true_eq] at hplaced
      refine ⟨hplaced.1, fun x hx => ?_⟩
      by_cases hm : x ∈ maps
      · exact (hplaced.2 x hm).resolve_right (not_not.2 (present_iff.1 hx))
      · obtain ⟨p, hp, -⟩ := hx
        exact absurd hp (h.maps x hm p)
    | changeMap target calls =>
      intro c current hc hcurrent htransition
      exact Option.isNone_iff_eq_none.1 hplaced
    | fight r calls =>
      intro g c row hg hc hrow hends
      simpa [hg, hc, hrow, hends] using hplaced
    | _ => trivial
  | advance i =>
    intro c rest hpending
    simp only [hpending, Bool.and_eq_true, List.all_eq_true, decide_eq_true_eq, List.mem_range] at hplaced
    obtain ⟨hpresent, hothers⟩ := hplaced
    have hmaps : ∀ x, ∀ p ∈ (s.world.maps x).players, p.tx ≠ i ∧ p.characterId ≠ c := by
      intro x p hp
      by_cases hx : x ∈ maps
      · exact hpresent x hx p hp
      · exact absurd hp (h.maps x hx p)
    refine .inr ⟨fun x p hp => (hmaps x p hp).1, fun x hx => ?_, fun j hj hopen hc => ?_⟩
    · obtain ⟨p, hp, hpc⟩ := hx
      exact (hmaps x p hp).2 hpc
    · by_cases hn : j < n
      · exact (hothers j hn).resolve_left hj hc
      · rw [h.characterId j (Nat.not_lt.1 hn)] at hc
        cases hc
  | _ => trivial

theorem along_goodMove {n : Nat} {maps : List Int} {mapData : Int → Option MapData} {depth : Nat} {rows : List Row}
    {accounts : Nat → Int} {es : List Event}
    (h : Along (fun s e => placedAmong n maps s e = true) (.start mapData depth rows accounts) es) :
    Along GoodMove (.start mapData depth rows accounts) es := by
  have hamong := among_run (h.imp fun s e hplaced => ((Bool.and_eq_true _ _).mp hplaced).1)
  exact (h.and hamong).imp fun s e hs => goodMove_of_among hs.2 hs.1

/-- Two players whose fights may be played. -/
def fighters : Server := .start twoPlayers.mapData 3 twoPlayers.rows Int.ofNat

/-- Both enter the world; the first goes to the next map, and the second starts a fight. -/
def journey : List Event :=
  entering 0 ++ entering 1 ++ answered 0 (.changeMap 5 0) 8 ++ answered 1 (.attackMonster 0 0) 11

/-- The second slays the monster. -/
def victory : List Event := journey ++ answered 1 (.fight (.cast 1 400 (some slaying) 0) 0) 40

theorem victory_placed : Along (fun s e => placedAmong 2 [5, 154010883] s e = true) fighters victory := by
  decide +kernel

/-- The second player is on no map while it fights, and on its own one again after it has won. -/
theorem one_place_victory : OnePlace (after fighters journey) ∧
    ((after fighters journey).sessions 1).fight.isSome = true ∧
      ((after fighters journey).world.maps 154010883).players = [] ∧ OnePlace (after fighters victory) ∧
        ((after fighters victory).world.maps 154010883).players = [⟨2, 10, 1⟩] ∧
          ((after fighters victory).world.maps 5).players = [⟨1, 542, 0⟩] :=
  ⟨one_place _ _ _ _ _ (along_goodMove (along_append.1 victory_placed).1), by decide +kernel, by decide +kernel,
    one_place _ _ _ _ _ (along_goodMove victory_placed), by decide +kernel, by decide +kernel⟩

/-- A player attacks a monster, and changes the map during the fight. -/
def changingMapInFight : List Event :=
  entering 0 ++ answered 0 (.attackMonster 0 0) 11 ++ answered 0 (.changeMap 5 0) 8

theorem present_during_fight : ¬OnePlace (after twoPlayers changingMapInFight) := by
  intro h
  have hplaces := (h 0 (by decide +kernel) 1 (by decide +kernel)).2.1 (by decide +kernel) 5
  exact hplaces ⟨⟨1, 532, 0⟩, by decide +kernel, rfl⟩

end Otomai.Handlers
