import Otomai.Combat.Displacement
import Otomai.Combat.Movement

/-!
# Gravity and roots

A fighter in the state of gravity is not pushed.  The other displacements do not look at the state: it is moved by
them wherever they have somewhere to go.  A rooted fighter does not move when its player asks for it.

* `applyEffect_cellOf_iff`: when an effect leaves the fighters with gravity where they are.
* `gravity_and_roots_hold`: the same for all effects of all spells in all states of a fight, and the roots.
-/

namespace Otomai.Combat

open Machine Otomai.Common Trace Program

/-- The effects that move somebody. -/
def EffectType.isDisplacement : EffectType → Bool
  | push | pull | teleport | exchangePositions => true
  | _ => false

/-- The fighter is there, with gravity. -/
def Fight.IsHeavy (s : Fight) (id : Int) : Prop := ∃ f, s.getFighter id = some f ∧ f.hasGravity = true

/-- A pull of the target has nowhere to go: its first step is off the grid, or to a cell that is not free. -/
def Fight.PullBlocked (s : Fight) (sourceId targetId distance : Int) : Prop :=
  ∀ source target dir, s.getFighter sourceId = some source → s.getFighter targetId = some target →
    directionBetween (asU16 target.cellId) (asU16 source.cellId) = some (some dir) → 0 < distance →
    ∀ next, neighbourIn (asU16 target.cellId) dir = some next → s.isFreeBut (asU16 source.cellId) next = false

/-- The effect would not move any fighter that it concerns and that has gravity. -/
def Fight.HeavyStay (s : Fight) (playerId cellId : Int) (effect : SpellEffect) : Prop :=
  match classify effect.effectId with
  | .pull => ∀ target, s.fighterOnCell cellId = some target → s.IsHeavy target.id →
    s.PullBlocked playerId target.id effect.diceNum
  | .teleport => s.IsHeavy playerId → s.fighterOnCell cellId = none → s.cellOf playerId = some cellId
  | .exchangePositions => ∀ target, s.fighterOnCell cellId = some target → s.IsHeavy playerId ∨ s.IsHeavy target.id →
    (s.getFighter playerId).isSome → (s.getFighter target.id).isSome → s.cellOf playerId = s.cellOf target.id
  | _ => True

/-- An effect that moves somebody leaves every fighter with gravity on its cell. -/
def Fight.GravityHolds (s : Fight) (playerId cellId : Int) (casterStats : FighterStats) (isCritical : Bool)
    (effect : SpellEffect) : Prop :=
  (classify effect.effectId).isDisplacement = true → ∀ id, s.IsHeavy id →
    (after s (applyEffect playerId cellId casterStats isCritical effect s).trace).cellOf id = s.cellOf id

section

variable {s : Fight} {sourceId targetId id cellId distance : Int}

/-- Where everybody is after one fighter was put on a cell. -/
theorem cellOf_onCell (id targetId cellId : Int) : (s.modifyFighter targetId (·.onCell cellId)).cellOf id =
    if id = targetId then (s.cellOf id).map fun _ => cellId else s.cellOf id := by
  unfold Fight.cellOf
  split
  · subst id
    rw [s.getFighter_modifyFighter (g := (·.onCell cellId)) fun _ => rfl]
    cases s.getFighter targetId <;> rfl
  · rename_i hne
    rw [s.getFighter_modifyFighter_of_ne (g := (·.onCell cellId)) (fun _ => rfl) hne]

/-- Traps move nobody. -/
theorem traps_leave_cellOf (id cellId triggerFighterId : Int) (s : Fight) :
    Leaves (Fight.cellOf id) (triggerTrapsOnCell cellId triggerFighterId) s :=
  triggerTrapsOnCell_leaves (fun s targetId damage => cellOf_hit id s targetId damage)
    (fun s targetId b => cellOf_congr (s.map_modifyFighter (g := (·.addBuff b)) (fun _ => rfl) targetId) id)
    (fun _ _ => rfl) cellId triggerFighterId s

/-- A push moves nobody but its target, and does not move it if it has gravity. -/
theorem applyPush_leaves (hid : id = targetId → s.IsHeavy id) :
    Leaves (Fight.cellOf id) (applyPush sourceId targetId distance) s := by
  unfold applyPush
  refine .get_bind ?_
  split
  · exact .pure _
  rename_i hlight
  have hne : id ≠ targetId := by
    rintro rfl
    obtain ⟨f, hf, hgravity⟩ := hid rfl
    exact hlight (by rw [hf, Option.any_some, hgravity])
  split
  · refine .bind (.ofOption _) fun direction s' _ => ?_
    cases direction with
    | none => exact .pure _
    | some dir =>
      refine .bind (.ofOption _) fun result s' _ => ?_
      have hhit (s : Fight) (targetId damage : Int) : (s.apply (.hit targetId damage)).cellOf id = s.cellOf id :=
        cellOf_hit ..
      refine .bind (.when fun _ => .bind (.perform ?_) fun _ _ _ => .perform rfl) fun _ s' _ => .when fun _ => ?_
      · exact (cellOf_onCell ..).trans (if_neg hne)
      · refine .bind (applyDamage_keeps hhit ..).leaves fun _ s' _ => ?_
        cases result.collidedWithFighter with
        | none => exact .pure _
        | some collidedId => exact .bind (applyDamage_keeps hhit ..).leaves fun _ _ _ => .pure _
  · exact .pure _

/-- A pull moves nobody but its target. -/
theorem applyPull_leaves (hne : id ≠ targetId) :
    Leaves (Fight.cellOf id) (applyPull sourceId targetId distance) s := by
  unfold applyPull
  refine .get_bind ?_
  split
  · refine .bind (.ofOption _) fun direction s' _ => ?_
    cases direction with
    | none => exact .pure _
    | some dir =>
      refine .bind (.ofOption _) fun current s' _ => .when fun _ => .bind (.perform ?_) fun _ _ _ => .perform rfl
      exact (cellOf_onCell ..).trans (if_neg hne)
  · exact .pure _

/-- A walk that has somewhere to go ends on another cell. -/
theorem walk_ends_iff {free : Nat → Bool} {dir n u : Nat} :
    (walk free dir n u).2 = u ↔ 0 < n → ∀ next, neighbourIn u dir = some next → free next = false := by
  cases n with
  | zero => exact iff_of_true rfl fun h => absurd h (Nat.lt_irrefl 0)
  | succ n =>
    constructor
    · intro hend _ next hnext
      refine Bool.eq_false_iff.2 fun hfree => ?_
      rw [walk_of_free hnext hfree] at hend
      have hfirst := ahead_neighbourIn hnext
      rcases @walk_ahead free dir n next with h | h
      · exact Ahead.irrefl ((h.trans hend) ▸ hfirst)
      · exact Ahead.irrefl (hend ▸ hfirst.trans h)
    · intro h
      rw [walk_of_taken (h (Nat.succ_pos n))]

theorem applyPull_walk {source target : Fighter} {dir : Nat} (hsource : s.getFighter sourceId = some source)
    (htarget : s.getFighter targetId = some target)
    (hdir : directionBetween (asU16 target.cellId) (asU16 source.cellId) = some (some dir)) :
    (after s (applyPull sourceId targetId distance s).trace).cellOf targetId = s.cellOf targetId ↔
      (walk (s.isFreeBut (asU16 source.cellId)) dir distance.toNat (asU16 target.cellId)).2 =
        asU16 target.cellId := by
  have hcell := (directionBetween_isSome.1 (by rw [hdir]; rfl)).1
  have hstart : s.cellOf targetId = some target.cellId := congrArg (Option.map Fighter.cellId) htarget
  obtain ⟨current, hpull, hend⟩ := @pullLoop_spec s (asU16 source.cellId) dir distance.toNat _ hcell
  have hwalk := @pullLoop_eq s dir distance.toNat _ (asU16 source.cellId) hcell
  rw [hpull, Option.some.injEq] at hwalk
  unfold applyPull
  rw [get_bind_run, hsource, htarget]
  dsimp only
  rw [hdir, ofOption_some, pure_bind_run]
  dsimp only
  rw [hpull, ofOption_some, pure_bind_run, ← hwalk, hstart]
  by_cases hmoved : current ≠ asU16 target.cellId
  · rw [when, if_pos hmoved]
    refine iff_of_false (fun hsame => hmoved ?_) hmoved
    have hslid : (s.apply (.slide targetId current)).cellOf targetId = some (current : Int) :=
      cellOf_slide htarget current
    replace hsame := Option.some.inj (hslid.symm.trans hsame)
    rw [← hsame]
    unfold mapCellsCount at hend hcell
    unfold asU16 at hend ⊢
    omega
  · rw [when, if_neg hmoved]
    exact iff_of_true hstart (not_not.1 hmoved)

/-- A pull that comes to no direction moves nobody. -/
theorem applyPull_idle {k : Fight → Option Int} (h : ∀ source target dir, s.getFighter sourceId = some source →
    s.getFighter targetId = some target →
    directionBetween (asU16 target.cellId) (asU16 source.cellId) ≠ some (some dir)) :
    Leaves k (applyPull sourceId targetId distance) s := by
  unfold applyPull
  refine .get_bind ?_
  cases hsource : s.getFighter sourceId with
  | none => exact .pure _
  | some source =>
    cases htarget : s.getFighter targetId with
    | none => exact .pure _
    | some target =>
      dsimp only
      cases hdir : directionBetween (asU16 target.cellId) (asU16 source.cellId) with
      | none => rfl
      | some direction =>
        cases direction with
        | none => rfl
        | some dir => exact absurd hdir (h source target dir hsource htarget)

/-- A pull leaves its target where it is, exactly if it has nowhere to go. -/
theorem applyPull_leaves_iff :
    Leaves (Fight.cellOf targetId) (applyPull sourceId targetId distance) s ↔
    s.PullBlocked sourceId targetId distance := by
  by_cases h : ∃ source target dir, s.getFighter sourceId = some source ∧ s.getFighter targetId = some target ∧
      directionBetween (asU16 target.cellId) (asU16 source.cellId) = some (some dir)
  · obtain ⟨source, target, dir, hsource, htarget, hdir⟩ := h
    refine (applyPull_walk hsource htarget hdir).trans (walk_ends_iff.trans ?_)
    constructor
    · intro hblocked source' target' dir' hsource' htarget' hdir' hpos
      obtain rfl := Option.some.inj (hsource.symm.trans hsource')
      obtain rfl := Option.some.inj (htarget.symm.trans htarget')
      obtain rfl : dir = dir' := by simpa [hdir] using hdir'
      exact hblocked (by omega)
    · intro hblocked hpos
      exact hblocked source target dir hsource htarget hdir (by omega)
  · refine iff_of_true (applyPull_idle fun source target dir hsource htarget hdir => ?_) ?_
    · exact h ⟨source, target, dir, hsource, htarget, hdir⟩
    · intro source target dir hsource htarget hdir
      exact absurd ⟨source, target, dir, hsource, htarget, hdir⟩ h

/-- A teleport moves the caster to the cell, if that is free. -/
theorem applyTeleport_leaves_iff (hthere : (s.getFighter sourceId).isSome) :
    Leaves (Fight.cellOf sourceId) (applyTeleport sourceId sourceId cellId) s ↔
      (s.fighterOnCell cellId = none → s.cellOf sourceId = some cellId) := by
  obtain ⟨f, hf⟩ := Option.isSome_iff_exists.1 hthere
  unfold applyTeleport Leaves
  rw [get_bind_run]
  by_cases hfree : s.fighterOnCell cellId = none
  · have hmoved : (s.apply (.teleport sourceId cellId)).cellOf sourceId = some cellId :=
      (cellOf_onCell ..).trans ((if_pos rfl).trans (by rw [Fight.cellOf, hf]; rfl))
    rw [when, if_pos hfree]
    refine Iff.trans ?_ (forall_prop_of_true hfree).symm
    exact ⟨fun h => h.symm.trans hmoved, fun h => hmoved.trans h.symm⟩
  · rw [when, if_neg hfree]
    exact iff_of_true rfl fun h => absurd h hfree

theorem applyTeleport_leaves (destCell : Int) (hne : id ≠ targetId) :
    Leaves (Fight.cellOf id) (applyTeleport sourceId targetId destCell) s := by
  refine .get_bind (.when fun _ => .bind (.perform ?_) fun _ _ _ => .perform rfl)
  exact (cellOf_onCell ..).trans (if_neg hne)

/-- An exchange moves the two fighters to the cells of each other. -/
theorem applyExchange_leaves_iff :
    (∀ id, s.IsHeavy id → Leaves (Fight.cellOf id) (applyExchange sourceId targetId) s) ↔
    (s.IsHeavy sourceId ∨ s.IsHeavy targetId → (s.getFighter sourceId).isSome → (s.getFighter targetId).isSome →
      s.cellOf sourceId = s.cellOf targetId) := by
  unfold applyExchange Leaves
  simp only [get_bind_run]
  cases ha : s.getFighter sourceId with
  | none => exact iff_of_true (fun _ _ => rfl) fun _ h => nomatch h
  | some a =>
    cases hb : s.getFighter targetId with
    | none => exact iff_of_true (fun _ _ => rfl) fun _ _ h => nomatch h
    | some b =>
      have hcellA : s.cellOf sourceId = some a.cellId := congrArg (Option.map Fighter.cellId) ha
      have hcellB : s.cellOf targetId = some b.cellId := congrArg (Option.map Fighter.cellId) hb
      have hafter (id : Int) : (s.apply (.exchange sourceId targetId a.cellId b.cellId)).cellOf id =
          if id = targetId then some a.cellId else if id = sourceId then some b.cellId else s.cellOf id := by
        refine (cellOf_onCell ..).trans ?_
        rw [cellOf_onCell]
        by_cases htarget : id = targetId
        · rw [if_pos htarget, if_pos htarget, htarget, hcellB]
          split <;> rfl
        · rw [if_neg htarget, if_neg htarget]
          by_cases hsource : id = sourceId
          · rw [if_pos hsource, if_pos hsource, hsource, hcellA]
            rfl
          · rw [if_neg hsource, if_neg hsource]
      show (∀ id, s.IsHeavy id →
        (s.apply (.exchange sourceId targetId a.cellId b.cellId)).cellOf id = s.cellOf id) ↔ _
      simp only [hafter, hcellA, hcellB, Option.isSome_some, forall_const]
      constructor
      · rintro h (hheavy | hheavy)
        · have hstay := h sourceId hheavy
          rw [hcellA, if_pos rfl] at hstay
          split at hstay
          · rename_i hsame
            rw [← hcellA, ← hcellB, hsame]
          · exact hstay.symm
        · have hstay := h targetId hheavy
          rwa [if_pos rfl, hcellB] at hstay
      · intro h id hheavy
        by_cases htarget : id = targetId
        · rw [if_pos htarget, htarget, hcellB, h (.inr (htarget ▸ hheavy))]
        · rw [if_neg htarget]
          by_cases hsource : id = sourceId
          · rw [if_pos hsource, hsource, hcellA, h (.inl (hsource ▸ hheavy))]
          · rw [if_neg hsource]

variable {playerId : Int} {casterStats : FighterStats} {isCritical : Bool} {effect : SpellEffect}

/-- The displacements, before the traps that they set off. -/
theorem applyEffect_cellOf (hmoves : (classify effect.effectId).isDisplacement = true) (id : Int) :
    (after s (applyEffect playerId cellId casterStats isCritical effect s).trace).cellOf id =
      match classify effect.effectId, s.fighterOnCell cellId with
      | .push, some target => (after s (applyPush playerId target.id effect.diceNum s).trace).cellOf id
      | .pull, some target => (after s (applyPull playerId target.id effect.diceNum s).trace).cellOf id
      | .teleport, _ => (after s (applyTeleport playerId playerId cellId s).trace).cellOf id
      | .exchangePositions, some target => (after s (applyExchange playerId target.id s).trace).cellOf id
      | _, _ => s.cellOf id := by
  unfold applyEffect
  rw [get_bind_run]
  cases htype : classify effect.effectId with
  | push =>
    cases s.fighterOnCell cellId with
    | none => rfl
    | some target => exact Leaves.after_bind fun _ => .get_bind (traps_leave_cellOf ..)
  | pull =>
    cases s.fighterOnCell cellId with
    | none => rfl
    | some target => exact Leaves.after_bind fun _ => .get_bind (traps_leave_cellOf ..)
  | teleport => exact Leaves.after_bind fun _ => traps_leave_cellOf ..
  | exchangePositions =>
    cases s.fighterOnCell cellId with
    | none => rfl
    | some target => rfl
  | _ =>
    rw [htype] at hmoves
    cases hmoves

/-- An effect that moves somebody leaves the fighters with gravity where they are, exactly if it would not move
them. -/
theorem gravityHolds_iff :
    s.GravityHolds playerId cellId casterStats isCritical effect ↔ s.HeavyStay playerId cellId effect := by
  unfold Fight.GravityHolds Fight.HeavyStay
  by_cases hmoves : (classify effect.effectId).isDisplacement = true
  · rw [forall_prop_of_true hmoves]
    simp only [applyEffect_cellOf hmoves]
    cases htype : classify effect.effectId with
    | push =>
      refine iff_of_true (fun id hheavy => ?_) trivial
      cases s.fighterOnCell cellId with
      | none => rfl
      | some target => exact applyPush_leaves fun _ => hheavy
    | pull =>
      cases s.fighterOnCell cellId with
      | none => exact iff_of_true (fun _ _ => rfl) fun _ h => by cases h
      | some target =>
        simp only [Option.some.injEq, forall_eq', ← applyPull_leaves_iff]
        refine ⟨fun h => h target.id, fun h id hheavy => ?_⟩
        by_cases hid : id = target.id
        · subst hid
          exact h hheavy
        · exact applyPull_leaves hid
    | teleport =>
      constructor
      · intro h hheavy
        obtain ⟨f, hf, -⟩ := id hheavy
        exact (applyTeleport_leaves_iff (by rw [hf]; rfl)).1 (h playerId hheavy)
      · intro h id hheavy
        by_cases hid : id = playerId
        · subst hid
          obtain ⟨f, hf, hgravity⟩ := hheavy
          exact (applyTeleport_leaves_iff (by rw [hf]; rfl)).2 (h ⟨f, hf, hgravity⟩)
        · exact applyTeleport_leaves cellId hid
    | exchangePositions =>
      cases s.fighterOnCell cellId with
      | none => exact iff_of_true (fun _ _ => rfl) fun _ h => by cases h
      | some target =>
        refine applyExchange_leaves_iff.trans ?_
        simp only [Option.some.injEq, forall_eq']
    | _ =>
      rw [htype] at hmoves
      cases hmoves
  · refine iff_of_true (fun h => absurd h hmoves) ?_
    cases htype : classify effect.effectId with
    | pull | teleport | exchangePositions =>
      rw [htype] at hmoves
      exact absurd rfl hmoves
    | _ => trivial

end

/-! ### Lists of effects -/

/-- What holds of every effect of a spell, in the state that the effects before it have led to. -/
def EachEffect (playerId cellId : Int) (casterStats : FighterStats) (isCritical : Bool) (effects : List SpellEffect)
    (s : Fight) (P : Fight → SpellEffect → Prop) : Prop :=
  ∀ before effect rest, effects = before ++ effect :: rest →
    let run := before.forM (applyEffect playerId cellId casterStats isCritical) s
    run.ending = .value () → P (after s run.trace) effect

theorem eachEffect_congr {P Q : Fight → SpellEffect → Prop} (hPQ : ∀ s effect, P s effect ↔ Q s effect)
    (playerId cellId : Int) (casterStats : FighterStats) (isCritical : Bool)
    (effects : List SpellEffect) (s : Fight) :
    EachEffect playerId cellId casterStats isCritical effects s P ↔
      EachEffect playerId cellId casterStats isCritical effects s Q := by
  unfold EachEffect
  simp only [hPQ]

/-- What is said of gravity and roots in a state: the effects of a spell leave the fighters with gravity where they
are, exactly if none of them would move one; and a rooted fighter is not moved by its request. -/
structure Fight.GravityAndRoots (s : Fight) : Prop where
  gravity : ∀ playerId cellId casterStats isCritical effects,
    EachEffect playerId cellId casterStats isCritical effects s
        (fun s => s.GravityHolds playerId cellId casterStats isCritical) ↔
      EachEffect playerId cellId casterStats isCritical effects s fun s => s.HeavyStay playerId cellId
  roots : ∀ f ∈ s.fighters, f.isRooted = true → ∀ keyMovements,
    handleFightMovement f.id keyMovements s = ⟨[], .value ()⟩

theorem Fight.Roster.gravityAndRoots {s : Fight} (hs : s.Roster) : s.GravityAndRoots where
  gravity playerId cellId casterStats isCritical effects := eachEffect_congr (fun _ _ => gravityHolds_iff) ..
  roots f hf hrooted keyMovements := by
    refine handleFightMovement_refused fun g haccepts => ?_
    obtain rfl := List.inj_on_of_nodup_map hs.ids (List.mem_of_getElem? haccepts.turn) hf haccepts.id
    rw [haccepts.rooted] at hrooted
    cases hrooted

theorem gravity_and_roots_hold (maps : Int → Option MapData) (n : Nat) (c : Character) (mapId : Int)
    (nextMarkId drawn : Nat) (rs : List Request) :
    let s := startPveFight maps c mapId nextMarkId drawn
    let t := (history maps n c.id rs s).trace
    Along (fun s _ => s.GravityAndRoots) s t ∧ (after s t).GravityAndRoots := by
  obtain ⟨halong, hend⟩ := @history_roster maps n c.id rs _ (startPveFight_coherent c mapId nextMarkId drawn)
    (startPveFight_roster c mapId nextMarkId drawn)
  exact ⟨halong.imp fun _ _ h => h.gravityAndRoots, hend.gravityAndRoots⟩

/-- A spell that gives its target gravity and pulls it moves it. -/
theorem gravity_is_pulled : ¬∀ (maps : Int → Option MapData) (n : Nat) (c : Character) (mapId : Int)
    (nextMarkId drawn : Nat) (rs : List Request) (playerId cellId : Int) (casterStats : FighterStats)
    (isCritical : Bool) (effects : List SpellEffect),
    let s := startPveFight maps c mapId nextMarkId drawn
    EachEffect playerId cellId casterStats isCritical effects (after s (history maps n c.id rs s).trace)
      fun s => s.GravityHolds playerId cellId casterStats isCritical := by
  intro h
  have hholds := h (fun _ => none) 0 .novice 0 0 0 [] 1 400 {} false
    [⟨950, 2, 0, 0, .neutral⟩, ⟨6, 1, 0, 0, .neutral⟩] [⟨950, 2, 0, 0, .neutral⟩] ⟨6, 1, 0, 0, .neutral⟩ [] rfl
    (by decide +kernel)
  have hheavy : ((after (startPveFight (fun _ => none) .novice 0 0 0)
      ([⟨950, 2, 0, 0, .neutral⟩].forM (applyEffect 1 400 {} false)
        (startPveFight (fun _ => none) .novice 0 0 0)).trace).getFighter (-1)).any (·.hasGravity) =
          true := by decide +kernel
  obtain ⟨f, hf, hgravity⟩ := (Option.any_eq_true _ _).1 hheavy
  exact absurd (hholds (by decide +kernel) (-1) ⟨f, hf, hgravity⟩) (by decide +kernel)

end Otomai.Combat
