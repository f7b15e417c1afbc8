import Otomai.Trace.Observer
import Otomai.Combat.Rest

/-!
# The budget of a turn

A fighter has the points of its turn, and casts a spell as often as its data allows.  An observer keeps a ledger of
the turn: what the fighter was given when it started, and what it has spent since the turn was advanced to it.

* `Ledger.Covers`: the points a fighter has left are what the ledger leaves it.
* `startNextTurn_budgeted`, `serve_budgeted`: what a turn and a request keep.
* `fight_keeps_budget`: the budget and the phases are kept, if everything is received in its phase.
-/

namespace Otomai.Combat

open Machine Otomai.Common Trace Program

variable {maps : Int → Option MapData}

/-- What is written down of a turn: the points given at its start, those spent since, and the spells cast; and of the
fight, the last request and how often it has started. -/
structure Ledger where
  request : Option Request
  starts : Nat
  ap : Int
  mp : Int
  apSpent : Int
  mpSpent : Int
  casts : List Int

namespace Ledger

def empty : Ledger := ⟨none, 0, 0, 0, 0, 0, []⟩

def note (g : Ledger) (s : Fight) : Action → Ledger
  | .receive r => { g with request := some r }
  | .update (.setPhase .fighting) => { g with starts := g.starts + 1 }
  | .update .advanceTurn => { g with ap := 0, mp := 0, apSpent := 0, mpSpent := 0, casts := [] }
  | .update .resetTurn =>
    { g with
      ap := (s.currentFighter.map fun f => f.resetTurn.actionPoints).getD 0
      mp := (s.currentFighter.map fun f => f.resetTurn.movementPoints).getD 0 }
  | .acceptCast _ spellId _ _ => { g with casts := spellId :: g.casts }
  | .update (.payCast _ apCost) => { g with apSpent := g.apSpent + apCost }
  | .update (.move mpCost _) => { g with mpSpent := g.mpSpent + mpCost }
  | .update (.spendMovement mpUsed) => { g with mpSpent := g.mpSpent + mpUsed }
  | _ => g

end Ledger

instance : Observes Ledger Fight Action where
  note := Ledger.note

/-- Everything is received in its phase: a ready message, which says so, before the fight, the rest in it; and no
spell is cast so often that the count of its casts overflows. -/
def InTime (s : Fight) : Action → Prop
  | .receive (.ready isReady) => isReady = true ∧ s.phase = .placement
  | .receive .turnFinish | .receive (.cast ..) | .receive (.movement _) => s.phase = .fighting
  | .update (.payCast spellId _) => ∀ f ∈ s.currentFighter, f.castCount spellId < 32767
  | _ => True

instance (s : Fight) (a : Action) : Decidable (InTime s a) := by
  delta InTime
  induction a using Action.casesOn with
  | receive r => induction r using Request.casesOn <;> infer_instance
  | update u => induction u using Update.casesOn <;> infer_instance
  | _ => infer_instance

/-- Casts, movements, poisons, changes of turn and refreshes happen in a fight that has started and not ended, within
the points of the turn and the number of casts of the spell; the fight starts once, on a ready message that says
so. -/
def WithinBudget (x : Ledger × Fight) : Action → Prop
  | .acceptCast _ spellId _ data =>
    x.2.phase = .fighting ∧ x.1.apSpent + data.apCost ≤ max x.1.ap 0 ∧
      (0 < data.maxCastPerTurn → x.1.casts.count spellId < data.maxCastPerTurn)
  | .update (.payCast _ apCost) => x.2.phase = .fighting ∧ x.1.apSpent + apCost ≤ max x.1.ap 0
  | .update (.move mpCost _) => x.2.phase = .fighting ∧ x.1.mpSpent + mpCost ≤ max x.1.mp 0
  | .update (.spendMovement mpUsed) => x.2.phase = .fighting ∧ x.1.mpSpent + mpUsed ≤ max x.1.mp 0
  | .poison .. | .update .advanceTurn | .update .resetTurn => x.2.phase = .fighting
  | .update (.setPhase .fighting) =>
    x.2.phase = .placement ∧ x.1.starts = 0 ∧ x.1.request = some (.ready true)
  | _ => True

instance (x : Ledger × Fight) (a : Action) : Decidable (WithinBudget x a) := by
  delta WithinBudget
  induction a using Action.casesOn with
  | update u =>
    induction u using Update.casesOn with
    | setPhase phase => induction phase using FightPhase.casesOn <;> infer_instance
    | _ => infer_instance
  | _ => infer_instance

/-! ### The ledger and the current fighter -/

namespace Ledger

/-- Nothing is spent. -/
def Fresh (g : Ledger) : Prop := g.apSpent = 0 ∧ g.mpSpent = 0 ∧ g.casts = []

/-- The ledger leaves the fighter the points that it has, and counts its casts. -/
structure CoversFighter (g : Ledger) (f : Fighter) : Prop where
  ap : f.actionPoints ≤ g.ap - g.apSpent
  ap_le : g.apSpent ≤ max g.ap 0
  mp : f.movementPoints ≤ g.mp - g.mpSpent
  mp_le : g.mpSpent ≤ max g.mp 0
  casts : ∀ spellId, f.castCount spellId = g.casts.count spellId

def Covers (g : Ledger) (s : Fight) : Prop := ∃ f, s.currentFighter = some f ∧ g.CoversFighter f

end Ledger

namespace Fighter

variable {f : Fighter}

/-- The points of a fighter and its casts. -/
def purse (f : Fighter) : Int × Int × List (Int × Int) := (f.actionPoints, f.movementPoints, f.spellCastsThisTurn)

/-- What is stored of other spells. -/
private theorem lookup_others {spellId id : Int} (hid : id ≠ spellId) (casts : List (Int × Int)) :
    (casts.filter fun entry => entry.1 ≠ spellId).lookup id = casts.lookup id := by
  induction casts with
  | nil => rfl
  | cons entry casts ih =>
    by_cases hentry : entry.1 = spellId
    · have hbeq : (id == entry.1) = false := by simpa [hentry] using hid
      rw [List.filter_cons_of_neg (by simpa using hentry), ih, List.lookup_cons, hbeq]
    · rw [List.filter_cons_of_pos (by simpa using hentry), List.lookup_cons, List.lookup_cons, ih]

theorem castCount_payCast {spellId apCost : Int} (hmin : 0 ≤ f.castCount spellId) (hmax : f.castCount spellId < 32767)
    (id : Int) :
    (f.payCast spellId apCost).castCount id = f.castCount id + if id = spellId then 1 else 0 := by
  have hwrap : wrap16 (f.castCount spellId + 1) = f.castCount spellId + 1 := wrap16_of_range (by omega) (by omega)
  unfold castCount at hwrap ⊢
  by_cases hid : id = spellId
  · subst hid
    simp only [payCast, List.lookup_cons, beq_self_eq_true, Option.getD_some, if_true]
    exact hwrap
  · have hbeq : (id == spellId) = false := by simpa using hid
    simp only [payCast, List.lookup_cons, hbeq, if_neg hid, add_zero, lookup_others hid]

end Fighter

namespace Ledger.CoversFighter

variable {g : Ledger} {f : Fighter}

/-- A cast that is counted and paid for. -/
theorem payCast (h : g.CoversFighter f) {spellId apCost : Int} (hap : apCost ≤ f.actionPoints)
    (hcount : f.castCount spellId < 32767) :
    CoversFighter { g with casts := spellId :: g.casts, apSpent := g.apSpent + apCost }
      (f.payCast spellId apCost) := by
  have hleft := h.ap
  have hspent := h.ap_le
  have hwrap : wrap16 (f.actionPoints - apCost) ≤ f.actionPoints - apCost := wrap16_le (by omega)
  refine ⟨?_, ?_, h.mp, h.mp_le, fun id => ?_⟩
  · simp only [Fighter.payCast]
    omega
  · simp only
    omega
  · have hcasts := h.casts spellId
    rw [Fighter.castCount_payCast (by omega) hcount, h.casts id, List.count_cons]
    by_cases hid : id = spellId
    · simp [hid]
    · have hbeq : (spellId == id) = false := by simpa using fun h => hid h.symm
      simp [hid, hbeq]

theorem spend (h : g.CoversFighter f) {mp : Int} (hmp : mp ≤ f.movementPoints) :
    CoversFighter { g with mpSpent := g.mpSpent + mp } (f.spend mp) := by
  have hleft := h.mp
  have hspent := h.mp_le
  have hwrap : wrap16 (f.movementPoints - mp) ≤ f.movementPoints - mp := wrap16_le (by omega)
  refine ⟨h.ap, h.ap_le, ?_, ?_, h.casts⟩
  · simp only [Fighter.spend]
    omega
  · simp only
    omega

/-- The start of a turn. -/
theorem reset (h : g.Fresh) :
    CoversFighter { g with ap := f.resetTurn.actionPoints, mp := f.resetTurn.movementPoints } f.resetTurn := by
  obtain ⟨hap, hmp, hcasts⟩ := h
  refine ⟨?_, ?_, ?_, ?_, fun id => ?_⟩
  · simp only [hap, sub_zero, le_refl]
  · simp only [hap, le_max_right]
  · simp only [hmp, sub_zero, le_refl]
  · simp only [hmp, le_max_right]
  · simp [hcasts, Fighter.castCount, Fighter.resetTurn]

theorem of_purse (h : g.CoversFighter f) {f' : Fighter} (hpurse : f'.purse = f.purse) : g.CoversFighter f' := by
  simp only [Fighter.purse, Prod.mk.injEq] at hpurse
  refine ⟨?_, h.ap_le, ?_, h.mp_le, fun id => ?_⟩
  · rw [hpurse.1]
    exact h.ap
  · rw [hpurse.2.1]
    exact h.mp
  · unfold Fighter.castCount
    rw [hpurse.2.2]
    exact h.casts id

end Ledger.CoversFighter

/-! ### What a spell and a turn keep -/

/-- A state of the fight and of the ledger between two requests. -/
structure Budgeted (x : Ledger × Fight) : Prop where
  roster : x.2.Roster
  placement : x.2.phase = .placement → x.1.starts = 0 ∧ x.1.Fresh ∧ x.2.shouldEnd = false
  fighting : x.2.phase = .fighting → x.1.Covers x.2

/-- A state of a turn. -/
structure InFight (G : Ledger → Fight → Prop) (x : Ledger × Fight) : Prop where
  roster : x.2.Roster
  phase : x.2.phase = .fighting
  ledger : G x.1 x.2

section

variable {s : Fight} {g : Ledger}

/-- The effects of a spell leave the ledger and everybody's points alone. -/
theorem note_spell {a : Action} (ha : a.isSpell = true) : Ledger.note g s a = g := by
  cases a with
  | send m => rfl
  | update u =>
    cases u with
    | setPhase phase => cases ha
    | _ => first | rfl | contradiction
  | _ => cases ha

theorem withinBudget_spell {x : Ledger × Fight} {a : Action} (ha : a.isSpell = true) : WithinBudget x a := by
  cases a with
  | send m => trivial
  | update u =>
    cases u with
    | setPhase phase => cases ha
    | _ => trivial
  | _ => cases ha

theorem Fight.phase_apply {u : Update} (hu : ∀ phase, u ≠ .setPhase phase) : (s.apply u).phase = s.phase := by
  cases u with
  | setPhase phase => exact absurd rfl (hu phase)
  | advanceTurn =>
    simp only [Fight.apply, Fight.advanceTurn]
    split <;> rfl
  | _ => rfl

theorem Fight.purse_apply {u : Update} (hu : u.isSpell = true) {f : Fighter} (hf : s.currentFighter = some f) :
    ∃ f', (s.apply u).currentFighter = some f' ∧ f'.purse = f.purse := by
  have hof {s' : Fight} (hindex : s'.currentFighterIndex = s.currentFighterIndex)
      (hmap : s'.fighters.map Fighter.purse = s.fighters.map Fighter.purse) :
      ∃ f', s'.currentFighter = some f' ∧ f'.purse = f.purse := by
    have hpurse : s'.currentFighter.map Fighter.purse = s.currentFighter.map Fighter.purse := by
      unfold Fight.currentFighter
      rw [hindex, ← List.getElem?_map, ← List.getElem?_map, hmap]
    rw [hf, Option.map_some] at hpurse
    exact Option.map_eq_some_iff.1 hpurse
  cases u with
  | summon casterId summoned =>
    refine ⟨f, ?_, rfl⟩
    have hlt := (List.getElem?_eq_some_iff.1 hf).1
    unfold Fight.currentFighter
    simp only [Fight.apply]
    rw [List.getElem?_append_left hlt]
    exact hf
  | exchange sourceId targetId cellA cellB =>
    refine hof rfl ?_
    simp only [Fight.apply]
    refine (Fight.map_modifyFighter _ (fun f => ?_) _).trans (Fight.map_modifyFighter _ (fun f => ?_) _)
    · rfl
    · rfl
  | tickBuffs =>
    refine hof rfl ?_
    simp only [Fight.apply]
    exact s.map_modifyCurrent fun _ => rfl
  | removeMark _ | tickMarks | drawIds _ _ | placeMark _ => exact ⟨f, hf, rfl⟩
  | place _ _ | move _ _ | payCast _ _ | spendMovement _ | resetTurn | advanceTurn | setPhase _ => cases hu
  | _ =>
    refine hof rfl ?_
    refine s.map_modifyFighter (fun f => ?_) _
    rfl

/-- What is known of the ledger and of the current fighter's points survives the effects of spells. -/
theorem InFight.spell {G : Ledger → Fight → Prop}
    (hG : ∀ g s u, G g s → Update.isSpell u = true → G g (s.apply u)) {x : Ledger × Fight} {b : List Action}
    (hx : InFight G x) (hb : SpellBlock x.2 b) : Along WithinBudget x b ∧ InFight G (after x b) := by
  have hactions := (hb.mayWrite.and hb.isSpell)
  have hrun := Along.invariant (I := InFight G) (P := fun x a => MayWrite x.2 a ∧ a.isSpell = true)
    (fun x a hx ha => ?_) (along_observed.2 hactions) hx
  · have halong := (along_observed (γ := Ledger) (x := x)).2 hactions
    exact ⟨halong.imp fun x a ha => withinBudget_spell ha.2, hrun.2⟩
  · obtain ⟨hwrite, hspell⟩ := ha
    obtain ⟨g, s⟩ := x
    have hnote : act (g, s) a = (g, act s a) := by
      rw [act_observed]
      exact congrArg (·, act s a) (note_spell hspell)
    rw [hnote]
    cases a with
    | update u =>
      have hphase : ∀ phase, u ≠ .setPhase phase := by
        rintro phase rfl
        cases hspell
      exact ⟨hx.roster.apply hwrite, (Fight.phase_apply hphase).trans hx.phase, hG g s u hx.ledger hspell⟩
    | _ => exact hx

theorem covers_spell (g : Ledger) (s : Fight) (u : Update) (h : g.Covers s) (hu : u.isSpell = true) :
    g.Covers (s.apply u) := by
  obtain ⟨f, hf, hcovers⟩ := h
  obtain ⟨f', hf', hpurse⟩ := s.purse_apply hu hf
  exact ⟨f', hf', hcovers.of_purse hpurse⟩

end

/-! ### Turns -/

section

variable {x : Ledger × Fight} {G : Ledger → Fight → Prop}

/-- A program of effects, as a part of a turn. -/
theorem observed_effects {α : Type} {p : FightProgram α} {Q : α → Fight → Prop} (hp : Ensures Effect Fault p x.2 Q)
    (hG : ∀ g s u, G g s → Update.isSpell u = true → G g (s.apply u)) (hx : InFight G x) :
    Observed InTime WithinBudget p x fun _ x' => InFight G x' :=
  (Observed.of_ensures hp (fun _ _ hx hb _ => hx.spell hG (.effect hb)) hx).mono fun _ _ h => h.2

theorem applyPoison_budgeted (fighterId : Int) (b : Buff)
    (hG : ∀ g s u, G g s → Update.isSpell u = true → G g (s.apply u)) (hx : InFight G x) :
    Observed InTime WithinBudget (applyPoison fighterId b) x fun _ x' => InFight G x' := by
  unfold applyPoison
  refine .perform_bind fun _ => ⟨hx.phase, ?_⟩
  exact .bind (observed_effects (applyDamage_ensures ..) hG hx) fun _ _ hx' => .pure hx'

/-- The fighter that attacks by itself spends at most what it has. -/
theorem monsterAttack_budgeted (hx : InFight Ledger.Covers x) :
    Observed InTime WithinBudget monsterAttack x fun _ x' => InFight Ledger.Covers x' := by
  unfold monsterAttack
  refine .get_bind ?_
  cases hf : x.2.currentFighter with
  | none => exact .pure hx
  | some monster =>
    dsimp only
    split
    · exact .pure hx
    refine .bind (Q := fun _ x' => x' = x) (.ofOption fun _ _ => rfl) ?_
    rintro nearest x' hx'
    subst x'
    cases nearest with
    | none => exact .pure hx
    | some target =>
      refine .bind (Q := fun dist x' => x' = x ∧ dist < 66) (.ofOption fun _ hdist => ⟨rfl, distance_lt hdist⟩) ?_
      rintro dist x' ⟨hx', hdist⟩
      subst x'
      refine .bind (Q := fun _ x' => InFight Ledger.Covers x')
        (.when (fun hfar => .perform fun _ => ?_) fun _ => hx) ?_
      · have hmp : min (wrap16 (wrap16 dist - 1)) monster.movementPoints ≤ monster.movementPoints := min_le_right _ _
        generalize min (wrap16 (wrap16 dist - 1)) monster.movementPoints = mpUsed at hmp ⊢
        obtain ⟨f, hf', hcovers⟩ := hx.ledger
        rw [hf, Option.some.injEq] at hf'
        subst hf'
        have hspent := (hcovers.spend hmp).mp_le
        refine ⟨⟨hx.phase, hspent⟩, hx.roster.apply (.spendMovement _), hx.phase, monster.spend mpUsed, ?_,
          hcovers.spend hmp⟩
        have hcurrent := x.2.currentFighter_modifyCurrent (·.spend mpUsed)
        rwa [hf] at hcurrent
      · intro _ x' hx'
        refine .perform_bind fun _ => ⟨trivial, .perform_bind fun _ => ⟨trivial, ?_⟩⟩
        refine .bind (observed_effects (x := x') (applyDamage_ensures ..) covers_spell hx') fun _ x'' hx'' => ?_
        exact .perform fun _ => ⟨trivial, hx''⟩

theorem endTurnThen_budgeted {startNext : FightProgram Unit} (hx : InFight G x)
    (hnext : ∀ x, InFight (fun g s => g.Fresh ∧ s.shouldEnd = false) x →
      Observed InTime WithinBudget startNext x fun _ x' => Budgeted x') :
    Observed InTime WithinBudget (endTurnThen startNext) x fun _ x' => Budgeted x' := by
  unfold endTurnThen
  refine .get_bind (.perform_bind fun _ => ⟨trivial, ?_⟩)
  cases hgoing : x.2.shouldEnd with
  | true => exact .perform fun _ => ⟨trivial, hx.roster.apply (.finish hgoing), nofun, nofun⟩
  | false =>
    refine .perform_bind fun _ => ⟨hx.phase, ?_⟩
    have hadvanced : InFight (fun g s => g.Fresh ∧ s.shouldEnd = false)
        (act (x : Ledger × Fight) (Action.update .advanceTurn)) := by
      refine ⟨hx.roster.apply (.advance hgoing), ?_, ⟨rfl, rfl, rfl⟩, ?_⟩
      · exact (Fight.phase_apply (u := .advanceTurn) nofun).trans hx.phase
      · exact (x.2.shouldEnd_apply (u := .advanceTurn) rfl).trans hgoing
    refine .bind (Q := fun _ x' => InFight (fun g s => g.Fresh ∧ s.shouldEnd = false) x') (.when (fun _ => ?_)
      fun _ => hadvanced) fun _ x' hx' => hnext x' hx'
    exact .get_bind (.perform fun _ => ⟨trivial, hadvanced⟩)

/-- The turns keep the budget: whoever's turn it is gets its points once. -/
theorem startNextTurn_budgeted (n : Nat) {x : Ledger × Fight}
    (hx : InFight (fun g s => g.Fresh ∧ s.shouldEnd = false) x) :
    Observed InTime WithinBudget (startNextTurn n) x fun _ x' => Budgeted x' := by
  induction n generalizing x with
  | zero => exact .exhausted
  | succ n ih =>
    unfold startNextTurn
    refine .get_bind ?_
    have hphase := hx.phase
    have hnotover : ¬(x.2.shouldEnd = true ∨ x.2.phase = .ended) := by
      simp [hx.ledger.2, hphase]
    rw [if_neg hnotover]
    have hfresh : InFight (fun g _ => g.Fresh) (act x (Action.update .tickBuffs)) :=
      ⟨hx.roster.apply (u := .tickBuffs) (.quiet rfl), hx.phase, hx.ledger.1⟩
    refine .perform_bind fun _ => ⟨trivial, .get_bind ?_⟩
    refine .bind (.forM (J := InFight fun g _ => g.Fresh) hfresh fun b x hx =>
      applyPoison_budgeted _ b (fun _ _ _ h _ => h) hx) ?_
    intro _ x₁ hx₁
    refine .get_bind ?_
    cases hend : x₁.2.shouldEnd with
    | true => exact .perform fun _ => ⟨trivial, hx₁.roster.apply (.finish hend), (by rintro ⟨⟩), (by rintro ⟨⟩)⟩
    | false =>
      have hfresh : InFight (fun g _ => g.Fresh) (act x₁ (Action.update .tickMarks)) :=
        ⟨hx₁.roster.apply (u := .tickMarks) (.quiet rfl), hx₁.phase, hx₁.ledger⟩
      refine .perform_bind fun _ => ⟨trivial, .get_bind ?_⟩
      refine .bind (observed_effects (triggerGlyphsForTurn_ensures ..) (fun _ _ _ h _ => h) hfresh) ?_
      intro _ x₂ hx₂
      refine .get_bind ?_
      cases hend : x₂.2.shouldEnd with
      | true => exact .perform fun _ => ⟨trivial, hx₂.roster.apply (.finish hend), (by rintro ⟨⟩), (by rintro ⟨⟩)⟩
      | false =>
        cases hf : x₂.2.currentFighter with
        | none =>
          have hindex := hx₂.roster.index
          exact absurd hf (by simpa [Fight.currentFighter] using hindex)
        | some fighter =>
          have hcurrent := x₂.2.currentFighter_modifyCurrent (·.resetTurn)
          rw [hf, Option.map_some] at hcurrent
          have hcovered : InFight Ledger.Covers (act x₂ (Action.update .resetTurn)) := by
            refine ⟨hx₂.roster.apply .resetTurn, hx₂.phase, fighter.resetTurn, hcurrent, ?_⟩
            have hledger : (act x₂ (Action.update .resetTurn)).1 = { x₂.1 with
                ap := fighter.resetTurn.actionPoints
                mp := fighter.resetTurn.movementPoints } := by
              show Ledger.note x₂.1 x₂.2 (.update .resetTurn) = _
              simp only [Ledger.note, hf, Option.map_some, Option.getD_some]
            rw [hledger]
            exact Ledger.CoversFighter.reset hx₂.ledger
          refine .perform_bind fun _ => ⟨hx₂.phase, .perform_bind fun _ => ⟨trivial, ?_⟩⟩
          cases hplayer : fighter.isPlayer with
          | true =>
            have hnotplacement : x₂.2.phase ≠ .placement := by simp [hx₂.phase]
            exact .pure ⟨hcovered.roster, fun h => absurd h hnotplacement, fun _ => hcovered.ledger⟩
          | false =>
            refine .bind (monsterAttack_budgeted hcovered) fun _ x₃ hx₃ => ?_
            exact endTurnThen_budgeted hx₃ fun x hx => ih hx

/-! ### Requests -/

/-- A write that is no start of the fight and kills nobody, outside of the fight. -/
theorem Budgeted.idle (hx : Budgeted x) {u : Update} (hu : Write x.2 u) (hlives : u.keepsLives = true)
    (hphase : ∀ phase, u ≠ .setPhase phase) (hnote : Ledger.note x.1 x.2 (.update u) = x.1)
    (hcovers : x.2.phase = .fighting → x.1.Covers (x.2.apply u)) : Budgeted (act x (Action.update u)) := by
  have hact : act x (Action.update u) = (x.1, x.2.apply u) := Prod.ext hnote rfl
  rw [hact]
  refine ⟨hx.roster.apply hu, fun h => ?_, fun h => ?_⟩
  · obtain ⟨hstarts, hfresh, hgoing⟩ := hx.placement ((Fight.phase_apply hphase).symm.trans h)
    exact ⟨hstarts, hfresh, (x.2.shouldEnd_apply hlives).trans hgoing⟩
  · exact hcovers ((Fight.phase_apply hphase).symm.trans h)

theorem handlePlacementPosition_budgeted (playerId cellId : Int) (hx : Budgeted x) :
    Observed InTime WithinBudget (handlePlacementPosition playerId cellId) x fun _ x' => Budgeted x' := by
  unfold handlePlacementPosition
  refine .get_bind (.when (fun h => ?_) fun _ => hx)
  have hmem : cellId ∈ x.2.challengerPositions := by simpa using h.2
  refine .perform_bind fun _ => ⟨trivial, .perform fun _ => ⟨trivial, ?_⟩⟩
  exact hx.idle (.place hmem) rfl nofun rfl fun hfighting => by simp [h.1] at hfighting

theorem handleFightReady_budgeted (n : Nat) (hx : Budgeted x) (hphase : x.2.phase = .placement)
    (hready : x.1.request = some (.ready true)) :
    Observed InTime WithinBudget (handleFightReady n) x fun _ x' => Budgeted x' := by
  obtain ⟨hstarts, hfresh, hgoing⟩ := hx.placement hphase
  unfold handleFightReady
  refine .perform_bind fun _ => ⟨⟨hphase, hstarts, hready⟩, .perform_bind fun _ => ⟨trivial, .get_bind ?_⟩⟩
  refine .perform_bind fun _ => ⟨trivial, ?_⟩
  exact startNextTurn_budgeted n ⟨hx.roster.apply .start, rfl, hfresh, hgoing⟩

theorem handleTurnFinish_budgeted (n : Nat) (hx : Budgeted x) (hphase : x.2.phase = .fighting) :
    Observed InTime WithinBudget (handleTurnFinish n) x fun _ x' => Budgeted x' := by
  unfold handleTurnFinish
  refine .get_bind ?_
  split
  · exact .pure hx
  · exact endTurnThen_budgeted ⟨hx.roster, hphase, hx.fighting hphase⟩ fun _ hx => startNextTurn_budgeted n hx

/-- What a request in the fight leaves. -/
theorem InFight.budgeted (hx : InFight Ledger.Covers x) : Budgeted x := by
  refine ⟨hx.roster, fun h => ?_, fun _ => hx.ledger⟩
  rw [hx.phase] at h
  cases h

theorem handleSpellCast_budgeted (playerId : Int) (spellId cellId : Int16) (loaded : Option SpellData) (roll : UInt16)
    (hx : Budgeted x) (hphase : x.2.phase = .fighting) :
    Observed InTime WithinBudget (handleSpellCast maps playerId spellId.toInt cellId.toInt loaded roll) x
      fun _ x' => Budgeted x' := by
  rcases handleSpellCast_run maps playerId spellId cellId loaded roll x.2 with
    ⟨ending, hrun, -⟩ | ⟨f, data, -, hf, -, hap, hcell, hcasts, hrun⟩
  · exact .congr (q := ofEnding ending) hrun (.ofEnding fun _ _ => hx)
  · obtain ⟨f', hf', hcovers⟩ := hx.fighting hphase
    rw [hf, Option.some.injEq] at hf'
    subst hf'
    refine .congr (q := do
      perform (Action.acceptCast f.id spellId.toInt cellId.toInt data)
      perform (Action.update (.payCast spellId.toInt data.apCost))
      castSpell f.id spellId.toInt cellId.toInt data roll) hrun ?_
    have hbudget : x.1.apSpent + data.apCost ≤ max x.1.ap 0 := by
      have hleft := hcovers.ap
      omega
    refine .perform_bind fun _ => ⟨⟨hphase, hbudget, fun hmax => ?_⟩, ?_⟩
    · rw [← hcovers.casts]
      exact hcasts hmax
    · refine .perform_bind fun hcount => ⟨⟨hphase, hbudget⟩, ?_⟩
      have hpaid := hcovers.payCast hap (hcount f hf)
      have hcurrent := x.2.currentFighter_modifyCurrent (·.payCast spellId.toInt data.apCost)
      rw [hf, Option.map_some] at hcurrent
      have hfight : InFight Ledger.Covers (act (act x (Action.acceptCast f.id spellId.toInt cellId.toInt data))
          (Action.update (.payCast spellId.toInt data.apCost))) :=
        ⟨hx.roster.apply (.payCast ..), hphase, _, hcurrent, hpaid⟩
      exact (Observed.of_ensures (castSpell_ensures _ _ hcell ..)
        (fun _ _ hx hb _ => hx.spell covers_spell hb) hfight).mono fun _ _ h => h.2.budgeted

theorem handleFightMovement_budgeted (playerId : Int) (keyMovements : List Int16) (hx : Budgeted x)
    (hphase : x.2.phase = .fighting) :
    Observed InTime WithinBudget (handleFightMovement playerId keyMovements) x fun _ x' => Budgeted x' := by
  rcases handleFightMovement_run playerId keyMovements x.2 with
    hrun | ⟨f, key, mpCost, hf, hplayer, -, -, hle, hrun⟩
  · exact .congr (q := pure ()) hrun (.pure hx)
  · obtain ⟨f', hf', hcovers⟩ := hx.fighting hphase
    rw [hf, Option.some.injEq] at hf'
    subst hf'
    refine .congr (q := do
      perform (Action.update (.move mpCost (key.toInt % 4096)))
      perform (Action.send (.sequenceStart 2 f.id))
      perform (Action.send (.mapMovement keyMovements f.id))
      perform (Action.send (.pointsVariation 129 f.id (-mpCost)))
      perform (Action.send (.sequenceEnd 129 f.id 2))
      triggerTrapsOnCell (key.toInt % 4096) f.id) hrun ?_
    have hspent := hcovers.spend hle
    refine .perform_bind fun _ => ⟨⟨hphase, hspent.mp_le⟩, ?_⟩
    refine .perform_bind fun _ => ⟨trivial, .perform_bind fun _ => ⟨trivial, ?_⟩⟩
    refine .perform_bind fun _ => ⟨trivial, .perform_bind fun _ => ⟨trivial, ?_⟩⟩
    have hcurrent := x.2.currentFighter_modifyCurrent fun f => (f.spend mpCost).onCell (key.toInt % 4096)
    rw [hf, Option.map_some] at hcurrent
    have hmoved : InFight Ledger.Covers (act x (Action.update (.move mpCost (key.toInt % 4096)))) :=
      ⟨hx.roster.apply (.move hf hplayer (by omega) (by omega)), hphase, _, hcurrent, hspent.of_purse rfl⟩
    exact (observed_effects (triggerTrapsOnCell_ensures ..) covers_spell hmoved).mono fun _ _ h => h.budgeted

/-- Every request keeps the budget, if it arrives in its phase. -/
theorem serve_budgeted (n : Nat) (playerId : Int) (r : Request) (hx : Budgeted x) :
    Observed InTime WithinBudget (serve maps n playerId r) x fun _ x' => Budgeted x' := by
  have hreceived : Budgeted (act x (Action.receive r)) := by
    refine ⟨hx.roster, hx.placement, fun h => ?_⟩
    obtain ⟨f, hf, hcovers⟩ := hx.fighting h
    exact ⟨f, hf, hcovers.ap, hcovers.ap_le, hcovers.mp, hcovers.mp_le, hcovers.casts⟩
  unfold serve
  refine .perform_bind fun htime => ⟨trivial, ?_⟩
  cases r with
  | placement cellId => exact handlePlacementPosition_budgeted _ _ hreceived
  | ready isReady =>
    obtain ⟨rfl, hphase⟩ := htime
    exact handleFightReady_budgeted n hreceived hphase rfl
  | turnFinish => exact handleTurnFinish_budgeted n hreceived htime
  | turnReady => exact .pure hreceived
  | cast spellId cellId loaded roll => exact handleSpellCast_budgeted _ _ _ _ _ hreceived htime
  | movement keyMovements => exact handleFightMovement_budgeted _ _ hreceived htime
  | elsewhere marks summons =>
    refine .perform fun _ => ⟨trivial, ?_⟩
    refine hreceived.idle (.quiet rfl) rfl nofun rfl fun hphase => ?_
    exact covers_spell _ _ _ (hreceived.fighting hphase) rfl

theorem history_budgeted (n : Nat) (playerId : Int) (rs : List Request) (hx : Budgeted x) :
    Observed InTime WithinBudget (history maps n playerId rs) x fun _ x' => Budgeted x' := by
  induction rs generalizing x with
  | nil => exact .pure hx
  | cons r rs ih =>
    rw [history_cons]
    refine .bind (serve_budgeted n playerId r hx) fun _ x' hx' => .get_bind ?_
    split
    · exact .pure hx'
    · exact ih hx'

end

theorem startPveFight_budgeted (c : Character) (mapId : Int) (nextMarkId drawn : Nat) :
    Budgeted (Ledger.empty, startPveFight maps c mapId nextMarkId drawn) :=
  ⟨startPveFight_roster c mapId nextMarkId drawn, fun _ => ⟨rfl, ⟨rfl, rfl, rfl⟩, rfl⟩, nofun⟩

/-- Whatever the client sends in its phase, the fight starts once, nothing happens outside of it, and nobody spends
more than the points of its turn or casts a spell more often than allowed. -/
theorem fight_keeps_budget (maps : Int → Option MapData) (n : Nat) (c : Character) (mapId : Int)
    (nextMarkId drawn : Nat) (rs : List Request) :
    let s := startPveFight maps c mapId nextMarkId drawn
    let t := (history maps n c.id rs s).trace
    Along InTime s t → Along WithinBudget (Ledger.empty, s) t :=
  fun h => (history_budgeted n c.id rs (startPveFight_budgeted c mapId nextMarkId drawn) h).1

/-- A novice starts the fight, casts twice and ends its turn. -/
theorem fight_keeps_budget_novice :
    let s := startPveFight (fun _ => none) .novice 0 0 0
    let t := (history (fun _ => none) 3 1
      [.ready true, .cast 0 281 none 0, .cast 0 281 none 0, .movement [280, 294], .turnFinish] s).trace
    Along WithinBudget (Ledger.empty, s) t :=
  fight_keeps_budget (fun _ => none) 3 .novice 0 0 0
    [.ready true, .cast 0 281 none 0, .cast 0 281 none 0, .movement [280, 294], .turnFinish] (by decide +kernel)

/-- A second ready message gives the points of the turn again: three casts of 3 AP in one turn. -/
theorem fight_breaks_budget :
    ¬∀ (maps : Int → Option MapData) (n : Nat) (c : Character) (mapId : Int) (nextMarkId drawn : Nat)
      (rs : List Request),
      let s := startPveFight maps c mapId nextMarkId drawn
      Along WithinBudget (Ledger.empty, s) (history maps n c.id rs s).trace := by
  intro h
  have halong := h (fun _ => none) 1 .novice 0 0 0
    [.ready true, .cast 0 281 none 0, .cast 0 281 none 0, .ready true, .cast 0 281 none 0]
  have hbroken : ¬Along WithinBudget (Ledger.empty, startPveFight (fun _ => none) .novice 0 0 0)
      (history (fun _ => none) 1 1
        [.ready true, .cast 0 281 none 0, .cast 0 281 none 0, .ready true, .cast 0 281 none 0]
        (startPveFight (fun _ => none) .novice 0 0 0)).trace := by
    decide +kernel
  exact hbroken halong

end Otomai.Combat
