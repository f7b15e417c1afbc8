import Otomai.Combat.Budget
import Otomai.Combat.Change

/-!
# What a spell asks for

A spell says where it may be cast and how often; the validation of a cast checks some of it.  An observer writes down
the casts of every fighter since its turn has started.

* `Validated`: nothing is accepted that has not been validated (`history_validated`).
* `casts_respect_spell_iff`: when an accepted cast is as the spell asks for.
-/

namespace Otomai.Combat

open Machine Otomai.Common Trace Program

variable {maps : Int → Option MapData} {n : Nat} {playerId : Int}

/-- The cells are on a line along one of the axes. -/
def OnLine (a b : Nat) : Prop :=
  ∃ ca cb, cellCoord a = some ca ∧ cellCoord b = some cb ∧ (ca.x = cb.x ∨ ca.y = cb.y)

def OnDiagonal (a b : Nat) : Prop :=
  ∃ ca cb, cellCoord a = some ca ∧ cellCoord b = some cb ∧ (ca.x - cb.x).natAbs = (ca.y - cb.y).natAbs

/-- A cast: whose, of which spell, and who stood on its cell. -/
structure Cast where
  casterId : Int
  spellId : Int
  targetId : Option Int
  deriving DecidableEq

/-- The casts of the turns, those of each fighter since its last turn start. -/
structure CastLog where
  casts : List Cast

namespace CastLog

def empty : CastLog := ⟨[]⟩

variable (g : CastLog)

/-- How often the fighter has cast the spell. -/
def count (casterId spellId : Int) : Nat := g.casts.countP fun c => c.casterId = casterId ∧ c.spellId = spellId

/-- How often it has cast it on the target. -/
def countOn (casterId spellId targetId : Int) : Nat :=
  g.casts.countP fun c => c.casterId = casterId ∧ c.spellId = spellId ∧ c.targetId = some targetId

def note (s : Fight) : Action → CastLog
  | .acceptCast playerId spellId cellId _ => ⟨⟨playerId, spellId, (s.fighterOnCell cellId).map Fighter.id⟩ :: g.casts⟩
  | .update .resetTurn => ⟨g.casts.filter fun c => s.currentFighter.map Fighter.id ≠ some c.casterId⟩
  | _ => g

end CastLog

instance : Observes CastLog Fight Action where
  note := CastLog.note

section

variable (maps : Int → Option MapData) (x : CastLog × Fight) (f : Fighter) (spellId cellId : Int) (data : SpellData)

/-- What the validation checks: the sight, where the map has data. -/
structure RespectsChecked : Prop where
  ap : data.apCost ≤ f.actionPoints
  cell : ValidCell cellId
  range : ∃ dist : Nat, distance (asU16 f.cellId) (asU16 cellId) = some dist ∧ data.minRange ≤ dist ∧
    dist ≤ data.range
  sight : data.castTestLos = true → ∀ map, maps x.2.mapId = some map →
    hasLineOfSight map (asU16 f.cellId) (asU16 cellId) = .value true
  per_turn : 0 < data.maxCastPerTurn → x.1.count f.id spellId < data.maxCastPerTurn

/-- What it does not check. -/
structure RespectsUnchecked : Prop where
  map_data : data.castTestLos = true → ∃ map, maps x.2.mapId = some map
  line : data.castInLine = true → OnLine (asU16 f.cellId) (asU16 cellId) ∨
    data.castInDiagonal = true ∧ OnDiagonal (asU16 f.cellId) (asU16 cellId)
  diagonal : data.castInDiagonal = true → OnDiagonal (asU16 f.cellId) (asU16 cellId) ∨
    data.castInLine = true ∧ OnLine (asU16 f.cellId) (asU16 cellId)
  free : data.needFreeCell = true → x.2.fighterOnCell cellId = none
  taken : data.needTakenCell = true → ∃ target, x.2.fighterOnCell cellId = some target
  per_target : 0 < data.maxCastPerTarget → ∀ target, x.2.fighterOnCell cellId = some target →
    x.1.countOn f.id spellId target.id < data.maxCastPerTarget

/-- A cast is as the spell asks for. -/
structure Respects : Prop extends RespectsChecked maps x f spellId cellId data,
  RespectsUnchecked maps x f spellId cellId data

end

/-- An accepted cast is the current fighter's, and as the spell asks for. -/
def RespectsSpell (maps : Int → Option MapData) (x : CastLog × Fight) : Action → Prop
  | .acceptCast playerId spellId cellId data =>
    ∃ f, x.2.currentFighter = some f ∧ f.id = playerId ∧ Respects maps x f spellId cellId data
  | _ => True

/-- Where a spell asks for a clear sight, the map has data; where it asks for a line, a diagonal, a free cell, a taken
cell or a number of casts on a target, the cast is so. -/
def MeetsUnchecked (maps : Int → Option MapData) (x : CastLog × Fight) : Action → Prop
  | .acceptCast _ spellId cellId data =>
    ∀ f, x.2.currentFighter = some f → RespectsUnchecked maps x f spellId cellId data
  | _ => True

/-- No spell is cast so often in a turn that the count of its casts overflows. -/
def CountsFit (s : Fight) : Action → Prop
  | .update (.payCast spellId _) => ∀ f ∈ s.currentFighter, f.castCount spellId < 32767
  | _ => True

instance (s : Fight) (a : Action) : Decidable (CountsFit s a) := by
  delta CountsFit
  induction a using Action.casesOn with
  | update u => induction u using Update.casesOn <;> infer_instance
  | _ => infer_instance

/-! ### The validation -/

/-- What is accepted has been validated. -/
def Validated (maps : Int → Option MapData) (s : Fight) : Action → Prop
  | .acceptCast playerId spellId cellId data => validateCast maps s playerId spellId cellId data = .value (.ok ())
  | _ => True

/-- The range and the sight of a valid cast. -/
theorem validateCast_reach {s : Fight} {spellId cellId : Int} {data : SpellData}
    (h : validateCast maps s playerId spellId cellId data = .value (.ok ())) {f : Fighter}
    (hf : s.currentFighter = some f) :
    (∃ dist : Nat, distance (asU16 f.cellId) (asU16 cellId) = some dist ∧ data.minRange ≤ dist ∧ dist ≤ data.range) ∧
      (data.castTestLos = true → ∀ map, maps s.mapId = some map →
        hasLineOfSight map (asU16 f.cellId) (asU16 cellId) = .value true) := by
  unfold validateCast at h
  simp only [hf] at h
  split at h
  · cases h
  split at h
  · cases h
  cases hdist : distance (asU16 f.cellId) (asU16 cellId) with
  | none =>
    simp only [hdist] at h
    cases h
  | some dist =>
    have hlt := distance_lt hdist
    simp only [hdist] at h
    split at h
    · cases h
    rename_i hrange
    rw [wrap16_of_range (by omega) (by omega)] at hrange
    obtain ⟨hmin, hmax⟩ := not_or.1 hrange
    refine ⟨⟨dist, rfl, not_lt.1 hmin, not_lt.1 hmax⟩, fun hlos map hmap => ?_⟩
    have hsight : sightIsClear maps s data (asU16 f.cellId) (asU16 cellId) =
        hasLineOfSight map (asU16 f.cellId) (asU16 cellId) := by
      simp only [sightIsClear, hlos, hmap, if_true]
    rw [hsight] at h
    cases hclear : hasLineOfSight map (asU16 f.cellId) (asU16 cellId) with
    | panic =>
      simp only [hclear] at h
      cases h
    | exhausted =>
      simp only [hclear] at h
      cases h
    | value clear =>
      cases clear with
      | true => rfl
      | false =>
        simp only [hclear] at h
        cases h

theorem SpellBlock.validated {s : Fight} {b : List Action} (h : SpellBlock s b) : Along (Validated maps) s b :=
  h.isSpell.imp fun _ a ha => by cases a <;> trivial

theorem TurnBlock.validated {s : Fight} {b : List Action} (h : TurnBlock s b) : Along (Validated maps) s b := by
  cases h with
  | effect h => exact (SpellBlock.effect h).validated
  | _ => simp [Validated]

/-- Only casts are accepted. -/
theorem Served.validated {s : Fight} {r : Request} {t : List Action} (h : Served s r t)
    (hcast : ∀ spellId cellId loaded roll, r ≠ .cast spellId cellId loaded roll) : Along (Validated maps) s t := by
  have hturn {s : Fight} {t : List Action} (ht : Composed TurnBlock s t) : Along (Validated maps) s t :=
    ht.along fun _ _ hb => hb.validated
  cases h with
  | refused _ => exact ⟨trivial, trivial⟩
  | place _ _ => exact ⟨trivial, trivial, trivial, trivial⟩
  | ready ht => exact ⟨trivial, trivial, hturn ht⟩
  | turnFinish ht => exact ⟨trivial, hturn ht⟩
  | cast _ _ _ _ _ _ _ => exact absurd rfl (hcast _ _ _ _)
  | move _ _ _ _ _ _ ht =>
    refine along_append.2 ⟨⟨trivial, trivial, trivial, trivial, trivial, trivial, trivial⟩, ?_⟩
    exact ht.along fun _ _ hb => (SpellBlock.effect hb).validated
  | elsewhere => exact ⟨trivial, trivial, trivial⟩

theorem handleSpellCast_validated (spellId cellId : Int16) (loaded : Option SpellData) (roll : UInt16) (s : Fight) :
    Along (Validated maps) s (handleSpellCast maps playerId spellId.toInt cellId.toInt loaded roll s).trace := by
  unfold handleSpellCast
  rw [get_bind_run]
  cases hverdict : validateCast maps s playerId spellId.toInt cellId.toInt (loaded.getD .fallback) with
  | panic => trivial
  | exhausted => trivial
  | value verdict =>
    cases verdict with
    | error reason => trivial
    | ok _ =>
      obtain ⟨-, -, -, -, -, hcell, -⟩ := validateCast_ok hverdict
      have hvalid := (validCell_iff cellId.le_toInt cellId.toInt_lt).2 hcell
      have hcast := castSpell_ensures playerId spellId.toInt hvalid (loaded.getD .fallback) roll
        (s.apply (.payCast spellId.toInt (loaded.getD .fallback).apCost))
      exact ⟨hverdict, trivial, hcast.composed.along fun _ _ hb => hb.validated⟩

theorem history_validated (rs : List Request) {s : Fight} (hs : s.Coherent) :
    Along (Validated maps) s (history maps n playerId rs s).trace := by
  refine history_along (fun r s hs => ?_) rs hs
  have hserved := (serve_spec maps n playerId r hs).served
  cases r with
  | cast spellId cellId loaded roll => exact ⟨trivial, handleSpellCast_validated spellId cellId loaded roll s⟩
  | _ => exact hserved.validated (by rintro _ _ _ _ ⟨⟩)

/-! ### The casts that are counted -/

/-- The fighters know how often they have cast each spell since their turn has started. -/
structure Counted (x : CastLog × Fight) : Prop where
  roster : x.2.Roster
  casters : ∀ c ∈ x.1.casts, ∃ f ∈ x.2.fighters, f.id = c.casterId
  counts : ∀ f ∈ x.2.fighters, ∀ spellId, f.castCount spellId = x.1.count f.id spellId

/-- The write leaves the casts of everybody alone. -/
def Update.keepsCasts : Update → Bool
  | .payCast .. | .resetTurn => false
  | _ => true

theorem Changed.castCount {s : Fight} {u : Update} {f f' : Fighter} (h : Changed s u f f')
    (hu : u.keepsCasts = true) :
    f'.id = f.id ∧ ∀ spellId, f'.castCount spellId = f.castCount spellId := by
  cases h with
  | payCast _ => cases hu
  | resetTurn _ => cases hu
  | _ => exact ⟨rfl, fun _ => rfl⟩

namespace CastLog

variable (g : CastLog) {c : Cast}

theorem count_cons (casterId spellId : Int) :
    count ⟨c :: g.casts⟩ casterId spellId =
      g.count casterId spellId + if c.casterId = casterId ∧ c.spellId = spellId then 1 else 0 := by
  simp only [count, List.countP_cons, decide_eq_true_eq]

/-- Nobody is counted without a cast. -/
theorem count_eq_zero {casterId : Int} (h : ∀ c ∈ g.casts, c.casterId ≠ casterId) (spellId : Int) :
    g.count casterId spellId = 0 := by
  refine List.countP_eq_zero.2 fun c hc hboth => ?_
  exact h c hc (of_decide_eq_true hboth).1

/-- The casts of the others remain when those of a fighter are forgotten. -/
theorem count_filter {id casterId : Int} (hne : casterId ≠ id) (spellId : Int) :
    count ⟨g.casts.filter fun c => some id ≠ some c.casterId⟩ casterId spellId = g.count casterId spellId := by
  simp only [count, List.countP_filter]
  refine List.countP_congr fun c _ => ?_
  simp only [Bool.and_eq_true, decide_eq_true_eq]
  constructor
  · exact fun h => h.1
  · rintro ⟨rfl, hspell⟩
    exact ⟨⟨rfl, hspell⟩, fun h => hne (Option.some.inj h).symm⟩

end CastLog

namespace Counted

variable {x : CastLog × Fight}

theorem apply (hx : Counted x) {u : Update} (hu : Write x.2 u) (hkeeps : u.keepsCasts = true) :
    Counted (x.1, x.2.apply u) := by
  refine ⟨hx.roster.apply hu, fun c hc => ?_, fun f' hf' => ?_⟩
  · obtain ⟨f, hf, hid⟩ := hx.casters c hc
    obtain ⟨f', hf', hsame⟩ := x.2.id_mem_apply hf
    exact ⟨f', hf', hsame.trans hid⟩
  · rcases Fight.mem_apply hf' with hmem | ⟨f, hmem, hchanged⟩ | ⟨casterId, rfl⟩
    · exact hx.counts f' hmem
    · obtain ⟨hid, hcount⟩ := hchanged.castCount hkeeps
      rw [hid]
      exact fun spellId => (hcount spellId).trans (hx.counts f hmem spellId)
    · -- who is summoned has cast nothing
      cases hu with
      | quiet hquiet => cases hquiet
      | summon _ _ _ =>
        intro spellId
        refine (congrArg Nat.cast (x.1.count_eq_zero (fun c hc hid => ?_) spellId)).symm
        obtain ⟨f, hf, hcaster⟩ := hx.casters c hc
        have hlt := hx.roster.fresh f hf
        have hsummoned : c.casterId = x.2.nextSummonId := hid
        omega

theorem payCast (hx : Counted x) {f : Fighter} (hf : x.2.currentFighter = some f) {spellId apCost : Int}
    (hfits : f.castCount spellId < 32767) (targetId : Option Int) :
    Counted (⟨⟨f.id, spellId, targetId⟩ :: x.1.casts⟩, x.2.apply (.payCast spellId apCost)) := by
  have hmem : f ∈ x.2.fighters := List.mem_of_getElem? hf
  have hmap := modifyCurrent_eq_map hx.roster.ids hf (·.payCast spellId apCost)
  have hwrite : Write x.2 (.payCast spellId apCost) := .payCast spellId apCost
  refine ⟨hx.roster.apply hwrite, fun c hc => ?_, fun f' hf' id => ?_⟩
  · have hcaster : ∃ f ∈ x.2.fighters, f.id = c.casterId := by
      rcases List.mem_cons.1 hc with rfl | hc
      · exact ⟨f, hmem, rfl⟩
      · exact hx.casters c hc
    obtain ⟨f, hf, hid⟩ := hcaster
    obtain ⟨f', hf', hsame⟩ := x.2.id_mem_apply hf
    exact ⟨f', hf', hsame.trans hid⟩
  · simp only [Fight.apply] at hf'
    rw [hmap] at hf'
    obtain ⟨other, hother, rfl⟩ := List.mem_map.1 hf'
    by_cases hid : other.id = f.id
    · obtain rfl : other = f := List.inj_on_of_nodup_map hx.roster.ids hother hmem hid
      have hcount := hx.counts other hother
      have hnonneg : 0 ≤ other.castCount spellId := by
        rw [hcount]
        exact Int.natCast_nonneg _
      rw [if_pos rfl, Fighter.castCount_payCast hnonneg hfits, hcount]
      refine Eq.trans ?_ (congrArg Nat.cast (x.1.count_cons other.id id).symm)
      by_cases hspell : id = spellId
      · simp [hspell]
      · simp [hspell, Ne.symm hspell]
    · rw [if_neg hid, hx.counts other hother, CastLog.count_cons, if_neg fun h => hid h.1.symm, Nat.add_zero]

theorem resetTurn (hx : Counted x) : Counted (Trace.act x (Action.update .resetTurn)) := by
  obtain ⟨f, hf⟩ : ∃ f, x.2.currentFighter = some f := ⟨_, List.getElem?_eq_getElem hx.roster.index⟩
  have hmap := modifyCurrent_eq_map hx.roster.ids hf (·.resetTurn)
  refine ⟨hx.roster.apply .resetTurn, fun c hc => ?_, fun f' hf' spellId => ?_⟩
  · obtain ⟨other, hother, hid⟩ := hx.casters c (List.mem_of_mem_filter hc)
    obtain ⟨f', hf', hsame⟩ := x.2.id_mem_apply (u := .resetTurn) hother
    exact ⟨f', hf', hsame.trans hid⟩
  · have hnote : x.1.note x.2 (.update .resetTurn) = ⟨x.1.casts.filter fun c => some f.id ≠ some c.casterId⟩ := by
      simp only [CastLog.note, hf, Option.map_some]
    change f' ∈ (x.2.modifyCurrent (·.resetTurn)).fighters at hf'
    change f'.castCount spellId = ((x.1.note x.2 (.update .resetTurn)).count f'.id spellId : Int)
    rw [hnote]
    rw [hmap] at hf'
    obtain ⟨other, hother, rfl⟩ := List.mem_map.1 hf'
    by_cases hid : other.id = f.id
    · rw [if_pos hid]
      refine (congrArg Nat.cast (CastLog.count_eq_zero _ (fun c hc => ?_) spellId)).symm
      have hnot := of_decide_eq_true (List.mem_filter.1 hc).2
      exact fun h => hnot (congrArg some (hid.symm.trans h.symm))
    · rw [if_neg hid, hx.counts other hother, CastLog.count_filter _ hid]

/-- Outside of a cast. -/
theorem act (hx : Counted x) {a : Action} (ha : MayWrite x.2 a)
    (hcast : ∀ playerId spellId cellId data, a ≠ .acceptCast playerId spellId cellId data)
    (hpay : ∀ spellId apCost, a ≠ .update (.payCast spellId apCost)) : Counted (Trace.act x a) := by
  cases a with
  | update u =>
    by_cases hkeeps : u.keepsCasts = true
    · have hnote : x.1.note x.2 (.update u) = x.1 := by cases u <;> first | rfl | cases hkeeps
      have hstep := hx.apply ha hkeeps
      rwa [← hnote] at hstep
    · cases u with
      | resetTurn => exact hx.resetTurn
      | payCast spellId apCost => exact absurd rfl (hpay _ _)
      | _ => exact absurd rfl hkeeps
  | acceptCast playerId spellId cellId data => exact absurd rfl (hcast _ _ _ _)
  | _ => exact hx

end Counted

/-- What is written outside of a cast. -/
def OutsideCast (s : Fight) : Action → Prop
  | .acceptCast .. => False
  | .update (.payCast ..) => False
  | a => MayWrite s a

theorem OutsideCast.of_isSpell {s : Fight} {a : Action} (h : MayWrite s a ∧ a.isSpell = true) : OutsideCast s a := by
  cases a with
  | acceptCast => cases h.2
  | update u =>
    cases u with
    | payCast => cases h.2
    | _ => exact h.1
  | _ => trivial

theorem SpellBlock.outsideCast {s : Fight} {b : List Action} (h : SpellBlock s b) : Along OutsideCast s b :=
  (h.mayWrite.and h.isSpell).imp fun _ _ => OutsideCast.of_isSpell

theorem TurnBlock.outsideCast {s : Fight} {b : List Action} (h : TurnBlock s b) : Along OutsideCast s b := by
  cases h with
  | effect h => exact (SpellBlock.effect h).outsideCast
  | tick hu => cases Update.eq_of_isTick hu with
    | inl hu => exact ⟨hu ▸ .quiet rfl, trivial⟩
    | inr hu => exact ⟨hu ▸ .quiet rfl, trivial⟩
  | finish hend => exact ⟨.finish hend, trivial⟩
  | poison _ => exact ⟨trivial, trivial⟩
  | beginTurn _ _ _ => exact ⟨.resetTurn, trivial, trivial⟩
  | autoAttack _ _ _ _ => exact ⟨trivial, trivial⟩
  | spendMovement _ _ _ _ => exact ⟨.spendMovement _, trivial⟩
  | advance _ hgoing => exact ⟨.advance hgoing, trivial⟩

/-- A cast is the current fighter's, for whom it is not one too many. -/
def OfCurrent (x : CastLog × Fight) : Action → Prop
  | .acceptCast playerId spellId cellId data =>
    ∃ f, x.2.currentFighter = some f ∧ f.id = playerId ∧ data.apCost ≤ f.actionPoints ∧ ValidCell cellId ∧
      (0 < data.maxCastPerTurn → x.1.count f.id spellId < data.maxCastPerTurn)
  | _ => True

namespace Counted

variable {x : CastLog × Fight}

theorem outside (hx : Counted x) {t : List Action} (ht : Along OutsideCast x.2 t) :
    Along OfCurrent x t ∧ Counted (after x t) := by
  have hobserved := (along_observed (γ := CastLog)).2 ht
  refine ⟨hobserved.imp fun x a ha => ?_, (hobserved.invariant (I := Counted) (fun x a hx ha => ?_) hx).2⟩
  · cases a with
    | acceptCast => exact ha.elim
    | _ => trivial
  · cases a with
    | acceptCast => exact ha.elim
    | update u =>
      cases u with
      | payCast => exact ha.elim
      | _ => exact hx.act ha (by rintro _ _ _ _ ⟨⟩) (by rintro _ _ ⟨⟩)
    | _ => exact hx

/-- In a block a fighter casts what it may, and its casts are counted. -/
theorem block (hx : Counted x) {b : List Action} (hb : Block x.2 b) (hfits : Along CountsFit x.2 b) :
    Along OfCurrent x b ∧ Counted (after x b) := by
  cases hb with
  | spell h => exact hx.outside h.outsideCast
  | turn h => exact hx.outside h.outsideCast
  | receive r => exact hx.outside ⟨trivial, trivial⟩
  | start => exact hx.outside ⟨.start, trivial⟩
  | @cast spellId cellId loaded roll f data hdata hf hplayer hap hcell hcasts =>
    have hcount := hx.counts f (List.mem_of_getElem? hf) spellId.toInt
    rw [hcount] at hcasts
    have hpaid := @payCast x hx f hf spellId.toInt data.apCost (hfits.2.2.1 f hf)
      ((x.2.fighterOnCell cellId.toInt).map Fighter.id)
    exact ⟨⟨trivial, ⟨f, hf, rfl, hap, hcell, hcasts⟩, trivial, trivial⟩, hpaid⟩
  | move hf hplayer _ hcell _ _ =>
    exact hx.outside
      ⟨trivial, .move hf hplayer (by omega) (by omega), trivial, trivial, trivial, trivial, trivial⟩
  | place _ hcell => exact hx.outside ⟨.place hcell, trivial, trivial⟩

end Counted

section

variable (c : Character) (mapId : Int) (nextMarkId drawn : Nat)

theorem startPveFight_counted : Counted (CastLog.empty, startPveFight maps c mapId nextMarkId drawn) where
  roster := startPveFight_roster c mapId nextMarkId drawn
  casters := nofun
  counts := by
    intro f hf spellId
    simp only [startPveFight, List.mem_cons, List.not_mem_nil, or_false] at hf
    rcases hf with rfl | rfl <;> rfl

end

/-- A valid cast is as the spell asks for if it is so where the validation does not look. -/
theorem respectsSpell_iff {x : CastLog × Fight} {a : Action} (hcurrent : OfCurrent x a)
    (hvalid : Validated maps x.2 a) :
    RespectsSpell maps x a ↔ MeetsUnchecked maps x a := by
  cases a with
  | acceptCast playerId spellId cellId data =>
    obtain ⟨f, hf, hid, hap, hcell, hcasts⟩ := hcurrent
    obtain ⟨hrange, hsight⟩ := validateCast_reach hvalid hf
    have hchecked : RespectsChecked maps x f spellId cellId data := ⟨hap, hcell, hrange, hsight, hcasts⟩
    constructor
    · rintro ⟨f', hf', -, hrespects⟩ current hcurrent
      rw [Option.some.inj (hcurrent.symm.trans hf')]
      exact hrespects.toRespectsUnchecked
    · exact fun hmeets => ⟨f, hf, hid, hchecked, hmeets f hf⟩
  | _ => exact ⟨fun _ => trivial, fun _ => trivial⟩

/-- In every run, a cast is as its spell asks for if and only if it is so where the validation does not look. -/
theorem casts_respect_spell_iff (maps : Int → Option MapData) (n : Nat) (c : Character) (mapId : Int)
    (nextMarkId drawn : Nat) (rs : List Request) :
    let s := startPveFight maps c mapId nextMarkId drawn
    let t := (history maps n c.id rs s).trace
    Along CountsFit s t →
      Along (fun x a => RespectsSpell maps x a ↔ MeetsUnchecked maps x a) (CastLog.empty, s) t := by
  intro s t hfits
  have hcoherent := @startPveFight_coherent maps c mapId nextMarkId drawn
  have hblocks : Composed Block s t := history_composed rs hcoherent
  have hobserved := hblocks.observed (γ := CastLog) (x := (CastLog.empty, s))
  have hcurrent : Along OfCurrent (CastLog.empty, s) t :=
    (hobserved.along_invariant (P := fun x a => CountsFit x.2 a) (I := Counted)
      (fun x b hx hb hfit => hx.block hb (along_observed.1 hfit)) (along_observed.2 hfits)
      (startPveFight_counted c mapId nextMarkId drawn)).1
  have hvalid : Along (fun x a => Validated maps x.2 a) (CastLog.empty, s) t :=
    along_observed.2 (history_validated rs hcoherent)
  exact (hcurrent.and hvalid).imp fun x a h => respectsSpell_iff h.1 h.2

/-- A novice casts twice in its first turn. -/
theorem casts_respect_spell_iff_novice :
    let s := startPveFight (fun _ => none) .novice 0 0 0
    let t := (history (fun _ => none) 3 1 [.ready true, .cast 0 281 none 0, .cast 0 281 none 0] s).trace
    Along (fun x a => RespectsSpell (fun _ => none) x a ↔ MeetsUnchecked (fun _ => none) x a) (CastLog.empty, s) t :=
  casts_respect_spell_iff (fun _ => none) 3 .novice 0 0 0 [.ready true, .cast 0 281 none 0, .cast 0 281 none 0]
    (by decide +kernel)

/-- A cast of a spell that needs a taken cell finds somebody there. -/
def TakenIfAsked (s : Fight) : Action → Prop
  | .acceptCast _ _ cellId data => data.needTakenCell = true → (s.fighterOnCell cellId).isSome = true
  | _ => True

instance (s : Fight) (a : Action) : Decidable (TakenIfAsked s a) := by
  delta TakenIfAsked
  induction a using Action.casesOn <;> infer_instance

/-- A spell that needs a target. -/
def targetSpell : SpellData := { SpellData.fallback with needTakenCell := true }

/-- A spell that needs a target is cast on an empty cell. -/
theorem cast_without_target : ¬∀ (maps : Int → Option MapData) (n : Nat) (c : Character) (mapId : Int)
    (nextMarkId drawn : Nat) (rs : List Request),
    let s := startPveFight maps c mapId nextMarkId drawn
    Along (RespectsSpell maps) (CastLog.empty, s) (history maps n c.id rs s).trace := by
  intro h
  have halong := h (fun _ => none) 1 .novice 0 0 0 [.ready true, .cast 0 281 (some targetSpell) 0]
  have hempty : ¬Along (fun s a => TakenIfAsked s a) (startPveFight (fun _ => none) .novice 0 0 0)
      (history (fun _ => none) 1 1 [.ready true, .cast 0 281 (some targetSpell) 0]
        (startPveFight (fun _ => none) .novice 0 0 0)).trace := by
    decide +kernel
  refine hempty (along_observed.1 (halong.imp fun x a ha => ?_))
  cases a with
  | acceptCast playerId spellId cellId data =>
    obtain ⟨f, -, -, hrespects⟩ := ha
    exact fun hneed => Option.isSome_iff_exists.2 (hrespects.taken hneed)
  | _ => trivial

end Otomai.Combat
