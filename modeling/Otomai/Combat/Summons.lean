import Otomai.Trace.Observer
import Otomai.Combat.Rest

/-!
# Summons and their summoner

A summon fights for its summoner's team and does not know whose it is.  An observer writes down who has summoned whom.
Nothing that a fight does kills the summons of a fighter that dies.

* `history_summons`: whatever is received, only the player of the session summons.
* `fight_binds_summons`: no summon outlives the player, if no hit kills the player while somebody else of its team is
  alive, and no dead fighter summons.
-/

namespace Otomai.Combat

open Machine Otomai.Common Trace Program

variable {maps : Int → Option MapData} {n : Nat} {playerId : Int}

/-- Who has summoned whom. -/
structure SummonLog where
  pairs : List (Int × Int)

def SummonLog.note (g : SummonLog) : Action → SummonLog
  | .update (.summon casterId f) => ⟨(casterId, f.id) :: g.pairs⟩
  | _ => g

instance : Observes SummonLog Fight Action where
  note g _ a := g.note a

/-- A hit that kills the player leaves nobody of its team alive; who summons is alive. -/
def KeepsSummons (s : Fight) : Action → Prop
  | .update (.hit targetId damage) => s.Spares 0 targetId damage
  | .update (.summon casterId _) => (s.getFighter casterId).any (·.isAlive) = true
  | _ => True

instance (s : Fight) (a : Action) : Decidable (KeepsSummons s a) := by
  delta KeepsSummons
  induction a using Action.casesOn with
  | update u => induction u using Update.casesOn <;> infer_instance
  | _ => infer_instance

/-- Whose summoner is dead is dead; and so are the challengers, if every player is. -/
structure SummonsBound (x : SummonLog × Fight) : Prop where
  summons : ∀ p ∈ x.1.pairs, ∀ c ∈ x.2.getFighter p.1, c.isAlive = false → ∀ f ∈ x.2.getFighter p.2, f.isAlive = false
  challengers : (∀ f ∈ x.2.fighters, f.isPlayer = true → f.isAlive = false) → x.2.isTeamDead .challengers = true

/-- Whoever dies is hit to death itself. -/
def DiesByHit (s : Fight) (a : Action) : Prop :=
  ∀ f ∈ s.fighters, f.isAlive = true → ∀ f' ∈ (act s a).fighters, f'.id = f.id → f'.isAlive = false →
    ∃ damage, a = .update (.hit f.id damage) ∧ f' = f.hit damage

/-! ### Who summons -/

theorem TurnBlock.summonsFor {s : Fight} {b : List Action} (h : TurnBlock s b) (casterId : Int) :
    Along (fun _ a => a.summonsFor casterId) s b := by
  cases h with
  | effect h => exact h.summonsFor casterId
  | tick hu => rcases Update.eq_of_isTick hu with rfl | rfl <;> exact ⟨trivial, trivial⟩
  | _ => simp [Action.summonsFor]

theorem handleSpellCast_summons (spellId cellId : Int16) (loaded : Option SpellData) (roll : UInt16) (s : Fight) :
    Along (fun _ a => a.summonsFor playerId) s
      (handleSpellCast maps playerId spellId.toInt cellId.toInt loaded roll s).trace := by
  unfold handleSpellCast
  rw [get_bind_run]
  cases hverdict : validateCast maps s playerId spellId.toInt cellId.toInt (loaded.getD .fallback) with
  | panic => trivial
  | exhausted => trivial
  | value verdict =>
    cases verdict with
    | error reason => trivial
    | ok _ =>
      obtain ⟨-, -, -, -, -, hcell, -⟩ := validateCast_ok hverdict
      have hvalid := (validCell_iff cellId.le_toInt cellId.toInt_lt).2 hcell
      have hcast := castSpell_caster playerId spellId.toInt hvalid (loaded.getD .fallback) roll
        (s.apply (.payCast spellId.toInt (loaded.getD .fallback).apCost))
      exact ⟨trivial, trivial, hcast.composed.along fun _ _ hb => hb.2⟩

/-- Nobody is summoned but in a cast. -/
theorem Served.summonsFor {s : Fight} {r : Request} {t : List Action} (h : Served s r t)
    (hcast : ∀ spellId cellId loaded roll, r ≠ .cast spellId cellId loaded roll) (casterId : Int) :
    Along (fun _ a => a.summonsFor casterId) s t := by
  have hturn {s : Fight} {t : List Action} (ht : Composed TurnBlock s t) :
      Along (fun _ a => a.summonsFor casterId) s t := ht.along fun _ _ hb => hb.summonsFor casterId
  cases h with
  | refused _ => exact ⟨trivial, trivial⟩
  | place _ _ => exact ⟨trivial, trivial, trivial, trivial⟩
  | ready ht => exact ⟨trivial, trivial, hturn ht⟩
  | turnFinish ht => exact ⟨trivial, hturn ht⟩
  | cast _ _ _ _ _ _ _ => exact absurd rfl (hcast _ _ _ _)
  | move _ _ _ _ _ _ ht =>
    refine along_append.2 ⟨⟨trivial, trivial, trivial, trivial, trivial, trivial, trivial⟩, ?_⟩
    exact ht.along fun _ _ hb => hb.summonsFor casterId
  | elsewhere => exact ⟨trivial, trivial, trivial⟩

theorem serve_summons (r : Request) {s : Fight} (hs : s.Coherent) :
    Along (fun _ a => a.summonsFor playerId) s (serve maps n playerId r s).trace := by
  have hserved := (serve_spec maps n playerId r hs).served
  cases r with
  | cast spellId cellId loaded roll => exact ⟨trivial, handleSpellCast_summons spellId cellId loaded roll s⟩
  | _ => exact hserved.summonsFor (by rintro _ _ _ _ ⟨⟩) playerId

/-- Only the player of the session summons. -/
theorem history_summons (rs : List Request) {s : Fight} (hs : s.Coherent) :
    Along (fun _ a => a.summonsFor playerId) s (history maps n playerId rs s).trace :=
  history_along (fun r _ hs => serve_summons r hs) rs hs

/-! ### What keeps the summons -/

/-- A fight in which only challengers have been summoned, by the player. -/
structure SummonLog.Kept (playerId : Int) (x : SummonLog × Fight) : Prop where
  roster : x.2.Roster
  led : x.2.LedBy 0
  player : ∃ p, x.2.fighters[0]? = some p ∧ p.identity = (playerId, .challengers, true)
  pairs : ∀ p ∈ x.1.pairs, p.1 = playerId ∧ ∀ f ∈ x.2.fighters, f.id = p.2 → f.team = .challengers

namespace SummonLog.Kept

variable {x : SummonLog × Fight}

theorem bound (hx : Kept playerId x) : SummonsBound x := by
  obtain ⟨p, hp, hidentity⟩ := hx.player
  simp only [Fighter.identity, Prod.mk.injEq] at hidentity
  obtain ⟨hid, hteam, hplayer⟩ := hidentity
  have hmem : p ∈ x.2.fighters := List.mem_of_getElem? hp
  have hdead : p.isAlive = false → x.2.isTeamDead .challengers = true := by
    intro hdead
    obtain ⟨p', hp', hlead⟩ := hx.led
    rw [hp, Option.some.injEq] at hp'
    subst hp'
    rw [hdead, hteam] at hlead
    exact hlead.resolve_left (by rintro ⟨⟩)
  refine ⟨fun q hq c hc hcdead f hf => ?_, fun hplayers => hdead (hplayers p hmem hplayer)⟩
  obtain ⟨hcaster, hsummon⟩ := hx.pairs q hq
  obtain ⟨hcmem, hcid⟩ := Fight.getFighter_eq_some hc
  obtain ⟨hfmem, hfid⟩ := Fight.getFighter_eq_some hf
  have hsame : c = p := hx.roster.eq_of_id hcmem hmem (hcid.trans (hcaster.trans hid.symm))
  exact x.2.isTeamDead_iff.1 (hdead (hsame ▸ hcdead)) f hfmem (hsummon f hfmem hfid)

/-- A write that adds nobody leaves the summons with their summoner. -/
theorem of_roster (hx : Kept playerId x) {u : Update} (hroster : u.keepsRoster = true) (hu : Write x.2 u)
    (hled : (x.2.apply u).LedBy 0) : Kept playerId (x.1, x.2.apply u) := by
  have hmap := x.2.map_identity_apply hroster
  refine ⟨hx.roster.apply hu, hled, ?_, fun q hq => ⟨(hx.pairs q hq).1, fun f' hf' hid => ?_⟩⟩
  · obtain ⟨p, hp, hidentity⟩ := hx.player
    have hfirst : (x.2.apply u).fighters[0]?.map Fighter.identity = some p.identity := by
      rw [← List.getElem?_map, hmap, List.getElem?_map, hp, Option.map_some]
    obtain ⟨p', hp', hsame⟩ := Option.map_eq_some_iff.1 hfirst
    exact ⟨p', hp', hsame.trans hidentity⟩
  · have hmem := List.mem_map_of_mem (f := Fighter.identity) hf'
    rw [hmap] at hmem
    obtain ⟨f, hf, hsame⟩ := List.mem_map.1 hmem
    simp only [Fighter.identity, Prod.mk.injEq] at hsame
    exact hsame.2.1.symm.trans ((hx.pairs q hq).2 f hf (hsame.1.trans hid))

/-- Who is summoned by the player is a challenger. -/
theorem summon (hx : Kept playerId x) {cellId monsterId level : Int}
    (hu : Write x.2 (.summon playerId (x.2.summoned playerId cellId monsterId level)))
    (hled : (x.2.apply (.summon playerId (x.2.summoned playerId cellId monsterId level))).LedBy 0) :
    Kept playerId (act x (Action.update (.summon playerId (x.2.summoned playerId cellId monsterId level)))) := by
  obtain ⟨p, hp, hidentity⟩ := hx.player
  have hteam : (x.2.summoned playerId cellId monsterId level).team = .challengers := by
    simp only [Fighter.identity, Prod.mk.injEq] at hidentity
    have hplayer := hx.roster.getFighter (List.mem_of_getElem? hp)
    rw [hidentity.1] at hplayer
    simp only [Fight.summoned, hplayer, Option.map_some, Option.getD_some, hidentity.2.1]
  have hlt := (List.getElem?_eq_some_iff.1 hp).1
  refine ⟨hx.roster.apply hu, hled, ⟨p, ?_, hidentity⟩, fun q hq => ?_⟩
  · exact (List.getElem?_append_left hlt).trans hp
  -- a new pair is the one of the summoned fighter, and every other fighter of an old pair was there before
  rcases List.mem_cons.1 hq with rfl | hq
  · refine ⟨rfl, fun f hf hid => ?_⟩
    rcases List.mem_append.1 hf with hf | hf
    · have hfresh := hx.roster.fresh f hf
      exact absurd hid (ne_of_gt hfresh)
    · rw [List.mem_singleton.1 hf]
      exact hteam
  · refine ⟨(hx.pairs q hq).1, fun f hf hid => ?_⟩
    rcases List.mem_append.1 hf with hf | hf
    · exact (hx.pairs q hq).2 f hf hid
    · rw [List.mem_singleton.1 hf]
      exact hteam

theorem act (hx : Kept playerId x) {a : Action} (ha : MayWrite x.2 a) (hsummons : a.summonsFor playerId)
    (hkeeps : KeepsSummons x.2 a) : Kept playerId (Trace.act x a) := by
  cases a with
  | update u =>
    have hled : (x.2.apply u).LedBy 0 := by
      refine hx.led.apply hx.roster ha (fun _ _ h => ?_) fun _ _ h => ?_
      · subst h
        exact hkeeps
      · subst h
        exact hkeeps
    cases u with
    | summon casterId f =>
      obtain rfl : casterId = playerId := hsummons
      cases ha with
      | quiet hquiet => cases hquiet
      | summon hcell hfree hlevel => exact hx.summon (.summon hcell hfree hlevel) hled
    | _ => exact hx.of_roster rfl ha hled
  | _ => exact hx

end SummonLog.Kept

/-! ### Who dies -/

/-- The only death is that of a fighter that is hit. -/
theorem diesByHit {s : Fight} (hs : s.Roster) {a : Action} (ha : MayWrite s a) : DiesByHit s a := by
  intro f hf halive f' hf' hid hdead
  -- with distinct ids the fighter that was alive is the only one of its id
  have hlives {s' : Fight} (hf' : f' ∈ s'.fighters)
    (hmap : s'.fighters.map Fighter.life = s.fighters.map Fighter.life) :
      False := by
    have hmem := List.mem_map_of_mem (f := Fighter.life) hf'
    rw [hmap] at hmem
    obtain ⟨g, hg, hsame⟩ := List.mem_map.1 hmem
    simp only [Fighter.life, Fighter.identity, Prod.mk.injEq] at hsame
    obtain rfl := hs.eq_of_id hg hf (hsame.1.1.trans hid)
    rw [hsame.2, hdead] at halive
    cases halive
  cases a with
  | update u =>
    by_cases hkeeps : u.keepsLives = true
    · exact absurd (s.map_life_apply hkeeps) (hlives hf')
    · cases ha with
      | quiet hquiet => exact absurd (Update.keepsLives_of_isQuiet hquiet) hkeeps
      | @hit targetId damage target htarget hdamage =>
        have hmap : (s.apply (.hit targetId damage)).fighters =
            s.fighters.map fun f => if f.id = targetId then f.hit damage else f :=
          modifyFighter_eq_map hs.ids targetId _
        rw [act_update, hmap] at hf'
        obtain ⟨g, hg, rfl⟩ := List.mem_map.1 hf'
        have hgid : g.id = f.id := by
          rw [← hid]
          split <;> rfl
        obtain rfl := hs.eq_of_id hg hf hgid
        by_cases htarget : g.id = targetId
        · exact ⟨damage, by rw [htarget], if_pos htarget⟩
        · rw [if_neg htarget, halive] at hdead
          cases hdead
      | summon _ _ _ =>
        rcases List.mem_append.1 hf' with hf' | hf'
        · exact absurd rfl (hlives hf')
        · rw [List.mem_singleton.1 hf'] at hdead
          cases hdead
      | _ => exact absurd rfl hkeeps
  | _ => exact absurd rfl (hlives hf')

/-! ### The summons of a fight -/

/-- Whatever the client sends, no summon outlives its summoner, and nobody dies of the death of another, if no hit
kills the player while somebody else of its team is alive, and no dead fighter summons. -/
theorem fight_binds_summons (maps : Int → Option MapData) (n : Nat) (c : Character) (mapId : Int)
    (nextMarkId drawn : Nat) (rs : List Request) :
    let s := startPveFight maps c mapId nextMarkId drawn
    let t := (history maps n c.id rs s).trace
    Along KeepsSummons s t → SummonsBound (after (SummonLog.mk [], s) t) ∧ Along DiesByHit s t := by
  intro s t h
  have hcoherent := @startPveFight_coherent maps c mapId nextMarkId drawn
  have hroster := @startPveFight_roster maps c mapId nextMarkId drawn
  have hwrites : Along MayWrite s t := (history_composed rs hcoherent).along fun _ _ => Block.mayWrite
  have hsummons : Along (fun _ a => a.summonsFor c.id) s t := history_summons rs hcoherent
  constructor
  · have hstart : SummonLog.Kept c.id (SummonLog.mk [], s) :=
      ⟨hroster, ⟨_, rfl, .inl rfl⟩, ⟨_, rfl, rfl⟩, fun _ h => absurd h List.not_mem_nil⟩
    have hrun := Along.invariant (I := SummonLog.Kept c.id)
      (fun _ _ hx ha => hx.act ha.1.1 ha.1.2 ha.2) (along_observed.2 ((hwrites.and hsummons).and h)) hstart
    exact hrun.2.bound
  · have hrosters := (@history_roster maps n c.id rs _ hcoherent hroster).1
    exact (hrosters.and hwrites).imp fun _ _ ha => diesByHit ha.1 ha.2

/-- The novice summons, and the monster attacks it. -/
theorem fight_binds_summons_novice :
    let summon : SpellData := { SpellData.fallback with effects := [⟨181, 1, 0, 0, .neutral⟩] }
    let s := startPveFight (fun _ => none) .novice 0 0 0
    let t := (history (fun _ => none) 4 1 [.ready true, .cast 1 281 (some summon) 0, .turnFinish] s).trace
    SummonsBound (after (SummonLog.mk [], s) t) ∧ Along DiesByHit s t :=
  fight_binds_summons (fun _ => none) 4 .novice 0 0 0
    [.ready true, .cast 1 281 (some { SpellData.fallback with effects := [⟨181, 1, 0, 0, .neutral⟩] }) 0, .turnFinish]
    (by decide +kernel)

/-- The novice summons and kills itself: its summon lives, and the fight goes on. -/
theorem fight_leaves_summons :
    ¬∀ (maps : Int → Option MapData) (n : Nat) (c : Character) (mapId : Int) (nextMarkId drawn : Nat)
      (rs : List Request),
      let s := startPveFight maps c mapId nextMarkId drawn
      SummonsBound (after (SummonLog.mk [], s) (history maps n c.id rs s).trace) := by
  intro h
  let summon : SpellData := { SpellData.fallback with apCost := 0, effects := [⟨181, 1, 0, 0, .neutral⟩] }
  let suicide : SpellData := { SpellData.fallback with apCost := 0, effects := [⟨90, 1000, 0, 0, .neutral⟩] }
  have hbound := h (fun _ => none) 1 .novice 0 0 0
    [.ready true, .cast 1 281 (some summon) 0, .cast 2 281 (some suicide) 0]
  let s := startPveFight (fun _ => none) .novice 0 0 0
  let reached := after s (history (fun _ => none) 1 1
    [.ready true, .cast 1 281 (some summon) 0, .cast 2 281 (some suicide) 0] s).trace
  have hplayers : ∀ f ∈ reached.fighters, f.isPlayer = true → f.isAlive = false := by decide +kernel
  have halive : reached.isTeamDead .challengers = false := by decide +kernel
  have hdead := hbound.challengers
  rw [after_observed] at hdead
  have hteam : reached.isTeamDead .challengers = true := hdead hplayers
  exact Bool.false_ne_true (halive.symm.trans hteam)

end Otomai.Combat
