import Mathlib.Data.List.Nodup
import Otomai.Combat.Turns

/-!
# Histories of fights

* `history_served`, `history_composed`: whatever is received, the trace of a fight is made of requests that are
  `Served`, and so of the blocks of `Block`.
* `history_roster`: the player comes first, nobody else is a player, the ids are distinct, and it is the turn of
somebody.
-/

namespace Otomai.Combat

open Machine Otomai.Common Trace Program

variable {maps : Int → Option MapData} {n : Nat} {playerId : Int}

/-! ### One request after the other -/

/-- What follows a request: nothing, if the fight is over and the check sees it. -/
def historyRest (maps : Int → Option MapData) (n : Nat) (playerId : Int) (r : Request) (rs : List Request) :
    FightProgram Bool := do
  let s ← get
  if r.checksEnd && s.isOver then pure false else history maps n playerId rs

theorem history_cons (r : Request) (rs : List Request) :
    history maps n playerId (r :: rs) =
      (serve maps n playerId r >>= fun _ => historyRest maps n playerId r rs) := rfl

theorem historyRest_of_over {r : Request} {rs : List Request} {s : Fight} (h : (r.checksEnd && s.isOver) = true) :
    historyRest maps n playerId r rs s = ⟨[], .value false⟩ := by
  unfold historyRest
  rw [get_bind_run, if_pos h]
  rfl

theorem historyRest_of_going {r : Request} {rs : List Request} {s : Fight} (h : (r.checksEnd && s.isOver) ≠ true) :
    historyRest maps n playerId r rs s = history maps n playerId rs s := by
  unfold historyRest
  rw [get_bind_run, if_neg h]

/-- A fight that is kept after a check has not ended. -/
theorem coherent_of_going {r : Request} {s : Fight} (hcoherent : r.checksEnd = false → s.Coherent)
    (h : (r.checksEnd && s.isOver) ≠ true) : s.Coherent := by
  cases hchecks : r.checksEnd with
  | false => exact hcoherent hchecks
  | true =>
    intro hended
    simp [hchecks, Fight.isOver, hended] at h

/-- Whatever is received, the session serves one request after the other. -/
theorem history_served (rs : List Request) {s : Fight} (hs : s.Coherent) :
    Composed (fun s t => ∃ r, Served s r t) s (history maps n playerId rs s).trace := by
  induction rs generalizing s with
  | nil => exact .nil s
  | cons r rs ih =>
    have hspec := serve_spec maps n playerId r hs
    rw [history_cons, bind_run]
    cases hend : (serve maps n playerId r s).ending with
    | panic => exact .single ⟨r, hspec.served⟩
    | exhausted => exact .single ⟨r, hspec.served⟩
    | value u =>
      refine .cons ⟨r, hspec.served⟩ ?_
      have hcoherent := hspec.coherent hend
      generalize after s (serve maps n playerId r s).trace = s' at hcoherent ⊢
      by_cases hstop : (r.checksEnd && s'.isOver) = true
      · rw [historyRest_of_over hstop]
        exact .nil s'
      · rw [historyRest_of_going hstop]
        exact ih (coherent_of_going hcoherent hstop)

/-- What holds along every request holds along a history. -/
theorem history_along {P : Fight → Action → Prop}
    (hserve : ∀ r s, s.Coherent → Along P s (serve maps n playerId r s).trace) (rs : List Request) {s : Fight}
    (hs : s.Coherent) : Along P s (history maps n playerId rs s).trace := by
  induction rs generalizing s with
  | nil => trivial
  | cons r rs ih =>
    have hspec := serve_spec maps n playerId r hs
    rw [history_cons, bind_run]
    cases hend : (serve maps n playerId r s).ending with
    | panic => exact hserve r s hs
    | exhausted => exact hserve r s hs
    | value u =>
      refine along_append.2 ⟨hserve r s hs, ?_⟩
      have hcoherent := hspec.coherent hend
      generalize after s (serve maps n playerId r s).trace = s' at hcoherent ⊢
      by_cases hstop : (r.checksEnd && s'.isOver) = true
      · rw [historyRest_of_over hstop]
        trivial
      · rw [historyRest_of_going hstop]
        exact ih (coherent_of_going hcoherent hstop)

/-- What the session does with the fight is made of blocks. -/
theorem history_composed (rs : List Request) {s : Fight} (hs : s.Coherent) :
    Composed Block s (history maps n playerId rs s).trace :=
  (history_served rs hs).flatten fun _ _ ⟨_, h⟩ => h.composed

/-! ### The roster -/

/-- The player comes first, nobody else is a player, the ids are distinct and above those of summons to come, and it
is the turn of somebody. -/
structure Fight.Roster (s : Fight) : Prop where
  player : ∃ p rest, s.fighters = p :: rest ∧ p.isPlayer = true ∧ p.team = .challengers ∧ ∀ f ∈ rest,
    f.isPlayer = false
  ids : (s.fighters.map Fighter.id).Nodup
  fresh : ∀ f ∈ s.fighters, s.nextSummonId < f.id
  index : s.currentFighterIndex < s.fighters.length

theorem Fight.nextAlive_spec {s : Fight} {idx : Nat} (h : s.nextAlive = some idx) :
    ∃ f, s.fighters[idx]? = some f ∧ f.isAlive = true := by
  unfold nextAlive at h
  have halive := List.find?_some h
  cases hf : s.fighters[idx]? with
  | none => simp [hf] at halive
  | some f => exact ⟨f, rfl, by simpa [hf] using halive⟩

/-- Nobody leaves the fight. -/
theorem Fight.id_mem_apply (s : Fight) {u : Update} {f : Fighter} (hf : f ∈ s.fighters) :
    ∃ f' ∈ (s.apply u).fighters, f'.id = f.id := by
  by_cases hroster : u.keepsRoster = true
  · have hmem := List.mem_map_of_mem (f := Fighter.identity) hf
    rw [← s.map_identity_apply hroster] at hmem
    obtain ⟨f', hf', hsame⟩ := List.mem_map.1 hmem
    exact ⟨f', hf', congrArg Prod.fst hsame⟩
  · cases u with
    | summon casterId summoned => exact ⟨f, List.mem_append_left _ hf, rfl⟩
    | _ => exact absurd rfl hroster

namespace Fight.Roster

variable {s s' : Fight}

/-- What a fight's fighters are does not change, unless one is added. -/
theorem of_identity (hs : s.Roster) (hmap : s'.fighters.map Fighter.identity = s.fighters.map Fighter.identity)
    (hnext : s'.nextSummonId ≤ s.nextSummonId) (hindex : s'.currentFighterIndex < s.fighters.length) : s'.Roster := by
  have hlength : s'.fighters.length = s.fighters.length := by
    rw [← List.length_map (f := Fighter.identity), hmap, List.length_map]
  have hids : s'.fighters.map Fighter.id = s.fighters.map Fighter.id := by
    have h := congrArg (List.map Prod.fst) hmap
    rwa [List.map_map, List.map_map] at h
  have hfind : ∀ f' ∈ s'.fighters, ∃ f ∈ s.fighters, f.id = f'.id := fun f' hf' => by
    have hmem := List.mem_map_of_mem (f := Fighter.id) hf'
    rw [hids] at hmem
    exact List.mem_map.1 hmem
  refine ⟨?_, hids ▸ hs.ids, fun f' hf' => ?_, by omega⟩
  · obtain ⟨p, rest, hfighters, hplayer, hteam, hrest⟩ := hs.player
    rw [hfighters, List.map_cons] at hmap
    obtain ⟨p', rest', hfighters', hp', hrest'⟩ := List.map_eq_cons_iff.1 hmap
    simp only [Fighter.identity, Prod.mk.injEq] at hp'
    refine ⟨p', rest', hfighters', hp'.2.2.trans hplayer, hp'.2.1.trans hteam, fun f' hf' => ?_⟩
    have hmem := List.mem_map_of_mem (f := Fighter.identity) hf'
    rw [hrest'] at hmem
    obtain ⟨f, hf, hid⟩ := List.mem_map.1 hmem
    simp only [Fighter.identity, Prod.mk.injEq] at hid
    exact hid.2.2.symm.trans (hrest f hf)
  · obtain ⟨f, hf, hid⟩ := hfind f' hf'
    have := hs.fresh f hf
    omega

theorem apply (hs : s.Roster) {u : Update} (hu : Write s u) : (s.apply u).Roster := by
  by_cases hroster : u.keepsRoster = true
  · refine hs.of_identity (s.map_identity_apply hroster) ?_ ?_
    · cases u with
      | advanceTurn =>
        simp only [Fight.apply, Fight.advanceTurn]
        split <;> exact le_rfl
      | drawIds marks summons =>
        simp only [Fight.apply]
        omega
      | summon => cases hroster
      | _ => exact le_rfl
    · cases u with
      | advanceTurn =>
        simp only [Fight.apply, Fight.advanceTurn]
        split
        · rename_i idx hidx
          obtain ⟨f, hf, -⟩ := Fight.nextAlive_spec hidx
          exact (List.getElem?_eq_some_iff.1 hf).1
        · exact hs.index
      | _ => exact hs.index
  · cases hu with
    | @summon casterId monsterId cellId level hcell hfree hlevel =>
      obtain ⟨p, rest, hfighters, hplayer, hteam, hrest⟩ := hs.player
      refine ⟨⟨p, rest ++ [s.summoned casterId cellId monsterId level], ?_, hplayer, hteam, ?_⟩, ?_, ?_, ?_⟩
      · simp only [Fight.apply, hfighters, List.cons_append]
      · intro f hf
        rcases List.mem_append.1 hf with hf | hf
        · exact hrest f hf
        · rw [List.mem_singleton.1 hf]
          rfl
      · simp only [Fight.apply, List.map_append, List.map_singleton]
        refine List.nodup_append.2 ⟨hs.ids, List.nodup_singleton _, ?_⟩
        intro id hid id' hid' heq
        obtain ⟨f, hf, rfl⟩ := List.mem_map.1 hid
        have hlt := hs.fresh f hf
        rw [List.mem_singleton.1 hid'] at heq
        exact absurd heq (ne_of_gt hlt)
      · intro f hf
        simp only [Fight.apply] at hf ⊢
        rcases List.mem_append.1 hf with hf | hf
        · have := hs.fresh f hf
          omega
        · rw [List.mem_singleton.1 hf]
          exact sub_one_lt s.nextSummonId
      · simp only [Fight.apply, List.length_append]
        have := hs.index
        omega
    | quiet hquiet => cases u <;> simp_all [Update.keepsRoster, Update.isQuiet]
    | _ => exact absurd rfl hroster

end Fight.Roster

theorem history_roster (rs : List Request) {s : Fight} (hcoherent : s.Coherent) (hs : s.Roster) :
    Along (fun s _ => s.Roster) s (history maps n playerId rs s).trace ∧
      (after s (history maps n playerId rs s).trace).Roster :=
  writes_invariant (C := fun _ _ => True) (fun _ _ hs hu _ => hs.apply hu)
    (history_composed rs hcoherent) along_true hs

/-- With distinct ids, to change the fighter of an id is to change every fighter of it. -/
theorem modifyFighter_eq_map {s : Fight} (hids : (s.fighters.map Fighter.id).Nodup) (id : Int)
    (g : Fighter → Fighter) :
    (s.modifyFighter id g).fighters = s.fighters.map fun f => if f.id = id then g f else f := by
  simp only [Fight.modifyFighter]
  generalize s.fighters = fs at hids
  induction fs with
  | nil => rfl
  | cons f fs ih =>
    rw [List.map_cons, List.nodup_cons] at hids
    by_cases hid : f.id = id
    · have hrest : ∀ g ∈ fs, g.id ≠ id := fun g hg hgid => hids.1 (hid ▸ hgid ▸ List.mem_map_of_mem hg)
      have hsame : (fs.map fun f => if f.id = id then g f else f) = fs := by
        conv_rhs => rw [← List.map_id fs]
        exact List.map_congr_left fun f hf => if_neg (hrest f hf)
      simp [modifyFirst, hid, hsame]
    · simp [modifyFirst, hid, ih hids.2]

/-- With distinct ids, to change the current fighter is to change every fighter of its id. -/
theorem modifyCurrent_eq_map {s : Fight} (hids : (s.fighters.map Fighter.id).Nodup) {current : Fighter}
    (hcurrent : s.currentFighter = some current) (g : Fighter → Fighter) :
    (s.modifyCurrent g).fighters = s.fighters.map fun f => if f.id = current.id then g f else f := by
  unfold Fight.currentFighter at hcurrent
  refine List.ext_getElem? fun j => ?_
  simp only [Fight.modifyCurrent, List.getElem?_modify, List.getElem?_map]
  cases hj : s.fighters[j]? with
  | none => rfl
  | some f =>
    have hindex : s.currentFighterIndex = j ↔ f.id = current.id := by
      constructor
      · rintro rfl
        rw [hcurrent] at hj
        rw [Option.some.inj hj]
      · intro hid
        have hsame := List.inj_on_of_nodup_map hids (List.mem_of_getElem? hj) (List.mem_of_getElem? hcurrent) hid
        rw [hsame, ← hcurrent] at hj
        exact ((List.getElem?_inj (List.getElem?_eq_some_iff.1 hcurrent).1 hids.of_map).1 hj.symm)
    by_cases h : s.currentFighterIndex = j
    · simp [h, hindex.1 h]
    · simp [h, mt hindex.2 h]

/-! ### The start of a fight -/

/-- A character as it is created. -/
def Character.novice : Character where
  id := 1
  level := 1
  vitality := 0
  strength := 0
  intelligence := 0
  chance := 0
  agility := 0
  id_pos := by decide
  level_pos := by decide
  level_le := by decide
  vitality_nonneg := by decide
  vitality_lt := by decide

section

variable (c : Character) (mapId : Int) (nextMarkId drawn : Nat)

theorem startPveFight_coherent : (startPveFight maps c mapId nextMarkId drawn).Coherent := nofun

theorem startPveFight_roster : (startPveFight maps c mapId nextMarkId drawn).Roster where
  player := ⟨_, _, rfl, rfl, rfl, fun f hf => by rw [List.mem_singleton.1 hf]; rfl⟩
  ids := by
    have hid := c.id_pos
    simp only [startPveFight, playerFighter, monsterFighter, List.map_cons, List.map_nil, List.nodup_cons,
      List.mem_singleton, List.not_mem_nil, not_false_eq_true, List.nodup_nil, and_true]
    omega
  fresh := by
    have hid := c.id_pos
    intro f hf
    simp only [startPveFight, List.mem_cons, List.not_mem_nil, or_false] at hf ⊢
    rcases hf with rfl | rfl
    · simp only [playerFighter]
      omega
    · simp only [monsterFighter]
      omega
  index := Nat.zero_lt_two

end

end Otomai.Combat
