import Otomai.Combat.Safety

/-!
# Places on the board

A push, a pull, a teleport and a summon take a free cell; a movement and a placement take the cell they are told, and
an exchange the cell of a caster that may be dead.

* `Fight.Board.map`: to move fighters keeps the board if the new cells are on the grid and apart.
* `fight_keeps_board`: nobody alive stands off the grid or on another one's cell, if movements, placements and the
  exchanges of dead casters end on cells of the grid without anybody else alive.
-/

namespace Otomai.Combat

open Machine Otomai.Common Trace Program

variable {maps : Int → Option MapData} {n : Nat} {playerId : Int}

/-- Everybody alive stands on the grid, on a cell of its own. -/
structure Fight.Board (s : Fight) : Prop where
  onGrid : ∀ f ∈ s.fighters, f.isAlive = true → ValidCell f.cellId
  apart : ((s.fighters.filter (·.isAlive)).map Fighter.cellId).Nodup

/-- Nobody alive but the fighter of the id stands on the cell. -/
def Fight.ClearFor (s : Fight) (id cellId : Int) : Prop :=
  ∀ f ∈ s.fighters, f.isAlive = true → f.cellId = cellId → f.id = id

instance (s : Fight) (id cellId : Int) : Decidable (s.ClearFor id cellId) := by
  unfold Fight.ClearFor
  infer_instance

/-- A movement and a placement of a fighter alive end on a cell of the grid without anybody else alive; so does the
exchange of a dead caster, whose cell is not its own any more. -/
def KeepsApart (s : Fight) : Action → Prop
  | .update (.move _ cellId) =>
    ∀ f ∈ s.currentFighter, f.isAlive = true → cellId < 560 ∧ s.ClearFor f.id cellId
  | .update (.place playerId cellId) =>
    ∀ f ∈ s.getFighter playerId, f.isAlive = true → s.ClearFor playerId cellId
  | .update (.exchange sourceId targetId cellA _) =>
    ∀ f ∈ s.getFighter sourceId, f.isAlive = false → ValidCell cellA ∧ s.ClearFor targetId cellA
  | _ => True

instance (s : Fight) (a : Action) : Decidable (KeepsApart s a) := by
  delta KeepsApart
  induction a using Action.casesOn with
  | update u => induction u using Update.casesOn <;> infer_instance
  | _ => infer_instance

namespace Fight

variable {s : Fight}

theorem fighterOnCell_eq_none {cellId : Int} (h : s.fighterOnCell cellId = none) :
    ∀ f ∈ s.fighters, f.isAlive = true → f.cellId ≠ cellId := by
  intro f hf halive hcell
  have hnone := List.find?_eq_none.1 h f hf
  simp [halive, hcell] at hnone

theorem fighterOnCell_eq_some {cellId : Int} {f : Fighter} (h : s.fighterOnCell cellId = some f) :
    f ∈ s.fighters ∧ f.cellId = cellId ∧ f.isAlive = true := by
  have hprop := List.find?_some h
  simp only [decide_eq_true_eq, Bool.decide_and, Bool.and_eq_true] at hprop
  exact ⟨List.mem_of_find?_eq_some h, hprop⟩

theorem getFighter_eq_some {id : Int} {f : Fighter} (h : s.getFighter id = some f) : f ∈ s.fighters ∧ f.id = id := by
  have hprop := List.find?_some h
  exact ⟨List.mem_of_find?_eq_some h, by simpa using hprop⟩

/-- The fighters of a fight are told apart by their ids. -/
theorem Roster.eq_of_id (hs : s.Roster) {f g : Fighter} (hf : f ∈ s.fighters) (hg : g ∈ s.fighters)
    (hid : f.id = g.id) : f = g :=
  List.inj_on_of_nodup_map hs.ids hf hg hid

theorem Roster.getFighter (hs : s.Roster) {f : Fighter} (hf : f ∈ s.fighters) : s.getFighter f.id = some f := by
  cases hg : s.getFighter f.id with
  | none =>
    have hnone := List.find?_eq_none.1 hg f hf
    simp at hnone
  | some g =>
    obtain ⟨hmem, hid⟩ := getFighter_eq_some hg
    rw [hs.eq_of_id hmem hf hid]

theorem Board.id_eq (hs : s.Board) {f g : Fighter} (hf : f ∈ s.fighters) (hg : g ∈ s.fighters)
    (hfalive : f.isAlive = true) (hgalive : g.isAlive = true) (hcell : f.cellId = g.cellId) : f = g :=
  List.inj_on_of_nodup_map hs.apart (List.mem_filter.2 ⟨hf, hfalive⟩) (List.mem_filter.2 ⟨hg, hgalive⟩) hcell

/-- To move fighters, or to let some of them die, keeps the board if the cells are on the grid and apart. -/
theorem Board.map {s' : Fight} (hs : s.Roster) {h : Fighter → Fighter} (hmap : s'.fighters = s.fighters.map h)
    (hid : ∀ f, (h f).id = f.id) (hgrid : ∀ f ∈ s.fighters, (h f).isAlive = true → ValidCell (h f).cellId)
    (hapart : ∀ f ∈ s.fighters, ∀ g ∈ s.fighters, (h f).isAlive = true → (h g).isAlive = true →
      (h f).cellId = (h g).cellId → f.id = g.id) : s'.Board := by
  constructor
  · intro f' hf'
    rw [hmap] at hf'
    obtain ⟨f, hf, rfl⟩ := List.mem_map.1 hf'
    exact hgrid f hf
  · have hids : (s'.fighters.map Fighter.id).Nodup := by
      have hsame : s'.fighters.map Fighter.id = s.fighters.map Fighter.id := by
        rw [hmap, List.map_map]
        exact List.map_congr_left fun f _ => hid f
      rw [hsame]
      exact hs.ids
    refine (List.nodup_map_iff_inj_on (hids.of_map.filter _)).2 fun f' hf' g' hg' hcell => ?_
    obtain ⟨hf', hfalive⟩ := List.mem_filter.1 hf'
    obtain ⟨hg', hgalive⟩ := List.mem_filter.1 hg'
    rw [hmap] at hf' hg'
    obtain ⟨f, hf, rfl⟩ := List.mem_map.1 hf'
    obtain ⟨g, hg, rfl⟩ := List.mem_map.1 hg'
    rw [hs.eq_of_id hf hg (hapart f hf g hg hfalive hgalive hcell)]

/-- To move one fighter keeps the board if its cell is on the grid and nobody else alive stands there. -/
theorem Board.onCell (hroster : s.Roster) (hs : s.Board) {id cellId : Int} {h : Fighter → Fighter} {s' : Fight}
    (hmap : s'.fighters = s.fighters.map fun f => if f.id = id then h f else f)
    (hh : ∀ f, (h f).id = f.id ∧ (h f).isAlive = f.isAlive ∧ (h f).cellId = cellId)
    (hfree : ∀ f ∈ s.fighters, f.id = id → f.isAlive = true → ValidCell cellId ∧ s.ClearFor id cellId) :
    s'.Board := by
  refine Board.map hroster hmap (fun f => ?_) (fun f hf halive => ?_) fun f hf g hg hfalive hgalive hcell => ?_
  · split
    · exact (hh f).1
    · rfl
  · by_cases hid : f.id = id
    · rw [if_pos hid] at halive ⊢
      rw [(hh f).2.1] at halive
      rw [(hh f).2.2]
      exact (hfree f hf hid halive).1
    · rw [if_neg hid] at halive ⊢
      exact hs.onGrid f hf halive
  · by_cases hfid : f.id = id
    · by_cases hgid : g.id = id
      · rw [hfid, hgid]
      · rw [if_pos hfid, (hh f).2.1] at hfalive
        rw [if_neg hgid] at hgalive
        rw [if_pos hfid, if_neg hgid, (hh f).2.2] at hcell
        rw [hfid]
        exact ((hfree f hf hfid hfalive).2 g hg hgalive hcell.symm).symm
    · by_cases hgid : g.id = id
      · rw [if_neg hfid] at hfalive
        rw [if_pos hgid, (hh g).2.1] at hgalive
        rw [if_neg hfid, if_pos hgid, (hh g).2.2] at hcell
        rw [hgid]
        exact (hfree g hg hgid hgalive).2 f hf hfalive hcell
      · rw [if_neg hfid] at hfalive hcell
        rw [if_neg hgid] at hgalive hcell
        exact congrArg Fighter.id (hs.id_eq hf hg hfalive hgalive hcell)

theorem Board.modifyFighter (hroster : s.Roster) (hs : s.Board) {id cellId : Int}
    (hfree : ∀ f ∈ s.fighters, f.id = id → f.isAlive = true → ValidCell cellId ∧ s.ClearFor id cellId) :
    (s.modifyFighter id (·.onCell cellId)).Board :=
  hs.onCell hroster (modifyFighter_eq_map hroster.ids id _) (fun _ => ⟨rfl, rfl, rfl⟩) hfree

@[simp] theorem onCell_id (f : Fighter) (cellId : Int) : (f.onCell cellId).id = f.id := rfl

/-- The cell of a fighter after an exchange. -/
private def exchanged (a b f : Fighter) : Int :=
  if f.id = b.id then a.cellId else if f.id = a.id then b.cellId else f.cellId

/-- After an exchange with a target alive nobody else alive stands on the cells of the two. -/
private theorem Board.exchanged_apart (hroster : s.Roster) (hs : s.Board) {a b f g : Fighter} (ha : a ∈ s.fighters)
    (hb : b ∈ s.fighters) (hbalive : b.isAlive = true)
    (hclear : ∀ f ∈ s.fighters, f.isAlive = true → f.cellId = a.cellId → f.id = a.id ∨ f.id = b.id)
    (hf : f ∈ s.fighters) (hg : g ∈ s.fighters) (hfalive : f.isAlive = true) (hgalive : g.isAlive = true)
    (hfab : f.id = a.id ∨ f.id = b.id) (hcell : exchanged a b f = exchanged a b g) : f.id = g.id := by
  unfold exchanged at hcell
  by_cases hfb : f.id = b.id
  · rw [if_pos hfb] at hcell
    by_cases hgb : g.id = b.id
    · rw [hfb, hgb]
    · rw [if_neg hgb] at hcell
      by_cases hga : g.id = a.id
      · rw [if_pos hga] at hcell
        have hgeq := hroster.eq_of_id hg ha hga
        rw [hgeq] at hgalive
        rw [hfb, hga, hs.id_eq ha hb hgalive hbalive hcell]
      · rw [if_neg hga] at hcell
        rcases hclear g hg hgalive hcell.symm with h | h
        · exact absurd h hga
        · exact absurd h hgb
  · have hfa : f.id = a.id := hfab.resolve_right hfb
    have hfeq := hroster.eq_of_id hf ha hfa
    rw [if_neg hfb, if_pos hfa] at hcell
    by_cases hgb : g.id = b.id
    · rw [if_pos hgb] at hcell
      rw [hfeq] at hfalive
      rw [hfa, hgb, hs.id_eq hb ha hbalive hfalive hcell]
    · by_cases hga : g.id = a.id
      · rw [hfa, hga]
      · rw [if_neg hgb, if_neg hga] at hcell
        have hgeq := hs.id_eq hb hg hbalive hgalive hcell
        exact absurd (congrArg Fighter.id hgeq).symm hgb

/-- An exchange: the target is alive and takes the caster's cell, which is its own or free. -/
theorem Board.exchange (hroster : s.Roster) (hs : s.Board) {a b : Fighter} (ha : a ∈ s.fighters) (hb : b ∈ s.fighters)
    (hbalive : b.isAlive = true) (hdead : a.isAlive = false → ValidCell a.cellId ∧ s.ClearFor b.id a.cellId) :
    (s.apply (.exchange a.id b.id a.cellId b.cellId)).Board := by
  have hvalid : ValidCell a.cellId := by
    cases haalive : a.isAlive with
    | true => exact hs.onGrid a ha haalive
    | false => exact (hdead haalive).1
  -- nobody else alive stands on the caster's cell
  have hclear : ∀ f ∈ s.fighters, f.isAlive = true → f.cellId = a.cellId → f.id = a.id ∨ f.id = b.id := by
    intro f hf halive hcell
    cases haalive : a.isAlive with
    | true => exact .inl (congrArg Fighter.id (hs.id_eq hf ha halive haalive hcell))
    | false => exact .inr ((hdead haalive).2 f hf halive hcell)
  have hids : ((s.modifyFighter a.id (·.onCell b.cellId)).fighters.map Fighter.id).Nodup := by
    have hsame := s.map_modifyFighter (k := Fighter.id) (g := (·.onCell b.cellId)) (fun _ => rfl) a.id
    rw [hsame]
    exact hroster.ids
  have hmap : (s.apply (.exchange a.id b.id a.cellId b.cellId)).fighters =
      s.fighters.map fun f => f.onCell (exchanged a b f) := by
    simp only [apply]
    rw [modifyFighter_eq_map hids, modifyFighter_eq_map hroster.ids, List.map_map]
    refine List.map_congr_left fun f _ => ?_
    simp only [Function.comp, exchanged]
    by_cases hfa : f.id = a.id
    · simp only [if_pos hfa, onCell_id]
      split <;> rfl
    · simp only [if_neg hfa]
      split <;> rfl
  refine Board.map hroster hmap (fun _ => rfl) (fun f hf halive => ?_) fun f hf g hg hfalive hgalive hcell => ?_
  · have hbvalid := hs.onGrid b hb hbalive
    have hfvalid := hs.onGrid f hf halive
    simp only [Fighter.onCell, exchanged]
    split
    · exact hvalid
    · split
      · exact hbvalid
      · exact hfvalid
  · by_cases hfab : f.id = a.id ∨ f.id = b.id
    · exact hs.exchanged_apart hroster ha hb hbalive hclear hf hg hfalive hgalive hfab hcell
    · by_cases hgab : g.id = a.id ∨ g.id = b.id
      · exact (hs.exchanged_apart hroster ha hb hbalive hclear hg hf hgalive hfalive hgab hcell.symm).symm
      · obtain ⟨hfa, hfb⟩ := not_or.1 hfab
        obtain ⟨hga, hgb⟩ := not_or.1 hgab
        simp only [Fighter.onCell, exchanged, if_neg hfa, if_neg hfb, if_neg hga, if_neg hgb] at hcell
        exact congrArg Fighter.id (hs.id_eq hf hg hfalive hgalive hcell)

/-- A write that moves, kills and adds nobody. -/
theorem Board.of_standing (hs : s.Board) {s' : Fight}
    (hmap : s'.fighters.map Fighter.standing = s.fighters.map Fighter.standing) : s'.Board := by
  have hcells (s : Fight) : (s.fighters.filter (·.isAlive)).map Fighter.cellId =
      ((s.fighters.map Fighter.standing).filter (·.2.2)).map (·.2.1) := by
    rw [List.filter_map, List.map_map]
    rfl
  constructor
  · intro f' hf' halive
    have hmem := List.mem_map_of_mem (f := Fighter.standing) hf'
    rw [hmap] at hmem
    obtain ⟨f, hf, hsame⟩ := List.mem_map.1 hmem
    simp only [Fighter.standing, Prod.mk.injEq] at hsame
    rw [← hsame.2.1]
    exact hs.onGrid f hf (hsame.2.2.trans halive)
  · rw [hcells, hmap, ← hcells]
    exact hs.apart

/-- A hit moves nobody and brings nobody to life. -/
theorem Board.hit (hroster : s.Roster) (hs : s.Board) (targetId damage : Int) :
    (s.apply (.hit targetId damage)).Board := by
  have hcell (f : Fighter) : (if f.id = targetId then f.hit damage else f).cellId = f.cellId := by split <;> rfl
  have halive (f : Fighter) (h : (if f.id = targetId then f.hit damage else f).isAlive = true) :
    f.isAlive = true := by
    split at h
    · exact hit_isAlive h
    · exact h
  refine Board.map hroster (modifyFighter_eq_map hroster.ids targetId _) (fun f => ?_) (fun f hf hfalive => ?_)
    fun f hf g hg hfalive hgalive hsame => ?_
  · split <;> rfl
  · rw [hcell f]
    exact hs.onGrid f hf (halive f hfalive)
  · rw [hcell f, hcell g] at hsame
    exact congrArg Fighter.id (hs.id_eq hf hg (halive f hfalive) (halive g hgalive) hsame)

theorem Board.summon (hs : s.Board) {f : Fighter} (casterId : Int) (hcell : ValidCell f.cellId)
    (hfree : s.fighterOnCell f.cellId = none) : (s.apply (.summon casterId f)).Board := by
  constructor
  · intro g hg halive
    rcases List.mem_append.1 hg with hg | hg
    · exact hs.onGrid g hg halive
    · rw [List.mem_singleton.1 hg]
      exact hcell
  · simp only [apply, List.filter_append, List.map_append]
    refine List.nodup_append.2 ⟨hs.apart, ?_, fun c hc d hd heq => ?_⟩
    · exact ((List.filter_sublist (l := [f])).map _).nodup (List.nodup_singleton _)
    · obtain ⟨g, hg, rfl⟩ := List.mem_map.1 hc
      obtain ⟨f', hf', rfl⟩ := List.mem_map.1 hd
      have hg := List.mem_filter.1 hg
      have hf' := List.mem_singleton.1 (List.mem_of_mem_filter hf')
      rw [hf'] at heq
      exact fighterOnCell_eq_none hfree g hg.1 hg.2 heq

/-- Every write keeps the board, if what `KeepsApart` asks of it holds. -/
theorem Board.apply {u : Update} (hroster : s.Roster) (hpositions : ∀ c ∈ s.challengerPositions, ValidCell c)
    (hs : s.Board) (hu : Write s u) (happart : KeepsApart s (.update u)) : (s.apply u).Board := by
  have hfree {id cellId : Int} (hcell : ValidCell cellId) (hnone : s.fighterOnCell cellId = none) :
      (s.modifyFighter id (·.onCell cellId)).Board :=
    hs.modifyFighter hroster fun f hf _ _ =>
      ⟨hcell, fun g hg halive hsame => absurd hsame (fighterOnCell_eq_none hnone g hg halive)⟩
  by_cases hkeeps : u.keepsCells = true ∧ u.keepsLives = true
  · exact hs.of_standing (s.map_standing_apply hkeeps.1 hkeeps.2)
  · cases hu with
    | quiet hquiet => cases u <;> first | contradiction | exact absurd ⟨rfl, rfl⟩ hkeeps
    | hit _ _ => exact hs.hit hroster _ _
    | slide hcell hnone => exact hfree hcell hnone
    | teleport hcell hnone => exact hfree hcell hnone
    | exchange ha hb ht hid =>
      obtain ⟨ha', rfl⟩ := getFighter_eq_some ha
      obtain ⟨hb', rfl⟩ := getFighter_eq_some hb
      obtain ⟨ht, -, htalive⟩ := fighterOnCell_eq_some ht
      have hbt := hroster.eq_of_id ht hb' hid
      rw [hbt] at htalive
      exact hs.exchange hroster ha' hb' htalive (happart _ ha)
    | summon hcell hnone _ => exact hs.summon _ hcell hnone
    | move hf _ hnonneg _ =>
      refine hs.onCell hroster (modifyCurrent_eq_map hroster.ids hf _) (fun _ => ⟨rfl, rfl, rfl⟩) ?_
      intro g hg hid halive
      have hgf := hroster.eq_of_id hg (List.mem_of_getElem? hf) hid
      rw [hgf] at halive
      have hclear := happart _ hf halive
      exact ⟨⟨hnonneg, hclear.1⟩, hclear.2⟩
    | place hcell =>
      refine hs.modifyFighter hroster fun g hg hid halive => ⟨hpositions _ hcell, ?_⟩
      exact happart g (hid ▸ hroster.getFighter hg) halive
    | _ => exact absurd ⟨rfl, rfl⟩ hkeeps

end Fight

/-- What a placement may choose is apart from where the monster starts. -/
theorem startPveFight_board (c : Character) (mapId : Int) (nextMarkId drawn : Nat) :
    (startPveFight maps c mapId nextMarkId drawn).Board := by
  have hcells := (@startPveFight_gridKept maps c mapId nextMarkId drawn).1.1
  obtain ⟨p, m, hfighters, hp, hm⟩ := @startPveFight_cells maps c mapId nextMarkId drawn
  refine ⟨fun f hf _ => hcells f hf, ?_⟩
  have hapart : ([p, m].map Fighter.cellId).Nodup := by
    simp only [List.map_cons, List.map_nil, List.nodup_cons, List.mem_singleton, List.not_mem_nil, not_false_eq_true,
      List.nodup_nil, and_true]
    omega
  rw [hfighters]
  exact (List.filter_sublist.map _).nodup hapart

/-- Whatever the client sends, everybody alive stands on the grid and on a cell of its own, in every state of a fight
whose movements, placements and exchanges of dead casters end on clear cells of the grid. -/
theorem fight_keeps_board (maps : Int → Option MapData) (n : Nat) (c : Character) (mapId : Int)
    (nextMarkId drawn : Nat) (rs : List Request) :
    let s := startPveFight maps c mapId nextMarkId drawn
    let t := (history maps n c.id rs s).trace
    Along KeepsApart s t → Along (fun s _ => s.Board) s t ∧ (after s t).Board := by
  intro s t h
  have hcoherent := @startPveFight_coherent maps c mapId nextMarkId drawn
  have hstart : s.Roster ∧ (∀ d ∈ s.challengerPositions, ValidCell d) ∧ s.Board :=
    ⟨startPveFight_roster c mapId nextMarkId drawn, (startPveFight_gridKept c mapId nextMarkId drawn).2,
      startPveFight_board c mapId nextMarkId drawn⟩
  have hrun := writes_invariant
    (I := fun s => s.Roster ∧ (∀ d ∈ s.challengerPositions, ValidCell d) ∧ s.Board)
    (fun s u hs hu happart => ⟨hs.1.apply hu, by rw [s.challengerPositions_apply u]; exact hs.2.1,
      hs.2.2.apply hs.1 hs.2.1 hu happart⟩) (history_composed rs hcoherent) h hstart
  exact ⟨hrun.1.imp fun _ _ hs => hs.2.2, hrun.2.2.2⟩

/-- A novice places itself, walks two cells and casts on the monster. -/
theorem fight_keeps_board_novice :
    let s := startPveFight (fun _ => none) .novice 0 0 0
    let t := (history (fun _ => none) 3 1
      [.placement 283, .ready true, .movement [283, 297, 311], .cast 0 400 none 0] s).trace
    Along (fun s _ => s.Board) s t ∧ (after s t).Board :=
  fight_keeps_board (fun _ => none) 3 .novice 0 0 0
    [.placement 283, .ready true, .movement [283, 297, 311], .cast 0 400 none 0] (by decide +kernel)

/-- A movement to the monster's cell is executed. -/
theorem fight_breaks_board :
    ¬∀ (maps : Int → Option MapData) (n : Nat) (c : Character) (mapId : Int) (nextMarkId drawn : Nat)
      (rs : List Request),
      let s := startPveFight maps c mapId nextMarkId drawn
      (after s (history maps n c.id rs s).trace).Board := by
  intro h
  let s := startPveFight (fun _ => none) .novice 0 0 0
  have hboard := h (fun _ => none) 0 .novice 0 0 0 [.movement [280, 400]]
  have hshared : ¬(((after s (history (fun _ => none) 0 1 [.movement [280, 400]] s).trace).fighters.filter
      (·.isAlive)).map Fighter.cellId).Nodup := by
    decide +kernel
  exact hshared hboard.apart

end Otomai.Combat
