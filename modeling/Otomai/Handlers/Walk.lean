import Otomai.Handlers.Display

/-!
# Where a player walks

A request to move is checked cell by cell, but not against the cell where the player stands; a cancellation is not
checked at all.  `Permitted` is what a store of a cell should be, and `Honest` what a client has to do for it.

* `store_of_mem_handle`: the handlers that store a cell.
* `checked_run`: a path that is stored has been checked.
* `stores_permitted_iff`: in a run every store is permitted exactly if the clients are honest.
-/

namespace Otomai.Handlers

open Machine Otomai.Common Otomai.Combat Trace

/-! ### The handlers that store a cell -/

/-- The operation stores the cell of a player. -/
def Op.stores : Op → Bool
  | .storePathEnd .. | .storeCancel .. => true
  | _ => false

/-- None of the operations stores a cell. -/
abbrev KeepsCells (ops : List Op) : Prop := Avoids Op.stores ops

theorem keepsCells_handleFightEnd (row : Row) (won : Bool) : KeepsCells (handleFightEnd row won) := by
  have hcreate : KeepsCells (handleGameContextCreate row) := .of_all rfl
  unfold handleFightEnd
  refine .append (.append (.cons rfl ?_) (.replicate rfl)) hcreate
  split
  · refine .append (.of_all rfl) ?_
    split
    · exact .of_all rfl
    · exact .nil
  · exact .nil

theorem keepsCells_serveFight (s : Server) (c : Int) (f : Fight) (r : Request) (calls : Nat) :
    KeepsCells (serveFight s c f r calls) := by
  have hend (f : Fight) : KeepsCells (endFight s c f calls) := by
    unfold endFight
    refine .cons rfl (.cons rfl ?_)
    split
    · refine .append (keepsCells_handleFightEnd _ _) (.cons rfl ?_)
      split
      · exact .replicate rfl
      · exact .nil
    · exact .nil
  unfold serveFight
  refine (avoids_said rfl _).append ?_
  split
  · refine .cons rfl ?_
    split
    · exact hend _
    · exact .nil
  · exact .of_all rfl
  · exact .of_all rfl

/-- A cell is stored by a request to move outside of a fight, and by a cancellation. -/
theorem keepsCells_handle (s : Server) (i : Nat) (m : Message)
    (hrequest : ∀ mapId keyMovements, m = .mapMovementRequest mapId keyMovements → (s.sessions i).fight ≠ none)
    (hcancel : ∀ cellId, m ≠ .mapMovementCancel cellId) : KeepsCells (handle s i m) := by
  cases m with
  | characterSelection c =>
    simp only [handle, handleCharacterSelection]
    split
    · split <;> exact .of_all rfl
    · exact .of_all rfl
  | gameContextCreateRequest =>
    simp only [handle]
    split
    · exact .nil
    · refine .cons rfl ?_
      split
      · exact .of_all rfl
      · exact .nil
  | attackMonster nextMarkId drawn =>
    simp only [handle]
    split
    · refine .cons rfl ?_
      split
      · exact .of_all rfl
      · exact .nil
    · exact .nil
  | fight r calls =>
    simp only [handle]
    split
    · exact keepsCells_serveFight s _ _ r calls
    · exact .nil
  | mapMovementRequest mapId keyMovements =>
    cases hfight : (s.sessions i).fight with
    | none => exact absurd hfight (hrequest mapId keyMovements rfl)
    | some f =>
      simp only [handle, hfight]
      split
      · exact keepsCells_serveFight s _ _ _ 0
      · contradiction
      · exact .nil
  | mapMovementConfirm =>
    simp only [handle]
    split
    · unfold handleMovementConfirm
      split <;> exact .of_all rfl
    · exact .nil
  | mapMovementCancel cellId => exact absurd rfl (hcancel cellId)
  | changeMap mapId calls =>
    simp only [handle]
    split
    · refine .cons rfl ?_
      split
      · unfold handleChangeMap
        split
        · exact .nil
        · exact .append (.of_all rfl) (.replicate rfl)
      · exact .nil
    · exact .nil
  | other calls => exact .replicate rfl

/-- A path that a handler is about to store has been checked. -/
theorem mem_handle_storePathEnd {s : Server} {i : Nat} {m : Message} {mapId : Int} {keyMovements : List Int16}
    (h : .storePathEnd mapId keyMovements ∈ handle s i m) :
    keyMovements ≠ [] ∧ ∀ map, s.mapData mapId = some map → validatePath map
      (pathCells keyMovements) = some true := by
  by_cases hkeeps : (∀ mapId keyMovements, m = .mapMovementRequest mapId keyMovements → (s.sessions i).fight ≠ none) ∧
      ∀ cellId, m ≠ .mapMovementCancel cellId
  · have hno := keepsCells_handle s i m hkeeps.1 hkeeps.2 _ h
    cases hno
  · cases m with
    | mapMovementRequest targetMapId keys =>
      have hfight : (s.sessions i).fight = none := by
        by_contra hsome
        exact hkeeps ⟨fun _ _ _ => hsome, fun _ => (by rintro ⟨⟩)⟩
      simp only [handle, hfight] at h
      cases hc : (s.sessions i).characterId with
      | none => simp [hc] at h
      | some c =>
        cases hmap : (s.sessions i).mapId with
        | none => simp [hc, hmap] at h
        | some currentMapId =>
          simp only [hc, hmap, handleMovementRequest] at h
          split at h
          · simp at h
          · rename_i haccepted
            split at h
            · simp at h
            · simp at h
            · rename_i hnotNone hnotFalse
              simp only [List.mem_cons, reduceCtorEq, Op.storePathEnd.injEq, List.not_mem_nil, or_false,
                false_or] at h
              obtain ⟨rfl, rfl⟩ := h
              refine ⟨fun hnil => haccepted (.inr hnil), fun map hdata => ?_⟩
              rw [hdata] at hnotNone hnotFalse
              rcases hvalid : validatePath map (pathCells keyMovements) with _ | _ | _
              · exact absurd (by simp [hvalid]) hnotNone
              · exact absurd (by simp [hvalid]) hnotFalse
              · rfl
    | mapMovementCancel cellId =>
      simp only [handle] at h
      split at h
      · simp at h
      · cases h
    | _ => exact absurd ⟨fun _ _ => (by rintro ⟨⟩), fun _ => (by rintro ⟨⟩)⟩ hkeeps

/-! ### Stores -/

/-- The entry of the character of a session on a map. -/
def Server.entry (s : Server) (i : Nat) (mapId : Int) : Option MapPlayer :=
  (s.sessions i).characterId.bind fun c => s.playerOn mapId c

/-- A cell that is stored on a map whose data is loaded: at the end of a path, that the path has been checked, starts
at the cell stored before and ends at a walkable one; for a cancellation, that the cell is walkable and on the path in
progress. -/
def Permitted (s : Server) : Event → Prop
  | .advance i =>
    match (s.sessions i).pending with
    | .storePathEnd mapId keyMovements :: _ =>
      ∀ map, s.mapData mapId = some map → ∀ p, s.entry i mapId = some p →
        (pathCells keyMovements).head?.map Int.ofNat = some p.cellId ∧
          validatePath map (pathCells keyMovements) = some true ∧ map.walkable (destCell keyMovements) = true
    | .storeCancel mapId cellId :: _ =>
      ∀ map, s.mapData mapId = some map → ∀ p, s.entry i mapId = some p →
        0 ≤ cellId ∧ map.walkable cellId.toNat = true ∧
          ∃ ms, (s.sessions i).movement = some ms ∧ cellId.toNat ∈ ms.pathCells
    | _ => True
  | _ => True

/-- The client starts its path where the server has it, and if the path is that cell alone, it is walkable; it cancels
on a walkable cell of the path in progress. -/
def Honest (s : Server) : Event → Prop
  | .advance i =>
    match (s.sessions i).pending with
    | .storePathEnd mapId keyMovements :: _ =>
      ∀ map, s.mapData mapId = some map → ∀ p, s.entry i mapId = some p →
        (pathCells keyMovements).head?.map Int.ofNat = some p.cellId ∧
          (keyMovements.length = 1 → map.walkable p.cellId.toNat = true)
    | .storeCancel mapId cellId :: _ =>
      ∀ map, s.mapData mapId = some map → ∀ p, s.entry i mapId = some p →
        0 ≤ cellId ∧ map.walkable cellId.toNat = true ∧
          ∃ ms, (s.sessions i).movement = some ms ∧ cellId.toNat ∈ ms.pathCells
    | _ => True
  | _ => True

/-- Every path that is about to be stored has been checked. -/
def Checked (s : Server) : Prop :=
  ∀ i mapId keyMovements, .storePathEnd mapId keyMovements ∈ (s.sessions i).pending →
    keyMovements ≠ [] ∧ ∀ map, s.mapData mapId = some map → validatePath map (pathCells keyMovements) = some true

section

variable {s s' : Server} {e : Event} {i : Nat}

theorem Checked.setPending (h : Checked s) {ps : Session}
    (hps : ∀ mapId keyMovements, .storePathEnd mapId keyMovements ∈ ps.pending →
      keyMovements ≠ [] ∧ ∀ map, s.mapData mapId = some map → validatePath map (pathCells keyMovements) = some true) :
    Checked (s.setSession i ps) := by
  intro j mapId keyMovements hmem
  by_cases hj : j = i
  · subst hj
    rw [Server.sessions_setSession] at hmem
    exact hps mapId keyMovements hmem
  · rw [Server.sessions_setSession_of_ne hj] at hmem
    exact h j mapId keyMovements hmem

theorem checked_step (h : Checked s) (hs : Step s e s') : Checked s' := by
  cases hs with
  | receive hidle => exact h.setPending fun mapId keyMovements hmem => mem_handle_storePathEnd hmem
  | @advance j op rest hpending hspin =>
    intro k mapId keyMovements hmem
    by_cases hk : k = j
    · subst hk
      refine h k mapId keyMovements ?_
      rw [hpending]
      rw [Server.sessions_perform] at hmem
      have hrest : .storePathEnd mapId keyMovements ∈ rest := by
        cases op <;> first | exact hmem | cases hmem
      exact List.mem_cons_of_mem op hrest
    · rw [Server.sessions_perform_of_ne hk] at hmem
      exact h k mapId keyMovements hmem
  | @refuse j op rest hpending hop =>
    refine h.setPending fun mapId keyMovements hmem => h j mapId keyMovements ?_
    rw [hpending]
    exact List.mem_cons_of_mem op hmem
  | fail hfail => exact h.setPending fun _ _ hmem => absurd hmem List.not_mem_nil
  | @deliver j b bs hqueue hidle =>
    exact @Checked.setPending s j h { s.sessions j with display := b.display (s.sessions j).display }
      fun mapId keyMovements hmem => h j mapId keyMovements hmem
  | @hangUp j hidle =>
    refine h.setPending fun mapId keyMovements hmem => ?_
    simp only [cleanup] at hmem
    split at hmem
    · simp at hmem
    · simp at hmem
  | createCharacter => exact h
  | tick => exact h

/-- What is known of a path that has been checked and starts where the player stands. -/
theorem walkable_destCell {map : MapData} {keyMovements : List Int16} (hne : keyMovements ≠ [])
    (hvalid : validatePath map (pathCells keyMovements) = some true)
    (hsingle : keyMovements.length = 1 → ∀ cell ∈ (pathCells keyMovements).head?, map.walkable cell = true) :
    map.walkable (destCell keyMovements) = true := by
  cases keyMovements with
  | nil => exact absurd rfl hne
  | cons key rest =>
    cases rest with
    | nil => exact hsingle rfl (cellFromKey key) rfl
    | cons next rest =>
      have hlast : destCell (key :: next :: rest) ∈ pathCells (next :: rest) := by
        have hcells : pathCells (key :: next :: rest) = cellFromKey key :: pathCells (next :: rest) := rfl
        have hnext : pathCells (next :: rest) ≠ [] := by simp [pathCells]
        rw [destCell, hcells, List.getLast?_cons, Option.getD_some, List.getLast?_eq_some_getLast hnext,
          Option.getD_some]
        exact List.getLast_mem hnext
      exact walkable_of_validatePath hvalid _ hlast

theorem permitted_iff_honest (hchecked : Checked s) (e : Event) : Permitted s e ↔ Honest s e := by
  cases e with
  | advance i =>
    simp only [Permitted, Honest]
    split
    · rename_i mapId keyMovements rest hpending
      obtain ⟨hne, hvalid⟩ := hchecked i mapId keyMovements (by rw [hpending]; exact List.mem_cons_self)
      refine forall₂_congr fun map hmap => forall₂_congr fun p hp => and_congr_right fun hhead => ?_
      obtain ⟨cell, hcell, hsame⟩ := Option.map_eq_some_iff.1 hhead
      have hto : p.cellId.toNat = cell := by rw [← hsame]; rfl
      constructor
      · rintro ⟨-, hwalk⟩ hlength
        obtain ⟨key, rfl⟩ := List.length_eq_one_iff.1 hlength
        have hkey : cellFromKey key = cell := Option.some.inj hcell
        rw [hto, ← hkey]
        exact hwalk
      · intro hsingle
        refine ⟨hvalid map hmap, walkable_destCell hne (hvalid map hmap) fun hlength cell' hcell' => ?_⟩
        obtain rfl : cell = cell' := Option.some.inj (hcell.symm.trans hcell')
        rw [← hto]
        exact hsingle hlength
    · rfl
    · rfl
  | _ => rfl

/-- In a run every store is permitted exactly if the clients are honest. -/
theorem stores_permitted_iff (mapData : Int → Option MapData) (depth : Nat) (rows : List Row) (accounts : Nat → Int)
    (es : List Event) :
    Along Permitted (.start mapData depth rows accounts) es ↔
      Along Honest (.start mapData depth rows accounts) es := by
  have hstart : Checked (.start mapData depth rows accounts) := fun _ _ _ hmem => absurd hmem List.not_mem_nil
  have hchecked := (@invariant_run _ _ (fun s e s' hI _ hs => checked_step hI hs) _ es along_true hstart).1
  constructor
  · intro h
    exact (hchecked.and h).imp fun s e hs => (permitted_iff_honest hs.1 e).1 hs.2
  · intro h
    exact (hchecked.and h).imp fun s e hs => (permitted_iff_honest hs.1 e).2 hs.2

end

/-- A player stands on the cell 10 and asks to walk from the cell 300. -/
theorem path_starts_elsewhere :
    ¬Along Permitted twoPlayers
      (entering 0 ++ [.receive 0 (.mapMovementRequest 154010883 [300, 301]), .advance 0, .advance 0]) := by
  intro h
  have hstore := (along_append.1 h).2.2.2.1
  have hstart := (hstore startingMap rfl ⟨1, 10, 0⟩ (by decide +kernel)).1
  revert hstart
  decide +kernel

end Otomai.Handlers
