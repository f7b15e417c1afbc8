import Otomai.Handlers.Session

/-!
# What the clients show

A client shows the actors of its map.  It is told of them by two ways: directly by the handler that is running for it,
and by the broadcasts in its queue, which are delivered when no handler is running.

* `told`: what the client will show when the handler has sent the rest of its messages.
* `enters_handle`: a handler enters a map once, or shows nothing and leaves the session on the map it has recorded.
* `Phase r`: a session is about to enter a map, stands on the one it has recorded, or stands on none; the characters
  on this map and those its client will show are related by `r`, one by one.

With implication for `r` every client shows everybody (`everyone_is_shown`), with the converse it shows nobody else
(`no_ghosts`).
-/

namespace Otomai.Handlers

open Machine Otomai.Common Otomai.Combat Trace

/-! ### Entering a map -/

namespace Op

/-- The map that the session has recorded after the operation. -/
def mapAfter : Op → Option Int → Option Int
  | setMap x, _ => some x
  | _, m => m

/-- The operation joins no map, records none, and tells the client of no actor. -/
def isCalm : Op → Bool
  | joinMap .. | readPlayers _ | setMap _ | send .currentMap | send (.mapComplementary _) | send (.showActor _) =>
    false
  | _ => true

/-- A calm operation that leaves the session its character and the character its map. -/
def isQuiet : Op → Bool
  | selectCharacter _ | leaveMap _ => false
  | op => op.isCalm

theorem isCalm_of_isQuiet {op : Op} (h : op.isQuiet = true) : op.isCalm = true := by
  cases op with
  | selectCharacter c => cases h
  | leaveMap mapId => cases h
  | _ => exact h

/-- The operation may follow the entry of the character `c` on the map. -/
inductive Settles (mapId c : Int) : Op → Prop where
  | quiet {op : Op} (h : op.isQuiet = true) : Settles mapId c op
  | setMap (x : Int) : Settles mapId c (.setMap x)
  | readPlayers : Settles mapId c (.readPlayers mapId)
  | mapComplementary (withPlayers : Bool) : Settles mapId c (.send (.mapComplementary withPlayers))
  | showActor : Settles mapId c (.send (.showActor c))

end Op

/-- The map that is recorded after some operations. -/
def recorded (mapId : Option Int) (ops : List Op) : Option Int := ops.foldl (fun m op => op.mapAfter m) mapId

/-- A handler that enters a map: it forgets the old one, joins the new one, reads who is there and sends it. -/
def Enters (c : Int) (ops : List Op) : Prop :=
  ∃ before mapId cellId withPlayers rest,
    ops = before ++ .joinMap mapId cellId :: .readPlayers mapId :: .send (.mapComplementary withPlayers) :: rest ∧
      (∀ op ∈ before, op.isQuiet = true ∨ op = .send .currentMap ∨ ∃ x, op = .leaveMap x) ∧
        ∀ op ∈ rest, op.isQuiet = true ∨ op = .send (.showActor c) ∨ ∃ x, op = .setMap x

/-- The operations of a handler that joins no map and leaves none. -/
def Stays (ops : List Op) : Prop := ∀ op ∈ ops, op.isQuiet = true

theorem stays_nil : Stays [] := nofun

theorem Stays.append {ops ops' : List Op} (h : Stays ops) (h' : Stays ops') : Stays (ops ++ ops') := by
  intro op hop
  rcases List.mem_append.1 hop with hop | hop
  · exact h op hop
  · exact h' op hop

theorem Stays.cons {op : Op} {ops : List Op} (hop : op.isQuiet = true) (h : Stays ops) : Stays (op :: ops) := by
  intro op' hop'
  rcases List.mem_cons.1 hop' with rfl | hop'
  · exact hop
  · exact h op' hop'

theorem stays_replicate {n : Nat} {op : Op} (hop : op.isQuiet = true) : Stays (.replicate n op) := by
  intro op' hop'
  rw [List.eq_of_mem_replicate hop']
  exact hop

theorem stays_plain (n : Nat) : Stays (plain n) := stays_replicate rfl

theorem stays_said (t : List Action) : Stays (said t) := by
  intro op hop
  obtain ⟨a, -, ha⟩ := List.mem_filterMap.1 hop
  cases a with
  | send m =>
    cases ha
    rfl
  | _ => cases ha

theorem Stays.calm {ops : List Op} (h : Stays ops) : ∀ op ∈ ops, op.isCalm = true :=
  fun op hop => Op.isCalm_of_isQuiet (h op hop)

theorem Stays.enters {c : Int} {ops ops' : List Op} (h : Stays ops) (h' : Enters c ops') :
    Enters c (ops ++ ops') := by
  obtain ⟨before, mapId, cellId, withPlayers, rest, rfl, hbefore, hrest⟩ := h'
  refine ⟨ops ++ before, mapId, cellId, withPlayers, rest, (List.append_assoc ..).symm, fun op hop => ?_, hrest⟩
  rcases List.mem_append.1 hop with hop | hop
  · exact .inl (h op hop)
  · exact hbefore op hop

/-- Once it has entered, a handler may record the map. -/
theorem Enters.append {c x : Int} {ops ops' : List Op} (h : Enters c ops) (h' : Stays ops') :
    Enters c (ops ++ .setMap x :: ops') := by
  obtain ⟨before, mapId, cellId, withPlayers, rest, rfl, hbefore, hrest⟩ := h
  refine ⟨before, mapId, cellId, withPlayers, rest ++ .setMap x :: ops', by simp, hbefore, fun op hop => ?_⟩
  rcases List.mem_append.1 hop with hop | hop
  · exact hrest op hop
  · rcases List.mem_cons.1 hop with rfl | hop
    · exact .inr (.inr ⟨x, rfl⟩)
    · exact .inl (h' op hop)

theorem enters_handleGameContextCreate (row : Row) : Enters row.id (handleGameContextCreate row) := by
  refine ⟨[.send .plain, .send .currentMap], row.homeMap, wrap16 row.cellId, false,
    plain 3 ++ [.query] ++ plain 5 ++ [.send (.showActor row.id)], rfl, ?_, ?_⟩
  · simp [Op.isQuiet, Op.isCalm]
  · intro op hop
    simp only [List.mem_append, plain, List.mem_replicate, List.mem_singleton] at hop
    rcases hop with ((⟨-, rfl⟩ | rfl) | ⟨-, rfl⟩) | rfl
    · exact .inl rfl
    · exact .inl rfl
    · exact .inl rfl
    · exact .inr (.inl rfl)

theorem id_of_getCharacter {s : Server} {c : Int} {row : Row} (h : s.getCharacter c = some row) : row.id = c := by
  simpa using List.find?_some h

theorem enters_handleFightEnd (row : Row) (won : Bool) : Enters row.id (handleFightEnd row won) := by
  unfold handleFightEnd
  rw [List.cons_append, ← List.cons_append]
  refine Stays.enters (.cons rfl (.append ?_ (stays_plain 2))) (enters_handleGameContextCreate row)
  split
  · refine .cons rfl (.cons rfl ?_)
    split
    · exact .cons rfl (.cons rfl stays_nil)
    · exact stays_nil
  · exact stays_nil

theorem enters_endFight (s : Server) (c : Int) (f : Fight) (calls : Nat) :
    Stays (endFight s c f calls) ∨ Enters c (endFight s c f calls) := by
  unfold endFight
  cases hrow : s.getCharacter c with
  | none => exact .inl (.cons rfl (.cons rfl stays_nil))
  | some row =>
    have hrest : Stays (if f.challengersWon then .replicate calls .query else []) := by
      split
      · exact stays_replicate rfl
      · exact stays_nil
    have henters := (enters_handleFightEnd row f.challengersWon).append (x := f.mapId) hrest
    rw [id_of_getCharacter hrow] at henters
    exact .inr (Stays.enters (.cons rfl (.cons rfl stays_nil)) henters)

theorem enters_serveFight (s : Server) (c : Int) (f : Fight) (r : Request) (calls : Nat) :
    Stays (serveFight s c f r calls) ∨ Enters c (serveFight s c f r calls) := by
  have hsaid := stays_said (serve s.mapData s.depth c r f).trace
  unfold serveFight
  dsimp only
  split
  · split
    · rcases enters_endFight s c (after f (serve s.mapData s.depth c r f).trace) calls with h | h
      · exact .inl (hsaid.append (.cons rfl h))
      · exact .inr (hsaid.enters (Stays.enters (.cons rfl stays_nil) h))
    · exact .inl (hsaid.append (.cons rfl stays_nil))
  · exact .inl (hsaid.append (.cons rfl stays_nil))
  · exact .inl (hsaid.append (.cons rfl stays_nil))

theorem stays_handleMovementRequest (s : Server) (currentMapId mapId : Int) (keyMovements : List Int16) :
    Stays (handleMovementRequest s currentMapId mapId keyMovements) := by
  unfold handleMovementRequest
  split
  · exact .cons rfl stays_nil
  · split
    · exact .cons rfl stays_nil
    · exact .cons rfl (.cons rfl stays_nil)
    · exact .cons rfl (.cons rfl (.cons rfl stays_nil))

theorem enters_handleChangeMap (s : Server) (c currentMapId targetMapId : Int) (calls : Nat) :
    Stays (handleChangeMap s c currentMapId targetMapId calls) ∨
      Enters c (handleChangeMap s c currentMapId targetMapId calls) := by
  unfold handleChangeMap
  cases htransition : transition s c currentMapId targetMapId with
  | none => exact .inl stays_nil
  | some cell =>
    refine .inr ⟨[.leaveMap currentMapId, .send .currentMap], targetMapId, wrap16 cell, true,
      [.writePosition targetMapId cell, .setMap targetMapId] ++ .replicate calls .query, rfl, ?_, ?_⟩
    · simp [Op.isQuiet]
    · intro op hop
      simp only [List.mem_append, List.mem_cons, List.not_mem_nil, or_false, List.mem_replicate] at hop
      rcases hop with (rfl | rfl) | ⟨-, rfl⟩
      · exact .inl rfl
      · exact .inr (.inr ⟨_, rfl⟩)
      · exact .inl rfl

/-- A fight starts away from the map. -/
theorem startFight_calm (s : Server) (row : Row) (mapId : Int) (nextMarkId drawn : Nat) :
    ∀ op ∈ startFight s row mapId nextMarkId drawn, op.isCalm = true := by
  intro op hop
  simp only [startFight, plain, List.mem_append, List.mem_cons, List.mem_replicate, List.not_mem_nil, or_false] at hop
  rcases hop with (((rfl | rfl) | ⟨-, rfl⟩) | ⟨-, rfl⟩) | rfl <;> rfl

/-- A selection shows nothing of a map. -/
theorem handleCharacterSelection_calm (s : Server) (ps : Session) (c : Int) :
    ∀ op ∈ handleCharacterSelection s ps c, op.isCalm = true := by
  intro op hop
  unfold handleCharacterSelection at hop
  split at hop
  · split at hop
    · simp only [List.mem_append, List.mem_cons, plain, List.mem_replicate, List.not_mem_nil, or_false] at hop
      rcases hop with (rfl | ⟨-, rfl⟩) | rfl | rfl <;> rfl
    · simp only [List.mem_cons, List.not_mem_nil, or_false] at hop
      rcases hop with rfl | rfl <;> rfl
  · simp only [List.mem_cons, List.not_mem_nil, or_false] at hop
    rcases hop with rfl | rfl <;> rfl

/-- Whatever the message, its handler enters a map once, or does not touch what the client shows. -/
theorem enters_handle (s : Server) (i : Nat) (m : Message) :
    (∀ op ∈ handle s i m, op.isCalm = true) ∨
      ∃ c, (s.sessions i).characterId = some c ∧ Enters c (handle s i m) := by
  -- a request of a fight enters a map if it ends the fight
  have hserve {f : Fight} {c : Int} (hc : (s.sessions i).characterId = some c) (r : Request) (calls : Nat) :
      (∀ op ∈ serveFight s c f r calls, op.isCalm = true) ∨
        ∃ c', (s.sessions i).characterId = some c' ∧ Enters c' (serveFight s c f r calls) :=
    (enters_serveFight s c f r calls).imp Stays.calm fun h => ⟨c, hc, h⟩
  cases m with
  | characterSelection c => exact .inl (handleCharacterSelection_calm s (s.sessions i) c)
  | gameContextCreateRequest =>
    simp only [handle]
    cases hc : (s.sessions i).characterId with
    | none => exact .inl stays_nil.calm
    | some c =>
      dsimp only
      cases hrow : s.getCharacter c with
      | none => exact .inl (Stays.cons rfl stays_nil).calm
      | some row =>
        have henters := (enters_handleGameContextCreate row).append (x := row.homeMap)
          (show Stays [.send .plain] from .cons rfl stays_nil)
        rw [id_of_getCharacter hrow] at henters
        exact .inr ⟨c, rfl, Stays.enters (.cons rfl stays_nil) henters⟩
  | attackMonster nextMarkId drawn =>
    refine .inl ?_
    simp only [handle]
    split
    · refine List.forall_mem_cons.2 ⟨rfl, ?_⟩
      split
      · exact startFight_calm s _ _ nextMarkId drawn
      · exact stays_nil.calm
    · exact stays_nil.calm
  | fight r calls =>
    simp only [handle]
    split
    · rename_i f c _ hc
      exact hserve hc r calls
    · exact .inl stays_nil.calm
  | mapMovementRequest mapId keyMovements =>
    simp only [handle]
    split
    · rename_i f c _ hc
      exact hserve hc (.movement keyMovements) 0
    · split
      · exact .inl (stays_handleMovementRequest s _ mapId keyMovements).calm
      · exact .inl stays_nil.calm
    · exact .inl stays_nil.calm
  | mapMovementConfirm =>
    refine .inl (Stays.calm ?_)
    simp only [handle]
    split
    · unfold handleMovementConfirm
      split
      · exact .cons rfl stays_nil
      · exact .cons rfl (.cons rfl stays_nil)
    · exact stays_nil
  | mapMovementCancel cellId =>
    refine .inl (Stays.calm ?_)
    simp only [handle]
    split
    · exact .cons rfl (.cons rfl stays_nil)
    · exact stays_nil
  | changeMap mapId calls =>
    simp only [handle]
    split
    · split
      · rcases enters_handleChangeMap s _ _ mapId calls with h | h
        · exact .inl (Stays.cons rfl h).calm
        · exact .inr ⟨_, ‹_›, Stays.enters (.cons rfl stays_nil) h⟩
      · exact .inl (Stays.cons rfl stays_nil).calm
    · exact .inl stays_nil.calm
  | other calls => exact .inl (stays_replicate rfl).calm

/-! ### What a client will show -/

/-- What the client will show when the handler has sent the rest of its messages, if `present` are the characters it
will find on the map. -/
def told (present : List Int) : List Op → List Int → List Int → List Int
  | [], _, shown => shown
  | .readPlayers _ :: ops, _, shown => told present ops present shown
  | .send m :: ops, players, shown => told present ops players (m.display players shown)
  | _ :: ops, players, shown => told present ops players shown

section

variable {x : Int}

theorem mem_direct_display_congr {m : Direct} {players players' shown shown' : List Int}
    (hp : x ∈ players ↔ x ∈ players') (hs : x ∈ shown ↔ x ∈ shown') :
    x ∈ m.display players shown ↔ x ∈ m.display players' shown' := by
  cases m with
  | currentMap => exact Iff.rfl
  | mapComplementary withPlayers =>
    cases withPlayers
    · exact Iff.rfl
    · exact hp
  | showActor c =>
    simp only [Direct.display]
    by_cases hc : x = c
    · subst hc
      by_cases h : x ∈ players
      · simp [h, hp.1 h]
      · simp [h, mt hp.2 h, hs]
    · have hinsert (b : Prop) [Decidable b] (l : List Int) : (x ∈ if b then l.insert c else l) ↔ x ∈ l := by
        split
        · simp [List.mem_insert_iff, hc]
        · rfl
      rw [hinsert, hinsert, hs]
  | plain => exact hs
  | fightEnd => exact hs

/-- Whether a character will be shown depends on nobody else. -/
theorem mem_told_congr {present present' : List Int} {ops : List Op} {players players' shown shown' : List Int}
    (hpresent : x ∈ present ↔ x ∈ present') (hp : x ∈ players ↔ x ∈ players') (hs : x ∈ shown ↔ x ∈ shown') :
    x ∈ told present ops players shown ↔ x ∈ told present' ops players' shown' := by
  induction ops generalizing players players' shown shown' with
  | nil => exact hs
  | cons op ops ih =>
    cases op with
    | readPlayers mapId => exact ih hpresent hs
    | send m => exact ih hp (mem_direct_display_congr hp hs)
    | _ => exact ih hp hs

theorem mem_broadcast_display_congr {b : Broadcast} {shown shown' : List Int} (hs : x ∈ shown ↔ x ∈ shown') :
    x ∈ b.display shown ↔ x ∈ b.display shown' := by
  cases b with
  | showActor c => simp only [Broadcast.display, List.mem_insert_iff, hs]
  | removeActor c => simp only [Broadcast.display, List.mem_filter, hs]
  | mapMovement keyMovements actorId => exact hs

theorem mem_drain_congr {queue : List Broadcast} {shown shown' : List Int} (hs : x ∈ shown ↔ x ∈ shown') :
    x ∈ drain queue shown ↔ x ∈ drain queue shown' := by
  induction queue generalizing shown shown' with
  | nil => exact hs
  | cons b queue ih => exact ih (mem_broadcast_display_congr hs)

theorem drain_append (queue queue' : List Broadcast) (shown : List Int) :
    drain (queue ++ queue') shown = drain queue' (drain queue shown) := List.foldl_append ..

/-- The last message about a character decides. -/
theorem mem_drain_replicate {b : Broadcast} {n : Nat} (hn : 0 < n) {shown : List Int} :
    x ∈ drain (.replicate n b) shown ↔ x ∈ b.display shown := by
  induction n generalizing shown with
  | zero => cases hn
  | succ n ih =>
    rw [List.replicate_succ]
    rcases Nat.eq_zero_or_pos n with rfl | hn
    · rfl
    · refine (ih hn).trans ?_
      cases b with
      | showActor c => simp [Broadcast.display]
      | removeActor c => simp [Broadcast.display]
      | mapMovement keyMovements actorId => rfl

/-- A broadcast that reaches a client, or does not. -/
theorem mem_drain_broadcast {w : World} {players : List MapPlayer} {b : Broadcast} {i : Nat} {shown : List Int} :
    x ∈ drain ((w.broadcast players b).queue i) shown ↔
      if ∃ p ∈ players, p.tx = i then x ∈ b.display (drain (w.queue i) shown) else x ∈ drain (w.queue i) shown := by
  obtain ⟨n, hqueue, hn⟩ := @World.queue_broadcast w b players i
  rw [hqueue, drain_append]
  rcases Nat.eq_zero_or_pos n with rfl | hpos
  · rw [if_neg (mt hn.2 (Nat.lt_irrefl 0))]
    rfl
  · rw [if_pos (hn.1 hpos), mem_drain_replicate hpos]

theorem mem_characters_joinMap {w : World} {mapId mapId' : Int} {p : MapPlayer} :
    x ∈ ((w.joinMap mapId p).maps mapId').characters ↔
      x ∈ (w.maps mapId').characters ∨ mapId' = mapId ∧ x = p.characterId := by
  simp only [WorldMap.mem_characters, World.mem_joinMap]
  constructor
  · rintro ⟨q, ⟨hq, -⟩ | ⟨hmap, rfl⟩, rfl⟩
    · exact .inl ⟨q, hq, rfl⟩
    · exact .inr ⟨hmap, rfl⟩
  · rintro (⟨q, hq, rfl⟩ | ⟨hmap, rfl⟩)
    · by_cases hsame : mapId' = mapId ∧ q.characterId = p.characterId
      · exact ⟨p, .inr ⟨hsame.1, rfl⟩, hsame.2.symm⟩
      · exact ⟨q, .inl ⟨hq, fun hmap hc => hsame ⟨hmap, hc⟩⟩, rfl⟩
    · exact ⟨p, .inr ⟨hmap, rfl⟩, rfl⟩

theorem mem_characters_leaveMap {w : World} {mapId mapId' c : Int} :
    x ∈ ((w.leaveMap mapId c).maps mapId').characters ↔ x ∈ (w.maps mapId').characters ∧
    (mapId' = mapId → x ≠ c) := by
  simp only [WorldMap.mem_characters, World.mem_leaveMap]
  constructor
  · rintro ⟨q, ⟨hq, hne⟩, rfl⟩
    exact ⟨⟨q, hq, rfl⟩, hne⟩
  · rintro ⟨⟨q, hq, rfl⟩, hne⟩
    exact ⟨q, ⟨hq, hne⟩, rfl⟩

theorem mem_characters_updatePlayerCell {w : World} {mapId mapId' c cellId : Int} :
    x ∈ ((w.updatePlayerCell mapId c cellId).maps mapId').characters ↔ x ∈ (w.maps mapId').characters := by
  simp only [WorldMap.mem_characters, World.mem_updatePlayerCell]
  constructor
  · rintro ⟨q, ⟨p, hp, rfl⟩, rfl⟩
    refine ⟨p, hp, ?_⟩
    split <;> rfl
  · rintro ⟨p, hp, rfl⟩
    refine ⟨_, ⟨p, hp, rfl⟩, ?_⟩
    split <;> rfl

end

/-! ### Those present and those shown -/

/-- Each client has at most one entry. -/
def Single (w : World) (i : Nat) : Prop :=
  ∀ mapId mapId' p p', p ∈ (w.maps mapId).players → p' ∈ (w.maps mapId').players → p.tx = i → p'.tx = i →
    mapId = mapId' ∧ p = p'

/-- The client has no entry. -/
def Nowhere (w : World) (i : Nat) : Prop := ∀ mapId, ∀ p ∈ (w.maps mapId).players, p.tx ≠ i

/-- On the map where the client of a session has its entry `p`, every other character is present and will be shown in
the way `r` says. -/
def Tracks (r : Prop → Prop → Prop) (w : World) (i : Nat) (ps : Session) (mapId : Int) (p : MapPlayer) : Prop :=
  ∀ x, x ≠ p.characterId →
    r (x ∈ (w.maps mapId).characters)
      (x ∈ drain (w.queue i) (told (w.maps mapId).characters ps.pending ps.players ps.display))

/-- On the map that a session without an entry has recorded, every character is present and will be shown in the way
`r` says. -/
def Recalls (r : Prop → Prop → Prop) (w : World) (i : Nat) (ps : Session) : Prop :=
  ∀ mapId, ps.mapId = some mapId → ∀ x, r (x ∈ (w.maps mapId).characters) (x ∈ drain (w.queue i) ps.display)

/-- What a session is doing: it is about to enter a map, or it stands on the one it records, or on none. -/
inductive Phase (r : Prop → Prop → Prop) (w : World) (i : Nat) (ps : Session) : Prop where
  | entering {c : Int} (hc : ps.characterId = some c) (h : Enters c ps.pending)
  | standing {mapId : Int} {p : MapPlayer} (hp : p ∈ (w.maps mapId).players) (htx : p.tx = i)
      (hmap : recorded ps.mapId ps.pending = some mapId)
      (hpending : (∀ op ∈ ps.pending, op.Settles mapId p.characterId) ∨ ∀ op ∈ ps.pending, op.isCalm = true)
      (htold : Tracks r w i ps mapId p)
  | away (hnone : Nowhere w i) (hpending : ∀ op ∈ ps.pending, op.isCalm = true) (htold : Recalls r w i ps)

section

variable {r : Prop → Prop → Prop} {w : World} {i : Nat} {ps : Session} {mapId c cellId : Int} {q : MapPlayer}

theorem single_leaveMap (h : Single w i) : Single (w.leaveMap mapId c) i :=
  fun _ _ _ _ hp hp' => h _ _ _ _ (World.mem_leaveMap.1 hp).1 (World.mem_leaveMap.1 hp').1

theorem single_joinMap (h : Single w i) (hq : q.tx ≠ i) : Single (w.joinMap mapId q) i := by
  intro m m' p p' hp hp' htx htx'
  rcases World.mem_joinMap.1 hp with ⟨hp, -⟩ | ⟨-, rfl⟩
  · rcases World.mem_joinMap.1 hp' with ⟨hp', -⟩ | ⟨-, rfl⟩
    · exact h m m' p p' hp hp' htx htx'
    · exact absurd htx' hq
  · exact absurd htx hq

theorem single_enter (h : ∀ mapId, ∀ p ∈ (w.maps mapId).players, p.tx ≠ i) : Single (w.joinMap mapId q) i := by
  intro m m' p p' hp hp' htx htx'
  rcases World.mem_joinMap.1 hp with ⟨hp, -⟩ | ⟨rfl, rfl⟩
  · exact absurd htx (h m p hp)
  · rcases World.mem_joinMap.1 hp' with ⟨hp', -⟩ | ⟨rfl, rfl⟩
    · exact absurd htx' (h m' p' hp')
    · exact ⟨rfl, rfl⟩

theorem single_updatePlayerCell (h : Single w i) : Single (w.updatePlayerCell mapId c cellId) i := by
  intro m m' p p' hp hp' htx htx'
  obtain ⟨q, hq, rfl⟩ := World.mem_updatePlayerCell.1 hp
  obtain ⟨q', hq', rfl⟩ := World.mem_updatePlayerCell.1 hp'
  have hsame (b : Prop) [Decidable b] (p : MapPlayer) : (if b then { p with cellId := cellId } else p).tx = p.tx := by
    split <;> rfl
  rw [hsame] at htx htx'
  obtain ⟨rfl, rfl⟩ := h m m' q q' hq hq' htx htx'
  exact ⟨rfl, rfl⟩

/-- Somebody leaves: if it is from the map of the client, the client is told. -/
theorem tracks_leaveMap {m : Int} {p : MapPlayer} (hr : ∀ a, r a a) (hsingle : Single w i)
    (hp : p ∈ (w.maps m).players) (htx : p.tx = i) (hstill : m = mapId → p.characterId ≠ c)
    (h : Tracks r w i ps m p) :
    Tracks r (w.leaveMap mapId c) i ps m p := by
  intro x hx
  have hrel := h x hx
  have hpresent := @mem_characters_leaveMap x w mapId m c
  by_cases hm : m = mapId
  · subst hm
    -- the entry of the client is still there, so the client is told
    have hthere : ∃ p' ∈ ((w.maps m).remove c).players, p'.tx = i :=
      ⟨p, WorldMap.mem_remove.2 ⟨hp, hstill rfl⟩, htx⟩
    have hdrain (shown : List Int) :
        x ∈ drain ((w.leaveMap m c).queue i) shown ↔ x ∈ drain (w.queue i) shown ∧ x ≠ c := by
      refine mem_drain_broadcast.trans ?_
      rw [if_pos hthere]
      simp [Broadcast.display]
    rw [propext (hdrain _), propext hpresent]
    by_cases hxc : x = c
    · simp only [hxc, ne_eq, not_true_eq_false, and_false, true_implies]
      exact hr False
    · simp only [ne_eq, hxc, not_false_eq_true, and_true, implies_true] at hpresent ⊢
      rw [propext (mem_drain_congr (mem_told_congr hpresent Iff.rfl Iff.rfl))]
      exact hrel
  · -- the client has no entry on the other map
    have hnot : ¬∃ p' ∈ ((w.maps mapId).remove c).players, p'.tx = i := by
      rintro ⟨p', hp', htx'⟩
      exact hm (hsingle m mapId p p' hp (WorldMap.mem_remove.1 hp').1 htx htx').1
    have hmap : (w.leaveMap mapId c).maps m = w.maps m := Function.update_of_ne hm ..
    have hdrain (shown : List Int) :
        x ∈ drain ((w.leaveMap mapId c).queue i) shown ↔ x ∈ drain (w.queue i) shown := by
      refine mem_drain_broadcast.trans ?_
      rw [if_neg hnot]
    rw [hmap, propext (hdrain _)]
    exact hrel

/-- Somebody else joins: if it is the map of the client, the client is told. -/
theorem tracks_joinMap {m : Int} {p : MapPlayer} (hr : ∀ a, r a a) (hsingle : Single w i)
    (hp : p ∈ (w.maps m).players) (htx : p.tx = i) (h : Tracks r w i ps m p) :
    Tracks r (w.joinMap mapId q) i ps m p := by
  intro x hx
  have hrel := h x hx
  have hpresent := @mem_characters_joinMap x w mapId m q
  by_cases hm : m = mapId
  · subst hm
    have hthere : ∃ p' ∈ (w.maps m).players, p'.tx = i := ⟨p, hp, htx⟩
    have hdrain (shown : List Int) : x ∈ drain ((w.joinMap m q).queue i) shown ↔
        x = q.characterId ∨ x ∈ drain (w.queue i) shown := by
      refine mem_drain_broadcast.trans ?_
      rw [if_pos hthere]
      simp [Broadcast.display]
    rw [propext (hdrain _), propext hpresent]
    by_cases hxq : x = q.characterId
    · simp only [hxq, and_self, or_true, true_or]
      exact hr True
    · simp only [hxq, and_false, or_false, false_or] at hpresent ⊢
      rw [propext (mem_drain_congr (mem_told_congr hpresent Iff.rfl Iff.rfl))]
      exact hrel
  · have hnot : ¬∃ p' ∈ (w.maps mapId).players, p'.tx = i := by
      rintro ⟨p', hp', htx'⟩
      exact hm (hsingle m mapId p p' hp hp' htx htx').1
    have hmap : (w.joinMap mapId q).maps m = w.maps m := Function.update_of_ne hm ..
    have hdrain (shown : List Int) : x ∈ drain ((w.joinMap mapId q).queue i) shown ↔ x ∈ drain (w.queue i) shown := by
      refine mem_drain_broadcast.trans ?_
      rw [if_neg hnot]
    rw [hmap, propext (hdrain _)]
    exact hrel

/-- A client without an entry is told of nobody who leaves. -/
theorem recalls_leaveMap (hnone : ∀ p ∈ ((w.maps mapId).remove c).players, p.tx ≠ i)
    (hc : ps.mapId = some mapId → r False (c ∈ drain (w.queue i) ps.display))
    (h : ∀ m, ps.mapId = some m → ∀ x, (m = mapId → x ≠ c) →
      r (x ∈ (w.maps m).characters) (x ∈ drain (w.queue i) ps.display)) : Recalls r (w.leaveMap mapId c) i ps := by
  intro m hm x
  have hnot : ¬∃ p ∈ ((w.maps mapId).remove c).players, p.tx = i := by
    rintro ⟨p, hp, htx⟩
    exact hnone p hp htx
  have hdrain : x ∈ drain ((w.leaveMap mapId c).queue i) ps.display ↔ x ∈ drain (w.queue i) ps.display := by
    refine mem_drain_broadcast.trans ?_
    rw [if_neg hnot]
  rw [propext hdrain, propext mem_characters_leaveMap]
  by_cases hx : m = mapId ∧ x = c
  · obtain ⟨rfl, rfl⟩ := hx
    simpa using hc hm
  · have hne : m = mapId → x ≠ c := fun hm hxc => hx ⟨hm, hxc⟩
    rw [propext (and_iff_left hne)]
    exact h m hm x hne

/-- Or who joins. -/
theorem recalls_joinMap (hnone : ∀ p ∈ (w.maps mapId).players, p.tx ≠ i)
    (hq : ps.mapId = some mapId → r True (q.characterId ∈ drain (w.queue i) ps.display)) (h : Recalls r w i ps) :
    Recalls r (w.joinMap mapId q) i ps := by
  intro m hm x
  have hnot : ¬∃ p ∈ (w.maps mapId).players, p.tx = i := by
    rintro ⟨p, hp, htx⟩
    exact hnone p hp htx
  have hdrain : x ∈ drain ((w.joinMap mapId q).queue i) ps.display ↔ x ∈ drain (w.queue i) ps.display := by
    refine mem_drain_broadcast.trans ?_
    rw [if_neg hnot]
  rw [propext hdrain, propext mem_characters_joinMap]
  by_cases hx : m = mapId ∧ x = q.characterId
  · obtain ⟨rfl, rfl⟩ := hx
    simpa using hq hm
  · simpa [hx] using h m hm x

/-! ### The operations of another session -/

theorem Phase.leaveMap (hr : ∀ a, r a a) (hsingle : Single w i)
    (hown : ∀ p ∈ (w.maps mapId).players, p.characterId = c → p.tx ≠ i)
    (haway : Nowhere w i → (∀ op ∈ ps.pending, op.isCalm = true) → ps.mapId = some mapId →
      r False (c ∈ drain (w.queue i) ps.display)) (h : Phase r w i ps) : Phase r (w.leaveMap mapId c) i ps := by
  cases h with
  | entering hc h => exact .entering hc h
  | @standing m p hp htx hmap hpending htold =>
    have hstill : m = mapId → p.characterId ≠ c := by
      rintro rfl hpc
      exact hown p hp hpc htx
    exact .standing (World.mem_leaveMap.2 ⟨hp, hstill⟩) htx hmap hpending
      (tracks_leaveMap hr hsingle hp htx hstill htold)
  | away hnone hpending htold =>
    refine .away (fun m p hp => hnone m p (World.mem_leaveMap.1 hp).1) hpending ?_
    exact recalls_leaveMap (fun p hp => hnone mapId p (WorldMap.mem_remove.1 hp).1) (haway hnone hpending)
      fun m hm x _ => htold m hm x

theorem Phase.joinMap (hr : ∀ a, r a a) (hsingle : Single w i) (hq : q.tx ≠ i)
    (hown : ∀ p ∈ (w.maps mapId).players, p.characterId = q.characterId → p.tx ≠ i)
    (haway : Nowhere w i → (∀ op ∈ ps.pending, op.isCalm = true) → ps.mapId = some mapId →
      r True (q.characterId ∈ drain (w.queue i) ps.display)) (h : Phase r w i ps) :
    Phase r (w.joinMap mapId q) i ps := by
  cases h with
  | entering hc h => exact .entering hc h
  | @standing m p hp htx hmap hpending htold =>
    refine .standing (World.mem_joinMap.2 (.inl ⟨hp, ?_⟩)) htx hmap hpending (tracks_joinMap hr hsingle hp htx htold)
    rintro rfl hpc
    exact hown p hp hpc htx
  | away hnone hpending htold =>
    refine .away (fun m p hp htx => ?_) hpending (recalls_joinMap (hnone mapId) (haway hnone hpending) htold)
    rcases World.mem_joinMap.1 hp with ⟨hp, -⟩ | ⟨-, rfl⟩
    · exact hnone m p hp htx
    · exact hq htx

/-- A change of cells moves nobody to another map. -/
theorem Phase.updatePlayerCell (h : Phase r w i ps) : Phase r (w.updatePlayerCell mapId c cellId) i ps := by
  have hsame (b : Prop) [Decidable b] (p : MapPlayer) :
      (if b then { p with cellId := cellId } else p).tx = p.tx ∧
        (if b then { p with cellId := cellId } else p).characterId = p.characterId := by
    split <;> exact ⟨rfl, rfl⟩
  cases h with
  | entering hc h => exact .entering hc h
  | @standing m p hp htx hmap hpending htold =>
    refine .standing (World.mem_updatePlayerCell.2 ⟨p, hp, rfl⟩) ((hsame ..).1.trans htx) hmap ?_ fun x hx => ?_
    · rw [(hsame ..).2]
      exact hpending
    · rw [(hsame ..).2] at hx
      have hpresent := @mem_characters_updatePlayerCell x w mapId m c cellId
      have htold' := @mem_drain_congr _ (w.queue i) _ _
        (@mem_told_congr _ _ _ ps.pending ps.players _ ps.display _ hpresent Iff.rfl Iff.rfl)
      rw [World.queue_updatePlayerCell, propext htold', propext hpresent]
      exact htold x hx
  | away hnone hpending htold =>
    refine .away (fun m p hp htx => ?_) hpending fun m hm x => ?_
    · obtain ⟨q, hq, rfl⟩ := World.mem_updatePlayerCell.1 hp
      rw [(hsame ..).1] at htx
      exact hnone m q hq htx
    · rw [World.queue_updatePlayerCell, propext mem_characters_updatePlayerCell]
      exact htold m hm x

/-- Movements show nobody. -/
theorem Phase.broadcastToMap {keyMovements : List Int16} {actorId : Int} (h : Phase r w i ps) :
    Phase r (w.broadcastToMap mapId (.mapMovement keyMovements actorId)) i ps := by
  have hdrain {x : Int} {shown : List Int} :
      x ∈ drain ((w.broadcastToMap mapId (.mapMovement keyMovements actorId)).queue i) shown ↔
        x ∈ drain (w.queue i) shown := by
    rw [World.broadcastToMap, propext mem_drain_broadcast]
    split <;> rfl
  cases h with
  | entering hc h => exact .entering hc h
  | standing hp htx hmap hpending htold =>
    refine .standing hp htx hmap hpending fun x hx => ?_
    rw [propext hdrain]
    exact htold x hx
  | away hnone hpending htold =>
    refine .away hnone hpending fun m hm x => ?_
    rw [propext hdrain]
    exact htold m hm x

end

end Otomai.Handlers
