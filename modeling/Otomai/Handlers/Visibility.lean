import Otomai.Handlers.Display

/-!
# Everyone sees everyone, and nobody else

Whether a client shows exactly the characters of its map is decided when its session joins the map: from then on it is
told of whoever joins and leaves, until it leaves the map itself.  What may be wrong when it joins is what the rest of
the handler sends, and what is still in the queue; what goes wrong once it has left for a fight is that it keeps its
map and its display and is told of nobody.

* `everyone_is_shown`: no client misses a character, if none joins a map where somebody is whom it is not told of, and
  nobody comes to the map of a fighter.
* `no_ghosts`: no client shows a character that is elsewhere, if none joins a map while it has one to be shown, and no
  fighter shows who leaves.
-/

namespace Otomai.Handlers

open Machine Otomai.Common Otomai.Combat Trace

/-- The handler is about to send the players of the map. -/
def tells (rest : List Op) : Bool := rest.contains (.send (.mapComplementary true))

/-- A character that is about to be present on a map, or to be absent. -/
structure Change where
  session : Nat
  characterId : Int
  mapId : Int
  present : Bool
  deriving DecidableEq

def change (s : Server) : Event → Option Change
  | .advance i =>
    match (s.sessions i).pending, (s.sessions i).characterId with
    | .joinMap mapId _ :: _, some c => some ⟨i, c, mapId, true⟩
    | .leaveMap mapId :: _, some c => some ⟨i, c, mapId, false⟩
    | .depart :: _, some c => (s.sessions i).mapId.map fun mapId => ⟨i, c, mapId, false⟩
    | _, _ => none
  | _ => none

/-- The session does not join a map before its next message. -/
def Remains (ops : List Op) : Prop := ∀ mapId cellId, .joinMap mapId cellId ∉ ops

/-- The clients have a way to learn of who joins and leaves. -/
structure Noticed (r : Prop → Prop → Prop) (s : Server) (e : Event) : Prop where
  /-- When a session joins a map, it is on no map, it then records this one, and every other character is present
  there and will be shown in the way `r` says. -/
  joins : ∀ i mapId cellId rest c, e = .advance i → (s.sessions i).pending = .joinMap mapId cellId :: rest →
    (s.sessions i).characterId = some c → Nowhere s.world i ∧ recorded (s.sessions i).mapId rest = some mapId ∧
      ∀ x, x ≠ c → r (x ∈ (s.world.maps mapId).characters)
        (x ∈ drain (s.world.queue i) (if tells rest then (s.world.maps mapId).characters else []))
  /-- When a session leaves its map for a fight, its client goes on showing its character in the way `r` says. -/
  leaves : ∀ i mapId rest c, e = .advance i → (s.sessions i).pending = .leaveMap mapId :: rest → Remains rest →
    (s.sessions i).characterId = some c → (s.sessions i).mapId = some mapId →
      r False (c ∈ drain (s.world.queue i) (s.sessions i).display)
  /-- Nobody joins or leaves for a character that stands there for another session. -/
  own : ∀ ch, change s e = some ch → ∀ p ∈ (s.world.maps ch.mapId).players, p.characterId = ch.characterId →
    p.tx = ch.session
  /-- Whoever joins or leaves the map of a session that stands on none is shown by its client in the way `r` says. -/
  recalled : ∀ ch, change s e = some ch → ∀ i, i ≠ ch.session → (s.sessions i).isOpen = true → Nowhere s.world i →
    Remains (s.sessions i).pending → (s.sessions i).mapId = some ch.mapId →
      r (ch.present = true) (ch.characterId ∈ drain (s.world.queue i) (s.sessions i).display)

/-- The client of a session has one entry at most, and is told of the map. -/
structure Watched (r : Prop → Prop → Prop) (s : Server) (i : Nat) : Prop where
  single : Single s.world i
  phase : (s.sessions i).isOpen = true → Phase r s.world i (s.sessions i)

/-! ### The operations of the session itself -/

theorem not_join_of_calm {ops : List Op} (h : ∀ op ∈ ops, op.isCalm = true) : Remains ops := by
  intro mapId cellId hmem
  cases h _ hmem

theorem told_calm {ops : List Op} (h : ∀ op ∈ ops, op.isCalm = true) {present players shown : List Int} :
    told present ops players shown = shown := by
  induction ops with
  | nil => rfl
  | cons op ops ih =>
    have hop := h op List.mem_cons_self
    have hrest := ih fun op' hop' => h op' (List.mem_cons_of_mem op hop')
    cases op with
    | send m => cases m <;> first | exact hrest | cases hop
    | readPlayers mapId => cases hop
    | _ => exact hrest

theorem recorded_calm {ops : List Op} (h : ∀ op ∈ ops, op.isCalm = true) {mapId : Option Int} :
    recorded mapId ops = mapId := by
  induction ops with
  | nil => rfl
  | cons op ops ih =>
    have hop := h op List.mem_cons_self
    have hrest := ih fun op' hop' => h op' (List.mem_cons_of_mem op hop')
    cases op with
    | setMap x => cases hop
    | _ => exact hrest

theorem enters_ne_nil {c : Int} : ¬Enters c [] := by
  rintro ⟨before, mapId, cellId, withPlayers, rest, heq, -, -⟩
  cases before <;> cases heq

/-- A session that is about to enter a map does so now, or goes on. -/
theorem enters_cons {c : Int} {op : Op} {rest : List Op} (h : Enters c (op :: rest)) :
    (op.isQuiet = true ∨ op = .send .currentMap ∨ ∃ x, op = .leaveMap x) ∧ Enters c rest ∨
      ∃ mapId cellId withPlayers ops, op = .joinMap mapId cellId ∧
        rest = .readPlayers mapId :: .send (.mapComplementary withPlayers) :: ops ∧
          ∀ op ∈ ops, op.isQuiet = true ∨ op = .send (.showActor c) ∨ ∃ x, op = .setMap x := by
  obtain ⟨before, mapId, cellId, withPlayers, ops, heq, hbefore, hops⟩ := h
  cases before with
  | nil =>
    cases heq
    exact .inr ⟨mapId, cellId, withPlayers, ops, rfl, rfl, hops⟩
  | cons op' before =>
    cases heq
    exact .inl ⟨hbefore op List.mem_cons_self, before, mapId, cellId, withPlayers, ops, rfl,
      fun op' hop' => hbefore op' (List.mem_cons_of_mem op hop'), hops⟩

section

variable {r : Prop → Prop → Prop} {w : World} {ps : Session} {i clock : Nat} {op : Op} {rest ops : List Op}

/-- What the client will show is the same before and after an operation that shows it something, or nothing. -/
theorem told_perform {mapId c : Int} (hop : op.Settles mapId c ∨ op.isCalm = true) :
    told (w.maps mapId).characters (op :: rest) ps.players ps.display =
      told (w.maps mapId).characters rest (ps.perform w clock op).players (ps.perform w clock op).display := by
  have hcalm (h : op.isCalm = true) : told (w.maps mapId).characters (op :: rest) ps.players ps.display =
      told (w.maps mapId).characters rest (ps.perform w clock op).players (ps.perform w clock op).display := by
    cases op with
    | send m => cases m <;> rfl
    | joinMap mapId cellId => cases h
    | readPlayers mapId => cases h
    | _ => rfl
  rcases hop with hop | hop
  · cases hop with
    | quiet hquiet => exact hcalm (Op.isCalm_of_isQuiet hquiet)
    | setMap x => rfl
    | readPlayers => rfl
    | mapComplementary withPlayers => rfl
    | showActor => rfl
  · exact hcalm hop

theorem recorded_perform : recorded (ps.perform w clock op).mapId rest = recorded ps.mapId (op :: rest) := by
  cases op <;> rfl

theorem calm_perform (hop : op.isCalm = true) :
    (ps.perform w clock op).mapId = ps.mapId ∧ (ps.perform w clock op).display = ps.display := by
  cases op with
  | send m => cases m <;> first | exact ⟨rfl, rfl⟩ | cases hop
  | setMap x => cases hop
  | readPlayers mapId => cases hop
  | _ => exact ⟨rfl, rfl⟩

/-- An operation that joins no map, as far as it concerns the session itself. -/
theorem Phase.next (h : Phase r w i ps) (hpending : ps.pending = op :: rest)
    (hop : ∀ mapId cellId, op ≠ .joinMap mapId cellId)
    (hopen : (({ ps with pending := rest } : Session).perform w clock op).isOpen = true) :
    Phase r w i (({ ps with pending := rest } : Session).perform w clock op) := by
  have hrest := pending_perform hopen
  cases h with
  | @entering c hc henters =>
    rw [hpending] at henters
    rcases enters_cons henters with ⟨hquiet, henters⟩ | ⟨mapId, cellId, _, _, rfl, -⟩
    · refine .entering ?_ (by rw [hrest]; exact henters)
      rw [characterId_perform]
      · exact hc
      · rintro c' rfl
        rcases hquiet with hquiet | hquiet | ⟨x, hquiet⟩ <;> cases hquiet
    · exact absurd rfl (hop mapId cellId)
  | @standing mapId p hp htx hmap hpend htold =>
    rw [hpending] at hmap hpend
    refine .standing hp htx (hrest.symm ▸ recorded_perform.trans hmap) ?_ fun x hx => ?_
    · rw [hrest]
      exact hpend.imp (fun h op' hop' => h op' (List.mem_cons_of_mem op hop'))
        fun h op' hop' => h op' (List.mem_cons_of_mem op hop')
    · have hsame := @told_perform w ({ ps with pending := rest }) clock op rest mapId p.characterId
        (hpend.imp (fun h => h op List.mem_cons_self) fun h => h op List.mem_cons_self)
      rw [hrest, ← hsame, ← hpending]
      exact htold x hx
  | away hnone hpend htold =>
    rw [hpending] at hpend
    obtain ⟨hmap, hdisplay⟩ := @calm_perform w ({ ps with pending := rest }) clock op (hpend op List.mem_cons_self)
    refine .away hnone (hrest ▸ fun op' hop' => hpend op' (List.mem_cons_of_mem op hop')) fun m hm x => ?_
    rw [hmap] at hm
    rw [hdisplay]
    exact htold m hm x

/-- The session leaves a map. -/
theorem Phase.leaveOwn {mapId c : Int} (hr : ∀ a, r a a) (hsingle : Single w i) (h : Phase r w i ps)
    (hcalm : ∀ op ∈ ps.pending, op.isCalm = true)
    (hown : ∀ p ∈ (w.maps mapId).players, p.characterId = c → p.tx = i)
    (hgone : ps.mapId = some mapId → r False (c ∈ drain (w.queue i) ps.display)) :
    Phase r (w.leaveMap mapId c) i ps := by
  cases h with
  | entering hc henters => exact .entering hc henters
  | @standing m p hp htx hmap hpend htold =>
    by_cases hstill : m = mapId → p.characterId ≠ c
    · exact .standing (World.mem_leaveMap.2 ⟨hp, hstill⟩) htx hmap hpend
        (tracks_leaveMap hr hsingle hp htx hstill htold)
    · obtain ⟨rfl, hpc⟩ : m = mapId ∧ p.characterId = c := by simpa using hstill
      rw [recorded_calm hcalm] at hmap
      refine .away (fun m' q hq hqtx => ?_) hcalm (recalls_leaveMap (fun q hq hqtx => ?_) hgone fun m' hm' x hx => ?_)
      · obtain ⟨hq, hne⟩ := World.mem_leaveMap.1 hq
        obtain ⟨rfl, rfl⟩ := hsingle m m' p q hp hq htx hqtx
        exact hne rfl hpc
      · obtain ⟨hq, hne⟩ := WorldMap.mem_remove.1 hq
        obtain ⟨-, rfl⟩ := hsingle m m p q hp hq htx hqtx
        exact hne hpc
      · obtain rfl : m = m' := Option.some.inj (hmap.symm.trans hm')
        have hrel := htold x (hpc ▸ hx rfl)
        rw [told_calm hcalm] at hrel
        exact hrel
  | away hnone hpend htold =>
    refine .away (fun m p hp => hnone m p (World.mem_leaveMap.1 hp).1) hpend ?_
    exact recalls_leaveMap (fun p hp => hnone mapId p (WorldMap.mem_remove.1 hp).1) hgone fun m hm x _ => htold m hm x

/-- A session that leaves a map is about to enter one, or shows nothing more. -/
theorem Phase.leaving {mapId : Int} (h : Phase r w i ps) (hpending : ps.pending = .leaveMap mapId :: rest) :
    (∃ c, ps.characterId = some c ∧ Enters c rest) ∨ ∀ op ∈ rest, op.isCalm = true := by
  cases h with
  | @entering c hc henters =>
    rw [hpending] at henters
    rcases enters_cons henters with ⟨-, henters⟩ | ⟨_, _, _, _, heq, -⟩
    · exact .inl ⟨c, hc, henters⟩
    · cases heq
  | standing hp htx hmap hpend htold =>
    rw [hpending] at hpend
    rcases hpend with hpend | hpend
    · cases hpend _ List.mem_cons_self with
      | quiet hquiet => cases hquiet
    · exact .inr fun op hop => hpend op (List.mem_cons_of_mem _ hop)
  | away hnone hpend htold =>
    rw [hpending] at hpend
    exact .inr fun op hop => hpend op (List.mem_cons_of_mem _ hop)

/-- The rest of a handler that has entered a map tells the client of itself only. -/
theorem mem_told_rest {c x : Int} (hx : x ≠ c)
    (h : ∀ op ∈ ops, op.isQuiet = true ∨ op = .send (.showActor c) ∨ ∃ x, op = .setMap x)
    {present players shown : List Int} : x ∈ told present ops players shown ↔ x ∈ shown := by
  induction ops generalizing shown with
  | nil => rfl
  | cons op ops ih =>
    have hrest := fun {shown} => @ih (fun op' hop' => h op' (List.mem_cons_of_mem op hop')) shown
    rcases h op List.mem_cons_self with hquiet | rfl | ⟨m, rfl⟩
    · cases op with
      | send m => cases m <;> first | exact hrest | cases hquiet
      | readPlayers mapId => cases hquiet
      | _ => exact hrest
    · refine hrest.trans ?_
      simp only [Direct.display]
      split
      · simp [List.mem_insert_iff, hx]
      · rfl
    · exact hrest

/-- A session that joins a map in the way `Noticed` says. -/
theorem Phase.enter {mapId cellId c : Int} {withPlayers : Bool}
    (hrest : rest = .readPlayers mapId :: .send (.mapComplementary withPlayers) :: ops)
    (hops : ∀ op ∈ ops, op.isQuiet = true ∨ op = .send (.showActor c) ∨ ∃ x, op = .setMap x)
    (hnone : Nowhere w i) (hmap : recorded ps.mapId rest = some mapId)
    (hrel : ∀ x, x ≠ c → r (x ∈ (w.maps mapId).characters)
      (x ∈ drain (w.queue i) (if tells rest then (w.maps mapId).characters else [])))
    (hpending : ps.pending = rest) : Phase r (w.joinMap mapId ⟨c, cellId, i⟩) i ps := by
  -- the players are told if the message carries them
  have htells : tells rest = withPlayers := by
    rw [hrest, tells, Bool.eq_iff_iff, List.contains_iff_mem]
    constructor
    · intro hmem
      simp only [List.mem_cons, reduceCtorEq, false_or] at hmem
      rcases hmem with hmem | hmem
      · cases hmem
        rfl
      · rcases hops _ hmem with hquiet | heq | ⟨x, heq⟩
        · cases hquiet
        · cases heq
        · cases heq
    · rintro rfl
      simp
  refine .standing (World.mem_joinMap.2 (.inr ⟨rfl, rfl⟩)) rfl (hpending.symm ▸ hmap) (.inl ?_) ?_
  · rw [hpending, hrest]
    intro op hop
    simp only [List.mem_cons] at hop
    rcases hop with rfl | rfl | hop
    · exact .readPlayers
    · exact .mapComplementary withPlayers
    · rcases hops op hop with hquiet | rfl | ⟨x, rfl⟩
      · exact .quiet hquiet
      · exact .showActor
      · exact .setMap x
  · intro x hx
    have hold := hrel x hx
    have hpresent := @mem_characters_joinMap x w mapId mapId (⟨c, cellId, i⟩)
    simp only [true_and, show x ≠ c from hx, or_false] at hpresent
    -- the session stands nowhere yet, so it is not told of its own coming
    have hnot : ¬∃ q ∈ (w.maps mapId).players, q.tx = i := by
      rintro ⟨q, hq, hqtx⟩
      exact hnone mapId q hq hqtx
    have hdrain (shown : List Int) : x ∈ drain ((w.joinMap mapId ⟨c, cellId, i⟩).queue i) shown ↔
        x ∈ drain (w.queue i) shown := by
      refine mem_drain_broadcast.trans ?_
      rw [if_neg hnot]
    -- who is told and who is announced does not depend on the newcomer
    rw [propext (hdrain _), propext hpresent, hpending, hrest]
    rw [htells] at hold
    have htold : x ∈ told ((w.joinMap mapId ⟨c, cellId, i⟩).maps mapId).characters
        (.readPlayers mapId :: .send (.mapComplementary withPlayers) :: ops) ps.players ps.display ↔
          x ∈ if withPlayers then (w.maps mapId).characters else [] := by
      refine (mem_told_rest hx hops).trans ?_
      cases withPlayers
      · exact Iff.rfl
      · exact hpresent
    rw [propext (mem_drain_congr htold)]
    exact hold

end

/-! ### Runs -/

section

variable {r : Prop → Prop → Prop} {s s' : Server} {e : Event} {i : Nat}

/-- Nobody has touched the session, and what it is told of has not changed. -/
theorem Watched.frame (h : Watched r s i) (hworld : s'.world = s.world) (hsession : s'.sessions i = s.sessions i) :
    Watched r s' i := by
  constructor
  · rw [hworld]
    exact h.single
  · rw [hworld, hsession]
    exact h.phase

/-- The operation of another session. -/
theorem watched_other {j : Nat} {op : Op} {rest : List Op} (hr : ∀ a, r a a) (h : Watched r s i) (hj : j ≠ i)
    (hn : Noticed r s (.advance j)) (hpending : (s.sessions j).pending = op :: rest) :
    Watched r (s.perform j op rest) i := by
  have ht := touch s.world { s.sessions j with pending := rest } j op
  rw [← Server.world_perform] at ht
  have hsession := @Server.sessions_perform_of_ne s j i op rest (Ne.symm hj)
  generalize hworld : (s.perform j op rest).world = w' at ht
  -- the session itself is the same, so only the world counts
  suffices hall : Single w' i ∧ ((s.sessions i).isOpen = true → Phase r w' i (s.sessions i)) by
    refine ⟨hworld ▸ hall.1, fun hopen => ?_⟩
    rw [hsession] at hopen ⊢
    rw [hworld]
    exact hall.2 hopen
  -- what is known of a player that another session takes in or out
  have hchange {ch : Change} (hch : change s (.advance j) = some ch) (hsession : ch.session = j) :
      (∀ p ∈ (s.world.maps ch.mapId).players, p.characterId = ch.characterId → p.tx ≠ i) ∧
        ((s.sessions i).isOpen = true → Nowhere s.world i → (∀ op ∈ (s.sessions i).pending, op.isCalm = true) →
          (s.sessions i).mapId = some ch.mapId →
            r (ch.present = true) (ch.characterId ∈ drain (s.world.queue i) (s.sessions i).display)) := by
    refine ⟨fun p hp hpc => ?_, fun hopen hnone hcalm hmap => ?_⟩
    · rw [hn.own ch hch p hp hpc, hsession]
      exact hj
    · exact hn.recalled ch hch i (hsession ▸ Ne.symm hj) hopen hnone (not_join_of_calm hcalm) hmap
  cases ht with
  | same => exact ⟨h.single, h.phase⟩
  | @join mapId cellId c hc =>
    have hc : (s.sessions j).characterId = some c := hc
    obtain ⟨hown, haway⟩ := @hchange ⟨j, c, mapId, true⟩ (by simp [change, hpending, hc]) rfl
    refine ⟨single_joinMap h.single hj, fun hopen => (h.phase hopen).joinMap hr h.single hj hown ?_⟩
    simpa using haway hopen
  | @leave _ mapId c hc hop =>
    have hc : (s.sessions j).characterId = some c := hc
    obtain ⟨hown, haway⟩ := @hchange ⟨j, c, mapId, false⟩ (by
      rcases hop with rfl | ⟨rfl, hmap⟩
      · simp [change, hpending, hc]
      · simp [change, hpending, hc, show (s.sessions j).mapId = some mapId from hmap]) rfl
    refine ⟨single_leaveMap h.single, fun hopen => (h.phase hopen).leaveMap hr h.single hown ?_⟩
    simpa using haway hopen
  | move hb =>
    subst hb
    exact ⟨h.single, fun hopen => (h.phase hopen).broadcastToMap⟩
  | store hc hop => exact ⟨single_updatePlayerCell h.single, fun hopen => (h.phase hopen).updatePlayerCell⟩

/-- The session joins a map. -/
theorem watched_join {mapId cellId : Int} {rest : List Op} (h : Watched r s i) (hn : Noticed r s (.advance i))
    (hpending : (s.sessions i).pending = .joinMap mapId cellId :: rest) :
    Watched r (s.perform i (.joinMap mapId cellId) rest) i := by
  have hsession : (s.perform i (.joinMap mapId cellId) rest).sessions i = { s.sessions i with pending := rest } :=
    Server.sessions_perform
  have henters (hopen : (s.sessions i).isOpen = true) :
      ∃ c, (s.sessions i).characterId = some c ∧ Enters c (.joinMap mapId cellId :: rest) := by
    have hno (hcalm : ∀ op ∈ (s.sessions i).pending, op.isCalm = true) : False := by
      rw [hpending] at hcalm
      cases hcalm _ List.mem_cons_self
    cases h.phase hopen with
    | entering hc henters => exact ⟨_, hc, hpending ▸ henters⟩
    | standing hp htx hmap hpend htold =>
      rcases hpend with hpend | hpend
      · rw [hpending] at hpend
        cases hpend _ List.mem_cons_self with
        | quiet hquiet => cases hquiet
      · exact (hno hpend).elim
    | away hnone hpend htold => exact (hno hpend).elim
  cases hc : (s.sessions i).characterId with
  | none =>
    -- without a character there is nothing to join, and no handler tries to
    have hworld : (s.perform i (.joinMap mapId cellId) rest).world = s.world := by
      simp [Server.world_perform, World.perform, hc]
    refine ⟨hworld ▸ h.single, fun hafter => ?_⟩
    obtain ⟨c, hsome, -⟩ := henters (isOpen_of_perform hafter)
    rw [hc] at hsome
    cases hsome
  | some c =>
    obtain ⟨hnone, hmap, hrel⟩ := hn.joins i mapId cellId rest c rfl hpending hc
    have hworld : (s.perform i (.joinMap mapId cellId) rest).world = s.world.joinMap mapId ⟨c, cellId, i⟩ := by
      simp [Server.world_perform, World.perform, hc]
    refine ⟨hworld ▸ single_enter hnone, fun hafter => ?_⟩
    obtain ⟨c', hsome, henters⟩ := henters (isOpen_of_perform hafter)
    obtain rfl : c = c' := Option.some.inj (hc.symm.trans hsome)
    rcases enters_cons henters with ⟨hquiet | hmap | ⟨x, hleave⟩, -⟩ | ⟨_, _, withPlayers, ops, hop, hrest, hops⟩
    · cases hquiet
    · cases hmap
    · cases hleave
    · cases hop
      rw [hworld, hsession]
      exact Phase.enter hrest hops hnone hmap hrel rfl

/-- The session leaves a map. -/
theorem watched_leave {mapId : Int} {rest : List Op} (hr : ∀ a, r a a) (h : Watched r s i)
    (hn : Noticed r s (.advance i)) (hpending : (s.sessions i).pending = .leaveMap mapId :: rest) :
    Watched r (s.perform i (.leaveMap mapId) rest) i := by
  have hsession : (s.perform i (.leaveMap mapId) rest).sessions i = { s.sessions i with pending := rest } :=
    Server.sessions_perform
  have hnext (hopen : (s.sessions i).isOpen = true) : Phase r s.world i { s.sessions i with pending := rest } :=
    @Phase.next r s.world (s.sessions i) i s.clock _ rest (h.phase hopen) hpending (fun _ _ => Op.noConfusion) hopen
  cases hc : (s.sessions i).characterId with
  | none =>
    have hworld : (s.perform i (.leaveMap mapId) rest).world = s.world := by
      simp [Server.world_perform, World.perform, hc]
    refine ⟨hworld ▸ h.single, fun hafter => ?_⟩
    rw [hworld, hsession]
    exact hnext (isOpen_of_perform hafter)
  | some c =>
    have hworld : (s.perform i (.leaveMap mapId) rest).world = s.world.leaveMap mapId c := by
      simp [Server.world_perform, World.perform, hc]
    refine ⟨hworld ▸ single_leaveMap h.single, fun hafter => ?_⟩
    have hopen := isOpen_of_perform hafter
    rw [hworld, hsession]
    rcases (h.phase hopen).leaving hpending with ⟨c', hc', henters⟩ | hcalm
    · exact .entering hc' henters
    · have hown := hn.own ⟨i, c, mapId, false⟩ (by simp [change, hpending, hc])
      exact (hnext hopen).leaveOwn hr h.single hcalm hown
        (hn.leaves i mapId rest c rfl hpending (not_join_of_calm hcalm) hc)

/-- The session performs any other operation. -/
theorem watched_perform {op : Op} {rest : List Op} (h : Watched r s i)
    (hjoin : ∀ mapId cellId, op ≠ .joinMap mapId cellId) (hleave : ∀ mapId, op ≠ .leaveMap mapId)
    (hpending : (s.sessions i).pending = op :: rest) : Watched r (s.perform i op rest) i := by
  have ht := touch s.world { s.sessions i with pending := rest } i op
  have hsession := @Server.sessions_perform s i op rest
  have hnext (hafter : ((s.perform i op rest).sessions i).isOpen = true) :
      Phase r s.world i ((s.perform i op rest).sessions i) := by
    have hopen := isOpen_of_perform hafter
    rw [hsession] at hafter ⊢
    exact (h.phase hopen).next hpending hjoin hafter
  rw [← Server.world_perform] at ht
  generalize hworld : (s.perform i op rest).world = w' at ht
  cases ht with
  | same => exact ⟨hworld ▸ h.single, fun hafter => hworld ▸ hnext hafter⟩
  | join hc => exact absurd rfl (hjoin _ _)
  | @leave _ mapId c hc hop =>
    refine ⟨hworld ▸ single_leaveMap h.single, fun hafter => ?_⟩
    rcases hop with rfl | ⟨rfl, -⟩
    · exact absurd rfl (hleave mapId)
    · -- the session is closed
      rw [hsession] at hafter
      cases hafter
  | move hb =>
    subst hb
    exact ⟨hworld ▸ h.single, fun hafter => hworld ▸ (hnext hafter).broadcastToMap⟩
  | store hc hop =>
    exact ⟨hworld ▸ single_updatePlayerCell h.single, fun hafter => hworld ▸ (hnext hafter).updatePlayerCell⟩

theorem watched_refuse {op : Op} {rest : List Op} (h : Watched r s i) (hpending : (s.sessions i).pending = op :: rest)
    (hop : op.mayBeRefused = true) : Watched r (s.setSession i { s.sessions i with pending := rest }) i := by
  refine ⟨h.single, fun hafter => ?_⟩
  rw [Server.sessions_setSession] at hafter ⊢
  rw [Server.world_setSession]
  have hperform := @perform_of_mayBeRefused s.world ({ s.sessions i with pending := rest }) s.clock _ hop
  have hsame := @Phase.next r s.world (s.sessions i) i s.clock op rest (h.phase hafter) hpending
    (by rintro mapId cellId rfl; cases hop) (by rw [hperform]; exact hafter)
  rwa [hperform] at hsame

/-- An idle session is given the operations of a handler. -/
theorem watched_receive {ops : List Op} (h : Watched r s i) (hidle : (s.sessions i).isIdle = true)
    (hops : (∀ op ∈ ops, op.isCalm = true) ∨ ∃ c, (s.sessions i).characterId = some c ∧ Enters c ops) :
    Watched r (s.setSession i { s.sessions i with pending := ops }) i := by
  obtain ⟨hopen, hpending⟩ := Session.isIdle_iff.1 hidle
  refine ⟨h.single, fun _ => ?_⟩
  rw [Server.sessions_setSession, Server.world_setSession]
  rcases hops with hcalm | ⟨c, hc, henters⟩
  · cases h.phase hopen with
    | entering hc henters => exact absurd (hpending ▸ henters) enters_ne_nil
    | standing hp htx hmap hpend htold =>
      rw [hpending] at hmap
      refine .standing hp htx ((recorded_calm hcalm).trans hmap) (.inr hcalm) fun x hx => ?_
      have hrel := htold x hx
      rw [hpending] at hrel
      rw [told_calm hcalm]
      exact hrel
    | away hnone hpend htold => exact .away hnone hcalm htold
  · exact .entering hc henters

/-- A broadcast is delivered. -/
theorem watched_deliver {b : Broadcast} {bs : List Broadcast} (h : Watched r s i) (hqueue : s.world.queue i = b :: bs)
    (hidle : (s.sessions i).isIdle = true) :
    Watched r
      { s.setSession i { s.sessions i with display := b.display (s.sessions i).display } with
        world := s.world.popQueue i } i := by
  obtain ⟨hopen, hpending⟩ := Session.isIdle_iff.1 hidle
  have hpop : (s.world.popQueue i).queue i = bs := by simp [World.popQueue, hqueue]
  refine ⟨h.single, fun _ => ?_⟩
  simp only [Server.setSession, Function.update_self]
  cases h.phase hopen with
  | entering hc henters => exact absurd (hpending ▸ henters) enters_ne_nil
  | standing hp htx hmap hpend htold =>
    refine .standing hp htx hmap hpend fun x hx => ?_
    have hrel := htold x hx
    rw [hpending, hqueue] at hrel
    rw [hpending, hpop, World.maps_popQueue]
    exact hrel
  | away hnone hpend htold =>
    refine .away hnone hpend fun m hm x => ?_
    have hrel := htold m hm x
    rw [hqueue] at hrel
    rw [hpop, World.maps_popQueue]
    exact hrel

/-- A broadcast to somebody else. -/
theorem Phase.popQueue {w : World} {ps : Session} {j : Nat} (h : Phase r w i ps) (hj : j ≠ i) :
    Phase r (w.popQueue j) i ps := by
  have hsame : (w.popQueue j).queue i = w.queue i := Function.update_of_ne (Ne.symm hj) ..
  cases h with
  | entering hc henters => exact .entering hc henters
  | standing hp htx hmap hpend htold =>
    refine .standing hp htx hmap hpend fun x hx => ?_
    rw [hsame]
    exact htold x hx
  | away hnone hpend htold =>
    refine .away hnone hpend fun m hm x => ?_
    rw [hsame]
    exact htold m hm x

theorem cleanup_calm (ps : Session) : ∀ op ∈ cleanup ps, op.isCalm = true := by
  intro op hop
  unfold cleanup at hop
  split at hop
  · simp only [List.mem_cons, List.not_mem_nil, or_false] at hop
    rcases hop with rfl | rfl <;> rfl
  · rw [List.mem_singleton.1 hop]
    rfl

theorem watched_step (hr : ∀ a, r a a) (h : Watched r s i) (hn : Noticed r s e) (hs : Step s e s') :
    Watched r s' i := by
  cases hs with
  -- only operations of the session itself and changes of the world by another one count
  | @receive j m hidle =>
    by_cases hj : j = i
    · subst hj
      exact watched_receive h hidle (enters_handle s j m)
    · exact h.frame rfl (Server.sessions_setSession_of_ne (Ne.symm hj))
  | @advance j op rest hpending hspin =>
    by_cases hj : j = i
    · subst hj
      by_cases hjoin : ∃ mapId cellId, op = .joinMap mapId cellId
      · obtain ⟨mapId, cellId, rfl⟩ := hjoin
        exact watched_join h hn hpending
      · by_cases hleave : ∃ mapId, op = .leaveMap mapId
        · obtain ⟨mapId, rfl⟩ := hleave
          exact watched_leave hr h hn hpending
        · exact watched_perform h (fun mapId cellId heq => hjoin ⟨mapId, cellId, heq⟩)
            (fun mapId heq => hleave ⟨mapId, heq⟩) hpending
    · exact watched_other hr h hj hn hpending
  | @refuse j op rest hpending hop =>
    by_cases hj : j = i
    · subst hj
      exact watched_refuse h hpending hop
    · exact h.frame rfl (Server.sessions_setSession_of_ne (Ne.symm hj))
  | @fail j hfail =>
    by_cases hj : j = i
    · subst hj
      refine ⟨h.single, fun hopen => ?_⟩
      rw [Server.sessions_close] at hopen
      cases hopen
    · exact h.frame rfl (Server.sessions_close_of_ne (Ne.symm hj))
  | @deliver j b bs hqueue hidle =>
    by_cases hj : j = i
    · subst hj
      exact watched_deliver h hqueue hidle
    · refine ⟨h.single, ?_⟩
      have hsession := @Server.sessions_setSession_of_ne s _ _
        { s.sessions j with display := b.display (s.sessions j).display } (Ne.symm hj)
      dsimp only
      rw [hsession]
      exact fun hopen => (h.phase hopen).popQueue hj
  | @hangUp j hidle =>
    by_cases hj : j = i
    · subst hj
      exact watched_receive h hidle (.inl (cleanup_calm _))
    · exact h.frame rfl (Server.sessions_setSession_of_ne (Ne.symm hj))
  | createCharacter => exact h.frame rfl rfl
  | tick => exact h.frame rfl rfl

/-- In every run in which the clients learn of who joins and leaves, those present and those shown are related. -/
theorem watched_run (hr : ∀ a, r a a) {mapData : Int → Option MapData} {depth : Nat} {rows : List Row}
    {accounts : Nat → Int} {es : List Event} (h : Along (Noticed r) (.start mapData depth rows accounts) es)
    (i : Nat) :
    Watched r (after (.start mapData depth rows accounts) es) i := by
  refine (invariant_run (I := fun s => Watched r s i) (fun s e s' hw hn hs => watched_step hr hw hn hs) h ⟨?_, ?_⟩).2
  · exact fun _ _ _ _ hp => absurd hp WorldMap.mem_empty
  · refine fun _ => .away (fun _ _ hp => absurd hp WorldMap.mem_empty) (fun _ hop => absurd hop List.not_mem_nil) ?_
    intro mapId hmap
    cases hmap

/-! ### What the clients show when nothing is going on -/

/-- Every client that waits for nothing shows every other character on its map. -/
def EveryoneShown (s : Server) : Prop :=
  ∀ i, (s.sessions i).isIdle = true → s.world.queue i = [] → ∀ mapId, (s.sessions i).mapId = some mapId →
    ∀ q ∈ (s.world.maps mapId).players, q.tx ≠ i → q.characterId ∈ (s.sessions i).display

/-- Every character that a client shows when it waits for nothing is on its map. -/
def NoGhosts (s : Server) : Prop :=
  ∀ i, (s.sessions i).isIdle = true → s.world.queue i = [] → ∀ mapId, (s.sessions i).mapId = some mapId →
    ∀ c ∈ (s.sessions i).display, ∃ q ∈ (s.world.maps mapId).players, q.characterId = c

/-- A character is present and shown in the way `r` says, unless the client has its own entry for it. -/
theorem Watched.related (h : Watched r s i) (hidle : (s.sessions i).isIdle = true) (hqueue : s.world.queue i = [])
    {mapId : Int} (hmap : (s.sessions i).mapId = some mapId) (x : Int) :
    r (x ∈ (s.world.maps mapId).characters) (x ∈ (s.sessions i).display) ∨
      ∃ p ∈ (s.world.maps mapId).players, p.tx = i ∧ p.characterId = x := by
  obtain ⟨hopen, hpending⟩ := Session.isIdle_iff.1 hidle
  cases h.phase hopen with
  | entering hc henters => exact absurd (hpending ▸ henters) enters_ne_nil
  | @standing m p hp htx hrecorded hpend htold =>
    rw [hpending] at hrecorded
    obtain rfl : mapId = m := Option.some.inj (hmap.symm.trans hrecorded)
    by_cases hx : x = p.characterId
    · exact .inr ⟨p, hp, htx, hx.symm⟩
    · have hrel := htold x hx
      rw [hpending, hqueue] at hrel
      exact .inl hrel
  | away hnone hpend htold =>
    have hrel := htold mapId hmap x
    rw [hqueue] at hrel
    exact .inl hrel

end

section

variable (mapData : Int → Option MapData) (depth : Nat) (rows : List Row) (accounts : Nat → Int) (es : List Event)

theorem everyone_is_shown
    (h : Along (Noticed fun present shown => present → shown) (.start mapData depth rows accounts) es) :
    EveryoneShown (after (.start mapData depth rows accounts) es) := by
  intro i hidle hqueue mapId hmap q hq hother
  have hwatched := watched_run (fun _ => id) h i
  rcases hwatched.related hidle hqueue hmap q.characterId with hrel | ⟨p, hp, htx, hpc⟩
  · exact hrel (WorldMap.mem_characters.2 ⟨q, hq, rfl⟩)
  · rw [WorldMap.eq_of_characterId hp hq hpc] at htx
    exact absurd htx hother

theorem no_ghosts (h : Along (Noticed fun present shown => shown → present) (.start mapData depth rows accounts) es) :
    NoGhosts (after (.start mapData depth rows accounts) es) := by
  intro i hidle hqueue mapId hmap c hc
  have hwatched := watched_run (fun _ => id) h i
  rcases hwatched.related hidle hqueue hmap c with hrel | ⟨p, hp, -, hpc⟩
  · exact WorldMap.mem_characters.1 (hrel hc)
  · exact ⟨p, hp, hpc⟩

end

/-! ### A few players -/

/-- Among the first `n` sessions and on these maps all learn of who joins and leaves: everybody who records the map
has an entry, and who joins it is shown all of them.  Fights may start or not. -/
def noticedAmong (fights : Bool) (n : Nat) (maps : List Int) (s : Server) (e : Event) : Bool :=
  staysAmong n maps s e &&
    match change s e with
    | none => true
    | some ch =>
      let ps := s.sessions ch.session
      let rest := ps.pending.tail
      let here := s.world.maps ch.mapId
      here.players.all (fun p => p.characterId ≠ ch.characterId ∨ p.tx = ch.session) &&
        (List.range n).all (fun j => j = ch.session ∨ (s.sessions j).mapId ≠ some ch.mapId ∨
          ∃ m ∈ maps, ∃ p ∈ (s.world.maps m).players, p.tx = j) &&
        if ch.present then
          maps.all (fun m => (s.world.maps m).players.all (·.tx ≠ ch.session)) &&
            recorded ps.mapId rest = some ch.mapId &&
              here.characters = drain (s.world.queue ch.session) (if tells rest then here.characters else [])
        else fights || ps.pending.head? = some .depart || rest.any fun
          | .joinMap .. => true
          | _ => false

section

variable {fights : Bool} {n : Nat} {maps : List Int} {s : Server} {e : Event}

theorem Among.nowhere (h : Among n maps s) {i : Nat} (hi : ∀ m ∈ maps, ∀ p ∈ (s.world.maps m).players, p.tx ≠ i) :
    Nowhere s.world i := by
  intro m p hp
  by_cases hm : m ∈ maps
  · exact hi m hm p hp
  · exact absurd hp (h.maps m hm p)

theorem change_of_pending {i : Nat} {c mapId : Int} {op : Op} {rest : List Op}
    (hpending : (s.sessions i).pending = op :: rest) (hc : (s.sessions i).characterId = some c) :
    (∀ cellId, op = .joinMap mapId cellId → change s (.advance i) = some ⟨i, c, mapId, true⟩) ∧
      (op = .leaveMap mapId → change s (.advance i) = some ⟨i, c, mapId, false⟩) ∧
        (op = .depart → (s.sessions i).mapId = some mapId → change s (.advance i) = some ⟨i, c, mapId, false⟩) := by
  refine ⟨?_, ?_, ?_⟩
  · rintro cellId rfl
    simp [change, hpending, hc]
  · rintro rfl
    simp [change, hpending, hc]
  · rintro rfl hmap
    simp [change, hpending, hc, hmap]

theorem noticed_of_among {r : Prop → Prop → Prop} (hr : ∀ a, r a a) (hfights : fights = true → ∀ a, r False a)
    (h : Among n maps s) (hnoticed : noticedAmong fights n maps s e = true) : Noticed r s e := by
  rw [noticedAmong, Bool.and_eq_true] at hnoticed
  obtain ⟨-, hnoticed⟩ := hnoticed
  cases hchange : change s e with
  -- nobody joins or leaves
  | none =>
    constructor
    · rintro i mapId cellId rest c rfl hpending hc
      rw [(change_of_pending hpending hc).1 cellId rfl] at hchange
      cases hchange
    · rintro i mapId rest c rfl hpending - hc -
      rw [(change_of_pending hpending hc).2.1 rfl] at hchange
      cases hchange
    · intro ch hch
      rw [hchange] at hch
      cases hch
    · intro ch hch
      rw [hchange] at hch
      cases hch
  | some ch =>
    rw [hchange] at hnoticed
    simp only [Bool.and_eq_true, List.all_eq_true, decide_eq_true_eq, List.mem_range] at hnoticed
    obtain ⟨⟨hown, hothers⟩, hkind⟩ := hnoticed
    constructor
    · rintro i mapId cellId rest c rfl hpending hc
      rw [(change_of_pending hpending hc).1 cellId rfl] at hchange
      cases hchange
      simp only [if_true, Bool.and_eq_true, List.all_eq_true, decide_eq_true_eq, hpending, List.tail_cons] at hkind
      obtain ⟨⟨hnone, hmap⟩, hsame⟩ := hkind
      refine ⟨h.nowhere hnone, hmap, fun x _ => ?_⟩
      rw [← hsame]
      exact hr _
    · rintro i mapId rest c rfl hpending hremains hc -
      rw [(change_of_pending hpending hc).2.1 rfl] at hchange
      cases hchange
      simp only [Bool.false_eq_true, if_false, hpending, List.tail_cons, List.head?_cons, Option.some.injEq,
        reduceCtorEq, decide_false, Bool.or_false, Bool.or_eq_true, List.any_eq_true] at hkind
      rcases hkind with hfight | ⟨op, hop, hjoin⟩
      · exact hfights hfight _
      · cases op with
        | joinMap m cellId => exact absurd hop (hremains m cellId)
        | _ => cases hjoin
    · intro ch' hch p hp hpc
      obtain rfl := Option.some.inj (hchange.symm.trans hch)
      exact (hown p hp).resolve_left (not_not.2 hpc)
    · intro ch' hch i hi hopen hnowhere hremains hmap
      obtain rfl := Option.some.inj (hchange.symm.trans hch)
      by_cases hn : i < n
      · rcases hothers i hn with heq | hne | ⟨m, -, p, hp, htx⟩
        · exact absurd heq hi
        · exact absurd hmap hne
        · exact absurd htx (hnowhere m p hp)
      · -- a session beyond the first `n` has recorded no map
        rw [h.mapId i (Nat.not_lt.1 hn)] at hmap
        cases hmap

theorem along_noticed {r : Prop → Prop → Prop} (hr : ∀ a, r a a) (hfights : fights = true → ∀ a, r False a)
    {mapData : Int → Option MapData} {depth : Nat} {rows : List Row} {accounts : Nat → Int} {es : List Event}
    (h : Along (fun s e => noticedAmong fights n maps s e = true) (.start mapData depth rows accounts) es) :
    Along (Noticed r) (.start mapData depth rows accounts) es := by
  have hamong := among_run (h.imp fun s e hnoticed => ((Bool.and_eq_true _ _).mp hnoticed).1)
  exact (h.and hamong).imp fun s e hs => noticed_of_among hr hfights hs.2 hs.1

end

/-! ### Two players meet -/

/-- Two players on neighbouring maps. -/
def neighbours : Server :=
  .start (fun mapId => if mapId = 154010883 then some startingMap else none) 0
    [{ Row.novice 0 10 with mapId := 5 }, .novice 1 10] Int.ofNat

/-- Both enter the world, and the second goes to the map of the first. -/
def meeting : List Event :=
  entering 0 ++ entering 1 ++ answered 1 (.changeMap 5 0) 8 ++ [.deliver 0]

theorem meeting_noticed : Along (fun s e => noticedAmong false 2 [5, 154010883] s e = true) neighbours meeting := by
  decide +kernel

/-- The first one starts a fight. -/
def fighting : List Event := meeting ++ answered 0 (.attackMonster 0 1) 11

theorem fighting_noticed : Along (fun s e => noticedAmong true 2 [5, 154010883] s e = true) neighbours fighting := by
  decide +kernel

/-- Both stand on the map and show each other, until one of them fights; this one goes on showing the other. -/
theorem everyone_is_shown_fighting : EveryoneShown (after neighbours meeting) ∧
    ((after neighbours meeting).world.maps 5).players = [⟨1, 10, 0⟩, ⟨2, 542, 1⟩] ∧
      EveryoneShown (after neighbours fighting) ∧
        ((after neighbours fighting).world.maps 5).players = [⟨2, 542, 1⟩] ∧
          ((after neighbours fighting).sessions 0).fight.isSome = true :=
  ⟨everyone_is_shown _ _ _ _ _ (along_noticed (fun _ => id) (absurd · Bool.false_ne_true) meeting_noticed),
    by decide +kernel,
    everyone_is_shown _ _ _ _ _ (along_noticed (fun _ => id) (fun _ _ => False.elim) fighting_noticed),
    by decide +kernel, by decide +kernel⟩

/-- The second one hangs up. -/
def parting : List Event := meeting ++ [.hangUp 1, .advance 1, .advance 1, .deliver 0]

theorem parting_noticed : Along (fun s e => noticedAmong false 2 [5, 154010883] s e = true) neighbours parting := by
  decide +kernel

/-- Each shows the other, until one is gone. -/
theorem no_ghosts_parting : NoGhosts (after neighbours meeting) ∧
    (2 : Int) ∈ ((after neighbours meeting).sessions 0).display ∧ NoGhosts (after neighbours parting) ∧
      ((after neighbours parting).sessions 0).display = [1] :=
  ⟨no_ghosts _ _ _ _ _ (along_noticed (fun _ => id) (absurd · Bool.false_ne_true) meeting_noticed), by decide +kernel,
    no_ghosts _ _ _ _ _ (along_noticed (fun _ => id) (absurd · Bool.false_ne_true) parting_noticed), by
      decide +kernel⟩

/-! ### Where it goes wrong -/

/-- Who enters the world is not shown those that are there. -/
theorem not_everyone_is_shown : ¬EveryoneShown (after twoPlayers (entering 0 ++ entering 1)) := by
  intro h
  have hmissing : ¬(1 : Int) ∈ ((after twoPlayers (entering 0 ++ entering 1)).sessions 1).display := by decide +kernel
  exact hmissing (h 1 (by decide +kernel) (by decide +kernel) 154010883 (by decide +kernel) ⟨1, 10, 0⟩
    (by decide +kernel) (by decide))

/-- The second player comes while the first one leaves the map, and is shown on the next one. -/
def following : List Event :=
  entering 0 ++ entering 1 ++ answered 0 (.changeMap 5 0) 8 ++ [.deliver 0]

theorem ghost_is_shown : ¬NoGhosts (after twoPlayers following) := by
  intro h
  have hnobody : ¬∃ q ∈ ((after twoPlayers following).world.maps 5).players, q.characterId = 2 := by decide +kernel
  exact hnobody (h 0 (by decide +kernel) (by decide +kernel) 5 (by decide +kernel) 2 (by decide +kernel))

end Otomai.Handlers
