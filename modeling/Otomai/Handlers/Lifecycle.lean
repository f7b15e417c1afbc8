import Otomai.Handlers.Session

/-!
# The life of a fight

A session begins a fight, serves the requests of its player, and takes the fight away once one of its teams is dead;
then the end of the fight is handled.  The check for the end comes after a cast and at the end of a turn only, a new
attack is not refused during a fight, and the end of the fight may fail after the fight has been taken.

* `Stage`: what may happen to the fights of a session, in the order in which it should.
* `keepsCourse_run`: in which runs the operations of a session follow the stages, whatever the other sessions do.
* `not_keepsCourse_run`: a second attack, a death that is not noticed, and an end that fails.
-/

namespace Otomai.Handlers

open Machine Otomai.Common Otomai.Combat Trace

/-! ### Stages -/

/-- How far a session is with its fight: it has none, or one with both teams alive, or one with a dead team; or the
fight has been taken, and its end has been told and its experience been written. -/
inductive Stage where
  | free
  | fighting (f : Fight) (h : f.isOver = false)
  | decided (f : Fight) (h : f.shouldEnd = true)
  | taken
  | ended
  | awarded

/-- The operation begins, changes or ends a fight. -/
def Op.fights : Op → Bool
  | .beginFight _ | .putFight _ | .takeFight | .send .fightEnd | .writeExperience _ => true
  | _ => false

namespace Stage

/-- The fight that the session holds. -/
def fight : Stage → Option Fight
  | fighting f _ | decided f _ => some f
  | _ => none

/-- No fight is about to end. -/
def isSettled : Stage → Bool
  | free | fighting .. => true
  | _ => false

/-- A fight that is held has both teams alive, or a dead team. -/
def hold (f : Fight) : Option Stage :=
  if h : f.shouldEnd = true then some (.decided f h)
  else if h : f.isOver = false then some (.fighting f h)
  else none

/-- What an operation does.  A fight begins if there is none, changes while both teams are alive, and is taken once a
team is dead; then its end is told once, its experience is written at most once, and the character is put back on its
map. -/
def next : Stage → Op → Option Stage
  | .free, .beginFight f => hold f
  | .fighting .., .putFight f => hold f
  | .decided .., .takeFight => some .taken
  | .taken, .send .fightEnd => some .ended
  | .ended, .writeExperience _ => some .awarded
  | .ended, .setMap _ | .awarded, .setMap _ => some .free
  | .taken, .setMap _ => none
  | stage, op => if op.fights then none else some stage

/-- The stage after some operations, the latest first, if they are in order. -/
def of : List Op → Option Stage
  | [] => some .free
  | op :: log => (of log).bind (·.next op)

end Stage

/-- The fight has been taken, and its end is not handled yet. -/
def ending : List Op → Bool
  | [] => false
  | .takeFight :: _ => true
  | .setMap _ :: _ => false
  | _ :: log => ending log

/-! ### Runs -/

/-- The operation that comes next; a session that spins performs none. -/
def nextOp : List Op → Option Op
  | [] | .spin :: _ => none
  | op :: _ => some op

/-- The operation that a session performs at an event. -/
def Server.performs (s : Server) (i : Nat) : Event → Option Op
  | .advance j => if j = i then nextOp (s.sessions i).pending else none
  | _ => none

/-- The operations that each session has performed, the latest first. -/
def performed (logs : Nat → List Op) (s : Server) (e : Event) (i : Nat) : List Op := (s.performs i e).toList ++ logs i

/-- A server with what its sessions have performed. -/
abbrev Logged := (Nat → List Op) × Server

instance : Acts Logged Event := ⟨fun x e => (performed x.1 x.2 e, act x.2 e)⟩

/-- The operations of a session are in order, they have left the fight that the session holds, and a message is not
answered before its fight has ended. -/
def KeepsCourse (i : Nat) (x : Logged) : Prop :=
  ∃ stage, Stage.of (x.1 i) = some stage ∧ stage.fight = (x.2.sessions i).fight ∧
    ((x.2.sessions i).pending = [] → stage.isSettled = true)

/-- The request of a message that comes during a fight. -/
def Message.request : Message → Option Request
  | .fight r _ => some r
  | .mapMovementRequest _ keyMovements => some (.movement keyMovements)
  | _ => none

def Message.attacks : Message → Bool
  | .attackMonster .. => true
  | _ => false

/-- If the request leaves a team dead, its handler runs to its end, the dispatch checks for the end of the fight, and
the character is found. -/
def Concludes (s : Server) (c : Int) (f : Fight) (r : Request) : Prop :=
  (after f (serve s.mapData s.depth c r f).trace).shouldEnd = true →
    r.checksEnd = true ∧ (serve s.mapData s.depth c r f).ending = .value () ∧ (s.getCharacter c).isSome = true

instance (s : Server) (c : Int) (f : Fight) (r : Request) : Decidable (Concludes s c f r) :=
  inferInstanceAs (Decidable (_ → _))

/-- During a fight the client does not attack, its requests conclude, and nothing fails while a fight is ended. -/
def Careful (i : Nat) (x : Logged) : Event → Prop
  | .receive j m =>
    j = i → (x.2.sessions i).isIdle = true → ∀ f ∈ (x.2.sessions i).fight, m.attacks = false ∧
      ∀ c ∈ (x.2.sessions i).characterId, ∀ r ∈ m.request, Concludes x.2 c f r
  | .fail j => j = i → ending (x.1 i) = false ∧ .takeFight ∉ (x.2.sessions i).pending
  | _ => True

instance decidableCareful (i : Nat) (x : Logged) : (e : Event) → Decidable (Careful i x e)
  | .receive .. => inferInstanceAs (Decidable (_ → _ → _))
  | .fail _ => inferInstanceAs (Decidable (_ → _ ∧ _))
  | .advance _ | .hangUp _ | .refuse _ | .deliver _ | .createCharacter _ | .tick _ => .isTrue trivial

/-! ### Orderly operations -/

/-- The operation may change the stage of the fight, or closes the session. -/
def Op.staged : Op → Bool
  | .setMap _ | .crash | .depart => true
  | op => op.fights

/-- The operations that may change the stage of the fight, or close the session. -/
inductive Op.Staged : Op → Prop where
  | beginFight (f : Fight) : Staged (.beginFight f)
  | putFight (f : Fight) : Staged (.putFight f)
  | takeFight : Staged .takeFight
  | fightEnd : Staged (.send .fightEnd)
  | writeExperience (experience : Int) : Staged (.writeExperience experience)
  | setMap (mapId : Int) : Staged (.setMap mapId)
  | crash : Staged .crash
  | depart : Staged .depart

theorem Op.staged_cases (op : Op) : op.staged = false ∨ op.Staged := by
  cases op with
  | send m =>
    cases m with
    | fightEnd => exact .inr .fightEnd
    | _ => exact .inl rfl
  | _ => first | exact .inl rfl | exact .inr (by constructor)

/-- The operation closes the session. -/
def Op.closes : Op → Bool
  | .crash | .depart => true
  | _ => false

/-- Operations that are in order from a stage on, and leave no fight about to end. -/
def Accepts : Stage → List Op → Prop
  | stage, [] => stage.isSettled = true
  | stage, op :: ops =>
    (op.closes = true → stage.isSettled = true) ∧ ∃ stage', stage.next op = some stage' ∧ Accepts stage' ops

section

variable {stage stage' : Stage} {op : Op} {ops rest log : List Op} {f : Fight}

theorem Stage.next_of_not_staged (h : op.staged = false) (stage : Stage) : stage.next op = some stage := by
  cases op with
  | send m =>
    cases m with
    | fightEnd => cases h
    | _ => cases stage <;> rfl
  | _ => first | (cases stage <;> rfl) | cases h

theorem closes_of_not_staged (h : op.staged = false) : op.closes = false := by
  cases op <;> first | rfl | cases h

theorem Stage.next_of_isSettled (hstage : stage.isSettled = true) (h : op.fights = false) :
    stage.next op = some stage := by
  cases op with
  | send m =>
    cases m with
    | fightEnd => cases h
    | _ => cases stage <;> rfl
  | setMap mapId => cases stage <;> first | rfl | cases hstage
  | _ => first | (cases stage <;> rfl) | cases h

theorem Accepts.append (h : Avoids Op.staged ops) (hrest : Accepts stage rest) : Accepts stage (ops ++ rest) := by
  induction ops with
  | nil => exact hrest
  | cons op ops ih =>
    have hop := h op List.mem_cons_self
    have hops : Avoids Op.staged ops := fun op' hop' => h op' (List.mem_cons_of_mem op hop')
    refine ⟨fun hclose => ?_, stage, Stage.next_of_not_staged hop stage, ih hops⟩
    rw [closes_of_not_staged hop] at hclose
    cases hclose

/-- Operations that do not concern fights are always in order. -/
theorem Accepts.of_isSettled (hstage : stage.isSettled = true) (h : Avoids Op.fights ops) : Accepts stage ops := by
  induction ops with
  | nil => exact hstage
  | cons op ops ih =>
    refine ⟨fun _ => hstage, stage, Stage.next_of_isSettled hstage (h op List.mem_cons_self), ih fun op' hop' => ?_⟩
    exact h op' (List.mem_cons_of_mem op hop')

/-- A fight with a dead team is going to be taken. -/
theorem Accepts.takes {h : f.shouldEnd = true} (haccepts : Accepts (.decided f h) ops) : .takeFight ∈ ops := by
  induction ops with
  | nil => cases haccepts
  | cons op ops ih =>
    obtain ⟨-, stage, hnext, haccepts⟩ := haccepts
    rcases op.staged_cases with hstaged | hstaged
    · rw [Stage.next_of_not_staged hstaged] at hnext
      obtain rfl := Option.some.inj hnext
      exact List.mem_cons_of_mem op (ih haccepts)
    · cases hstaged with
      | takeFight => exact List.mem_cons_self
      | beginFight f => cases hnext
      | putFight f => cases hnext
      | fightEnd => cases hnext
      | writeExperience experience => cases hnext
      | _ =>
        cases hnext
        exact List.mem_cons_of_mem _ (ih haccepts)

/-- The experience may be left out. -/
theorem Accepts.of_awarded (h : Accepts .awarded ops) : Accepts .ended ops := by
  induction ops with
  | nil => cases h
  | cons op ops ih =>
    obtain ⟨hclose, stage, hnext, haccepts⟩ := h
    refine ⟨fun hop => absurd (hclose hop) (by decide), ?_⟩
    rcases op.staged_cases with hstaged | hstaged
    · rw [Stage.next_of_not_staged hstaged] at hnext
      obtain rfl := Option.some.inj hnext
      exact ⟨.ended, Stage.next_of_not_staged hstaged _, ih haccepts⟩
    · cases hstaged with
      | setMap mapId =>
        cases hnext
        exact ⟨.free, rfl, haccepts⟩
      | crash => exact absurd (hclose rfl) (by decide)
      | depart => exact absurd (hclose rfl) (by decide)
      | _ => cases hnext

theorem Stage.hold_eq_some (h : hold f = some stage) :
    stage.fight = some f ∧ (stage.isSettled = true ∨ ∃ hdead, stage = .decided f hdead) := by
  unfold hold at h
  split at h
  · cases h
    exact ⟨rfl, .inr ⟨_, rfl⟩⟩
  · split at h
    · cases h
      exact ⟨rfl, .inl rfl⟩
    · cases h

/-- Unless a fight has been taken, and its end is not handled yet, no fight is about to end, or one is held that is to
be taken. -/
theorem ending_of (h : Stage.of log = some stage) :
    ending log = true ∨ stage.isSettled = true ∨ ∃ f hdead, stage = .decided f hdead := by
  induction log generalizing stage with
  | nil =>
    cases h
    exact .inr (.inl rfl)
  | cons op log ih =>
    obtain ⟨before, hbefore, hnext⟩ := Option.bind_eq_some_iff.1 h
    have hhold {f : Fight} (h : Stage.hold f = some stage) :
        stage.isSettled = true ∨ ∃ f hdead, stage = .decided f hdead :=
      (Stage.hold_eq_some h).2.imp_right fun hdecided => ⟨f, hdecided⟩
    rcases op.staged_cases with hstaged | hstaged
    · rw [Stage.next_of_not_staged hstaged] at hnext
      obtain rfl := Option.some.inj hnext
      -- the operation is no part of a fight
      have hsame : ending (op :: log) = ending log := by
        cases op <;> first | rfl | cases hstaged
      rw [hsame]
      exact ih hbefore
    · have hbefore := ih hbefore
      cases hstaged with
      | beginFight f => cases before <;> first | cases hnext | exact .inr (hhold hnext)
      | putFight f => cases before <;> first | cases hnext | exact .inr (hhold hnext)
      | takeFight => exact .inl rfl
      | fightEnd =>
        cases before with
        | taken => exact .inl (hbefore.resolve_right (by rintro (hsettled | ⟨f, hdead, heq⟩) <;> contradiction))
        | _ => cases hnext
      | writeExperience experience =>
        cases before with
        | ended => exact .inl (hbefore.resolve_right (by rintro (hsettled | ⟨f, hdead, heq⟩) <;> contradiction))
        | _ => cases hnext
      | setMap mapId =>
        refine .inr ?_
        cases before with
        | decided f hdead =>
          cases hnext
          exact .inr ⟨f, hdead, rfl⟩
        | taken => cases hnext
        | _ =>
          cases hnext
          exact .inl rfl
      | _ =>
        have hsame : before = stage := by
          cases before <;> cases hnext <;> rfl
        exact hsame ▸ hbefore

/-- An operation in order leaves the session the fight of the next stage. -/
theorem Stage.fight_next {ps : Session} {w : World} {clock : Nat} (h : stage.next op = some stage')
    (hfight : stage.fight = ps.fight) : stage'.fight = (ps.perform w clock op).fight := by
  rcases op.staged_cases with hstaged | hstaged
  · rw [next_of_not_staged hstaged] at h
    obtain rfl := Option.some.inj h
    have hsame : (ps.perform w clock op).fight = ps.fight := by
      cases op <;> first | rfl | cases hstaged
    exact hfight.trans hsame.symm
  · cases hstaged with
    | beginFight f => cases stage <;> first | cases h | exact (hold_eq_some h).1
    | putFight f => cases stage <;> first | cases h | exact (hold_eq_some h).1
    | takeFight =>
      cases stage <;> cases h
      rfl
    | fightEnd =>
      cases stage <;> cases h
      exact hfight
    | writeExperience experience =>
      cases stage <;> cases h
      exact hfight
    | setMap mapId => cases stage <;> cases h <;> exact hfight
    | _ => cases stage <;> cases h <;> exact hfight

end

/-! ### Handlers -/

/-- A spell leaves the phase as it is. -/
theorem phase_spellBlock {s : Fight} {b : List Action} (h : SpellBlock s b) : (after s b).phase = s.phase := by
  cases h with
  | effect h => exact h.keepsTurn.1
  | summon hcell hfree hlevel hf => rfl

theorem phase_served_cast {s : Fight} {spellId cellId : Int16} {loaded : Option SpellData} {roll : UInt16}
    {t : List Action}
    (h : Served s (.cast spellId cellId loaded roll) t) : (after s t).phase = s.phase := by
  cases h with
  | refused hr => rfl
  | cast hdata hf hplayer hap hcell hcasts ht =>
    rw [after_append]
    exact ht.invariant (I := fun s' => s'.phase = s.phase) (fun _ _ hs hb _ => (phase_spellBlock hb).trans hs)
      along_true rfl

/-- A fight that has ended has a dead team after a request too, whichever it is. -/
theorem coherent_serve {maps : Int → Option MapData} {n : Nat} {playerId : Int} {r : Request} {f : Fight}
    (hf : f.phase ≠ .ended) (hvalue : (serve maps n playerId r f).ending = .value ()) :
    (after f (serve maps n playerId r f).trace).Coherent := by
  have hcoherent : f.Coherent := fun hended => absurd hended hf
  have hspec := serve_spec maps n playerId r hcoherent
  cases r with
  | turnFinish => exact (handleTurnFinish_ensures n hcoherent).post () hvalue
  | cast spellId cellId loaded roll =>
    intro hended
    rw [phase_served_cast hspec.served] at hended
    exact absurd hended hf
  | _ => exact hspec.coherent hvalue rfl

section

variable {s : Server} {i : Nat} {c : Int} {f : Fight} {r : Request} {calls : Nat} {row : Row} {stage : Stage}

theorem Accepts.cons_of_not_staged {op : Op} {ops : List Op} (hop : op.staged = false) (h : Accepts stage ops) :
    Accepts stage (op :: ops) := by
  have hops : Avoids Op.staged [op] := .cons hop .nil
  exact .append hops h

/-- The end of a fight is handled once. -/
theorem accepts_endFight (hrow : s.getCharacter c = some row) {hdead : f.shouldEnd = true} :
    Accepts (.decided f hdead) (endFight s c f calls) := by
  -- the character is put back on its map, whether or not it has won
  have hreturn {stage : Stage} (hmap : stage.next (.setMap f.mapId) = some .free) :
      Accepts stage (plain 2 ++ handleGameContextCreate row ++
        .setMap f.mapId :: if f.challengersWon then .replicate calls .query else []) := by
    rw [List.append_assoc]
    refine .append (.replicate rfl) (.append (.of_all rfl) ⟨(by rintro ⟨⟩), .free, hmap, .of_isSettled rfl ?_⟩)
    split
    · exact .replicate rfl
    · exact .nil
  unfold endFight handleFightEnd
  rw [hrow]
  refine ⟨(by rintro ⟨⟩), .taken, rfl, .cons_of_not_staged rfl ?_⟩
  dsimp only
  refine ⟨(by rintro ⟨⟩), .ended, rfl, ?_⟩
  cases hwon : f.challengersWon with
  | false =>
    rw [hwon] at hreturn
    exact hreturn rfl
  | true =>
    rw [hwon] at hreturn
    refine ⟨(by rintro ⟨⟩), .ended, rfl, (by rintro ⟨⟩), .awarded, rfl, ?_⟩
    split
    · exact .cons_of_not_staged rfl (.cons_of_not_staged rfl (hreturn rfl))
    · exact hreturn rfl

/-- A request that concludes leaves both teams alive, or the fight is ended. -/
theorem accepts_serveFight {hgoing : f.isOver = false} (hconcludes : Concludes s c f r) :
    Accepts (.fighting f hgoing) (serveFight s c f r calls) := by
  have hphase : f.phase ≠ .ended := by
    intro hended
    simp [Fight.isOver, hended] at hgoing
  unfold Concludes at hconcludes
  unfold serveFight
  refine .append (avoids_said rfl _) ?_
  cases hending : (serve s.mapData s.depth c r f).ending with
  | panic => exact ⟨fun _ => rfl, .fighting f hgoing, rfl, rfl⟩
  | exhausted => exact ⟨(by rintro ⟨⟩), .fighting f hgoing, rfl, rfl⟩
  | value u =>
    have hcoherent := coherent_serve hphase hending
    generalize after f (serve s.mapData s.depth c r f).trace = f' at hconcludes hcoherent ⊢
    refine ⟨(by rintro ⟨⟩), ?_⟩
    -- the check for the end finds the dead team, or the fight goes on
    by_cases hdead : f'.shouldEnd = true
    · obtain ⟨hchecks, -, hrow⟩ := hconcludes hdead
      obtain ⟨row, hrow⟩ := Option.isSome_iff_exists.1 hrow
      have hover : f'.isOver = true := by
        rw [Fight.isOver, hdead, Bool.or_true]
      refine ⟨.decided f' hdead, dif_pos hdead, ?_⟩
      rw [hchecks, hover]
      exact accepts_endFight hrow
    · have hover : f'.isOver = false := by
        have hphase' : f'.phase ≠ .ended := fun hended => hdead (hcoherent hended)
        simp [Fight.isOver, hdead, hphase']
      refine ⟨.fighting f' hover, (dif_neg hdead).trans (dif_pos hover), ?_⟩
      rw [hover, Bool.and_false]
      rfl

/-- What has nothing to do with fights. -/
theorem avoids_fights_handle {m : Message} (hattacks : m.attacks = false)
    (hfight : (s.sessions i).fight = none ∨ m.request = none) : Avoids Op.fights (handle s i m) := by
  cases m with
  | characterSelection c =>
    simp only [handle, handleCharacterSelection]
    split
    · split <;> exact .of_all rfl
    · exact .of_all rfl
  | gameContextCreateRequest =>
    simp only [handle]
    split
    · exact .nil
    · refine .cons rfl ?_
      split <;> exact .of_all rfl
  | attackMonster nextMarkId drawn => cases hattacks
  | fight r calls =>
    have hnone := hfight.resolve_right (by rintro ⟨⟩)
    simp only [handle, hnone]
    exact .nil
  | mapMovementRequest mapId keyMovements =>
    have hnone := hfight.resolve_right (by rintro ⟨⟩)
    simp only [handle, hnone]
    split
    · contradiction
    · split
      · unfold handleMovementRequest
        split
        · exact .of_all rfl
        · split <;> exact .of_all rfl
      · exact .nil
    · exact .nil
  | mapMovementConfirm =>
    simp only [handle]
    split
    · unfold handleMovementConfirm
      split <;> exact .of_all rfl
    · exact .nil
  | mapMovementCancel cellId =>
    simp only [handle]
    split <;> exact .of_all rfl
  | changeMap mapId calls =>
    simp only [handle]
    split
    · refine .cons rfl ?_
      split
      · unfold handleChangeMap
        split
        · exact .nil
        · exact .append (.of_all rfl) (.replicate rfl)
      · exact .nil
    · exact .nil
  | other calls => exact .replicate rfl

/-- What a session does after a message is in order. -/
theorem accepts_handle {m : Message} (hsettled : stage.isSettled = true) (hfight : stage.fight = (s.sessions i).fight)
    (hcareful : ∀ f ∈ (s.sessions i).fight, m.attacks = false ∧
      ∀ c ∈ (s.sessions i).characterId, ∀ r ∈ m.request, Concludes s c f r) :
    Accepts stage (handle s i m) := by
  cases stage with
  -- an attack begins a fight, and nothing else does
  | free =>
    by_cases hattacks : m.attacks = false
    · exact .of_isSettled rfl (avoids_fights_handle hattacks (.inl hfight.symm))
    · cases m with
      | attackMonster nextMarkId drawn =>
        simp only [handle]
        split
        · refine .cons_of_not_staged rfl ?_
          split
          · exact .append (.of_all rfl) ⟨(by rintro ⟨⟩), .fighting _ rfl, rfl, rfl⟩
          · rfl
        · rfl
      | _ => exact absurd rfl hattacks
  | fighting f hgoing =>
    have hheld : f ∈ (s.sessions i).fight := hfight.symm
    obtain ⟨hattacks, hconcludes⟩ := hcareful f hheld
    -- only requests of the fight are served, and those conclude
    cases hrequest : m.request with
    | none => exact .of_isSettled rfl (avoids_fights_handle hattacks (.inr hrequest))
    | some r =>
      cases m with
      | fight r' calls =>
        cases hrequest
        cases hc : (s.sessions i).characterId with
        | none =>
          simp only [handle, ← hfight, hc]
          rfl
        | some c =>
          simp only [handle, ← hfight, hc]
          exact accepts_serveFight (hconcludes c hc r rfl)
      | mapMovementRequest mapId keyMovements =>
        cases hrequest
        cases hc : (s.sessions i).characterId with
        | none =>
          simp only [handle, ← hfight, hc]
          rfl
        | some c =>
          simp only [handle, ← hfight, hc]
          exact accepts_serveFight (hconcludes c hc _ rfl)
      | _ => cases hrequest
  | _ => cases hsettled

end

/-! ### Runs in order -/

/-- What a session has performed is in order, and so is what it is going to perform. -/
def OnCourse (i : Nat) (x : Logged) : Prop :=
  ∃ stage, Stage.of (x.1 i) = some stage ∧ stage.fight = (x.2.sessions i).fight ∧
    Accepts stage (x.2.sessions i).pending

section

variable {x : Logged} {e : Event} {s' : Server} {i : Nat}

theorem OnCourse.keepsCourse (h : OnCourse i x) : KeepsCourse i x := by
  obtain ⟨stage, hlog, hfight, haccepts⟩ := h
  refine ⟨stage, hlog, hfight, fun hpending => ?_⟩
  rw [hpending] at haccepts
  exact haccepts

theorem performed_of_ne (logs : Nat → List Op) (s : Server) {j : Nat} (h : i ≠ j) :
    performed logs s (.advance j) i = logs i := by
  unfold performed Server.performs
  dsimp only
  rw [if_neg h.symm]
  rfl

theorem nextOp_cons {op : Op} {rest : List Op} (h : op ≠ .spin) : nextOp (op :: rest) = some op := by
  cases op with
  | spin => exact absurd rfl h
  | _ => rfl

theorem performed_of_none {logs : Nat → List Op} {s : Server} {j : Nat} (h : nextOp (s.sessions j).pending = none) :
    performed logs s (.advance j) = logs := by
  funext i
  unfold performed Server.performs
  dsimp only
  split
  · subst i
    rw [h]
    rfl
  · rfl

theorem performed_advance {logs : Nat → List Op} {s : Server} {op : Op} {rest : List Op}
    (hpending : (s.sessions i).pending = op :: rest) (hop : op ≠ .spin) :
    performed logs s (.advance i) i = op :: logs i := by
  unfold performed Server.performs
  dsimp only
  rw [if_pos rfl, hpending, nextOp_cons hop]
  rfl

/-- What is left after an operation in order is in order. -/
theorem Accepts.perform {stage stage' : Stage} {op : Op} {rest : List Op} {ps : Session} {w : World} {clock : Nat}
    (hclose : op.closes = true → stage.isSettled = true) (hnext : stage.next op = some stage')
    (h : Accepts stage' rest)
    (hpending : ps.pending = rest) : Accepts stage' (ps.perform w clock op).pending := by
  cases hcloses : op.closes with
  | false =>
    have hsame : (ps.perform w clock op).pending = ps.pending := by
      cases op <;> first | rfl | cases hcloses
    rw [hsame, hpending]
    exact h
  | true =>
    have hsettled := hclose hcloses
    have hnone : (ps.perform w clock op).pending = [] := by
      cases op <;> first | rfl | cases hcloses
    have hfights : op.fights = false := by
      cases op <;> first | rfl | cases hcloses
    rw [Stage.next_of_isSettled hsettled hfights] at hnext
    obtain rfl := Option.some.inj hnext
    rw [hnone]
    exact hsettled

/-- What is left after an operation that is refused is in order too. -/
theorem Accepts.refuse {stage stage' : Stage} {op : Op} {rest : List Op} (hop : op.mayBeRefused = true)
    (hnext : stage.next op = some stage') (h : Accepts stage' rest) : Accepts stage rest := by
  rcases op.staged_cases with hstaged | hstaged
  · rw [Stage.next_of_not_staged hstaged] at hnext
    obtain rfl := Option.some.inj hnext
    exact h
  · cases hstaged with
    | writeExperience experience =>
      cases stage <;> cases hnext
      exact h.of_awarded
    | _ => cases hop

theorem onCourse_step (h : OnCourse i x) (hcareful : Careful i x e) (hs : Step x.2 e s') :
    OnCourse i (performed x.1 x.2 e, s') := by
  have hother {s' : Server} {j : Nat} (hne : i ≠ j) (hlog : performed x.1 x.2 e i = x.1 i)
      (hsame : s'.sessions i = x.2.sessions i) : OnCourse i (performed x.1 x.2 e, s') := by
    unfold OnCourse
    dsimp only
    rw [hlog, hsame]
    exact h
  obtain ⟨stage, hlog, hfight, haccepts⟩ := h
  cases hs with
  | @receive j m hidle =>
    by_cases hij : i = j
    · subst hij
      obtain ⟨-, hpending⟩ := Session.isIdle_iff.1 hidle
      rw [hpending] at haccepts
      refine ⟨stage, hlog, ?_, ?_⟩
      · rw [Server.sessions_setSession]
        exact hfight
      · rw [Server.sessions_setSession]
        exact accepts_handle haccepts hfight (hcareful rfl hidle)
    · exact hother hij rfl (Server.sessions_setSession_of_ne hij)
  | @advance j op rest hpending hspin =>
    by_cases hij : i = j
    · subst hij
      rw [hpending] at haccepts
      obtain ⟨hclose, stage', hnext, haccepts⟩ := haccepts
      refine ⟨stage', ?_, ?_, ?_⟩
      · dsimp only
        rw [performed_advance hpending hspin, Stage.of, hlog]
        exact hnext
      · rw [Server.sessions_perform]
        exact Stage.fight_next hnext hfight
      · rw [Server.sessions_perform]
        exact haccepts.perform hclose hnext rfl
    · exact hother hij (performed_of_ne x.1 x.2 hij) (Server.sessions_perform_of_ne hij)
  | @refuse j op rest hpending hop =>
    by_cases hij : i = j
    · subst hij
      rw [hpending] at haccepts
      obtain ⟨hclose, stage', hnext, haccepts⟩ := haccepts
      refine ⟨stage, hlog, ?_, ?_⟩
      · rw [Server.sessions_setSession]
        exact hfight
      · rw [Server.sessions_setSession]
        exact haccepts.refuse hop hnext
    · exact hother hij rfl (Server.sessions_setSession_of_ne hij)
  | @fail j hfail =>
    by_cases hij : i = j
    · subst hij
      obtain ⟨hending, htake⟩ := hcareful rfl
      refine ⟨stage, hlog, ?_, ?_⟩
      · rw [Server.sessions_close]
        exact hfight
      · rw [Server.sessions_close]
        -- what fails is not part of the end of a fight, so no fight is left undecided
        rcases ending_of hlog with hends | hsettled | ⟨f, hdead, rfl⟩
        · rw [hending] at hends
          cases hends
        · exact hsettled
        · exact absurd haccepts.takes htake
    · exact hother hij rfl (Server.sessions_close_of_ne hij)
  | @deliver j b bs hqueue hidle =>
    by_cases hij : i = j
    · subst hij
      refine ⟨stage, hlog, ?_, ?_⟩
      · simpa only [Server.setSession, Function.update_self] using hfight
      · simpa only [Server.setSession, Function.update_self] using haccepts
    · exact hother hij rfl (Server.sessions_setSession_of_ne hij)
  | @hangUp j hidle =>
    by_cases hij : i = j
    · subst hij
      obtain ⟨-, hpending⟩ := Session.isIdle_iff.1 hidle
      rw [hpending] at haccepts
      refine ⟨stage, hlog, ?_, ?_⟩
      · rw [Server.sessions_setSession]
        exact hfight
      · rw [Server.sessions_setSession]
        refine .of_isSettled haccepts ?_
        unfold cleanup
        split <;> exact .of_all rfl
    · exact hother hij rfl (Server.sessions_setSession_of_ne hij)
  | createCharacter => exact ⟨stage, hlog, hfight, haccepts⟩
  | tick => exact ⟨stage, hlog, hfight, haccepts⟩

/-- An event does nothing, or it is a step. -/
theorem act_logged (x : Logged) (e : Event) : act x e = x ∨ Step x.2 e (act x.2 e) := by
  cases e with
  | advance i =>
    cases hpending : (x.2.sessions i).pending with
    | nil =>
      refine .inl (Prod.ext (performed_of_none (by rw [hpending]; rfl)) ?_)
      simp only [act, hpending]
    | cons op rest =>
      by_cases hspin : op = .spin
      · subst hspin
        refine .inl (Prod.ext (performed_of_none (by rw [hpending]; rfl)) ?_)
        simp only [act, hpending]
      · have hact : act x.2 (.advance i) = x.2.perform i op rest := by
          cases op with
          | spin => exact absurd rfl hspin
          | _ => simp only [act, hpending]
        rw [hact]
        exact .inr (.advance hpending hspin)
  | _ => exact (act_cases x.2 _).imp_left (congrArg (Prod.mk x.1))

/-- In every run in which the client does not attack during a fight, its requests conclude, and nothing fails while a
fight is ended, the fights of the session take their course, whatever the other sessions do. -/
theorem keepsCourse_run (mapData : Int → Option MapData) (depth : Nat) (rows : List Row)
    (accounts : Nat → Int) (i : Nat)
    (es : List Event) (h : Along (Careful i) ((fun _ => [], .start mapData depth rows accounts) : Logged) es) :
    Along (fun x _ => KeepsCourse i x) ((fun _ => [], .start mapData depth rows accounts) : Logged) es ∧
      KeepsCourse i (after ((fun _ => [], .start mapData depth rows accounts) : Logged) es) := by
  have hstart : OnCourse i ((fun _ => [], .start mapData depth rows accounts) : Logged) := ⟨.free, rfl, rfl, rfl⟩
  have hrun := h.invariant (I := OnCourse i) (fun x e hx hcareful => ?_) hstart
  · exact ⟨hrun.1.imp fun x _ hx => hx.keepsCourse, hrun.2.keepsCourse⟩
  · rcases act_logged x e with hsame | hs
    · rw [hsame]
      exact hx
    · exact onCourse_step hx hcareful hs

end

/-! ### A duel -/

/-- Two players, and fights of at most three turns that nobody plays. -/
def duel : Logged := (fun _ => [], .start twoPlayers.mapData 3 twoPlayers.rows Int.ofNat)

/-- The first player enters the world and attacks a group of monsters. -/
def attacking : List Event := entering 0 ++ answered 0 (.attackMonster 0 0) 11

/-- It then casts a spell on a cell. -/
def casting (cellId : Int16) (data : SpellData) : List Event :=
  attacking ++ answered 0 (.fight (.cast 1 cellId (some data) 0) 0) 40

/-- A poison that kills at the start of the next turn. -/
def venom : SpellData := { SpellData.fallback with minRange := 0, effects := [⟨131, 1000, 0, 2, .neutral⟩] }

/-- The monster is slain, which ends the fight. -/
theorem keepsCourse_run_slaying : KeepsCourse 0 (after duel (casting 400 slaying)) :=
  (keepsCourse_run _ _ _ _ 0 _ (by decide +kernel)).2

theorem not_keepsCourse {i : Nat} {x : Logged} (hpending : (x.2.sessions i).pending = [])
    (hlog : (Stage.of (x.1 i)).map Stage.isSettled ≠ some true) : ¬KeepsCourse i x := by
  rintro ⟨stage, hstage, -, hsettled⟩
  rw [hstage, Option.map_some, hsettled hpending] at hlog
  exact hlog rfl

/-- The player attacks again; or it dies of its poison when it says that it is ready; or the connection breaks after
the monster has been slain. -/
theorem not_keepsCourse_run :
    ¬KeepsCourse 0 (after duel (attacking ++ answered 0 (.attackMonster 0 0) 11)) ∧
      ¬KeepsCourse 0 (after duel (casting 280 venom ++ answered 0 (.fight (.ready true) 0) 20)) ∧
      ¬KeepsCourse 0 (after duel ((casting 400 slaying).take 51 ++ [.fail 0])) := by
  refine ⟨not_keepsCourse ?_ ?_, not_keepsCourse ?_ ?_, not_keepsCourse ?_ ?_⟩ <;> decide +kernel

end Otomai.Handlers
