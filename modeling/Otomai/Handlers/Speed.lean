import Otomai.Handlers.Walk
import Otomai.Trace.Observer

/-!
# How fast a player walks

A request to move stores the end of the path at once; a confirmation checks the time that the client's own directions
come to, if there is a run that it can end.  An observer writes down where each player stood before its requests, when
they were made and how long the runs take (`Walk`).

* `handle_looks`: the messages whose handlers read or write the position of their player.
* `handleMovementConfirm_looks`: a confirmation that is turned down writes nothing, and one that is accepted comes
  after the time that was announced.
* `positions_are_timely`: a position that is written or seen is the one before the run, or the run has had its time,
  if the clients announce no less than this time, and wait where it is not checked.
-/

namespace Otomai.Handlers

open Machine Otomai.Common Otomai.Combat Trace

/-! ### Runs of a player -/

/-- The time a run from one cell to the next takes, by the direction in which it lies. -/
def runTime (origin target : Nat) : Nat :=
  match directionBetween origin target with
  | some (some direction) => (runMsPerCell[direction]?).getD 0
  | _ => 0

/-- The time a run over some cells takes. -/
def trueDuration : List Nat → Nat
  | origin :: target :: rest => runTime origin target + trueDuration (target :: rest)
  | _ => 0

/-- A run that has been requested: where the player of the session stood before, and when. -/
structure Walk where
  session : Nat
  mapId : Int
  cellId : Int
  time : Nat
  duration : Nat
  deriving DecidableEq, Repr

instance : Observes (List Walk) Server Event where
  note walks s
    | .advance i =>
      match (s.sessions i).pending with
      | .storePathEnd mapId keyMovements :: _ =>
        match s.entry i mapId with
        | some p => ⟨i, mapId, p.cellId, s.clock, trueDuration (pathCells keyMovements)⟩ :: walks
        | none => walks
      | _ => walks
    | _ => walks

/-- Four fifths of the time of the run have passed. -/
def Walk.Over (r : Walk) (clock : Nat) : Prop := r.duration * 4 ≤ (clock - r.time) * 5

/-- All runs of a session are over. -/
def AllOver (walks : List Walk) (clock : Nat) (i : Nat) : Prop := ∀ r ∈ walks, r.session = i → r.Over clock

/-- A position of the player of a session is the one before a run, or that run is over. -/
def Ripe (walks : List Walk) (clock : Nat) (i : Nat) (mapId cellId : Int) : Prop :=
  ∀ r ∈ walks, r.session = i → (mapId = r.mapId ∧ cellId = r.cellId) ∨ r.Over clock

theorem AllOver.ripe {walks : List Walk} {clock i : Nat} (h : AllOver walks clock i) (mapId cellId : Int) :
    Ripe walks clock i mapId cellId := fun r hr hi => .inr (h r hr hi)

theorem AllOver.later {walks : List Walk} {clock clock' i : Nat} (h : AllOver walks clock i) (hle : clock ≤ clock') :
    AllOver walks clock' i := by
  intro r hr hi
  have := h r hr hi
  unfold Walk.Over at this ⊢
  omega

/-! ### Who looks at a position -/

/-- The operation reads the players of a map, or writes a position to the database. -/
def Op.looks : Op → Bool
  | .readPlayers _ | .savePosition _ | .trySavePosition _ | .writePosition .. => true
  | _ => false

/-- The message makes its handler read or write the position of the player. -/
def Message.looks : Message → Bool
  | .gameContextCreateRequest | .mapMovementConfirm | .changeMap .. => true
  | .fight r _ => r.checksEnd
  | _ => false

theorem avoids_looks_serveFight (s : Server) (c : Int) (f : Fight) {r : Request} (hr : r.checksEnd = false)
    (calls : Nat) :
    Avoids Op.looks (serveFight s c f r calls) := by
  unfold serveFight
  refine (avoids_said rfl _).append ?_
  split
  · rw [hr]
    exact .of_all rfl
  · exact .of_all rfl
  · exact .of_all rfl

theorem handle_looks (s : Server) (i : Nat) {m : Message} (hm : m.looks = false) :
    Avoids Op.looks (handle s i m) := by
  cases m with
  | characterSelection c =>
    simp only [handle, handleCharacterSelection]
    split
    · split <;> exact .of_all rfl
    · exact .of_all rfl
  | attackMonster nextMarkId drawn =>
    simp only [handle]
    split
    · refine .cons rfl ?_
      split
      · exact .of_all rfl
      · exact .nil
    · exact .nil
  | fight r calls =>
    simp only [handle]
    split
    · exact avoids_looks_serveFight s _ _ hm calls
    · exact .nil
  | mapMovementRequest mapId keyMovements =>
    simp only [handle]
    split
    · exact avoids_looks_serveFight s _ _ rfl 0
    · split
      · unfold handleMovementRequest
        split
        · exact .of_all rfl
        · split <;> exact .of_all rfl
      · exact .nil
    · exact .nil
  | mapMovementCancel cellId =>
    simp only [handle]
    split
    · exact .of_all rfl
    · exact .nil
  | other calls => exact .replicate rfl
  | gameContextCreateRequest => cases hm
  | mapMovementConfirm => cases hm
  | changeMap mapId calls => cases hm

/-! ### Patience -/

/-- The positions that are written or seen at an event. -/
def Timely (x : List Walk × Server) : Event → Prop
  | .advance i =>
    match (x.2.sessions i).pending with
    | .readPlayers mapId :: _ =>
      ∀ p ∈ (x.2.world.maps mapId).players, Ripe x.1 x.2.clock p.tx mapId p.cellId
    | .savePosition mapId :: _ | .trySavePosition mapId :: _ =>
      ∀ p, x.2.entry i mapId = some p → Ripe x.1 x.2.clock i mapId p.cellId
    | .writePosition mapId cellId :: _ => Ripe x.1 x.2.clock i mapId cellId
    | _ => True
  | .receive i (.changeMap _ _) =>
    (x.2.sessions i).isIdle = true → ∀ mapId, (x.2.sessions i).mapId = some mapId →
      ∀ p, x.2.entry i mapId = some p → Ripe x.1 x.2.clock i mapId p.cellId
  | _ => True

/-- By the first moment at which the check lets a confirmation pass, all runs of the session are over. -/
def MovementState.Covers (ms : MovementState) (walks : List Walk) (i : Nat) : Prop :=
  AllOver walks (ms.startTime + ms.minExpected) i

/-- What the check of a confirmation is worth: it lets none pass before the end of the runs, or does not apply. -/
def Confirms (x : List Walk × Server) (i : Nat) : Prop :=
  match (x.2.sessions i).movement with
  | some ms => ms.Covers x.1 i
  | none => AllOver x.1 x.2.clock i

/-- A client that confirms a run has announced no less time for it than it takes.  Where nothing is checked, it waits
for the end of its runs: before a confirmation while the server knows of no run, before the other messages that make
the server look at its position, and before it hangs up; and nobody is running on a map when another player enters
it. -/
def Candid (x : List Walk × Server) : Event → Prop
  | .receive i m => (x.2.sessions i).isIdle = true →
    if m = .mapMovementConfirm then Confirms x i else m.looks = true → AllOver x.1 x.2.clock i
  | .hangUp i => (x.2.sessions i).isIdle = true → AllOver x.1 x.2.clock i
  | .advance i =>
    match (x.2.sessions i).pending with
    | .readPlayers mapId :: _ => ∀ p ∈ (x.2.world.maps mapId).players, p.tx ≠ i → AllOver x.1 x.2.clock p.tx
    | _ => True
  | _ => True

/-- A handler that is going to look at the position of its player has been started after the end of its runs, and
starts none; and no run has been started in the future. -/
structure Waits (x : List Walk × Server) (i : Nat) : Prop where
  looks : Avoids Op.looks (x.2.sessions i).pending ∨
    AllOver x.1 x.2.clock i ∧ Avoids Op.stores (x.2.sessions i).pending
  started : ∀ ms, (x.2.sessions i).movement = some ms → ms.startTime ≤ x.2.clock

section

variable {x : List Walk × Server} {e : Event} {s' : Server} {i : Nat}

theorem note_of_not_advance (h : ∀ i, e ≠ .advance i) : note x.1 x.2 e = x.1 := by
  cases e with
  | advance i => exact absurd rfl (h i)
  | _ => rfl

/-- A note is made of the session whose request it is. -/
theorem mem_note {j : Nat} {r : Walk} (h : r ∈ note x.1 x.2 (.advance j)) :
    r ∈ x.1 ∨ r.session = j ∧ ∃ op rest, (x.2.sessions j).pending = op :: rest ∧ op.stores = true := by
  simp only [note] at h
  split at h
  · rename_i mapId keyMovements rest hpending
    split at h
    · rcases List.mem_cons.1 h with rfl | h
      · exact .inr ⟨rfl, _, _, hpending, rfl⟩
      · exact .inl h
    · exact .inl h
  · exact .inl h

theorem Avoids.tail {q : Op → Bool} {op : Op} {rest : List Op} (h : Avoids q (op :: rest)) : Avoids q rest :=
  fun op' hop' => h op' (List.mem_cons_of_mem op hop')

/-- A confirmation that is turned down writes nothing, and one that is accepted comes after the end of the runs. -/
theorem handleMovementConfirm_looks (hstarted : ∀ ms, (x.2.sessions i).movement = some ms → ms.startTime ≤ x.2.clock)
    (hcandid : Confirms x i) (mapId : Int) :
    Avoids Op.looks (handleMovementConfirm x.2 (x.2.sessions i) mapId) ∨
      AllOver x.1 x.2.clock i ∧ Avoids Op.stores (handleMovementConfirm x.2 (x.2.sessions i) mapId) := by
  unfold handleMovementConfirm
  unfold Confirms at hcandid
  cases hmovement : (x.2.sessions i).movement with
  | none =>
    rw [hmovement] at hcandid
    exact .inr ⟨hcandid, .of_all rfl⟩
  | some ms =>
    rw [hmovement] at hcandid
    rw [Option.any_some]
    cases hfast : ms.tooFast x.2.clock with
    | true => exact .inl (.of_all rfl)
    | false =>
      refine .inr ⟨AllOver.later hcandid ?_, .of_all rfl⟩
      have hstart := hstarted ms hmovement
      rw [MovementState.tooFast, decide_eq_false_iff_not] at hfast
      -- a run that is announced to take no time is never too fast
      have hzero : ms.expectedDurationMs = 0 → ms.minExpected = 0 := by
        intro h
        rw [MovementState.minExpected, h]
      omega

/-- A session that an event leaves alone waits as before, unless a run of its own is noted. -/
theorem Waits.other (h : Waits x i) (hclock : s'.clock = x.2.clock)
    (hnote : ∀ r ∈ note x.1 x.2 e, r.session = i → r ∈ x.1) (hsame : s'.sessions i = x.2.sessions i) :
    Waits (note x.1 x.2 e, s') i := by
  constructor
  · dsimp only
    rw [hsame, hclock]
    exact h.looks.imp_right fun hover => ⟨fun r hr hi => hover.1 r (hnote r hr hi) hi, hover.2⟩
  · dsimp only
    rw [hsame, hclock]
    exact h.started

/-- What is left to do for a session may be replaced by what looks at no position, or comes after its runs. -/
theorem Waits.given (h : Waits x i) {ops : List Op}
    (hops : Avoids Op.looks ops ∨ AllOver x.1 x.2.clock i ∧ Avoids Op.stores ops) :
    Waits (x.1, x.2.setSession i { x.2.sessions i with pending := ops }) i := by
  constructor
  · dsimp only
    rw [Server.sessions_setSession]
    exact hops
  · dsimp only
    rw [Server.sessions_setSession]
    exact h.started

theorem waits_receive (h : Waits x i) {m : Message} (hidle : (x.2.sessions i).isIdle = true)
    (hcandid : Candid x (.receive i m)) :
    Waits (x.1, x.2.setSession i { x.2.sessions i with pending := handle x.2 i m }) i := by
  refine h.given ?_
  by_cases hconfirm : m = .mapMovementConfirm
  · -- the one message that is checked
    subst hconfirm
    have hconfirms := hcandid hidle
    rw [if_pos rfl] at hconfirms
    simp only [handle]
    split
    · exact handleMovementConfirm_looks h.started hconfirms _
    · exact .inl .nil
  · cases hlooks : m.looks with
    | false => exact .inl (handle_looks x.2 i hlooks)
    | true =>
      have hover := hcandid hidle
      rw [if_neg hconfirm] at hover
      refine .inr ⟨hover hlooks, keepsCells_handle x.2 i m ?_ ?_⟩
      · rintro mapId keyMovements rfl
        cases hlooks
      · rintro cellId rfl
        cases hlooks

theorem waits_advance (h : Waits x i) {op : Op} {rest : List Op}
    (hpending : (x.2.sessions i).pending = op :: rest) :
    Waits (note x.1 x.2 (.advance i), x.2.perform i op rest) i := by
  have hbefore := h.looks
  rw [hpending] at hbefore
  have hrest {q : Op → Bool} (hq : Avoids q (op :: rest)) :
      Avoids q (({ x.2.sessions i with pending := rest } : Session).perform x.2.world x.2.clock op).pending := by
    cases op <;> first | exact hq.tail | exact .nil
  constructor
  · dsimp only
    rw [Server.sessions_perform]
    refine hbefore.imp hrest fun hover => ⟨fun r hr hi => ?_, hrest hover.2⟩
    -- a handler that comes after the runs of its session starts none
    rcases mem_note hr with hr | ⟨-, op', rest', hpending', hstores⟩
    · exact hover.1 r hr hi
    · rw [hpending] at hpending'
      cases hpending'
      have hkeeps := hover.2 op List.mem_cons_self
      rw [hstores] at hkeeps
      cases hkeeps
  · dsimp only
    rw [Server.sessions_perform]
    intro ms hms
    cases op with
    | startMovement keyMovements =>
      obtain rfl := Option.some.inj hms
      exact Nat.le_refl _
    | clearMovement => cases hms
    | _ => exact h.started ms hms

theorem waits_step (h : ∀ i, Waits x i) (hcandid : Candid x e) (hs : Step x.2 e s') (i : Nat) :
    Waits (note x.1 x.2 e, s') i := by
  cases hs with
  | @receive j m hidle =>
    by_cases hij : i = j
    · subst hij
      exact waits_receive (h i) hidle hcandid
    · exact (h i).other rfl (fun _ hr _ => hr) (Server.sessions_setSession_of_ne hij)
  | @advance j op rest hpending hspin =>
    by_cases hij : i = j
    · subst hij
      exact waits_advance (h i) hpending
    · refine (h i).other rfl (fun r hr hi => ?_) (Server.sessions_perform_of_ne hij)
      rcases mem_note hr with hr | ⟨hj, -⟩
      · exact hr
      · exact absurd (hi.symm.trans hj) hij
  | @refuse j op rest hpending hop =>
    by_cases hij : i = j
    · subst hij
      have hbefore := (h i).looks
      rw [hpending] at hbefore
      exact (h i).given (hbefore.imp Avoids.tail fun hover => ⟨hover.1, hover.2.tail⟩)
    · exact (h i).other rfl (fun _ hr _ => hr) (Server.sessions_setSession_of_ne hij)
  | @fail j hfail =>
    by_cases hij : i = j
    · subst hij
      constructor
      · dsimp only
        rw [Server.sessions_close]
        exact .inl .nil
      · dsimp only
        rw [Server.sessions_close]
        exact (h i).started
    · exact (h i).other rfl (fun _ hr _ => hr) (Server.sessions_setSession_of_ne hij)
  | @deliver j b bs hqueue hidle =>
    by_cases hij : i = j
    · subst hij
      have hpending := (Session.isIdle_iff.1 hidle).2
      constructor
      · simp only [Server.setSession, Function.update_self, hpending]
        exact .inl .nil
      · simp only [Server.setSession, Function.update_self]
        exact (h i).started
    · exact (h i).other rfl (fun _ hr _ => hr) (Server.sessions_setSession_of_ne hij)
  | @hangUp j hidle =>
    by_cases hij : i = j
    · subst hij
      refine (h i).given (.inr ⟨hcandid hidle, ?_⟩)
      unfold cleanup
      split <;> exact .of_all rfl
    · exact (h i).other rfl (fun _ hr _ => hr) (Server.sessions_setSession_of_ne hij)
  | createCharacter => exact ⟨(h i).looks, (h i).started⟩
  | @tick ms =>
    exact ⟨(h i).looks.imp_right fun hover => ⟨hover.1.later (Nat.le_add_right ..), hover.2⟩,
      fun ms' hms => Nat.le_add_right_of_le ((h i).started ms' hms)⟩

/-- A note that is made does not concern a handler that looks. -/
theorem waits_note (h : ∀ i, Waits x i) (e : Event) (i : Nat) : Waits (note x.1 x.2 e, x.2) i := by
  by_cases hadvance : ∃ j, e = .advance j
  · obtain ⟨j, rfl⟩ := hadvance
    refine ⟨(h i).looks.imp_right fun hover => ⟨fun r hr hi => ?_, hover.2⟩, (h i).started⟩
    rcases mem_note hr with hr | ⟨hj, op, rest, hpending, hstores⟩
    · exact hover.1 r hr hi
    · obtain rfl : i = j := hi.symm.trans hj
      have hkeeps := hover.2 op (by rw [hpending]; exact List.mem_cons_self)
      rw [hstores] at hkeeps
      cases hkeeps
  · rw [note_of_not_advance fun j hj => hadvance ⟨j, hj⟩]
    exact h i

theorem timely_of_waits (h : ∀ i, Waits x i) (hcandid : Candid x e) : Timely x e := by
  cases e with
  | advance i =>
    have hown {op : Op} {rest : List Op} (hpending : (x.2.sessions i).pending = op :: rest)
        (hlooks : op.looks = true) : AllOver x.1 x.2.clock i := by
      rcases (h i).looks with havoids | hover
      · have hno := havoids op (by rw [hpending]; exact List.mem_cons_self)
        rw [hlooks] at hno
        cases hno
      · exact hover.1
    simp only [Timely]
    split
    · rename_i mapId rest hpending
      intro p hp
      by_cases htx : p.tx = i
      · rw [htx]
        exact (hown hpending rfl).ripe _ _
      · simp only [Candid, hpending] at hcandid
        exact (hcandid p hp htx).ripe _ _
    · rename_i hpending
      exact fun p _ => (hown hpending rfl).ripe _ _
    · rename_i hpending
      exact fun p _ => (hown hpending rfl).ripe _ _
    · rename_i hpending
      exact (hown hpending rfl).ripe _ _
    · trivial
  | receive i m =>
    cases m with
    | changeMap mapId calls =>
      intro hidle _ _ _ _
      have hover := hcandid hidle
      rw [if_neg (by simp)] at hover
      exact (hover rfl).ripe _ _
    | _ => trivial
  | _ => trivial

end

instance (r : Walk) (clock : Nat) : Decidable (r.Over clock) := inferInstanceAs (Decidable (_ ≤ _))

instance (walks : List Walk) (clock i : Nat) : Decidable (AllOver walks clock i) :=
  inferInstanceAs (Decidable (∀ r ∈ walks, r.session = i → r.Over clock))

instance (ms : MovementState) (walks : List Walk) (i : Nat) : Decidable (ms.Covers walks i) :=
  inferInstanceAs (Decidable (AllOver ..))

instance (x : List Walk × Server) (i : Nat) : Decidable (Confirms x i) := by
  unfold Confirms
  split <;> infer_instance

instance decidableCandid (x : List Walk × Server) : (e : Event) → Decidable (Candid x e)
  | .receive .. => inferInstanceAs (Decidable (_ → ite _ _ _))
  | .hangUp _ => inferInstanceAs (Decidable (_ → _))
  | .advance i => by
    change Decidable (match (x.2.sessions i).pending with
      | .readPlayers mapId :: _ => ∀ p ∈ (x.2.world.maps mapId).players, p.tx ≠ i → AllOver x.1 x.2.clock p.tx
      | _ => True)
    split <;> infer_instance
  | .refuse _ | .fail _ | .deliver _ | .createCharacter _ | .tick _ => .isTrue trivial

/-- A player runs to the east and confirms at once, which is turned down, and again at the end, which is not checked;
then it runs back and confirms in time. -/
def walking : List Event :=
  entering 0 ++ answered 0 (.mapMovementRequest 154010883 [10, 11]) 3 ++
    .tick 100 :: answered 0 .mapMovementConfirm 1 ++ .tick 104 :: answered 0 .mapMovementConfirm 2 ++
    answered 0 (.mapMovementRequest 154010883 [11, 4 * 4096 + 10]) 3 ++
    .tick 204 :: answered 0 .mapMovementConfirm 2

/-- A player asks to run to the east and calls it south, and confirms after the time that a run to the south takes. -/
def hurrying : List Event :=
  entering 0 ++ answered 0 (.mapMovementRequest 154010883 [10, 2 * 4096 + 11]) 3 ++
    .tick 150 :: answered 0 .mapMovementConfirm 1

end Otomai.Handlers
