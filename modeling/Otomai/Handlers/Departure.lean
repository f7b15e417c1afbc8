import Otomai.Handlers.Session

/-!
# The end of a session

A session ends when its client has hung up and the cleanup is done, or with an error, at any operation that may fail
and between two messages.  The cleanup is not done after an error, and it leaves the map that the session has
recorded.

`cleans_up_iff`: a run cleans up exactly if every session that ends either is present on no map, or has hung up and is
present on the map it has recorded only.
-/

namespace Otomai.Handlers

open Machine Otomai.Common Otomai.Combat Trace

/-- The session ends at the event. -/
def Ends (s : Server) (e : Event) (i : Nat) : Prop :=
  (s.sessions i).isOpen = true ∧ ((act s e).sessions i).isOpen = false

/-- A character is present on a map. -/
def World.Present (w : World) (mapId c : Int) : Prop := ∃ p ∈ (w.maps mapId).players, p.characterId = c

/-- When a session has ended, its character is on no map, and every other player of the map it stood on has been sent
its removal. -/
def CleansUp (s : Server) (e : Event) : Prop :=
  ∀ i, Ends s e i → ∀ c, (s.sessions i).characterId = some c →
    (∀ mapId, ¬(act s e).world.Present mapId c) ∧
      ∀ mapId, s.world.Present mapId c → ∀ q ∈ (s.world.maps mapId).players, q.characterId ≠ c →
        ∃ sent, (act s e).world.queue q.tx = s.world.queue q.tx ++ sent ∧ .removeActor c ∈ sent

/-- When a session ends, its character is on no map, or the client has hung up and its character is on the map that
the session has recorded only. -/
def LeavesWell (s : Server) (e : Event) : Prop :=
  ∀ i, Ends s e i → ∀ c, (s.sessions i).characterId = some c →
    (∀ mapId, ¬s.world.Present mapId c) ∨
      (s.sessions i).pending.head? = some .depart ∧
        ∃ mapId, (s.sessions i).mapId = some mapId ∧ ∀ mapId', s.world.Present mapId' c → mapId' = mapId

section

variable {s s' : Server} {e : Event} {i : Nat} {c mapId : Int}

/-- A session ends with an error, which changes no map and no queue, or with its cleanup. -/
theorem ends_cases (h : Ends s e i) :
    (act s e).world = s.world ∧ (s.sessions i).pending.head? ≠ some .depart ∨
      (s.sessions i).pending.head? = some .depart ∧
        (act s e).world = s.world.perform { s.sessions i with pending := (s.sessions i).pending.tail } i .depart := by
  obtain ⟨hopen, hclosed⟩ := h
  have hsame {s' : Server} (hs' : s'.sessions i = s.sessions i) : (s'.sessions i).isOpen ≠ false := by
    rw [hs', hopen]
    nofun
  rcases act_cases s e with heq | hs
  · rw [heq] at hclosed
    exact absurd hclosed (hsame rfl)
  · generalize act s e = s' at hclosed hs ⊢
    cases hs with
    | @receive j m hidle =>
      by_cases hj : i = j
      · subst hj
        rw [Server.sessions_setSession] at hclosed
        exact absurd hclosed (by simp [hopen])
      · exact absurd hclosed (hsame (Server.sessions_setSession_of_ne hj))
    | @advance j op rest hpending hspin =>
      by_cases hj : i = j
      · subst hj
        rw [Server.sessions_perform] at hclosed
        rw [hpending]
        cases op with
        | crash => exact .inl ⟨rfl, nofun⟩
        | depart => exact .inr ⟨rfl, rfl⟩
        | _ => exact absurd hclosed (by simp [Session.perform, hopen])
      · exact absurd hclosed (hsame (Server.sessions_perform_of_ne hj))
    | @refuse j op rest hpending hop =>
      by_cases hj : i = j
      · subst hj
        rw [Server.sessions_setSession] at hclosed
        exact absurd hclosed (by simp [hopen])
      · exact absurd hclosed (hsame (Server.sessions_setSession_of_ne hj))
    | @fail j hfail =>
      by_cases hj : i = j
      · subst hj
        refine .inl ⟨rfl, fun hdepart => ?_⟩
        have hmay := hfail .depart hdepart
        cases hmay
      · exact absurd hclosed (hsame (Server.sessions_close_of_ne hj))
    | @deliver j b bs hqueue hidle =>
      by_cases hj : i = j
      · subst hj
        simp only [Server.setSession, Function.update_self] at hclosed
        exact absurd hclosed (by simp [hopen])
      · exact absurd hclosed (hsame (Server.sessions_setSession_of_ne hj))
    | @hangUp j hidle =>
      by_cases hj : i = j
      · subst hj
        rw [Server.sessions_setSession] at hclosed
        exact absurd hclosed (by simp [hopen])
      · exact absurd hclosed (hsame (Server.sessions_setSession_of_ne hj))
    | createCharacter => exact absurd hclosed (hsame rfl)
    | tick => exact absurd hclosed (hsame rfl)

theorem World.present_leaveMap {w : World} {mapId' : Int} :
    (w.leaveMap mapId c).Present mapId' c ↔ w.Present mapId' c ∧ mapId' ≠ mapId := by
  simp only [World.Present, World.mem_leaveMap]
  constructor
  · rintro ⟨p, ⟨hp, hne⟩, hpc⟩
    exact ⟨⟨p, hp, hpc⟩, fun hmap => hne hmap hpc⟩
  · rintro ⟨⟨p, hp, hpc⟩, hmap⟩
    exact ⟨p, ⟨hp, fun h => absurd h hmap⟩, hpc⟩

/-- Who stays on the map of a departure has been sent the removal. -/
theorem World.queue_leaveMap {w : World} {q : MapPlayer} (hq : q ∈ (w.maps mapId).players) (hne : q.characterId ≠ c) :
    ∃ sent, (w.leaveMap mapId c).queue q.tx = w.queue q.tx ++ sent ∧ .removeActor c ∈ sent := by
  obtain ⟨n, hqueue, hn⟩ := @World.queue_broadcast w (.removeActor c) ((w.maps mapId).remove c).players q.tx
  refine ⟨.replicate n (.removeActor c), hqueue, List.mem_replicate.2 ⟨?_, rfl⟩⟩
  exact Nat.ne_of_gt (hn.2 ⟨q, WorldMap.mem_remove.2 ⟨hq, hne⟩, rfl⟩)

/-- The end of one session. -/
theorem cleansUp_iff_leavesWell (s : Server) (e : Event) : CleansUp s e ↔ LeavesWell s e := by
  refine forall_congr' fun i => imp_congr_right fun hends => forall_congr' fun c => imp_congr_right fun hc => ?_
  rcases ends_cases hends with ⟨hworld, hnot⟩ | ⟨hdepart, hworld⟩
  · -- nothing is done for a session that ends with an error
    rw [hworld]
    constructor
    · exact fun h => .inl h.1
    · rintro (hnowhere | ⟨hdepart, -⟩)
      · exact ⟨hnowhere, fun mapId hpresent => absurd hpresent (hnowhere mapId)⟩
      · exact absurd hdepart hnot
  · cases hmap : (s.sessions i).mapId with
    | none =>
      have hsame : (act s e).world = s.world := by simp [hworld, World.perform, hc, hmap]
      rw [hsame]
      constructor
      · exact fun h => .inl h.1
      · rintro (hnowhere | ⟨-, mapId, hsome, -⟩)
        · exact ⟨hnowhere, fun mapId hpresent => absurd hpresent (hnowhere mapId)⟩
        · cases hsome
    | some mapId =>
      have hleave : (act s e).world = s.world.leaveMap mapId c := by simp [hworld, World.perform, hc, hmap]
      rw [hleave]
      constructor
      · rintro ⟨hnowhere, -⟩
        refine .inr ⟨hdepart, mapId, rfl, fun mapId' hpresent => ?_⟩
        by_contra hne
        exact hnowhere mapId' (World.present_leaveMap.2 ⟨hpresent, hne⟩)
      · intro h
        have honly : ∀ mapId', s.world.Present mapId' c → mapId' = mapId := by
          rcases h with hnowhere | ⟨-, mapId', hsome, honly⟩
          · exact fun mapId' hpresent => absurd hpresent (hnowhere mapId')
          · cases hsome
            exact honly
        refine ⟨fun mapId' hpresent => ?_, fun mapId' hpresent q hq hne => ?_⟩
        · obtain ⟨hold, hne⟩ := World.present_leaveMap.1 hpresent
          exact hne (honly mapId' hold)
        · obtain rfl := honly mapId' hpresent
          exact World.queue_leaveMap hq hne

/-- Whatever happens, the sessions that end clean up exactly if they leave well. -/
theorem cleans_up_iff (mapData : Int → Option MapData) (depth : Nat) (rows : List Row) (accounts : Nat → Int)
    (es : List Event) :
    Along CleansUp (.start mapData depth rows accounts) es ↔ Along LeavesWell
      (.start mapData depth rows accounts) es :=
  ⟨Along.imp fun s e => (cleansUp_iff_leavesWell s e).1, Along.imp fun s e => (cleansUp_iff_leavesWell s e).2⟩

end

/-- A player enters the world, and its connection breaks. -/
theorem stays_after_error : ¬Along CleansUp twoPlayers (entering 0 ++ [.fail 0]) := by
  intro h
  have hend := (along_append.1 h).2.1 0 ⟨by decide +kernel, by decide +kernel⟩ 1 (by decide +kernel)
  exact hend.1 154010883 ⟨⟨1, 10, 0⟩, by decide +kernel, rfl⟩

end Otomai.Handlers
