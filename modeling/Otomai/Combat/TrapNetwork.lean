import Mathlib.Logic.Relation
import Otomai.Combat.History
import Otomai.Search.Worklist

/-!
# Trap networks

Two traps of a caster are linked if their zones share a cell or have cells next to each other.  The search of
`connected_traps` finds what the links connect a trap with, and whoever steps on a trap triggers its whole network:
the effects of each of its traps, once, and then all of them are taken off the board.

* `connectedTraps_spec`, `trapNetwork_spec`: what the search finds for a trap, and for the traps of a cell.
* `triggerTrapsOnCell_spec`: which traps are triggered, and which marks are left.
* `trap_networks`: both, for every board of marks with distinct ids on the grid, as the boards of all fights are until
  the counter of the marks overflows.
-/

namespace Otomai.Combat

open Machine Otomai.Common Trace Program Relation Search

/-! ### Links -/

/-- The zones share a cell, or have cells at a distance of at most one. -/
def Mark.Touches (m other : Mark) : Prop :=
  ∃ c1 ∈ m.zoneCells, ∃ c2 ∈ other.zoneCells, c1 = c2 ∨ ∃ d, distance (asU16 c1) (asU16 c2) = some d ∧ d ≤ 1

/-- The marks are traps of the same caster, and their zones touch. -/
structure Mark.Linked (m other : Mark) : Prop where
  trap : m.markType = .trap
  other_trap : other.markType = .trap
  caster : other.casterId = m.casterId
  touches : m.Touches other

/-- The traps of these ids are linked. -/
def TrapLink (marks : List Mark) (a b : Nat) : Prop :=
  ∃ m ∈ marks, ∃ other ∈ marks, m.id = a ∧ other.id = b ∧ m.Linked other

/-- The ids of the marks are distinct, and their zones are on the grid. -/
structure MarksValid (marks : List Mark) : Prop where
  ids : (marks.map Mark.id).Nodup
  zones : ∀ m ∈ marks, ∀ c ∈ m.zoneCells, ValidCell c

theorem distance_comm (a b : Nat) : distance a b = distance b a := by
  unfold distance
  cases cellCoord a with
  | none => cases cellCoord b <;> rfl
  | some ca =>
    cases cellCoord b with
    | none => rfl
    | some cb =>
      simp only [Option.bind_eq_bind, Option.bind_some, Option.pure_def, Option.some.injEq]
      omega

theorem Mark.Linked.symm {m other : Mark} (h : m.Linked other) : other.Linked m := by
  obtain ⟨c1, hc1, c2, hc2, htouch⟩ := h.touches
  refine ⟨h.other_trap, h.trap, h.caster.symm, c2, hc2, c1, hc1, ?_⟩
  rcases htouch with rfl | ⟨d, hd, hle⟩
  · exact .inl rfl
  · exact .inr ⟨d, (distance_comm _ _).trans hd, hle⟩

theorem MarksValid.eq_of_id {marks : List Mark} (hmarks : MarksValid marks) {m other : Mark} (hm : m ∈ marks)
    (hother : other ∈ marks) (hid : m.id = other.id) : m = other :=
  List.inj_on_of_nodup_map hmarks.ids hm hother hid

theorem MarksValid.find? {marks : List Mark} (hmarks : MarksValid marks) {m : Mark} (hm : m ∈ marks) :
    marks.find? (·.id = m.id) = some m := by
  cases hfind : marks.find? (·.id = m.id) with
  | none => exact absurd (decide_eq_true rfl) (List.find?_eq_none.1 hfind m hm)
  | some other =>
    have hid : other.id = m.id := by simpa using List.find?_some hfind
    rw [hmarks.eq_of_id (List.mem_of_find?_eq_some hfind) hm hid]

section

variable {marks : List Mark} {a b : Nat}

theorem TrapLink.symm (h : TrapLink marks a b) : TrapLink marks b a := by
  obtain ⟨m, hm, other, hother, rfl, rfl, hlinked⟩ := h
  exact ⟨other, hother, m, hm, rfl, rfl, hlinked.symm⟩

theorem connects_symm (h : ReflTransGen (TrapLink marks) a b) : ReflTransGen (TrapLink marks) b a := by
  induction h with
  | refl => exact .refl
  | tail _ hlink ih => exact .head hlink.symm ih

/-- What the links connect a trap with are traps of its caster. -/
theorem connects_trap {trap : Mark} (htrap : trap ∈ marks) (htype : trap.markType = .trap)
    (h : ReflTransGen (TrapLink marks) trap.id b) :
    ∃ m ∈ marks, m.id = b ∧ m.markType = .trap := by
  cases h with
  | refl => exact ⟨trap, htrap, rfl, htype⟩
  | tail _ hlink =>
    obtain ⟨_, -, other, hother, -, rfl, hlinked⟩ := hlink
    exact ⟨other, hother, rfl, hlinked.other_trap⟩

end

/-! ### The search -/

private theorem anyM_eq_true {α : Type} {p : α → Option Bool} {l : List α} (hp : ∀ a ∈ l, (p a).isSome) :
    l.anyM p = some true ↔ ∃ a ∈ l, p a = some true := by
  induction l with
  | nil => simp [List.anyM]
  | cons a l ih =>
    obtain ⟨found, hfound⟩ := Option.isSome_iff_exists.1 (hp a List.mem_cons_self)
    have hrest := ih fun b hb => hp b (List.mem_cons_of_mem a hb)
    cases found with
    | true => simp [List.anyM, hfound]
    | false => simp [List.anyM, hfound, hrest]

theorem zonesConnect_iff {m other : Mark} (hm : ∀ c ∈ m.zoneCells, ValidCell c)
    (hother : ∀ c ∈ other.zoneCells, ValidCell c) : zonesConnect m other = some true ↔ m.Touches other := by
  have hpair (c1 : Int) (hc1 : c1 ∈ m.zoneCells) (c2 : Int) (hc2 : c2 ∈ other.zoneCells) :
      (if c1 = c2 then some true else (distance (asU16 c1) (asU16 c2)).map fun d => decide (d ≤ 1)).isSome := by
    have hdistance := distance_isSome.2 ⟨asU16_lt_of_validCell (hm c1 hc1), asU16_lt_of_validCell (hother c2 hc2)⟩
    split
    · rfl
    · rw [Option.isSome_map]
      exact hdistance
  unfold zonesConnect
  rw [anyM_eq_true fun c1 hc1 => anyM_isSome (hpair c1 hc1)]
  refine exists_congr fun c1 => and_congr_right fun hc1 => ?_
  rw [anyM_eq_true (hpair c1 hc1)]
  refine exists_congr fun c2 => and_congr_right fun hc2 => ?_
  by_cases hsame : c1 = c2
  · simp [hsame]
  · simp [hsame, Option.map_eq_some_iff]

/-- A visit puts the traps that are linked with the visited one on the queue, apart from the visited ones. -/
theorem pushConnected_links {m : Mark} {visited : List Nat} (hm : ∀ c ∈ m.zoneCells, ValidCell c) {marks : List Mark}
    (hmarks : ∀ other ∈ marks, ∀ c ∈ other.zoneCells, ValidCell c) {queue queue' : List Nat}
    (h : pushConnected m visited marks queue = some queue') :
    (∀ id ∈ queue', id ∈ queue ∨ ∃ other ∈ marks, other.id = id ∧ other.markType = .trap ∧
      other.casterId = m.casterId ∧ m.Touches other) ∧
    (∀ id ∈ queue, id ∈ queue') ∧
    ∀ other ∈ marks, m.Linked other → other.id = m.id ∨ other.id ∈ visited ∨ other.id ∈ queue' := by
  induction marks generalizing queue with
  | nil =>
    obtain rfl := Option.some.inj h
    exact ⟨fun _ hid => .inl hid, fun _ hid => hid, fun _ hother => absurd hother List.not_mem_nil⟩
  | cons other marks ih =>
    have hother := hmarks other List.mem_cons_self
    have hrest := fun m hm => hmarks m (List.mem_cons_of_mem other hm)
    unfold pushConnected at ih h
    rw [List.foldlM_cons] at h
    obtain ⟨next, hnext, h⟩ := Option.bind_eq_some_iff.1 h
    obtain ⟨hnew, hkept, hlinked⟩ := ih hrest h
    -- what becomes of the queue at this mark
    have hstep : (next = queue ∧ (m.Linked other → other.id = m.id ∨ other.id ∈ visited)) ∨
        next = other.id :: queue ∧ other.markType = .trap ∧ other.casterId = m.casterId ∧ m.Touches other := by
      by_cases hcandidate : other.id ≠ m.id ∧ other.markType = .trap ∧ other.casterId = m.casterId ∧
          ¬visited.contains other.id
      · rw [if_pos hcandidate] at hnext
        obtain ⟨connected, hconnected, hqueue⟩ := Option.map_eq_some_iff.1 hnext
        have htouches := zonesConnect_iff hm hother
        rw [hconnected, Option.some.injEq] at htouches
        cases connected with
        | true => exact .inr ⟨hqueue.symm, hcandidate.2.1, hcandidate.2.2.1, htouches.1 rfl⟩
        | false => exact .inl ⟨hqueue.symm, fun hl => absurd (htouches.2 hl.touches) Bool.false_ne_true⟩
      · rw [if_neg hcandidate] at hnext
        refine .inl ⟨(Option.some.inj hnext).symm, fun hl => ?_⟩
        by_contra hout
        obtain ⟨hid, hvisited⟩ := not_or.1 hout
        exact hcandidate ⟨hid, hl.other_trap, hl.caster, by simpa using hvisited⟩
    rcases hstep with ⟨rfl, hseen⟩ | ⟨rfl, htype, hcaster, htouches⟩
    · refine ⟨fun id hid => (hnew id hid).imp_right fun hother => ?_, hkept, fun o ho hl => ?_⟩
      · obtain ⟨o, ho, hfacts⟩ := hother
        exact ⟨o, List.mem_cons_of_mem other ho, hfacts⟩
      · rcases List.mem_cons.1 ho with rfl | ho
        · exact (hseen hl).imp_right .inl
        · exact hlinked o ho hl
    · refine ⟨fun id hid => ?_, fun id hid => hkept id (List.mem_cons_of_mem _ hid), fun o ho hl => ?_⟩
      · rcases hnew id hid with hid | ⟨o, ho, hfacts⟩
        · rcases List.mem_cons.1 hid with rfl | hid
          · exact .inr ⟨other, List.mem_cons_self, rfl, htype, hcaster, htouches⟩
          · exact .inl hid
        · exact .inr ⟨o, List.mem_cons_of_mem other ho, hfacts⟩
      · rcases List.mem_cons.1 ho with rfl | ho
        · exact .inr (.inr (hkept _ List.mem_cons_self))
        · exact hlinked o ho hl

/-- What the search of a trap's network has visited, in the order of the visits, and what it has yet to visit. -/
theorem connectedLoop_spec {marks : List Mark} (hmarks : MarksValid marks) {trap : Mark} (htrap : trap ∈ marks)
    (htype : trap.markType = .trap) {n : Nat} {visited queue result ids : List Nat}
    (h : Explored (TrapLink marks) trap.id visited queue) (hresult : visited = result.reverse) (hnodup : result.Nodup)
    (hids : connectedLoop marks n visited queue result = .value ids) :
    ids.Nodup ∧ ∀ id, id ∈ ids ↔ ReflTransGen (TrapLink marks) trap.id id := by
  induction n generalizing visited queue result with
  | zero => cases hids
  | succ n ih =>
    cases queue with
    | nil =>
      obtain rfl : result = ids := Ending.value.inj hids
      refine ⟨hnodup, fun id => ?_⟩
      rw [← h.mem_iff, hresult, List.mem_reverse]
    | cons id queue =>
      unfold connectedLoop at hids
      by_cases hvisited : visited.contains id
      · rw [if_pos hvisited] at hids
        exact ih (h.skip (by simpa using hvisited)) hresult hnodup hids
      rw [if_neg hvisited] at hids
      have hnew : id ∉ visited := by simpa using hvisited
      have hgrown : (result ++ [id]).Nodup := by
        rw [hresult, List.mem_reverse] at hnew
        refine List.nodup_append.2 ⟨hnodup, List.nodup_singleton id, fun a ha b hb hab => ?_⟩
        rw [List.mem_singleton.1 hb] at hab
        exact hnew (hab ▸ ha)
      have hreverse : id :: visited = (result ++ [id]).reverse := by rw [hresult, List.reverse_concat]
      -- the id that is visited is that of a trap
      obtain ⟨m, hm, rfl, hmtype⟩ := connects_trap htrap htype (h.reached id (.inr List.mem_cons_self))
      rw [hmarks.find? hm] at hids
      dsimp only at hids
      cases hpush : pushConnected m (m.id :: visited) marks queue with
      | none =>
        rw [hpush] at hids
        cases hids
      | some queue' =>
        rw [hpush] at hids
        obtain ⟨hpushed, hkept, hlinked⟩ := pushConnected_links (hmarks.zones m hm) hmarks.zones hpush
        refine ih (h.visit (fun v hv => ?_) hkept fun v hv => ?_) hreverse hgrown hids
        · refine (hpushed v hv).symm.imp_left fun hother => ?_
          obtain ⟨other, hother, hid, hotype, hcaster, htouches⟩ := hother
          exact ⟨m, hm, other, hother, rfl, hid, ⟨hmtype, hotype, hcaster, htouches⟩⟩
        · obtain ⟨m', hm', other, hother, hid, rfl, hl⟩ := hv
          obtain rfl := hmarks.eq_of_id hm' hm hid
          rcases hlinked other hother hl with hself | hseen | hwaits
          · exact .inl (hself ▸ List.mem_cons_self)
          · exact .inl hseen
          · exact .inr hwaits

theorem connectedTraps_spec {s : Fight} (hs : MarksValid s.marks) {trap : Mark} (htrap : trap ∈ s.marks)
    (htype : trap.markType = .trap) :
    ∃ ids, s.connectedTraps trap.id = .value ids ∧ ids.Nodup ∧
      ∀ id, id ∈ ids ↔ ReflTransGen (TrapLink s.marks) trap.id id := by
  obtain ⟨ids, hids⟩ := s.connectedTraps_value hs.zones trap.id
  exact ⟨ids, hids, connectedLoop_spec hs htrap htype .init rfl List.nodup_nil hids⟩

/-- The traps that the links connect with a trap on the cell. -/
def Fight.Triggered (s : Fight) (cellId : Int) (id : Nat) : Prop :=
  ∃ trap ∈ s.marks, trap.markType = .trap ∧ cellId ∈ trap.zoneCells ∧ ReflTransGen (TrapLink s.marks) trap.id id

private theorem mem_foldl_insert {all ids : List Nat} {id : Nat} :
    id ∈ ids.foldl (fun all id => if all.contains id then all else all ++ [id]) all ↔ id ∈ all ∨ id ∈ ids := by
  induction ids generalizing all with
  | nil => simp
  | cons new ids ih =>
    rw [List.foldl_cons, ih, List.mem_cons]
    by_cases hnew : all.contains new
    · rw [if_pos hnew]
      have hmem : new ∈ all := by simpa using hnew
      constructor
      · exact Or.imp_right .inr
      · rintro (hid | rfl | hid)
        · exact .inl hid
        · exact .inl hmem
        · exact .inr hid
    · rw [if_neg hnew, List.mem_append, List.mem_singleton, or_assoc]

private theorem nodup_foldl_insert {all ids : List Nat} (hall : all.Nodup) :
    (ids.foldl (fun all id => if all.contains id then all else all ++ [id]) all).Nodup := by
  induction ids generalizing all with
  | nil => exact hall
  | cons new ids ih =>
    rw [List.foldl_cons]
    by_cases hnew : all.contains new
    · rw [if_pos hnew]
      exact ih hall
    · rw [if_neg hnew]
      have hout : new ∉ all := by simpa using hnew
      refine ih (List.nodup_append.2 ⟨hall, List.nodup_singleton new, fun a ha b hb hab => ?_⟩)
      rw [List.mem_singleton.1 hb] at hab
      exact hout (hab ▸ ha)

/-- The networks of some traps, joined to what is already there. -/
theorem trapNetwork_spec {s : Fight} (hs : MarksValid s.marks) {ids all : List Nat} (hall : all.Nodup)
    (hids : ∀ id ∈ ids, ∃ trap ∈ s.marks, trap.markType = .trap ∧ trap.id = id) :
    ∃ network, s.trapNetwork ids all = .value network ∧ network.Nodup ∧
      ∀ id, id ∈ network ↔ id ∈ all ∨ ∃ start ∈ ids, ReflTransGen (TrapLink s.marks) start id := by
  induction ids generalizing all with
  | nil => exact ⟨all, rfl, hall, fun id => by simp⟩
  | cons start ids ih =>
    obtain ⟨trap, htrap, htype, rfl⟩ := hids start List.mem_cons_self
    obtain ⟨connected, hconnected, -, hreached⟩ := connectedTraps_spec hs htrap htype
    obtain ⟨network, hnetwork, hnodup, hmem⟩ := ih (nodup_foldl_insert hall) fun id hid =>
      hids id (List.mem_cons_of_mem trap.id hid)
    refine ⟨network, ?_, hnodup, fun id => ?_⟩
    · rw [Fight.trapNetwork, hconnected]
      exact hnetwork
    · rw [hmem, mem_foldl_insert, hreached, or_assoc, List.exists_mem_cons_iff]

/-! ### Triggers -/

/-- The effects of a trap, on who triggers it. -/
def springTrap (triggerFighterId : Int) (trap : Mark) : FightProgram Unit := do
  let s ← get
  let casterStats := ((s.getFighter trap.casterId).map Fighter.stats).getD {}
  trap.effects.forM (trapEffect trap.casterId casterStats triggerFighterId)

/-- An effect of a trap returns, and leaves alone whatever hits and buffs leave alone. -/
theorem trapEffect_keeps {κ : Type} {k : Fight → κ} (hhit : ∀ s id damage, k (s.apply (.hit id damage)) = k s)
    (hbuff : ∀ s id b, k (s.apply (.addBuff id b)) = k s) (casterId : Int) (casterStats : FighterStats)
    (triggerFighterId : Int) (effect : SpellEffect) (s : Fight) :
    Keeps k (trapEffect casterId casterStats triggerFighterId effect) s := by
  unfold trapEffect
  refine .get_bind ?_
  cases classify effect.effectId with
  | damage elem => exact .bind (applyDamage_keeps hhit ..) fun _ _ _ => .pure _
  | poison elem => exact .when fun _ => .perform (hbuff ..)
  | _ => exact .pure _

/-- The effects of a trap return, and leave alone whatever hits and buffs leave alone. -/
theorem springTrap_keeps {κ : Type} {k : Fight → κ} (hhit : ∀ s id damage, k (s.apply (.hit id damage)) = k s)
    (hbuff : ∀ s id b, k (s.apply (.addBuff id b)) = k s) (triggerFighterId : Int) (trap : Mark) (s : Fight) :
    Keeps k (springTrap triggerFighterId trap) s := by
  unfold springTrap
  exact .get_bind (.forM fun effect _ s' _ => trapEffect_keeps hhit hbuff ..)

theorem springTrap_marks (triggerFighterId : Int) (trap : Mark) (s : Fight) :
    Keeps Fight.marks (springTrap triggerFighterId trap) s :=
  springTrap_keeps (fun _ _ _ => rfl) (fun _ _ _ => rfl) triggerFighterId trap s

private theorem triggerTrap_eq {s : Fight} (hs : MarksValid s.marks) {trap : Mark} (htrap : trap ∈ s.marks)
    (triggerFighterId : Int) : triggerTrap triggerFighterId trap.id s = springTrap triggerFighterId trap s := by
  unfold triggerTrap springTrap
  rw [get_bind_run, get_bind_run, Fight.findMark, hs.find? htrap]

private theorem forM_removeMark_map (network : List Mark) :
    ((network.map Mark.id).forM fun id => update (.removeMark id)) =
      network.forM fun trap => update (.removeMark trap.id) := by
  induction network with
  | nil => rfl
  | cons trap network ih => exact funext fun s => by rw [List.map_cons, forM_cons_run, forM_cons_run, ih]

/-- The traps are all there until the last of them has been triggered. -/
private theorem forM_triggerTrap {s : Fight} (hs : MarksValid s.marks) (triggerFighterId : Int) {network : List Mark}
    (hnetwork : ∀ trap ∈ network, trap ∈ s.marks) :
    (network.map Mark.id).forM (triggerTrap triggerFighterId) s = network.forM (springTrap triggerFighterId) s := by
  induction network generalizing s with
  | nil => rfl
  | cons trap network ih =>
    rw [List.map_cons, forM_cons_run, forM_cons_run, bind_run, bind_run,
      triggerTrap_eq hs (hnetwork trap List.mem_cons_self)]
    have hmarks := (springTrap_marks triggerFighterId trap s).same
    rw [ih (by rwa [hmarks]) fun other hother => by
      rw [hmarks]
      exact hnetwork other (List.mem_cons_of_mem trap hother)]

private theorem forM_removeMark (network : List Mark) (s : Fight) :
    ((network.forM fun trap => update (.removeMark trap.id)) s).ending = .value () ∧
      (after s ((network.forM fun trap => update (.removeMark trap.id)) s).trace).marks =
        s.marks.filter fun m => m.id ∉ network.map Mark.id := by
  induction network generalizing s with
  | nil => exact ⟨rfl, by simp⟩
  | cons trap network ih =>
    obtain ⟨hreturns, hmarks⟩ := ih (s.apply (.removeMark trap.id))
    rw [forM_cons_run, update, perform_bind_run]
    refine ⟨hreturns, ?_⟩
    rw [after_cons, act_update, hmarks, Fight.apply, List.filter_filter]
    refine List.filter_congr fun m _ => ?_
    rw [List.map_cons, ← Bool.decide_and]
    exact decide_eq_decide.2 (by rw [List.mem_cons, not_or, and_comm])

private theorem exists_marks {marks : List Mark} {ids : List Nat} (h : ∀ id ∈ ids, ∃ m ∈ marks, m.id = id) :
    ∃ network : List Mark, network.map Mark.id = ids ∧ ∀ m ∈ network, m ∈ marks := by
  induction ids with
  | nil => exact ⟨[], rfl, nofun⟩
  | cons id ids ih =>
    obtain ⟨m, hm, rfl⟩ := h id List.mem_cons_self
    obtain ⟨network, rfl, hmem⟩ := ih fun id hid => h id (List.mem_cons_of_mem m.id hid)
    exact ⟨m :: network, rfl, List.forall_mem_cons.2 ⟨hm, hmem⟩⟩

theorem triggerTrapsOnCell_spec {s : Fight} (hs : MarksValid s.marks) (cellId triggerFighterId : Int) :
    ∃ network : List Mark, network.Nodup ∧ (∀ m, m ∈ network ↔ m ∈ s.marks ∧ s.Triggered cellId m.id) ∧
      triggerTrapsOnCell cellId triggerFighterId s =
        (do
          network.forM (springTrap triggerFighterId)
          network.forM fun trap => update (.removeMark trap.id)) s ∧
      (triggerTrapsOnCell cellId triggerFighterId s).ending = .value () ∧
      (after s (triggerTrapsOnCell cellId triggerFighterId s).trace).marks = s.marks.filter (· ∉ network) := by
  have hcell (id : Nat) : id ∈ s.trapsOnCell cellId ↔
      ∃ trap ∈ s.marks, trap.markType = .trap ∧ cellId ∈ trap.zoneCells ∧ trap.id = id := by
    simp [Fight.trapsOnCell, and_assoc]
  obtain ⟨ids, hids, hnodup, hmem⟩ := trapNetwork_spec hs List.nodup_nil fun id hid => by
    obtain ⟨trap, htrap, htype, -, hid⟩ := (hcell id).1 hid
    exact ⟨trap, htrap, htype, hid⟩
  -- the ids that are found are those reached from a trap on the cell
  have htriggered (id : Nat) : id ∈ ids ↔ s.Triggered cellId id := by
    rw [hmem]
    constructor
    · rintro (hid | ⟨start, hstart, hreached⟩)
      · exact absurd hid List.not_mem_nil
      · obtain ⟨trap, htrap, htype, hzone, rfl⟩ := (hcell start).1 hstart
        exact ⟨trap, htrap, htype, hzone, hreached⟩
    · rintro ⟨trap, htrap, htype, hzone, hreached⟩
      exact .inr ⟨trap.id, (hcell _).2 ⟨trap, htrap, htype, hzone, rfl⟩, hreached⟩
  obtain ⟨network, rfl, hnetwork⟩ := @exists_marks s.marks ids fun id hid => by
    obtain ⟨trap, htrap, htype, -, hreached⟩ := (htriggered id).1 hid
    obtain ⟨m, hm, hmid, -⟩ := connects_trap htrap htype hreached
    exact ⟨m, hm, hmid⟩
  -- without a trap on the cell the network is empty, and nothing runs either way
  have hrun : triggerTrapsOnCell cellId triggerFighterId s =
      (do
        network.forM (springTrap triggerFighterId)
        network.forM fun trap => update (.removeMark trap.id)) s := by
    unfold triggerTrapsOnCell
    rw [get_bind_run, hids]
    by_cases hnone : s.trapsOnCell cellId = []
    · have hempty : network = [] := List.eq_nil_iff_forall_not_mem.2 fun m hm => by
        obtain ⟨trap, htrap, htype, hzone, -⟩ := (htriggered m.id).1 (List.mem_map_of_mem hm)
        have hid := (hcell trap.id).2 ⟨trap, htrap, htype, hzone, rfl⟩
        rw [hnone] at hid
        exact List.not_mem_nil hid
      rw [when, if_neg (not_not_intro hnone), hempty]
      rfl
    · rw [when, if_pos hnone, bind_run]
      dsimp only [ofEnding]
      rw [after_nil, List.nil_append, forM_removeMark_map, bind_run, bind_run,
        forM_triggerTrap hs triggerFighterId hnetwork]
  -- the effects of traps place and remove no marks
  have hspring : Keeps Fight.marks (network.forM (springTrap triggerFighterId)) s :=
    .forM fun trap _ s' _ => springTrap_marks triggerFighterId trap s'
  obtain ⟨⟨⟩, hsprung⟩ := hspring.returns
  obtain ⟨hreturns, hmarks⟩ := forM_removeMark network (after s (network.forM (springTrap triggerFighterId) s).trace)
  refine ⟨network, hnodup.of_map, fun m => ?_, hrun, ?_, ?_⟩
  · rw [← htriggered]
    refine ⟨fun hm => ⟨hnetwork m hm, List.mem_map_of_mem hm⟩, ?_⟩
    -- ids are distinct, so a mark with the id of one of the network is that one
    rintro ⟨hm, hid⟩
    obtain ⟨other, hother, hsame⟩ := List.mem_map.1 hid
    exact hs.eq_of_id (hnetwork other hother) hm hsame ▸ hother
  · rw [hrun, bind_run, hsprung]
    exact hreturns
  · rw [hrun, bind_run, hsprung, after_append, hmarks, hspring.same]
    refine List.filter_congr fun m hm => decide_eq_decide.2 (not_congr ?_)
    refine ⟨fun hid => ?_, List.mem_map_of_mem⟩
    obtain ⟨other, hother, hsame⟩ := List.mem_map.1 hid
    exact hs.eq_of_id (hnetwork other hother) hm hsame ▸ hother

/-- Traps leave alone whatever hits, buffs and the removal of marks leave alone. -/
theorem triggerTrapsOnCell_leaves {κ : Type} {k : Fight → κ}
    (hhit : ∀ s id damage, k (s.apply (.hit id damage)) = k s)
    (hbuff : ∀ s id b, k (s.apply (.addBuff id b)) = k s) (hremove : ∀ s id, k (s.apply (.removeMark id)) = k s)
    (cellId triggerFighterId : Int) (s : Fight) : Leaves k (triggerTrapsOnCell cellId triggerFighterId) s := by
  unfold triggerTrapsOnCell
  refine .get_bind (.when fun _ => .bind (.ofEnding _) fun allTrapIds _ _ => ?_)
  refine .bind (.forM fun trapId _ s _ => ?_) fun _ _ _ => .forM fun trapId _ _ _ => .perform (hremove ..)
  unfold triggerTrap
  refine .get_bind ?_
  cases s.findMark trapId with
  | none => exact .pure _
  | some mark => exact .forM fun effect _ s _ => (trapEffect_keeps hhit hbuff ..).leaves

/-- With the marks on the grid they also return. -/
theorem triggerTrapsOnCell_keeps {κ : Type} {k : Fight → κ} (hhit : ∀ s id damage, k (s.apply (.hit id damage)) = k s)
    (hbuff : ∀ s id b, k (s.apply (.addBuff id b)) = k s) (hremove : ∀ s id, k (s.apply (.removeMark id)) = k s)
    {s : Fight} (hs : ∀ m ∈ s.marks, ∀ c ∈ m.zoneCells, ValidCell c) (cellId triggerFighterId : Int) :
    Keeps k (triggerTrapsOnCell cellId triggerFighterId) s := by
  unfold triggerTrapsOnCell
  refine .get_bind (.when fun _ => ?_)
  obtain ⟨network, hnetwork⟩ := s.trapNetwork_value hs (s.trapsOnCell cellId) []
  rw [hnetwork]
  refine .bind (.pure network) fun allTrapIds s' _ => .bind (.forM fun trapId _ s _ => ?_) fun _ _ _ => ?_
  · unfold triggerTrap
    refine .get_bind ?_
    cases s.findMark trapId with
    | none => exact .pure _
    | some mark => exact .forM fun effect _ s _ => trapEffect_keeps hhit hbuff ..
  · exact .forM fun trapId _ _ _ => .perform (hremove ..)

/-! ### The boards of fights -/

/-- The marks are on the grid.  Until the counter overflows their ids are distinct, and have been drawn. -/
structure Fight.MarksKept (s : Fight) : Prop where
  zones : ∀ m ∈ s.marks, ∀ c ∈ m.zoneCells, ValidCell c
  drawn : s.nextMarkId ≤ 2 ^ 32 → (s.marks.map Mark.id).Nodup ∧ ∀ m ∈ s.marks, m.id < s.nextMarkId

theorem Fight.MarksKept.valid {s : Fight} (hs : s.MarksKept) (hnext : s.nextMarkId ≤ 2 ^ 32) : MarksValid s.marks :=
  ⟨(hs.drawn hnext).1, hs.zones⟩

theorem Fight.drawnMarkId_eq {s : Fight} (h : s.nextMarkId < 2 ^ 32) : s.drawnMarkId = s.nextMarkId :=
  Nat.mod_eq_of_lt h

/-- A mark is placed under the next id, on the grid, and does nothing but place marks. -/
def PlacesFresh (s : Fight) : Action → Prop
  | .update (.placeMark m) => m.id = s.drawnMarkId ∧ (∀ c ∈ m.zoneCells, ValidCell c) ∧ m.OnlyPlaces
  | _ => True

theorem Effect.placesFresh {s : Fight} {b : List Action} (h : Effect s b) : Along PlacesFresh s b := by
  cases h with
  | placeMark hid hzone hplaces => exact ⟨⟨hid, hzone, hplaces⟩, trivial⟩
  | @quiet u hu _ _ =>
    refine ⟨?_, trivial⟩
    cases u with
    | placeMark m => cases hu
    | _ => trivial
  | hit _ _ _ => split <;> simp [PlacesFresh]
  | heal _ => split <;> simp [PlacesFresh]
  | _ => simp [PlacesFresh]

theorem Block.placesFresh {s : Fight} {b : List Action} (h : Block s b) : Along PlacesFresh s b := by
  cases h with
  | spell h =>
    cases h with
    | effect h => exact h.placesFresh
    | summon _ _ _ _ => simp [PlacesFresh]
  | turn h =>
    cases h with
    | effect h => exact h.placesFresh
    | tick hu => rcases Update.eq_of_isTick hu with rfl | rfl <;> exact ⟨trivial, trivial⟩
    | _ => simp [PlacesFresh]
  | _ => simp [PlacesFresh]

/-- A part of the marks, counted down or not. -/
private theorem Fight.MarksKept.of_sublist {s s' : Fight} (hs : s.MarksKept)
    (hids : (s'.marks.map Mark.id).Sublist (s.marks.map Mark.id))
    (hmarks : ∀ m' ∈ s'.marks, ∃ m ∈ s.marks, m'.id = m.id ∧ m'.zoneCells = m.zoneCells)
    (hnext : s.nextMarkId ≤ s'.nextMarkId) : s'.MarksKept := by
  refine ⟨fun m' hm' c hc => ?_, fun hbound => ?_⟩
  · obtain ⟨m, hm, -, hzone⟩ := hmarks m' hm'
    exact hs.zones m hm c (hzone ▸ hc)
  · obtain ⟨hnodup, hdrawn⟩ := hs.drawn (hnext.trans hbound)
    refine ⟨hnodup.sublist hids, fun m' hm' => ?_⟩
    obtain ⟨m, hm, hid, -⟩ := hmarks m' hm'
    have hlt := hdrawn m hm
    omega

theorem Fight.MarksKept.act {s : Fight} {a : Action} (hs : s.MarksKept) (ha : PlacesFresh s a) :
    (Trace.act s a).MarksKept := by
  have hsame {s' : Fight} (hmarks : s'.marks = s.marks) (hnext : s.nextMarkId ≤ s'.nextMarkId) : s'.MarksKept :=
    hs.of_sublist (hmarks ▸ List.Sublist.refl _) (fun m hm => ⟨m, hmarks ▸ hm, rfl, rfl⟩) hnext
  cases a with
  | update u =>
    cases u with
    | placeMark m =>
      obtain ⟨hid, hzone, -⟩ := ha
      refine ⟨fun m' hm' => ?_, fun hbound => ?_⟩
      · rcases List.mem_append.1 hm' with hm' | hm'
        · exact hs.zones m' hm'
        · rw [List.mem_singleton.1 hm']
          exact hzone
      · -- a fresh id is above all that were drawn, as long as the counter does not overflow
        have hlt : s.nextMarkId < 2 ^ 32 := hbound
        rw [Fight.drawnMarkId_eq hlt] at hid
        obtain ⟨hnodup, hdrawn⟩ := hs.drawn hlt.le
        simp only [act_update, Fight.apply, List.map_append, List.map_singleton]
        refine ⟨List.nodup_append.2 ⟨hnodup, List.nodup_singleton _, fun a ha b hb hab => ?_⟩, fun m' hm' => ?_⟩
        · obtain ⟨m', hm', rfl⟩ := List.mem_map.1 ha
          have hold := hdrawn m' hm'
          rw [List.mem_singleton.1 hb, hid] at hab
          omega
        · rcases List.mem_append.1 hm' with hm' | hm'
          · have hold := hdrawn m' hm'
            omega
          · rw [List.mem_singleton.1 hm', hid]
            omega
    | removeMark id =>
      refine hs.of_sublist (List.filter_sublist.map _) (fun m hm => ?_) le_rfl
      exact ⟨m, List.mem_of_mem_filter hm, rfl, rfl⟩
    | tickMarks =>
      refine hs.of_sublist ?_ (fun m' hm' => ?_) le_rfl
      · simp only [act_update, Fight.apply, Fight.tickMarks, List.map_map]
        exact List.filter_sublist.map _
      · obtain ⟨m, hm, rfl⟩ := List.mem_map.1 hm'
        exact ⟨m, List.mem_of_mem_filter hm, rfl, rfl⟩
    | drawIds marks summons => exact hsame rfl (Nat.le_add_right _ _)
    | advanceTurn =>
      simp only [act_update, Fight.apply, Fight.advanceTurn]
      split <;> exact hsame rfl le_rfl
    | _ => exact hsame rfl le_rfl
  | _ => exact hsame rfl le_rfl

/-- The marks of a fight lie on the grid, and have distinct ids until the counter overflows. -/
theorem history_marksKept {maps : Int → Option MapData} {n : Nat} {playerId : Int} (rs : List Request) {s : Fight}
    (hcoherent : s.Coherent) (hs : s.MarksKept) :
    Along (fun s _ => s.MarksKept) s (history maps n playerId rs s).trace ∧
      (after s (history maps n playerId rs s).trace).MarksKept := by
  have hfresh := (@history_composed maps n playerId rs _ hcoherent).along
    fun _ _ => Block.placesFresh
  exact hfresh.invariant (fun _ _ hs ha => hs.act ha) hs

theorem startPveFight_marksKept {maps : Int → Option MapData} (c : Character) (mapId : Int) (nextMarkId drawn : Nat) :
    (startPveFight maps c mapId nextMarkId drawn).MarksKept :=
  ⟨nofun, fun _ => ⟨List.nodup_nil, nofun⟩⟩

/-! ### What the networks are -/

/-- The traps of a fight form networks: a trap is connected with the traps of its caster that a chain of links leads
to, and who steps on a cell triggers the networks of its traps, each trap once, and takes nothing else off the
board. -/
structure TrapNetworks (s : Fight) : Prop where
  connected : ∀ trap ∈ s.marks, trap.markType = .trap → ∃ ids, s.connectedTraps trap.id = .value ids ∧ ids.Nodup ∧
    ∀ id, id ∈ ids ↔ ReflTransGen (TrapLink s.marks) trap.id id
  symmetric : ∀ a ∈ s.marks, a.markType = .trap → ∀ b ∈ s.marks, b.markType = .trap → ∀ as bs,
    s.connectedTraps a.id = .value as → s.connectedTraps b.id = .value bs → (b.id ∈ as ↔ a.id ∈ bs)
  transitive : ∀ a ∈ s.marks, a.markType = .trap → ∀ b ∈ s.marks, b.markType = .trap → ∀ as bs,
    s.connectedTraps a.id = .value as → s.connectedTraps b.id = .value bs → b.id ∈ as → ∀ id ∈ bs, id ∈ as
  triggered : ∀ cellId triggerFighterId, ∃ network : List Mark, network.Nodup ∧
    (∀ m, m ∈ network ↔ m ∈ s.marks ∧ s.Triggered cellId m.id) ∧
    triggerTrapsOnCell cellId triggerFighterId s =
      (do
        network.forM (springTrap triggerFighterId)
        network.forM fun trap => update (.removeMark trap.id)) s ∧
    (triggerTrapsOnCell cellId triggerFighterId s).ending = .value () ∧
    (after s (triggerTrapsOnCell cellId triggerFighterId s).trace).marks = s.marks.filter (· ∉ network)

theorem MarksValid.trapNetworks {s : Fight} (hs : MarksValid s.marks) : TrapNetworks s := by
  have hmem {trap : Mark} (htrap : trap ∈ s.marks) (htype : trap.markType = .trap) {ids : List Nat}
      (hids : s.connectedTraps trap.id = .value ids) (id : Nat) :
      id ∈ ids ↔ ReflTransGen (TrapLink s.marks) trap.id id := by
    obtain ⟨ids', hids', -, hreached⟩ := connectedTraps_spec hs htrap htype
    rw [hids, Ending.value.injEq] at hids'
    rw [hids']
    exact hreached id
  refine ⟨fun trap htrap htype => connectedTraps_spec hs htrap htype, ?_, ?_, triggerTrapsOnCell_spec hs⟩
  · intro a ha hatype b hb hbtype as bs has hbs
    rw [hmem ha hatype has, hmem hb hbtype hbs]
    exact ⟨connects_symm, connects_symm⟩
  · intro a ha hatype b hb hbtype as bs has hbs hba id hid
    rw [hmem ha hatype has] at hba ⊢
    exact hba.trans ((hmem hb hbtype hbs id).1 hid)

/-- Marks with distinct ids on the grid form networks, and so do the marks of every fight, as long as the counter of
the marks has not overflowed. -/
theorem trap_networks :
    (∀ s : Fight, MarksValid s.marks → TrapNetworks s) ∧
      ∀ (maps : Int → Option MapData) (n : Nat) (c : Character) (mapId : Int) (nextMarkId drawn : Nat)
        (rs : List Request),
        let s := startPveFight maps c mapId nextMarkId drawn
        let t := (history maps n c.id rs s).trace
        Along (fun s _ => s.nextMarkId ≤ 2 ^ 32 → TrapNetworks s) s t ∧
          ((after s t).nextMarkId ≤ 2 ^ 32 → TrapNetworks (after s t)) := by
  refine ⟨fun s hs => hs.trapNetworks, fun maps n c mapId nextMarkId drawn rs => ?_⟩
  have hcoherent := @startPveFight_coherent maps c mapId nextMarkId drawn
  obtain ⟨halong, hend⟩ := @history_marksKept maps n c.id rs _ hcoherent
    (startPveFight_marksKept c mapId nextMarkId drawn)
  exact ⟨halong.imp fun _ _ h hnext => (h.valid hnext).trapNetworks, fun hnext => (hend.valid hnext).trapNetworks⟩

/-- A board with two traps that share a cell, and one far from them. -/
def threeTraps : Fight :=
  { startPveFight (fun _ => none) .novice 0 4 0 with
    marks := [⟨1, .trap, 1, [300, 301], [], 3⟩, ⟨2, .trap, 1, [301, 302], [], 3⟩, ⟨3, .trap, 1, [500], [], 3⟩] }

theorem trap_networks_three : TrapNetworks threeTraps := trap_networks.1 threeTraps ⟨by decide, by decide⟩

/-- Only the first two are connected. -/
example : threeTraps.connectedTraps 1 = .value [1, 2] := by decide +kernel

/-- The distance of a cell beyond the grid is an index out of bounds. -/
theorem not_trap_networks_offGrid : ¬∀ s : Fight, TrapNetworks s := by
  intro h
  let s : Fight :=
    { startPveFight (fun _ => none) .novice 0 3 0 with
      marks := [⟨1, .trap, 1, [600], [], 3⟩, ⟨2, .trap, 1, [300], [], 3⟩] }
  obtain ⟨ids, hids, -⟩ := (h s).connected ⟨1, .trap, 1, [600], [], 3⟩ List.mem_cons_self rfl
  have hpanic : s.connectedTraps 1 = .panic := by decide +kernel
  rw [hpanic] at hids
  cases hids

end Otomai.Combat
