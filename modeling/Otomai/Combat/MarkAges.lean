import Otomai.Combat.Marks

/-!
# How long marks last

Every turn start counts all marks down.  A mark lies on the board until its turns are used up or it is taken off; its
id is drawn once before the counter overflows, so that nothing else is found under it until then.

* `aged_act`: what one action does to what is found under an id.
* `marks_last`: what is found under the id of a mark at any later moment of a run.
-/

namespace Otomai.Combat

open Machine Otomai.Common Trace Program

/-- How often the marks are counted down. -/
def ticks (t : List Action) : Nat := t.countP (· = .update .tickMarks)

/-- A mark that has been counted down so often, if its turns are not used up. -/
def Mark.aged (m : Mark) (k : Nat) : Option Mark :=
  if k = 0 ∨ k < m.remainingTurns then some { m with remainingTurns := m.remainingTurns - k } else none

/-- What is left of a mark after a part of a run. -/
def Mark.leftAfter (m : Mark) (t : List Action) : Option Mark :=
  if .update (.removeMark m.id) ∈ t then none else m.aged (ticks t)

theorem Mark.aged_zero (m : Mark) : m.aged 0 = some m := by
  simp [aged]

/-- To count down once more. -/
theorem Mark.aged_succ (m : Mark) (k : Nat) :
    m.aged (k + 1) = ((m.aged k).filter fun m => 1 < m.remainingTurns).map fun m =>
      { m with remainingTurns := m.remainingTurns - 1 } := by
  unfold aged
  by_cases hk : k = 0 ∨ k < m.remainingTurns
  · rw [if_pos hk]
    by_cases hlast : (k : Int) + 1 < m.remainingTurns
    · have hleft : 1 < m.remainingTurns - k := by omega
      have hsum : m.remainingTurns - ((k + 1 : Nat) : Int) = m.remainingTurns - k - 1 := by omega
      rw [if_pos (.inr (by omega)), Option.filter_some, if_pos (decide_eq_true hleft), Option.map_some, hsum]
    · have hleft : ¬1 < m.remainingTurns - k := by omega
      rw [if_neg (by omega), Option.filter_some, if_neg (by simpa using hleft), Option.map_none]
  · rw [if_neg hk, if_neg (by omega)]
    rfl

/-- What is found by its key in what is left of a list and changed: what was found, if it is left. -/
theorem find?_filter_map {α κ : Type} [DecidableEq κ] {key : α → κ} {q : α → Bool} {g : α → α} {l : List α}
    (hg : ∀ a, key (g a) = key a) (hkeys : (l.map key).Nodup) (k : κ) :
    ((l.filter q).map g).find? (key · = k) = ((l.find? (key · = k)).filter q).map g := by
  induction l with
  | nil => rfl
  | cons a l ih =>
    rw [List.map_cons, List.nodup_cons] at hkeys
    have hrest := ih hkeys.2
    by_cases ha : key a = k
    · have hnone : l.find? (key · = k) = none := by
        refine List.find?_eq_none.2 fun b hb hbk => hkeys.1 ?_
        rw [ha, ← of_decide_eq_true hbk]
        exact List.mem_map_of_mem hb
      cases hq : q a with
      | true => simp [ha, hq, hg]
      | false =>
        rw [List.filter_cons_of_neg (by simp [hq]), hrest, hnone]
        simp [ha, hq]
    · cases hq : q a with
      | true => simp [ha, hq, hg, hrest]
      | false => simp [ha, hq, hrest]

section

variable {s : Fight} {m : Mark} {a : Action} {id : Nat}

/-- What one action does to what is found under an id that has been drawn. -/
theorem findMark_act (hs : s.MarksKept) (ha : PlacesFresh s a) (hid : id < s.nextMarkId)
    (hbound : (act s a).nextMarkId ≤ 2 ^ 32) :
    (act s a).findMark id =
      if a = .update (.removeMark id) then none
      else if a = .update .tickMarks then
        ((s.findMark id).filter fun m => 1 < m.remainingTurns).map fun m =>
          { m with remainingTurns := m.remainingTurns - 1 }
      else s.findMark id := by
  cases a with
  | update u =>
    cases u with
    | placeMark m =>
      have hlt : s.nextMarkId < 2 ^ 32 := hbound
      -- the new mark has the id that comes next, which is above all that were drawn
      have hne : ¬m.id = id := by
        rw [ha.1, Fight.drawnMarkId_eq hlt]
        exact hid.ne'
      simp [Fight.findMark, Fight.apply, List.find?_append, hne]
    | removeMark id' =>
      by_cases hsame : id' = id
      · subst hsame
        rw [if_pos rfl]
        refine List.find?_eq_none.2 fun m hm hid' => ?_
        have hkept := List.of_mem_filter hm
        simp_all
      · have hother : ¬Action.update (.removeMark id') = .update (.removeMark id) := by simpa using hsame
        rw [if_neg hother, if_neg (by simp)]
        refine List.find?_filter.trans (congrArg (List.find? · s.marks) (funext fun m => ?_))
        by_cases hm : m.id = id
        · have hkept : ¬id = id' := fun h => hsame h.symm
          simp [hm, hkept]
        · simp [hm]
    | tickMarks =>
      rw [if_neg (by simp), if_pos rfl]
      -- ids are distinct, so the mark that is found is the one that is counted down
      have hkey : ∀ m : Mark, Mark.id { m with remainingTurns := m.remainingTurns - 1 } = m.id := fun _ => rfl
      exact find?_filter_map hkey (hs.drawn hbound).1 id
    | advanceTurn =>
      simp only [act_update, Fight.apply, Fight.advanceTurn, reduceCtorEq, if_false, Action.update.injEq]
      split <;> rfl
    | _ => rfl
  | _ => rfl

theorem nextMarkId_act : s.nextMarkId ≤ (act s a).nextMarkId := by
  cases a with
  | update u =>
    cases u with
    | placeMark m => exact Nat.le_succ _
    | drawIds marks summons => exact Nat.le_add_right _ _
    | advanceTurn =>
      simp only [act_update, Fight.apply, Fight.advanceTurn]
      split <;> exact le_rfl
    | _ => exact le_rfl
  | _ => exact le_rfl

theorem nextMarkId_after (t : List Action) : s.nextMarkId ≤ (after s t).nextMarkId := by
  induction t generalizing s with
  | nil => exact le_rfl
  | cons a t ih => exact nextMarkId_act.trans ih

/-- Under an id that has been drawn nothing is found again. -/
theorem findMark_gone {t : List Action} (hs : s.MarksKept) (ht : Along PlacesFresh s t) (hid : id < s.nextMarkId)
    (hbound : (after s t).nextMarkId ≤ 2 ^ 32) (hgone : s.findMark id = none) : (after s t).findMark id = none := by
  induction t generalizing s with
  | nil => exact hgone
  | cons a t ih =>
    refine ih (hs.act ht.1) ht.2 (hid.trans_le nextMarkId_act) hbound ?_
    rw [findMark_act hs ht.1 hid ((nextMarkId_after t).trans hbound), hgone]
    split
    · rfl
    · split <;> rfl

/-- What is found later under the id of a mark that has been counted down so often. -/
theorem findMark_after {t : List Action} (hs : s.MarksKept) (ht : Along PlacesFresh s t) {k : Nat}
    (hid : id < s.nextMarkId) (hbound : (after s t).nextMarkId ≤ 2 ^ 32) (hfound : s.findMark id = m.aged k) :
    (after s t).findMark id = if .update (.removeMark id) ∈ t then none else m.aged (k + ticks t) := by
  induction t generalizing s k with
  | nil => exact hfound
  | cons a t ih =>
    have hnext := findMark_act hs ht.1 hid ((nextMarkId_after t).trans hbound)
    have hs' := hs.act ht.1
    have hid' := hid.trans_le (nextMarkId_act (a := a))
    -- once removed it is gone for good
    by_cases hremove : a = .update (.removeMark id)
    · rw [if_pos hremove] at hnext
      rw [if_pos (hremove ▸ List.mem_cons_self)]
      have hgone : (after (act s a) t).findMark id = none := findMark_gone hs' ht.2 hid' hbound hnext
      exact hgone
    rw [if_neg hremove, hfound] at hnext
    have hmem : .update (.removeMark id) ∈ a :: t ↔ .update (.removeMark id) ∈ t := by
      rw [List.mem_cons, or_iff_right fun h => hremove h.symm]
    simp only [hmem]
    by_cases htick : a = .update .tickMarks
    · rw [if_pos htick, ← Mark.aged_succ] at hnext
      have hcount : k + ticks (a :: t) = k + 1 + ticks t := by
        simp only [ticks, htick, List.countP_cons, decide_true, if_true]
        omega
      rw [hcount]
      exact ih hs' ht.2 hid' hbound hnext
    · rw [if_neg htick] at hnext
      have hcount : ticks (a :: t) = ticks t := by
        simp [ticks, htick]
      rw [hcount]
      exact ih hs' ht.2 hid' hbound hnext

end

/-- In every run, what is found under the id of a mark that was placed is this mark, with as many turns less as turns
have started since; until these are used up or the mark is taken off, and then nothing, before the counter
overflows. -/
theorem marks_last (maps : Int → Option MapData) (n : Nat) (c : Character) (mapId : Int) (nextMarkId drawn : Nat)
    (rs : List Request) (t t' t'' : List Action) (m : Mark)
    (htrace : (history maps n c.id rs (startPveFight maps c mapId nextMarkId drawn)).trace =
      t ++ .update (.placeMark m) :: (t' ++ t''))
    (hbound : (after (startPveFight maps c mapId nextMarkId drawn) (t ++ .update (.placeMark m) :: t')).nextMarkId ≤
      2 ^ 32) :
    (after (startPveFight maps c mapId nextMarkId drawn) (t ++ .update (.placeMark m) :: t')).findMark m.id =
      m.leftAfter t' := by
  have hcoherent := @startPveFight_coherent maps c mapId nextMarkId drawn
  have hfresh := (@history_composed maps n c.id rs _ hcoherent).along fun _ _ => Block.placesFresh
  have hkept := @startPveFight_marksKept maps c mapId nextMarkId drawn
  generalize startPveFight maps c mapId nextMarkId drawn = s at hfresh hkept htrace hbound ⊢
  rw [htrace] at hfresh
  obtain ⟨hbefore, hplace, hrest⟩ := along_append.1 hfresh
  have hs := (hbefore.invariant (fun _ _ hs ha => hs.act ha) hkept).2
  rw [after_append] at hbound ⊢
  generalize after s t = s' at hplace hrest hs hbound ⊢
  have hlt : s'.nextMarkId < 2 ^ 32 := (nextMarkId_after t').trans hbound
  have hid : m.id = s'.nextMarkId := hplace.1.trans (Fight.drawnMarkId_eq hlt)
  -- nothing else has the id of the mark, so it is what is found there
  have hplaced : (act s' (Action.update (.placeMark m))).findMark m.id = m.aged 0 := by
    have hnone : s'.marks.find? (·.id = m.id) = none := by
      refine List.find?_eq_none.2 fun m' hm' hsame => ?_
      have hold := (hs.drawn hlt.le).2 m' hm'
      rw [of_decide_eq_true hsame, hid] at hold
      exact Nat.lt_irrefl _ hold
    simp [Fight.findMark, Fight.apply, List.find?_append, hnone, Mark.aged_zero]
  have hdrawn : m.id < (act s' (Action.update (.placeMark m))).nextMarkId := by
    rw [hid]
    exact Nat.lt_succ_self _
  have hlater := findMark_after (hs.act hplace) (along_append.1 hrest).1 hdrawn hbound hplaced
  rw [Nat.zero_add] at hlater
  exact hlater

/-- The glyph that the novice places, for nine turns. -/
def novicesGlyph : Mark := ⟨0, .glyph, 1, [400], glyphSpell.effects, 9⟩

/-- After the turn of the monster seven of the nine turns are left. -/
theorem marks_last_glyph :
    let s := startPveFight (fun _ => none) .novice 0 0 0
    let trace := (history (fun _ => none) 3 Character.novice.id
      [.ready true, .cast 1 400 (some glyphSpell) 0, .turnFinish] s).trace
    (after s (trace.take 14 ++ .update (.placeMark novicesGlyph) :: trace.drop 15)).findMark novicesGlyph.id =
        novicesGlyph.leftAfter (trace.drop 15) ∧
      novicesGlyph.leftAfter (trace.drop 15) = some { novicesGlyph with remainingTurns := 7 } := by
  intro s trace
  refine ⟨?_, by decide +kernel⟩
  exact marks_last (fun _ => none) 3 .novice 0 0 0 [.ready true, .cast 1 400 (some glyphSpell) 0, .turnFinish]
    (trace.take 14) (trace.drop 15) [] novicesGlyph (by decide +kernel) (by decide +kernel)

end Otomai.Combat
