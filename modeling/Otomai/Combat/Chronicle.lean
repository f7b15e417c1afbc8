import Otomai.Combat.Durations

/-!
# The chronicle of the buffs

The observer of a fight writes down the buffs, and the poisons that are due at a turn start.

* `Followed`: what is written down of every fighter's buffs follows its list, whatever happens (`Followed.apply`).
* `buffs_last`: buffs are in effect as long as they should be, except for the last turn start of their duration.
-/

namespace Otomai.Combat

open Machine Otomai.Common Trace Program

variable {maps : Int → Option MapData}

abbrev BuffLog := List Entry

namespace BuffLog

variable (log : BuffLog)

/-- What is written down of the buffs of a fighter. -/
def of (id : Int) : List Entry := log.filter (·.bearer = id)

def change (id : Int) (k : Entry → Entry) : BuffLog := log.map fun e => if e.bearer = id then k e else e

/-- The poisons of a fighter that are in effect: who poisoned whom, and the damage. -/
def poisons (id : Int) : List (Int × Int × Int) :=
  (((log.of id).filter fun e => e.buff.poisonElement.isSome).filter Entry.inEffect).map fun e =>
    (e.buff.sourceId, id, e.buff.value)

/-- What the buffs of a fighter that are in effect add to a stat. -/
def bonus (id : Int) (stat : StatType) : Int :=
  (((log.of id).filter Entry.inEffect).map fun e => e.buff.statBonus stat).sum

def note (s : Fight) : Update → BuffLog
  | .addBuff id b => if (s.getFighter id).isSome then log ++ [⟨id, b, 0, false⟩] else log
  | .hit id _ => log.change id Entry.strike
  | .tickBuffs =>
    match s.currentFighter with
    | none => log
    | some f => log.change f.id Entry.age
  | _ => log

variable {log} {id : Int} {k : Entry → Entry}

theorem of_append (log' : BuffLog) : of (log ++ log') id = log.of id ++ of log' id := List.filter_append ..

theorem of_change_self (hk : ∀ e, (k e).bearer = e.bearer) : (log.change id k).of id = (log.of id).map k := by
  induction log with
  | nil => rfl
  | cons e log ih =>
    simp only [of, change] at ih
    by_cases he : e.bearer = id
    · simp [of, change, he, hk, ih]
    · simp [of, change, he, ih]

theorem of_change_of_ne (hk : ∀ e, (k e).bearer = e.bearer) {id' : Int} (hne : id' ≠ id) :
    (log.change id k).of id' = log.of id' := by
  induction log with
  | nil => rfl
  | cons e log ih =>
    simp only [of, change] at ih
    by_cases he : e.bearer = id
    · simp [of, change, he, hk, ih, hne.symm]
    · by_cases he' : e.bearer = id'
      · simp [of, change, ih, he', hne]
      · simp [of, change, he, ih, he']

theorem mem_change {e : Entry} (hk : ∀ e, (k e).bearer = e.bearer) (h : e ∈ log.change id k) :
    ∃ e' ∈ log, e.bearer = e'.bearer := by
  obtain ⟨e', he', rfl⟩ := List.mem_map.1 h
  refine ⟨e', he', ?_⟩
  split
  · exact hk e'
  · rfl

end BuffLog

/-- What is written down follows the lists of buffs, and is about fighters of the fight. -/
structure Followed (log : BuffLog) (s : Fight) : Prop where
  roster : s.Roster
  bearers : ∀ e ∈ log, ∃ f ∈ s.fighters, f.id = e.bearer
  follows : ∀ f ∈ s.fighters, Follows (log.of f.id) f.buffs

/-- The write changes nobody's buffs. -/
def Update.keepsBuffs : Update → Bool
  | .addBuff .. | .hit .. | .tickBuffs => false
  | _ => true

theorem Changed.buffs {s : Fight} {u : Update} {f f' : Fighter} (h : Changed s u f f') (hu : u.keepsBuffs = true) :
    f'.id = f.id ∧ f'.buffs = f.buffs := by
  cases h with
  | hit _ => cases hu
  | addBuff _ => cases hu
  | tickBuffs _ => cases hu
  | _ => exact ⟨rfl, rfl⟩

namespace Followed

variable {log : BuffLog} {s : Fight}

theorem bearers_apply (hs : Followed log s) (u : Update) :
    ∀ e ∈ log, ∃ f ∈ (s.apply u).fighters, f.id = e.bearer := by
  intro e he
  obtain ⟨f, hf, hid⟩ := hs.bearers e he
  obtain ⟨f', hf', hsame⟩ := s.id_mem_apply (u := u) hf
  exact ⟨f', hf', hsame.trans hid⟩

/-- A change of the buffs of one fighter. -/
theorem of_map (hs : Followed log s) {u : Update} (hu : Write s u) {log' : BuffLog} {id : Int} {g : Fighter → Fighter}
    (hid : ∀ f, (g f).id = f.id) (hmap : (s.apply u).fighters = s.fighters.map fun f => if f.id = id then g f else f)
    (hlog : ∀ e ∈ log', (∃ e' ∈ log, e.bearer = e'.bearer) ∨ ∃ f ∈ s.fighters, f.id = e.bearer)
    (hself : ∀ f ∈ s.fighters, f.id = id → Follows (log'.of id) (g f).buffs)
    (hothers : ∀ id', id' ≠ id → log'.of id' = log.of id') : Followed log' (s.apply u) := by
  refine ⟨hs.roster.apply hu, fun e he => ?_, fun f' hf' => ?_⟩
  · rcases hlog e he with ⟨e', he', hbearer⟩ | ⟨f, hf, hbearer⟩
    · rw [hbearer]
      exact hs.bearers_apply u e' he'
    · rw [hmap]
      refine ⟨_, List.mem_map_of_mem hf, ?_⟩
      split
      · rw [hid, hbearer]
      · exact hbearer
  · rw [hmap] at hf'
    obtain ⟨f, hf, rfl⟩ := List.mem_map.1 hf'
    by_cases hbearer : f.id = id
    · rw [if_pos hbearer, hid, hbearer]
      exact hself f hf hbearer
    · rw [if_neg hbearer, hothers f.id hbearer]
      exact hs.follows f hf

/-- Whatever is written, what is written down still follows the lists. -/
theorem apply (hs : Followed log s) {u : Update} (hu : Write s u) : Followed (log.note s u) (s.apply u) := by
  by_cases hkeeps : u.keepsBuffs = true
  · have hnote : log.note s u = log := by cases u <;> first | rfl | cases hkeeps
    rw [hnote]
    refine ⟨hs.roster.apply hu, hs.bearers_apply u, fun f' hf' => ?_⟩
    rcases Fight.mem_apply hf' with hmem | ⟨f, hmem, hchanged⟩ | ⟨casterId, rfl⟩
    · exact hs.follows f' hmem
    · obtain ⟨hid, hbuffs⟩ := hchanged.buffs hkeeps
      rw [hid, hbuffs]
      exact hs.follows f hmem
    · -- nothing is written down of who is summoned
      cases hu with
      | quiet hquiet => cases hquiet
      | @summon _ monsterId cellId level _ _ _ =>
        have hnone : log.of (s.summoned casterId cellId monsterId level).id = [] := by
          refine List.filter_eq_nil_iff.2 fun e he hbearer => ?_
          obtain ⟨f, hf, hid⟩ := hs.bearers e he
          have hlt := hs.roster.fresh f hf
          have hsummoned : e.bearer = s.nextSummonId := of_decide_eq_true hbearer
          omega
        rw [hnone]
        exact .nil
  · cases u with
    | addBuff id b =>
      have hmap := modifyFighter_eq_map hs.roster.ids id (·.addBuff b)
      simp only [BuffLog.note]
      split
      · rename_i hsome
        obtain ⟨target, htarget⟩ := Option.isSome_iff_exists.1 hsome
        have hbearer : target.id = id := by simpa using List.find?_some htarget
        refine hs.of_map hu (g := (·.addBuff b)) (fun _ => rfl) hmap (fun e he => ?_) (fun f hf hid => ?_)
          fun id' hne => ?_
        · rcases List.mem_append.1 he with hmem | hmem
          · exact .inl ⟨e, hmem, rfl⟩
          · rw [List.mem_singleton.1 hmem]
            exact .inr ⟨target, List.mem_of_find?_eq_some htarget, hbearer⟩
        · rw [BuffLog.of_append]
          have hself : BuffLog.of [⟨id, b, 0, false⟩] id = [⟨id, b, 0, false⟩] := by simp [BuffLog.of]
          rw [hself]
          have hfollows := hs.follows f hf
          rw [hid] at hfollows
          exact hfollows.add id b
        · rw [BuffLog.of_append]
          simp [BuffLog.of, hne.symm]
      · rename_i hnone
        have hmissing : ∀ f ∈ s.fighters, f.id ≠ id := by
          intro f hf hid
          have hnot := List.find?_eq_none.1 (Option.not_isSome_iff_eq_none.1 hnone) f hf
          exact hnot (decide_eq_true hid)
        exact hs.of_map hu (g := (·.addBuff b)) (fun _ => rfl) hmap (fun e he => .inl ⟨e, he, rfl⟩)
          (fun f hf hid => absurd hid (hmissing f hf)) fun _ _ => rfl
    | hit id damage =>
      simp only [BuffLog.note]
      refine hs.of_map hu (g := (·.hit damage)) (fun _ => rfl) (modifyFighter_eq_map hs.roster.ids id _)
        (fun e he => .inl (BuffLog.mem_change (k := Entry.strike) (fun _ => rfl) he)) (fun f hf hid => ?_)
        fun id' hne => BuffLog.of_change_of_ne (k := Entry.strike) (fun _ => rfl) hne
      have hfollows := hs.follows f hf
      rw [hid] at hfollows
      rw [BuffLog.of_change_self (k := Entry.strike) fun _ => rfl]
      exact hfollows.hit damage
    | tickBuffs =>
      simp only [BuffLog.note]
      cases hcurrent : s.currentFighter with
      | none =>
        have hindex := hs.roster.index
        exact absurd hcurrent (by simpa [Fight.currentFighter] using hindex)
      | some current =>
        dsimp only
        refine hs.of_map hu (g := (·.tickBuffs)) (fun _ => rfl) (modifyCurrent_eq_map hs.roster.ids hcurrent _)
          (fun e he => .inl (BuffLog.mem_change (k := Entry.age) (fun _ => rfl) he)) (fun f hf hid => ?_)
          fun id' hne => BuffLog.of_change_of_ne (k := Entry.age) (fun _ => rfl) hne
        have hfollows := hs.follows f hf
        rw [hid] at hfollows
        rw [BuffLog.of_change_self (k := Entry.age) fun _ => rfl]
        exact hfollows.tick
    | _ => exact absurd rfl hkeeps

end Followed

/-! ### The observer -/

/-- The buffs, and the poisons that the turn start has still to deal. -/
structure Chronicle where
  log : BuffLog
  due : List (Int × Int × Int)

namespace Chronicle

def empty : Chronicle := ⟨[], []⟩

def note (g : Chronicle) (s : Fight) : Action → Chronicle
  | .poison .. => { g with due := g.due.tail }
  | .update .tickBuffs =>
    { log := g.log.note s .tickBuffs
      due := (s.currentFighter.map fun f => (g.log.note s .tickBuffs).poisons f.id).getD [] }
  | .update .tickMarks | .update (.setPhase _) => { g with due := [] }
  | .update u => { g with log := g.log.note s u }
  | _ => g

end Chronicle

instance : Observes Chronicle Fight Action where
  note := Chronicle.note

/-- No buff of the current fighter is at the last turn start of its duration, worn shields apart. -/
def Timely (x : Chronicle × Fight) (a : Action) : Prop :=
  ∀ f ∈ x.2.currentFighter, OnTime ((act x a).1.log.of f.id)

/-- Effects last as long as they say: at a turn start the buffs in effect are those that should be, and the poisons
among them are dealt, one after the other; and the points of the turn include the boosts that are in effect. -/
def Lasting (x : Chronicle × Fight) : Action → Prop
  | .update .tickBuffs => ∀ f ∈ x.2.currentFighter, Lasts ((x.1.log.note x.2 .tickBuffs).of f.id) f.buffs.tick
  | .poison sourceId targetId damage => x.1.due.head? = some (sourceId, targetId, damage)
  | .update .tickMarks | .update (.setPhase .ended) => x.1.due = []
  | .update .resetTurn => ∀ f ∈ x.2.currentFighter,
    f.resetTurn.actionPoints = wrap16 (f.maxActionPoints + wrap16 (x.1.log.bonus f.id .ap)) ∧
      f.resetTurn.movementPoints = wrap16 (f.maxMovementPoints + wrap16 (x.1.log.bonus f.id .mp))
  | _ => True

/-- Effects last if no buff is at the last turn start of its duration; and at a turn start the buffs in effect are
those that should be only if none of them is, shields apart. -/
def LastsTimely (x : Chronicle × Fight) (a : Action) : Prop :=
  (Timely x a → Lasting x a) ∧ (a = .update .tickBuffs → Lasting x a →
    ∀ f ∈ x.2.currentFighter, ∀ e ∈ (act x a).1.log.of f.id, e.buff.isShield = false → e.isLast = false)

/-- Nothing is said of the action. -/
def Action.isCalm : Action → Bool
  | .poison .. | .update .tickBuffs | .update .tickMarks | .update (.setPhase _) | .update .resetTurn => false
  | _ => true

/-- What is written down follows the lists, and no poison is due. -/
structure Settled (x : Chronicle × Fight) : Prop where
  followed : Followed x.1.log x.2
  due : x.1.due = []

/-- The turn start of a fighter, on which these poisons have still to be dealt if none of its buffs is at its last
turn start. -/
structure Poisoning (id : Int) (due : List (Int × Int × Int)) (x : Chronicle × Fight) : Prop where
  followed : Followed x.1.log x.2
  current : x.2.currentFighter.map Fighter.id = some id
  due : (∀ e ∈ x.1.log.of id, e.buff.isShield = false → e.isLast = false) → x.1.due = due

section

variable {x : Chronicle × Fight} {a : Action}

theorem LastsTimely.of_calm (ha : a.isCalm = true) : LastsTimely x a := by
  refine ⟨fun _ => ?_, ?_⟩
  · cases a with
    | update u => cases u <;> trivial
    | poison _ _ _ => cases ha
    | _ => trivial
  · rintro rfl
    cases ha

/-- What does not concern the poisons leaves those that are due. -/
theorem due_calm (ha : a.isCalm = true) : (act x a).1.due = x.1.due := by
  cases a with
  | update u => cases u <;> first | rfl | cases ha
  | poison _ _ _ => cases ha
  | _ => rfl

theorem Followed.act (hx : Followed x.1.log x.2) (ha : MayWrite x.2 a) :
    Followed (Trace.act x a).1.log (Trace.act x a).2 := by
  cases a with
  | update u =>
    have hlog : (Trace.act x (Action.update u)).1.log = x.1.log.note x.2 u := by cases u <;> rfl
    rw [hlog]
    exact hx.apply ha
  | _ => exact hx

theorem Settled.act (hx : Settled x) (ha : MayWrite x.2 a) (hcalm : a.isCalm = true) : Settled (Trace.act x a) :=
  ⟨hx.followed.act ha, (due_calm hcalm).trans hx.due⟩

/-- Actions of which nothing is said. -/
theorem Settled.calm (hx : Settled x) {t : List Action} (ht : Along MayWrite x.2 t)
    (hcalm : Along (fun _ a => a.isCalm = true) x.2 t) : Along LastsTimely x t ∧ Settled (after x t) := by
  have hactions := (along_observed (γ := Chronicle) (x := x)).2 (ht.and hcalm)
  have hrun := hactions.invariant (I := Settled) (fun x a hx ha => hx.act ha.1 ha.2) hx
  exact ⟨hactions.imp fun x a ha => .of_calm ha.2, hrun.2⟩

end

/-! ### Effects -/

theorem Effect.isCalm {s : Fight} {b : List Action} (h : Effect s b) : Along (fun _ a => a.isCalm = true) s b := by
  cases h with
  | @quiet u hu _ htick =>
    refine ⟨?_, trivial⟩
    cases u <;> first | rfl | contradiction
  | hit _ _ _ => split <;> simp [Action.isCalm]
  | heal _ => split <;> simp [Action.isCalm]
  | _ => simp [Action.isCalm]

theorem SpellBlock.isCalm {s : Fight} {b : List Action} (h : SpellBlock s b) :
    Along (fun _ a => a.isCalm = true) s b := by
  cases h with
  | effect h => exact h.isCalm
  | summon _ _ _ _ => exact ⟨rfl, rfl, rfl, trivial⟩

/-- It stays the turn of the same fighter, unless the turn is advanced. -/
theorem Fight.Roster.current_apply {s : Fight} (hs : s.Roster) {u : Update} (hu : u ≠ .advanceTurn) :
    (s.apply u).currentFighter.map Fighter.id = s.currentFighter.map Fighter.id := by
  unfold Fight.currentFighter
  rw [s.currentFighterIndex_apply hu]
  by_cases hroster : u.keepsRoster = true
  · have hids := congrArg (List.map Prod.fst) (s.map_identity_apply hroster)
    rw [List.map_map, List.map_map] at hids
    rw [← List.getElem?_map, ← List.getElem?_map]
    exact congrArg (·[s.currentFighterIndex]?) hids
  · cases u with
    | summon casterId f => exact congrArg _ (List.getElem?_append_left hs.index)
    | _ => exact absurd rfl hroster

section

variable {x : Chronicle × Fight} {id : Int}

/-- Every buff that is no shield stays written down, with its turn starts. -/
theorem BuffLog.mem_note {log : BuffLog} {s : Fight} {u : Update} (hu : (Action.update u).isCalm = true) {e : Entry}
    (he : e ∈ log.of id) : ∃ e' ∈ (log.note s u).of id, e'.buff = e.buff ∧ e'.isLast = e.isLast := by
  cases u with
  | addBuff targetId b =>
    simp only [note]
    split
    · rw [of_append]
      exact ⟨e, List.mem_append_left _ he, rfl, rfl⟩
    · exact ⟨e, he, rfl, rfl⟩
  | hit targetId damage =>
    by_cases hid : id = targetId
    · subst hid
      simp only [note]
      rw [of_change_self (k := Entry.strike) fun _ => rfl]
      exact ⟨e.strike, List.mem_map_of_mem he, rfl, rfl⟩
    · simp only [note]
      rw [of_change_of_ne (k := Entry.strike) (fun _ => rfl) hid]
      exact ⟨e, he, rfl, rfl⟩
  | tickBuffs => cases hu
  | _ => exact ⟨e, he, rfl, rfl⟩

theorem Poisoning.act {due : List (Int × Int × Int)} (hx : Poisoning id due x) {a : Action} (ha : MayWrite x.2 a)
    (hcalm : a.isCalm = true) (hturn : a ≠ .update .advanceTurn) : Poisoning id due (Trace.act x a) := by
  refine ⟨hx.followed.act ha, ?_, fun htime => (due_calm hcalm).trans (hx.due fun e he hshield => ?_)⟩
  · cases a with
    | update u => exact (hx.followed.roster.current_apply fun h => hturn (congrArg _ h)).trans hx.current
    | _ => exact hx.current
  · cases a with
    | update u =>
      have hlog : (Trace.act x (Action.update u)).1.log = x.1.log.note x.2 u := by cases u <;> rfl
      obtain ⟨e', he', hbuff, hlast⟩ := BuffLog.mem_note hcalm he
      rw [hlog] at htime
      rw [← hlast]
      exact htime e' he' (by rw [hbuff, hshield])
    | _ => exact htime e he hshield

/-- A program of effects. -/
theorem Settled.effects {α : Type} {p : FightProgram α} {Q : α → Fight → Prop} (hp : Ensures Effect Fault p x.2 Q)
    (hx : Settled x) : Observed (fun _ _ => True) LastsTimely p x fun _ x' => Settled x' :=
  (Observed.of_ensures hp (fun _ _ hx hb _ => hx.calm hb.mayWrite hb.isCalm) hx).mono fun _ _ h => h.2

theorem Poisoning.effects {due : List (Int × Int × Int)} {α : Type} {p : FightProgram α} {Q : α → Fight → Prop}
    (hp : Ensures Effect Fault p x.2 Q) (hx : Poisoning id due x) :
    Observed (fun _ _ => True) LastsTimely p x fun _ x' => Poisoning id due x' := by
  refine (Observed.of_ensures (I := Poisoning id due) hp (fun x b hx hb _ => ?_) hx).mono fun _ _ h => h.2
  have hspell : Along (fun _ a => a.isSpell = true) x.2 b := hb.isSpell
  have hactions := (along_observed (γ := Chronicle) (x := x)).2 ((hb.mayWrite.and hb.isCalm).and hspell)
  have hrun := hactions.invariant (I := Poisoning id due) (fun x a hx ha => hx.act ha.1.1 ha.1.2 fun h => ?_) hx
  · exact ⟨hactions.imp fun x a ha => .of_calm ha.1.2, hrun.2⟩
  · have hnot := ha.2
    rw [h] at hnot
    cases hnot

/-- A poison that is due is dealt. -/
theorem applyPoison_last {b : Buff} {due : List (Int × Int × Int)}
    (hx : Poisoning id ((b.sourceId, id, b.value) :: due) x) :
    Observed (fun _ _ => True) LastsTimely (applyPoison id b) x fun _ x' => Poisoning id due x' := by
  unfold applyPoison
  refine .perform_bind fun _ => ⟨⟨fun htime => ?_, (by rintro ⟨⟩)⟩, ?_⟩
  · obtain ⟨f, hf, hid⟩ := Option.map_eq_some_iff.1 hx.current
    have hlasting := (htime f hf).lasting
    rw [hid] at hlasting
    have hdue := hx.due fun e he hshield => hlasting e he (by rw [hshield]; rfl)
    show x.1.due.head? = some (b.sourceId, id, b.value)
    rw [hdue]
    rfl
  · have hdealt : Poisoning id due (act x (Action.poison b.sourceId id b.value)) := by
      refine ⟨hx.followed, hx.current, fun htime => ?_⟩
      have hdue := hx.due htime
      show x.1.due.tail = due
      rw [hdue]
      rfl
    exact .bind (hdealt.effects (applyDamage_ensures ..)) fun _ _ hx' => .pure hx'

theorem applyPoisons_last {bs : BuffList} (hx : Poisoning id (bs.map fun b => (b.sourceId, id, b.value)) x) :
    Observed (fun _ _ => True) LastsTimely (bs.forM (applyPoison id)) x fun _ x' => Poisoning id [] x' := by
  induction bs generalizing x with
  | nil => exact .pure hx
  | cons b bs ih => exact .bind (applyPoison_last hx) fun _ _ hx' => ih hx'

end

/-! ### Turns -/

section

variable {x : Chronicle × Fight}

/-- An action of which nothing is said. -/
theorem Settled.perform (hx : Settled x) {a : Action} (ha : MayWrite x.2 a) (hcalm : a.isCalm = true) :
    Observed (fun _ _ => True) LastsTimely (perform a) x fun _ x' => Settled x' :=
  .perform fun _ => ⟨.of_calm hcalm, hx.act ha hcalm⟩

theorem monsterAttack_last (hx : Settled x) :
    Observed (fun _ _ => True) LastsTimely monsterAttack x fun _ x' => Settled x' := by
  unfold monsterAttack
  refine .get_bind ?_
  cases x.2.currentFighter with
  | none => exact .pure hx
  | some monster =>
    dsimp only
    split
    · exact .pure hx
    refine .bind (Q := fun _ x' => Settled x') (.ofOption fun _ _ => hx) fun nearest x₁ hx₁ => ?_
    cases nearest with
    | none => exact .pure hx₁
    | some target =>
      refine .bind (Q := fun _ x' => Settled x') (.ofOption fun _ _ => hx₁) fun dist x₂ hx₂ => ?_
      refine .bind (Q := fun _ x' => Settled x')
        (.when (fun _ => hx₂.perform (a := .update (.spendMovement _)) (.spendMovement _) rfl) fun _ => hx₂)
          fun _ x₃ hx₃ => ?_
      refine .bind (hx₃.perform (a := .send _) trivial rfl) fun _ x₄ hx₄ => ?_
      refine .bind (hx₄.perform trivial rfl) fun _ x₅ hx₅ => ?_
      refine .bind (hx₅.effects (applyDamage_ensures ..)) fun _ x₆ hx₆ => ?_
      exact hx₆.perform (a := .send _) trivial rfl

/-- A write that clears the poisons that are due, of which there are none. -/
theorem Settled.clear (hx : Settled x) {u : Update} (hu : Write x.2 u)
    (hclear : (Trace.act x (Action.update u)).1.due = []) (hlasting : Lasting x (.update u))
    (htick : u ≠ .tickBuffs) :
    Observed (fun _ _ => True) LastsTimely (update u) x fun _ x' => Settled x' := by
  refine .perform fun _ => ⟨⟨fun _ => hlasting, fun h => ?_⟩, hx.followed.act (a := .update u) hu, hclear⟩
  exact absurd (Action.update.inj h) htick

theorem endTurnThen_last {startNext : FightProgram Unit} (hx : Settled x)
    (hnext : ∀ x, Settled x → Observed (fun _ _ => True) LastsTimely startNext x fun _ x' => Settled x') :
    Observed (fun _ _ => True) LastsTimely (endTurnThen startNext) x fun _ x' => Settled x' := by
  unfold endTurnThen
  refine .get_bind (.perform_bind fun _ => ⟨.of_calm rfl, ?_⟩)
  have hsent : Settled (act x (Action.send (.turnEnd ((x.2.currentFighter.map Fighter.id).getD 0)))) :=
    ⟨hx.followed, hx.due⟩
  cases hgoing : x.2.shouldEnd with
  | true => exact hsent.clear (u := .setPhase .ended) (.finish hgoing) rfl hx.due nofun
  | false =>
    refine .bind (hsent.perform (a := .update .advanceTurn) (.advance hgoing) rfl) fun _ x₁ hx₁ => ?_
    refine .bind (Q := fun _ x' => Settled x') (.when (fun _ => .get_bind ?_) fun _ => hx₁) fun _ x₂ hx₂ =>
      hnext x₂ hx₂
    exact hx₁.perform (a := .send _) trivial rfl

/-- The turn start of a fighter: its buffs are counted down, and its poisons are due. -/
theorem tickBuffs_last (hx : Settled x) {f : Fighter} (hf : x.2.currentFighter = some f) :
    LastsTimely x (.update .tickBuffs) ∧
      Poisoning f.id (f.buffs.tick.activePoisons.map fun b => (b.sourceId, f.id, b.value))
        (act x (Action.update .tickBuffs)) := by
  have hfollowed := hx.followed.act (a := .update .tickBuffs) (Write.quiet rfl)
  have hcurrent := x.2.currentFighter_modifyCurrent (·.tickBuffs)
  rw [hf, Option.map_some] at hcurrent
  have hfollows : Follows ((x.1.log.note x.2 .tickBuffs).of f.id) f.buffs.tick :=
    hfollowed.follows _ (List.mem_of_getElem? hcurrent)
  refine ⟨⟨fun htime g hg => ?_, fun _ hlasting g hg => ?_⟩, hfollowed, ?_, fun htime => ?_⟩
  · obtain rfl : f = g := Option.some.inj (hf.symm.trans hg)
    exact hfollows.lasts (htime f hf)
  · obtain rfl : f = g := Option.some.inj (hf.symm.trans hg)
    exact hfollows.on_time (hlasting f hf)
  · exact congrArg (Option.map Fighter.id) hcurrent
  · have hpoisons := congrArg (List.map fun t => (t.1, f.id, t.2.2)) (hfollows.poisons htime)
    rw [List.map_map, List.map_map] at hpoisons
    have hdue : (act x (Action.update .tickBuffs)).1.due = (x.1.log.note x.2 .tickBuffs).poisons f.id := by
      show (x.2.currentFighter.map fun f => (x.1.log.note x.2 .tickBuffs).poisons f.id).getD [] = _
      rw [hf]
      rfl
    exact hdue.trans hpoisons.symm

/-- The points of the turn include the boosts in effect. -/
theorem resetTurn_last (hx : Settled x) : LastsTimely x (.update .resetTurn) := by
  refine ⟨fun htime f hf => ?_, (by rintro ⟨⟩)⟩
  have hfollows := hx.followed.follows f (List.mem_of_getElem? hf)
  have hlasting : ∀ e ∈ x.1.log.of f.id, e.buff.isShield = false → e.isLast = false := fun e he hshield =>
    (htime f hf).lasting e he (by rw [hshield]; rfl)
  have hap := hfollows.statBonus hlasting .ap
  have hmp := hfollows.statBonus hlasting .mp
  exact ⟨congrArg (fun bonus => wrap16 (f.maxActionPoints + bonus)) hap,
    congrArg (fun bonus => wrap16 (f.maxMovementPoints + bonus)) hmp⟩

/-- After the poisons no poison is due. -/
theorem Poisoning.end {id : Int} (hx : Poisoning id [] x) {u : Update} (hu : Write x.2 u)
    (hclear : u = .tickMarks ∨ u = .setPhase .ended) :
    LastsTimely x (.update u) ∧ Settled (Trace.act x (Action.update u)) := by
  have hlog : (Trace.act x (Action.update u)).1.log = x.1.log := by rcases hclear with rfl | rfl <;> rfl
  have hdue (htime : Timely x (.update u)) : x.1.due = [] := by
    obtain ⟨f, hf, hid⟩ := Option.map_eq_some_iff.1 hx.current
    have hlasting := (htime f hf).lasting
    rw [hlog, hid] at hlasting
    exact hx.due fun e he hshield => hlasting e he (by rw [hshield]; rfl)
  refine ⟨⟨fun htime => ?_, ?_⟩, hx.followed.act (a := .update u) hu, ?_⟩
  · rcases hclear with rfl | rfl
    · exact hdue htime
    · exact hdue htime
  · rintro ⟨⟩
    simp at hclear
  · rcases hclear with rfl | rfl <;> rfl

theorem startNextTurn_last (n : Nat) (hx : Settled x) :
    Observed (fun _ _ => True) LastsTimely (startNextTurn n) x fun _ x' => Settled x' := by
  induction n generalizing x with
  | zero => exact .exhausted
  | succ n ih =>
    unfold startNextTurn
    refine .get_bind ?_
    split
    · exact .pure hx
    obtain ⟨f, hf⟩ : ∃ f, x.2.currentFighter = some f := ⟨_, List.getElem?_eq_getElem hx.followed.roster.index⟩
    obtain ⟨hticked, hpoisoning⟩ := tickBuffs_last hx hf
    have hcurrent := x.2.currentFighter_modifyCurrent (·.tickBuffs)
    rw [hf, Option.map_some] at hcurrent
    refine .perform_bind fun _ => ⟨hticked, .get_bind ?_⟩
    have hstate : (act x (Action.update .tickBuffs)).2.currentFighter = some f.tickBuffs := hcurrent
    rw [hstate]
    refine .bind (applyPoisons_last hpoisoning) fun _ x₁ hx₁ => .get_bind ?_
    cases hend : x₁.2.shouldEnd with
    | true =>
      obtain ⟨hlast, hsettled⟩ := hx₁.end (u := .setPhase .ended) (.finish hend) (.inr rfl)
      exact .perform fun _ => ⟨hlast, hsettled⟩
    | false =>
      obtain ⟨hlast, hsettled⟩ := hx₁.end (u := .tickMarks) (.quiet rfl) (.inl rfl)
      refine .perform_bind fun _ => ⟨hlast, .get_bind ?_⟩
      refine .bind (hsettled.effects (triggerGlyphsForTurn_ensures ..)) fun _ x₂ hx₂ => .get_bind ?_
      cases hend : x₂.2.shouldEnd with
      | true => exact hx₂.clear (u := .setPhase .ended) (.finish hend) rfl hx₂.due fun h => by cases h
      | false =>
        cases x₂.2.currentFighter with
        | none => exact .pure hx₂
        | some fighter =>
          have hreset : Settled (act x₂ (Action.update .resetTurn)) :=
            ⟨hx₂.followed.act (a := .update .resetTurn) .resetTurn, hx₂.due⟩
          refine .perform_bind fun _ => ⟨resetTurn_last hx₂, ?_⟩
          refine .bind (hreset.perform (a := .send _) trivial rfl) fun _ x₃ hx₃ => ?_
          split
          · exact .pure hx₃
          · exact .bind (monsterAttack_last hx₃) fun _ x₄ hx₄ => endTurnThen_last hx₄ fun x hx => ih hx

/-! ### Requests -/

/-- What starts no turn is calm. -/
theorem Served.isCalm {s : Fight} {r : Request} {t : List Action} (h : Served s r t)
    (hready : ∀ isReady, r ≠ .ready isReady)
    (hfinish : r ≠ .turnFinish) : Along (fun _ a => a.isCalm = true) s t := by
  cases h with
  | refused _ => exact ⟨rfl, trivial⟩
  | place _ _ => exact ⟨rfl, rfl, rfl, trivial⟩
  | ready _ => exact absurd rfl (hready _)
  | turnFinish _ => exact absurd rfl hfinish
  | cast _ _ _ _ _ _ ht => exact along_append.2 ⟨⟨rfl, rfl, rfl, trivial⟩, ht.along fun _ _ hb => hb.isCalm⟩
  | move _ _ _ _ _ _ ht =>
    exact along_append.2 ⟨⟨rfl, rfl, rfl, rfl, rfl, rfl, trivial⟩, ht.along fun _ _ hb => hb.isCalm⟩
  | elsewhere => exact ⟨rfl, rfl, trivial⟩

theorem handleFightReady_last (n : Nat) (hx : Settled x) :
    Observed (fun _ _ => True) LastsTimely (handleFightReady n) x fun _ x' => Settled x' := by
  unfold handleFightReady
  refine .bind (hx.clear (u := .setPhase .fighting) .start rfl trivial nofun) fun _ x₁ hx₁ => ?_
  refine .bind (hx₁.perform (a := .send _) trivial rfl) fun _ x₂ hx₂ => .get_bind ?_
  exact .bind (hx₂.perform (a := .send _) trivial rfl) fun _ x₃ hx₃ => startNextTurn_last n hx₃

theorem handleTurnFinish_last (n : Nat) (hx : Settled x) :
    Observed (fun _ _ => True) LastsTimely (handleTurnFinish n) x fun _ x' => Settled x' := by
  unfold handleTurnFinish
  refine .get_bind ?_
  split
  · exact .pure hx
  · exact endTurnThen_last hx fun _ hx => startNextTurn_last n hx

theorem serve_last (n : Nat) (playerId : Int) (r : Request) (hx : Settled x) (hcoherent : x.2.Coherent) :
    Observed (fun _ _ => True) LastsTimely (serve maps n playerId r) x
      fun _ x' => Settled x' ∧ (r.checksEnd = false → x'.2.Coherent) := by
  have hspec := serve_spec maps n playerId r hcoherent
  have hserve : Observed (fun _ _ => True) LastsTimely (serve maps n playerId r) x fun _ x' => Settled x' := by
    have hcalm (hready : ∀ isReady, r ≠ .ready isReady) (hfinish : r ≠ .turnFinish) :
        Observed (fun _ _ => True) LastsTimely (serve maps n playerId r) x fun _ x' => Settled x' := by
      intro _
      have hrun := hx.calm (hspec.served.composed.along fun _ _ => Block.mayWrite)
        (hspec.served.isCalm hready hfinish)
      exact ⟨hrun.1, fun _ _ => hrun.2⟩
    cases r with
    | ready isReady =>
      unfold serve
      exact .bind (hx.perform (a := .receive _) trivial rfl) fun _ _ hx' => handleFightReady_last n hx'
    | turnFinish =>
      unfold serve
      exact .bind (hx.perform (a := .receive _) trivial rfl) fun _ _ hx' => handleTurnFinish_last n hx'
    | _ => exact hcalm nofun nofun
  intro halong
  obtain ⟨htrace, hsettled⟩ := hserve halong
  refine ⟨htrace, fun u hu => ⟨hsettled u hu, fun hchecks => ?_⟩⟩
  rw [after_observed]
  exact hspec.coherent hu hchecks

theorem history_last (n : Nat) (playerId : Int) (rs : List Request) (hx : Settled x) (hcoherent : x.2.Coherent) :
    Observed (fun _ _ => True) LastsTimely (history maps n playerId rs) x fun _ x' => Settled x' := by
  induction rs generalizing x with
  | nil => exact .pure hx
  | cons r rs ih =>
    rw [history_cons]
    refine .bind (serve_last n playerId r hx hcoherent) fun _ x' hx' => ?_
    by_cases hstop : (r.checksEnd && x'.2.isOver) = true
    · exact .congr (historyRest_of_over hstop) (q := fun _ => ⟨[], .value false⟩) (.pure hx'.1)
    · exact .congr (historyRest_of_going hstop) (ih hx'.1 (coherent_of_going hx'.2 hstop))

end

theorem startPveFight_settled (c : Character) (mapId : Int) (nextMarkId drawn : Nat) :
    Settled (Chronicle.empty, startPveFight maps c mapId nextMarkId drawn) := by
  refine ⟨⟨startPveFight_roster c mapId nextMarkId drawn, nofun, fun f hf => ?_⟩, rfl⟩
  simp only [startPveFight, List.mem_cons, List.not_mem_nil, or_false] at hf
  rcases hf with rfl | rfl
  · exact .nil
  · exact .nil

/-- In every fight, buffs are in effect at as many turn starts of their bearer as their duration says, except for the
last of these turn starts. -/
theorem buffs_last (maps : Int → Option MapData) (n : Nat) (c : Character) (mapId : Int) (nextMarkId drawn : Nat)
    (rs : List Request) :
    let s := startPveFight maps c mapId nextMarkId drawn
    Along LastsTimely (Chronicle.empty, s) (history maps n c.id rs s).trace :=
  (history_last n c.id rs (startPveFight_settled c mapId nextMarkId drawn)
    (startPveFight_coherent c mapId nextMarkId drawn) along_true).1

/-- A poison of 5 damage for one turn. -/
def poisonSpell : SpellData :=
  { SpellData.fallback with apCost := 2, minRange := 0, effects := [⟨131, 5, 0, 1, .neutral⟩] }

/-- A poison for one turn deals no damage. -/
theorem poison_deals_nothing : ¬∀ (maps : Int → Option MapData) (n : Nat) (c : Character) (mapId : Int)
    (nextMarkId drawn : Nat) (rs : List Request),
    let s := startPveFight maps c mapId nextMarkId drawn
    Along Lasting (Chronicle.empty, s) (history maps n c.id rs s).trace := by
  intro h
  have hlasting := h (fun _ => none) 3 .novice 0 0 0 [.ready true, .cast 1 280 (some poisonSpell) 0, .turnFinish]
  have hdealt : Along (fun (x : Chronicle × Fight) a => a = .update .tickMarks → x.1.due = [])
      (Chronicle.empty, startPveFight (fun _ => none) .novice 0 0 0)
      (history (fun _ => none) 3 1 [.ready true, .cast 1 280 (some poisonSpell) 0, .turnFinish]
        (startPveFight (fun _ => none) .novice 0 0 0)).trace := by
    refine hlasting.imp fun x a hlast => ?_
    rintro rfl
    exact hlast
  have hdue : ¬Along (fun (x : Chronicle × Fight) a => a = .update .tickMarks → x.1.due = [])
      (Chronicle.empty, startPveFight (fun _ => none) .novice 0 0 0)
      (history (fun _ => none) 3 1 [.ready true, .cast 1 280 (some poisonSpell) 0, .turnFinish]
        (startPveFight (fun _ => none) .novice 0 0 0)).trace := by
    decide +kernel
  exact hdue hdealt

end Otomai.Combat
