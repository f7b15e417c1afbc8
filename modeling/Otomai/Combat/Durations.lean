import Otomai.Combat.Shields
import Otomai.Trace.Observer

/-!
# How long buffs last

An observer writes down every buff that a fighter gets, and counts the turns that the fighter has started since.  A
buff is in effect at as many turn starts as its duration says, so the observer knows which buffs of a fighter are in
effect, and which poisons are due at a turn start.

* `Entry.isKept_iff`: the list of buffs drops a buff at the last turn start at which it is in effect.
* `Follows`: what the list holds of the buffs that were written down, and what keeps it so.
* `buffs_last`: at which turn starts the buffs are in effect.
-/

namespace Otomai.Combat

open Machine Otomai.Common Trace Program

namespace Buff

variable (b : Buff)

/-- Whose effect it is, which one and of which value. -/
def effect : Int × EffectType × Int := (b.sourceId, b.effectType, b.value)

/-- A turn less. -/
def countDown : Buff := { b with remainingTurns := b.remainingTurns - 1 }

end Buff

/-- A buff as it was added, its bearer, the number of turns that the bearer has started since, and whether the bearer
has been hit since. -/
structure Entry where
  bearer : Int
  buff : Buff
  turns : Nat
  struck : Bool
  deriving DecidableEq

namespace Entry

variable (e : Entry)

/-- A buff is in effect from when it is added to the turn start that its duration says. -/
def inEffect : Bool := e.turns = 0 ∨ (e.turns : Int) ≤ e.buff.remainingTurns

/-- It is the turn start that its duration says. -/
def isLast : Bool := e.turns ≠ 0 ∧ (e.turns : Int) = e.buff.remainingTurns

/-- The buff is in the list of buffs. -/
def isKept : Bool := e.turns = 0 ∨ (e.turns : Int) < e.buff.remainingTurns

/-- A shield that may have been used up. -/
def isWorn : Bool := e.struck && e.buff.isShield

/-- The buff, with the turns it has left. -/
def aged : Buff := { e.buff with remainingTurns := e.buff.remainingTurns - e.turns }

def age : Entry := { e with turns := e.turns + 1 }

def strike : Entry := { e with struck := true }

variable {e}

theorem isKept_eq_true : e.isKept = true ↔ e.turns = 0 ∨ (e.turns : Int) < e.buff.remainingTurns := decide_eq_true_iff

/-- The code drops a buff one turn start too early. -/
theorem isKept_iff : e.isKept = true ↔ e.inEffect = true ∧ e.isLast = false := by
  rw [isKept_eq_true, inEffect, isLast, decide_eq_true_eq, decide_eq_false_iff_not]
  by_cases hturns : e.turns = 0
  · simp only [hturns, true_or, ne_eq, not_true_eq_false, false_and, not_false_eq_true, and_self]
  · simp only [hturns, false_or, ne_eq, not_false_eq_true, true_and]
    exact lt_iff_le_and_ne

theorem isKept_age : e.age.isKept = true ↔ e.isKept = true ∧ 1 < e.aged.remainingTurns := by
  rw [isKept_eq_true, isKept_eq_true]
  simp only [age, aged]
  omega

theorem countDown_aged : e.aged.countDown = e.age.aged := by
  simp only [Buff.countDown, aged, age, Nat.cast_add, Nat.cast_one, Buff.mk.injEq, true_and]
  omega

@[simp] theorem effect_aged : e.aged.effect = e.buff.effect := rfl

end Entry

namespace BuffList

variable {bs cs : BuffList}

theorem tick_eq : bs.tick = (bs.filter fun b => 1 < b.remainingTurns).map Buff.countDown := rfl

theorem filter_tick : (bs.tick).filter (!·.isShield) = tick (bs.filter (!·.isShield)) := by
  rw [tick_eq, tick_eq, List.filter_map, List.filter_filter, List.filter_filter]
  refine congrArg _ (List.filter_congr fun b _ => ?_)
  exact Bool.and_comm ..

theorem tick_sublist (h : bs.Sublist cs) : (tick bs).Sublist (tick cs) := (h.filter _).map _

/-- A tick drops the buffs that are not kept, and counts the others down. -/
theorem tick_aged (es : List Entry) :
    tick ((es.filter Entry.isKept).map Entry.aged) = ((es.map Entry.age).filter Entry.isKept).map Entry.aged := by
  induction es with
  | nil => rfl
  | cons e es ih =>
    rw [tick_eq] at ih ⊢
    have hage := @Entry.isKept_age e
    cases hkept : e.age.isKept with
    | true =>
      obtain ⟨hin, hmore⟩ := hage.1 hkept
      simp only [List.map_cons, List.filter_cons, hkept, hin, hmore, if_true, decide_true, ih, Entry.countDown_aged]
    | false =>
      rw [hkept] at hage
      simp only [List.map_cons, List.filter_cons, hkept, Bool.false_eq_true, if_false]
      cases hin : e.isKept with
      | true =>
        have hout : ¬1 < e.aged.remainingTurns := fun hmore => by simp [hin, hmore] at hage
        simp only [if_true, List.map_cons, List.filter_cons, hout, decide_false, Bool.false_eq_true, if_false, ih]
      | false => simp only [Bool.false_eq_true, if_false, ih]

end BuffList

/-! ### What the list holds -/

/-- The list of buffs, as far as what was written down tells it: of the buffs that are kept it holds those that are no
shields, and the shields that are not worn, and nothing else but worn shields. -/
structure Follows (es : List Entry) (bs : BuffList) : Prop where
  lasting : bs.filter (!·.isShield) = ((es.filter (!·.buff.isShield)).filter Entry.isKept).map Entry.aged
  unworn : (((es.filter (!·.isWorn)).filter Entry.isKept).map Entry.aged).Sublist bs
  known : ∀ b ∈ bs, ∃ e ∈ es, e.isKept = true ∧ { b with value := e.buff.value } = e.aged

namespace Follows

variable {es : List Entry} {bs : BuffList}

theorem nil : Follows [] [] := ⟨rfl, .slnil, nofun⟩

theorem add (h : Follows es bs) (id : Int) (b : Buff) : Follows (es ++ [⟨id, b, 0, false⟩]) (bs ++ [b]) := by
  have hkept : (⟨id, b, 0, false⟩ : Entry).isKept = true := rfl
  have haged : (⟨id, b, 0, false⟩ : Entry).aged = b := by simp [Entry.aged]
  refine ⟨?_, ?_, ?_⟩
  · rw [List.filter_append, List.filter_append, List.filter_append, List.map_append, h.lasting]
    congr 1
    cases hshield : b.isShield with
    | true => simp [hshield]
    | false => simp [hshield, hkept, haged]
  · rw [List.filter_append, List.filter_append, List.map_append]
    refine h.unworn.append ?_
    simp [Entry.isWorn, hkept, haged]
  · intro c hc
    rcases List.mem_append.1 hc with hmem | hmem
    · obtain ⟨e, he, hkept, hsame⟩ := h.known c hmem
      exact ⟨e, List.mem_append_left _ he, hkept, hsame⟩
    · rw [List.mem_singleton.1 hmem]
      exact ⟨_, List.mem_append_right _ (List.mem_singleton.2 rfl), hkept, haged.symm⟩

/-- A hit uses up shields only. -/
theorem hit (h : Follows es bs) (damage : Int) : Follows (es.map Entry.strike) (bs.afterShield damage) := by
  have hlasting : (bs.afterShield damage).filter (!·.isShield) =
      ((es.filter (!·.buff.isShield)).filter Entry.isKept).map Entry.aged :=
    (BuffList.afterShield_others damage).trans h.lasting
  have hstruck (p : Entry → Bool) (hp : ∀ e : Entry, p e.strike = !e.buff.isShield) :
      (((es.map Entry.strike).filter p).filter Entry.isKept).map Entry.aged =
        ((es.filter (!·.buff.isShield)).filter Entry.isKept).map Entry.aged := by
    rw [List.filter_map, List.filter_map, List.map_map]
    congr 2
    exact List.filter_congr fun e _ => hp e
  refine ⟨hlasting.trans (hstruck _ fun _ => rfl).symm, ?_, fun b hb => ?_⟩
  · rw [hstruck _ fun _ => rfl, ← hlasting]
    exact List.filter_sublist
  · obtain ⟨c, hc, hsame⟩ := BuffList.mem_absorbLoop (BuffList.mem_afterShield hb)
    obtain ⟨e, he, hkept, haged⟩ := h.known c hc
    refine ⟨e.strike, List.mem_map_of_mem he, hkept, ?_⟩
    rw [hsame]
    exact haged

/-- A turn start of the bearer. -/
theorem tick (h : Follows es bs) : Follows (es.map Entry.age) bs.tick := by
  have haged (p : Entry → Bool) (hp : ∀ e : Entry, p e.age = p e) :
      (((es.map Entry.age).filter p).filter Entry.isKept).map Entry.aged =
        BuffList.tick (((es.filter p).filter Entry.isKept).map Entry.aged) := by
    rw [BuffList.tick_aged, List.filter_map]
    congr 3
    exact List.filter_congr fun e _ => hp e
  refine ⟨?_, ?_, fun b hb => ?_⟩
  · rw [BuffList.filter_tick, h.lasting, haged _ fun _ => rfl]
  · rw [haged _ fun _ => rfl]
    exact BuffList.tick_sublist h.unworn
  · rw [BuffList.tick_eq] at hb
    obtain ⟨c, hc, rfl⟩ := List.mem_map.1 hb
    obtain ⟨hmem, hmore⟩ := List.mem_filter.1 hc
    obtain ⟨e, he, hkept, hsame⟩ := h.known c hmem
    have hturns := congrArg Buff.remainingTurns hsame
    dsimp only at hturns
    refine ⟨e.age, List.mem_map_of_mem he, Entry.isKept_age.2 ⟨hkept, ?_⟩, ?_⟩
    · rw [← hturns]
      exact of_decide_eq_true hmore
    · rw [← Entry.countDown_aged, ← hsame]
      rfl

end Follows

/-! ### What is in effect -/

/-- What is said of a fighter's buffs at a turn start: those that are no shields are in effect as long as they should
be, so are the shields unless they are worn, and nothing else is in effect. -/
structure Lasts (es : List Entry) (bs : BuffList) : Prop where
  effects : (bs.filter (!·.isShield)).map Buff.effect =
    ((es.filter (!·.buff.isShield)).filter Entry.inEffect).map (·.buff.effect)
  shields : (((es.filter (!·.isWorn)).filter Entry.inEffect).map (·.buff.effect)).Sublist (bs.map Buff.effect)
  nothing_else : ∀ b ∈ bs, ∃ e ∈ es, e.inEffect = true ∧ b.sourceId = e.buff.sourceId ∧
    b.effectType = e.buff.effectType

/-- None of the buffs is at the last turn start of its duration; it does not matter of worn shields. -/
def OnTime (es : List Entry) : Prop := ∀ e ∈ es, e.isWorn = false → e.isLast = false

section

variable {es : List Entry} {bs : BuffList}

/-- What is kept is what is in effect. -/
theorem filter_isKept {p : Entry → Bool} (h : ∀ e ∈ es, p e = true → e.isLast = false) :
    (es.filter p).filter Entry.isKept = (es.filter p).filter Entry.inEffect := by
  refine List.filter_congr fun e he => ?_
  obtain ⟨hmem, hp⟩ := List.mem_filter.1 he
  rw [Bool.eq_iff_iff, Entry.isKept_iff]
  exact and_iff_left (h e hmem hp)

theorem OnTime.lasting (h : OnTime es) : ∀ e ∈ es, (!e.buff.isShield) = true → e.isLast = false := by
  intro e he hshield
  refine h e he ?_
  rw [Bool.not_eq_true'] at hshield
  rw [Entry.isWorn, hshield, Bool.and_false]

theorem Follows.lasts (h : Follows es bs) (htime : OnTime es) : Lasts es bs where
  effects := by
    rw [h.lasting, List.map_map, filter_isKept htime.lasting]
    rfl
  shields := by
    have hunworn := h.unworn.map Buff.effect
    rw [List.map_map, filter_isKept fun e he hworn => htime e he (by simpa using hworn)] at hunworn
    exact hunworn
  nothing_else b hb := by
    obtain ⟨e, he, hkept, hsame⟩ := h.known b hb
    have hsource := congrArg Buff.sourceId hsame
    have htype := congrArg Buff.effectType hsame
    exact ⟨e, he, (Entry.isKept_iff.1 hkept).1, hsource, htype⟩

/-- At the last turn start of its duration a buff is not in effect any more. -/
theorem Follows.on_time (h : Follows es bs) (hlasts : Lasts es bs) :
    ∀ e ∈ es, e.buff.isShield = false → e.isLast = false := by
  intro e he hshield
  have hlength := congrArg List.length hlasts.effects
  rw [h.lasting, List.map_map, List.length_map, List.length_map] at hlength
  have hsame : (es.filter (!·.buff.isShield)).filter Entry.isKept =
      (es.filter (!·.buff.isShield)).filter Entry.inEffect := by
    refine List.Sublist.eq_of_length ?_ hlength
    exact List.monotone_filter_right _ fun e he => (Entry.isKept_iff.1 he).1
  by_contra hlast
  rw [Bool.not_eq_false] at hlast
  have heffect : e.inEffect = true := by
    simp only [Entry.isLast, decide_eq_true_eq] at hlast
    simp only [Entry.inEffect, decide_eq_true_eq]
    exact .inr hlast.2.le
  have hmem : e ∈ (es.filter (!·.buff.isShield)).filter Entry.inEffect :=
    List.mem_filter.2 ⟨List.mem_filter.2 ⟨he, by rw [hshield]; rfl⟩, heffect⟩
  rw [← hsame] at hmem
  have hkept := (List.mem_filter.1 hmem).2
  rw [Entry.isKept_iff, hlast] at hkept
  exact absurd hkept.2 Bool.noConfusion

/-- The buffs of a kind, other than shields. -/
theorem Follows.filter (h : Follows es bs) {p : Buff → Bool} (hp : ∀ b, p b = true → b.isShield = false)
    (haged : ∀ e : Entry, p e.aged = p e.buff) :
    bs.filter p = ((es.filter (p ·.buff)).filter Entry.isKept).map Entry.aged := by
  have hshield (b : Buff) : (p b && !b.isShield) = p b := by
    cases hb : p b with
    | true => rw [hp b hb]; rfl
    | false => rfl
  calc bs.filter p
    _ = (bs.filter (!·.isShield)).filter p := by simp only [List.filter_filter, hshield]
    _ = (((es.filter (!·.buff.isShield)).filter Entry.isKept).filter (p ·.buff)).map Entry.aged := by
        rw [h.lasting, List.filter_map]
        congr 2
        exact funext haged
    _ = ((es.filter (p ·.buff)).filter Entry.isKept).map Entry.aged := by
        congr 1
        simp only [List.filter_filter]
        refine List.filter_congr fun e _ => ?_
        rw [Bool.and_left_comm, hshield]

theorem Buff.isShield_of_poisonElement {b : Buff} (h : b.poisonElement.isSome = true) : b.isShield = false := by
  unfold Buff.poisonElement at h
  unfold Buff.isShield
  split at h
  · rename_i elem helem
    rw [helem]
    rfl
  · cases h

/-- The poisons in effect. -/
theorem Follows.poisons (h : Follows es bs) (htime : ∀ e ∈ es, e.buff.isShield = false → e.isLast = false) :
    bs.activePoisons.map Buff.effect =
      ((es.filter fun e => e.buff.poisonElement.isSome).filter Entry.inEffect).map (·.buff.effect) := by
  rw [BuffList.activePoisons, h.filter (fun _ => Buff.isShield_of_poisonElement) fun _ => rfl, List.map_map,
    filter_isKept fun e he hpoison => htime e he (Buff.isShield_of_poisonElement hpoison)]
  rfl

/-- What the buffs in effect add to a stat. -/
theorem Follows.statBonus (h : Follows es bs) (htime : ∀ e ∈ es, e.buff.isShield = false → e.isLast = false)
    (stat : StatType) :
    bs.statBonus stat = wrap16 ((es.filter Entry.inEffect).map fun e => e.buff.statBonus stat).sum := by
  have hsum : (bs.map fun b => b.statBonus stat).sum =
      ((es.filter Entry.inEffect).map fun e => e.buff.statBonus stat).sum :=
    calc (bs.map fun b => b.statBonus stat).sum
      _ = ((bs.filter (!·.isShield)).map fun b => b.statBonus stat).sum :=
          (sum_filter fun b hb => Buff.statBonus_of_isShield (by simpa using hb) stat).symm
      _ = (((es.filter (!·.buff.isShield)).filter Entry.inEffect).map fun e => e.buff.statBonus stat).sum := by
          rw [h.lasting, List.map_map, filter_isKept fun e he hshield => htime e he (by simpa using hshield)]
          rfl
      _ = (((es.filter Entry.inEffect).filter (!·.buff.isShield)).map fun e => e.buff.statBonus stat).sum := by
          rw [List.filter_filter, List.filter_filter]
          simp only [Bool.and_comm]
      _ = ((es.filter Entry.inEffect).map fun e => e.buff.statBonus stat).sum :=
          sum_filter fun e he => Buff.statBonus_of_isShield (by simpa using he) stat
  rw [BuffList.statBonus, hsum]

end

end Otomai.Combat
