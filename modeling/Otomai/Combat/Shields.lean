import Otomai.Combat.Change

/-!
# Shields

A fighter has shields among its buffs, and a number of shield points of its own.

* `ShieldLaw`: what the shields take of a damage, and in which order (`shieldLaw`).
* `shields_accounted`: when the shield points are those of the shields.
-/

namespace Otomai.Combat

open Machine Otomai.Common Trace Program

/-- A sum to which the elements that are left out contribute nothing. -/
theorem sum_filter {α : Type} {l : List α} {p : α → Bool} {v : α → Int} (h : ∀ a, p a = false → v a = 0) :
    ((l.filter p).map v).sum = (l.map v).sum := by
  induction l with
  | nil => rfl
  | cons a l ih =>
    rw [List.filter_cons, List.map_cons, List.sum_cons, ← ih]
    cases hp : p a with
    | true => rfl
    | false => simp [h a hp]

theorem Buff.statBonus_of_isShield {b : Buff} (h : b.isShield = true) (stat : StatType) : b.statBonus stat = 0 := by
  have hshield : b.effectType = .shield := by simpa [Buff.isShield] using h
  simp [Buff.statBonus, hshield]

namespace BuffList

variable (buffs : BuffList)

/-- What the shields are worth. -/
def shieldTotal : Int := ((buffs.filter Buff.isShield).map Buff.value).sum

/-- No shield holds a negative value. -/
def ShieldsFit : Prop := ∀ b ∈ buffs, b.isShield = true → 0 ≤ b.value ∧ b.value < 2147483648

/-- The shields that expire when the buffs are ticked. -/
def expiring : BuffList := buffs.filter fun b => b.remainingTurns ≤ 1

/-- What the shields do to a damage: they take what they are worth, the first ones first, and only shields change. -/
structure ShieldLaw (damage : Int) : Prop where
  returns : buffs.absorbShield damage = max 0 (damage - buffs.shieldTotal)
  leaves : shieldTotal (buffs.afterShield damage) = max 0 (buffs.shieldTotal - damage)
  order : ∀ before rest : BuffList, buffs = before ++ rest →
    buffs.afterShield damage = before.afterShield damage ++ rest.afterShield (max 0 (damage - before.shieldTotal))
  drain : ∀ b ∈ buffs, b.isShield = true → ∀ left, 0 ≤ left →
    afterShield [b] left = if left < b.value then [{ b with value := b.value - left }] else []
  others : (buffs.afterShield damage).filter (!·.isShield) = buffs.filter (!·.isShield)

variable {buffs}

theorem shieldPoints_eq : buffs.shieldPoints = wrap32 buffs.shieldTotal := rfl

@[simp] theorem shieldTotal_nil : shieldTotal [] = 0 := rfl

theorem shieldTotal_cons (b : Buff) (bs : BuffList) :
    shieldTotal (b :: bs) = (if b.isShield then b.value else 0) + shieldTotal bs := by
  unfold shieldTotal
  cases hb : b.isShield <;> simp [hb]

theorem shieldTotal_append (xs ys : BuffList) : shieldTotal (xs ++ ys) = shieldTotal xs + shieldTotal ys := by
  simp [shieldTotal]

theorem ShieldsFit.nil : ShieldsFit [] := by
  intro b hb
  cases hb

theorem shieldsFit_cons {b : Buff} {bs : BuffList} :
    ShieldsFit (b :: bs) ↔ (b.isShield = true → 0 ≤ b.value ∧ b.value < 2147483648) ∧ ShieldsFit bs :=
  List.forall_mem_cons

theorem shieldTotal_nonneg (h : buffs.ShieldsFit) : 0 ≤ buffs.shieldTotal := by
  induction buffs with
  | nil => exact le_rfl
  | cons b bs ih =>
    obtain ⟨hb, hbs⟩ := shieldsFit_cons.1 h
    have hrest := ih hbs
    rw [shieldTotal_cons]
    split
    · have hvalue := hb ‹_›
      omega
    · omega

/-! ### The loop -/

theorem absorbLoop_append (xs ys : BuffList) (n : Int) :
    absorbLoop (xs ++ ys) n =
      ((absorbLoop xs n).1 ++ (absorbLoop ys (absorbLoop xs n).2).1, (absorbLoop ys (absorbLoop xs n).2).2) := by
  induction xs generalizing n with
  | nil => rfl
  | cons b bs ih =>
    rw [List.cons_append, absorbLoop, absorbLoop]
    split
    · simp only [ih, List.cons_append]
    · simp only [ih, List.cons_append]

/-- Whatever the damage is, the loop leaves no negative shield. -/
theorem absorbLoop_fit (h : buffs.ShieldsFit) (n : Int) : (absorbLoop buffs n).1.ShieldsFit := by
  induction buffs generalizing n with
  | nil => exact h
  | cons b bs ih =>
    obtain ⟨hb, hbs⟩ := shieldsFit_cons.1 h
    rw [absorbLoop]
    split
    · rename_i hdrain
      have hvalue := hb hdrain.1
      refine shieldsFit_cons.2 ⟨fun _ => ?_, ih hbs _⟩
      have habsorbed : 0 ≤ b.value - min n b.value ∧ b.value - min n b.value < 2147483648 := by omega
      dsimp only
      rw [wrap32_of_range (by omega) habsorbed.2]
      exact habsorbed
    · exact shieldsFit_cons.2 ⟨hb, ih hbs _⟩

/-- The loop hands on the damage that the shields are not worth. -/
theorem absorbLoop_left (h : buffs.ShieldsFit) {n : Int} (hn : 0 ≤ n) (hlt : n < 2147483648) :
    (absorbLoop buffs n).2 = max 0 (n - buffs.shieldTotal) := by
  induction buffs generalizing n with
  | nil =>
    rw [absorbLoop, shieldTotal_nil]
    omega
  | cons b bs ih =>
    obtain ⟨hb, hbs⟩ := shieldsFit_cons.1 h
    have htotal := shieldTotal_nonneg hbs
    rw [absorbLoop, shieldTotal_cons]
    split
    · rename_i hdrain
      have hvalue := hb hdrain.1
      dsimp only
      rw [wrap32_of_range (by omega) (by omega), ih hbs (by omega) (by omega), if_pos hdrain.1]
      omega
    · rename_i hskip
      dsimp only
      rw [ih hbs hn hlt]
      split
      · -- a shield is passed over only when no damage is left
        have hvalue := hb ‹_›
        have hzero : n = 0 := le_antisymm (not_lt.1 fun hpos => hskip ⟨‹_›, hpos⟩) hn
        omega
      · omega

theorem absorbLoop_total (h : buffs.ShieldsFit) {n : Int} (hn : 0 ≤ n) (hlt : n < 2147483648) :
    shieldTotal (absorbLoop buffs n).1 = max 0 (buffs.shieldTotal - n) := by
  induction buffs generalizing n with
  | nil =>
    rw [absorbLoop, shieldTotal_nil]
    omega
  | cons b bs ih =>
    obtain ⟨hb, hbs⟩ := shieldsFit_cons.1 h
    have htotal := shieldTotal_nonneg hbs
    rw [absorbLoop, shieldTotal_cons]
    split
    · rename_i hdrain
      have hvalue := hb hdrain.1
      dsimp only
      rw [shieldTotal_cons, wrap32_of_range (x := n - min n b.value) (by omega) (by omega),
        ih hbs (by omega) (by omega), if_pos hdrain.1]
      have hshield : ({ b with value := wrap32 (b.value - min n b.value) } : Buff).isShield = true := hdrain.1
      rw [if_pos hshield]
      dsimp only
      rw [wrap32_of_range (by omega) (by omega)]
      omega
    · rename_i hskip
      dsimp only
      rw [shieldTotal_cons, ih hbs hn hlt]
      split
      · have hvalue := hb ‹_›
        have hzero : n = 0 := le_antisymm (not_lt.1 fun hpos => hskip ⟨‹_›, hpos⟩) hn
        omega
      · omega

theorem absorbLoop_others (n : Int) : (absorbLoop buffs n).1.filter (!·.isShield) = buffs.filter (!·.isShield) := by
  induction buffs generalizing n with
  | nil => rfl
  | cons b bs ih =>
    rw [absorbLoop]
    split
    · rename_i hdrain
      have hshield : ({ b with value := wrap32 (b.value - min n b.value) } : Buff).isShield = true := hdrain.1
      rw [List.filter_cons_of_neg (by simp [hshield]), List.filter_cons_of_neg (by simp [hdrain.1]), ih]
    · rw [List.filter_cons, List.filter_cons, ih]

/-! ### After the loop -/

theorem mem_afterShield {n : Int} {b : Buff} (h : b ∈ buffs.afterShield n) : b ∈ (absorbLoop buffs n).1 :=
  (List.mem_filter.1 h).1

theorem afterShield_fit (h : buffs.ShieldsFit) (n : Int) : (buffs.afterShield n).ShieldsFit :=
  fun b hb => absorbLoop_fit h n b (mem_afterShield hb)

/-- The loop changes nothing of a buff but its value. -/
theorem mem_absorbLoop {n : Int} {b : Buff} (h : b ∈ (absorbLoop buffs n).1) :
    ∃ c ∈ buffs, b = { c with value := b.value } := by
  induction buffs generalizing n with
  | nil => cases h
  | cons c bs ih =>
    rw [absorbLoop] at h
    split at h
    · rcases List.mem_cons.1 h with rfl | hrest
      · exact ⟨c, List.mem_cons_self, rfl⟩
      · obtain ⟨d, hd, hsame⟩ := ih hrest
        exact ⟨d, List.mem_cons_of_mem c hd, hsame⟩
    · rcases List.mem_cons.1 h with rfl | hrest
      · exact ⟨b, List.mem_cons_self, rfl⟩
      · obtain ⟨d, hd, hsame⟩ := ih hrest
        exact ⟨d, List.mem_cons_of_mem c hd, hsame⟩

/-- The shields that are removed are worth nothing. -/
theorem shieldTotal_filter (h : buffs.ShieldsFit) :
    shieldTotal (buffs.filter fun b => !b.isShield || 0 < b.value) = buffs.shieldTotal := by
  induction buffs with
  | nil => rfl
  | cons b bs ih =>
    obtain ⟨hb, hbs⟩ := shieldsFit_cons.1 h
    rw [shieldTotal_cons, List.filter_cons]
    split
    · rw [shieldTotal_cons, ih hbs]
    · rename_i hremoved
      have hshield : b.isShield = true := by
        by_contra hnot
        exact hremoved (by simp [hnot])
      have hdepleted : ¬0 < b.value := fun hpos => hremoved (by simp [hpos])
      have hvalue := hb hshield
      rw [if_pos hshield, ih hbs]
      omega

theorem afterShield_others (n : Int) : (buffs.afterShield n).filter (!·.isShield) = buffs.filter (!·.isShield) :=
  calc (buffs.afterShield n).filter (!·.isShield)
    _ = (absorbLoop buffs n).1.filter (!·.isShield) := by
        rw [afterShield, List.filter_filter]
        refine List.filter_congr fun b _ => ?_
        cases b.isShield <;> simp
    _ = buffs.filter (!·.isShield) := absorbLoop_others n

/-- A sum over the buffs to which shields contribute nothing. -/
theorem sum_afterShield {v : Buff → Int} (hv : ∀ b, b.isShield = true → v b = 0) (n : Int) :
    ((buffs.afterShield n).map v).sum = (buffs.map v).sum :=
  calc ((buffs.afterShield n).map v).sum
    _ = (((buffs.afterShield n).filter (!·.isShield)).map v).sum :=
        (sum_filter fun b hb => hv b (by simpa using hb)).symm
    _ = ((buffs.filter (!·.isShield)).map v).sum := by rw [afterShield_others]
    _ = (buffs.map v).sum := sum_filter fun b hb => hv b (by simpa using hb)

/-- A shield takes what is left, or is removed. -/
theorem afterShield_singleton {b : Buff} (hshield : b.isShield = true) (hb : 0 ≤ b.value ∧ b.value < 2147483648)
    {left : Int} (hleft : 0 ≤ left) :
    afterShield [b] left = if left < b.value then [{ b with value := b.value - left }] else [] := by
  have hloop : (absorbLoop [b] left).1 = [{ b with value := b.value - min left b.value }] := by
    rw [absorbLoop]
    split
    · dsimp only
      rw [wrap32_of_range (x := b.value - min left b.value) (by omega) (by omega), absorbLoop]
    · rename_i hskip
      have hzero : left = 0 := le_antisymm (not_lt.1 fun hpos => hskip ⟨hshield, hpos⟩) hleft
      have hnone : b.value - min left b.value = b.value := by omega
      rw [hnone, absorbLoop]
  have hsame : ({ b with value := b.value - min left b.value } : Buff).isShield = true := hshield
  rw [afterShield, hloop]
  split
  · rw [List.filter_cons_of_pos (by simp; omega), List.filter_nil, min_eq_left (by omega)]
  · rw [List.filter_cons_of_neg (by simp [hsame]; omega), List.filter_nil]

theorem shieldLaw (h : buffs.ShieldsFit) {n : Int} (hn : 0 ≤ n) (hlt : n < 2147483648) : buffs.ShieldLaw n where
  returns := absorbLoop_left h hn hlt
  leaves := (shieldTotal_filter (absorbLoop_fit h n)).trans (absorbLoop_total h hn hlt)
  order := by
    rintro before rest rfl
    have hbefore : ShieldsFit before := fun b hb => h b (List.mem_append_left rest hb)
    rw [afterShield, absorbLoop_append, List.filter_append, absorbLoop_left hbefore hn hlt]
    rfl
  drain b hb hshield _ hleft := afterShield_singleton hshield (h b hb hshield) hleft
  others := afterShield_others n

/-! ### Ticks -/

theorem isShield_map_tick (bs : BuffList) :
    shieldTotal (bs.map fun b => { b with remainingTurns := b.remainingTurns - 1 }) = shieldTotal bs := by
  induction bs with
  | nil => rfl
  | cons b bs ih =>
    rw [List.map_cons, shieldTotal_cons, shieldTotal_cons, ih]
    rfl

/-- A tick takes away what the shields are worth that expire. -/
theorem shieldTotal_tick : shieldTotal buffs.tick = buffs.shieldTotal - shieldTotal buffs.expiring := by
  rw [tick, isShield_map_tick]
  induction buffs with
  | nil => rfl
  | cons b bs ih =>
    rw [expiring, List.filter_cons, List.filter_cons, shieldTotal_cons b bs]
    by_cases hlast : b.remainingTurns ≤ 1
    · have hout : ¬1 < b.remainingTurns := not_lt.2 hlast
      simp only [hlast, hout, decide_true, decide_false, if_true, Bool.false_eq_true, if_false, shieldTotal_cons, ih,
        expiring]
      omega
    · have hin : 1 < b.remainingTurns := not_le.1 hlast
      simp only [hlast, hin, decide_true, decide_false, if_true, Bool.false_eq_true, if_false, shieldTotal_cons, ih,
        expiring]
      omega

theorem tick_fit (h : buffs.ShieldsFit) : buffs.tick.ShieldsFit := by
  intro b hb hshield
  obtain ⟨c, hc, rfl⟩ := List.mem_map.1 hb
  exact h c (List.mem_filter.1 hc).1 hshield

end BuffList

/-! ### Fighters -/

namespace Fighter

/-- The shield points are those of the shields, none of which is negative. -/
def ShieldsAccounted (f : Fighter) : Prop := f.shieldPoints = f.buffs.shieldPoints ∧ f.buffs.ShieldsFit

theorem ShieldsAccounted.hit {f : Fighter} (h : f.ShieldsAccounted) (damage : Int) :
    (f.hit damage).ShieldsAccounted :=
  ⟨rfl, BuffList.afterShield_fit h.2 damage⟩

/-- A buff that is no shield counts for nothing. -/
theorem ShieldsAccounted.addBuff {f : Fighter} (h : f.ShieldsAccounted) {b : Buff} (hb : b.isShield = false) :
    (f.addBuff b).ShieldsAccounted := by
  refine ⟨?_, ?_⟩
  · have hpoints := h.1
    simp only [BuffList.shieldPoints_eq] at hpoints
    simp only [Fighter.addBuff, BuffList.shieldPoints_eq, BuffList.shieldTotal_append, BuffList.shieldTotal_cons,
      BuffList.shieldTotal_nil, hb, Bool.false_eq_true, if_false, add_zero, hpoints]
  · intro c hc hshield
    rcases List.mem_append.1 hc with hmem | hmem
    · exact h.2 c hmem hshield
    · rw [List.mem_singleton.1 hmem, hb] at hshield
      cases hshield

/-- The two writes of a shield effect. -/
theorem ShieldsAccounted.shield {f : Fighter} (h : f.ShieldsAccounted) {b : Buff} (hshield : b.isShield = true)
    (hb : 0 ≤ b.value ∧ b.value < 2147483648) : ((f.addShield b.value).addBuff b).ShieldsAccounted := by
  refine ⟨?_, ?_⟩
  · have hpoints := h.1
    simp only [BuffList.shieldPoints_eq] at hpoints
    simp only [Fighter.addBuff, Fighter.addShield, BuffList.shieldPoints_eq, BuffList.shieldTotal_append,
      BuffList.shieldTotal_cons, BuffList.shieldTotal_nil, hshield, if_true, hpoints]
    unfold wrap32
    omega
  · intro c hc hshield
    rcases List.mem_append.1 hc with hmem | hmem
    · exact h.2 c hmem hshield
    · rw [List.mem_singleton.1 hmem]
      exact hb

theorem ShieldsAccounted.tick {f : Fighter} (h : f.ShieldsAccounted) (hexpiring : f.buffs.expiring.shieldPoints = 0) :
    f.tickBuffs.ShieldsAccounted := by
  refine ⟨?_, BuffList.tick_fit h.2⟩
  have hpoints := h.1
  simp only [Fighter.tickBuffs, BuffList.shieldPoints_eq, BuffList.shieldTotal_tick] at hpoints hexpiring ⊢
  rw [hpoints]
  unfold wrap32 at hexpiring ⊢
  omega

end Fighter

/-! ### The fight -/

/-- The steps at which the shields stay accounted for: no shield is worth less than nothing when it is added, and the
shields that expire at the start of a turn are worth nothing. -/
def ShieldsLast (s : Fight) : Action → Prop
  | .update (.addBuff _ b) => b.isShield = true → 0 ≤ b.value ∧ b.value < 2147483648
  | .update .tickBuffs => ∀ f ∈ s.currentFighter, f.buffs.expiring.shieldPoints = 0
  | _ => True

instance (s : Fight) (a : Action) : Decidable (ShieldsLast s a) := by
  delta ShieldsLast
  induction a using Action.casesOn with
  | update u => induction u using Update.casesOn <;> infer_instance
  | _ => infer_instance

/-- Every fighter's shield points are those of its shields, and its shields take any damage by the law. -/
def Fight.ShieldsHold (s : Fight) : Prop :=
  ∀ f ∈ s.fighters, f.ShieldsAccounted ∧ ∀ damage, 0 ≤ damage → damage < 2147483648 → f.buffs.ShieldLaw damage

/-- The shields hold, except between the two writes of a shield effect. -/
def ShieldsHoldBetween (s : Fight) : Action → Prop
  | .update (.addBuff _ b) => b.isShield = false → s.ShieldsHold
  | _ => s.ShieldsHold

theorem Fight.shieldsHold_iff {s : Fight} : s.ShieldsHold ↔ ∀ f ∈ s.fighters, f.ShieldsAccounted :=
  ⟨fun h f hf => (h f hf).1, fun h f hf => ⟨h f hf, fun _ hn hlt => BuffList.shieldLaw (h f hf).2 hn hlt⟩⟩

theorem Fight.ShieldsHold.between {s : Fight} (h : s.ShieldsHold) (a : Action) : ShieldsHoldBetween s a := by
  unfold ShieldsHoldBetween
  split
  · exact fun _ => h
  · exact h

theorem Changed.shieldsAccounted {s : Fight} {u : Update} {f f' : Fighter} (h : Changed s u f f')
    (hu : u.isShielding = false) (hlast : ShieldsLast s (.update u)) (hf : f.ShieldsAccounted) :
    f'.ShieldsAccounted := by
  cases h with
  | hit _ => exact hf.hit _
  | addShield _ => cases hu
  | addBuff _ => exact hf.addBuff hu
  | tickBuffs hcurrent => exact hf.tick (hlast f hcurrent)
  | _ => exact hf

/-- The action is no write to a shield. -/
def IsUnshielding : Action → Prop
  | .update u => u.isShielding = false
  | _ => True

/-- A block is the one of a shield effect, or does not write to shields. -/
theorem Block.shielding {s : Fight} {b : List Action} (h : Block s b) :
    (∃ targetId buff, buff.isShield = true ∧
      b = [.update (.addShield targetId buff.value), .update (.addBuff targetId buff)]) ∨
      Along (fun _ a => IsUnshielding a) s b := by
  have heffect {b : List Action} (h : Effect s b) :
      (∃ targetId buff, buff.isShield = true ∧
        b = [.update (.addShield targetId buff.value), .update (.addBuff targetId buff)]) ∨
        Along (fun _ a => IsUnshielding a) s b := by
    cases h with
    | shield hb => exact .inl ⟨_, _, hb, rfl⟩
    | quiet _ hu _ => exact .inr ⟨hu, trivial⟩
    | hit _ _ _ => exact .inr (by split <;> simp [IsUnshielding, Update.isShielding])
    | heal _ => exact .inr (by split <;> simp [IsUnshielding, Update.isShielding])
    | _ => exact .inr (by simp [IsUnshielding, Update.isShielding])
  cases h with
  | spell h =>
    cases h with
    | effect h => exact heffect h
    | summon _ _ _ _ => exact .inr ⟨rfl, trivial, trivial, trivial⟩
  | turn h =>
    cases h with
    | effect h => exact heffect h
    | tick hu => exact .inr (by rcases Update.eq_of_isTick hu with rfl | rfl <;> exact ⟨rfl, trivial⟩)
    | _ => exact .inr (by simp [IsUnshielding, Update.isShielding])
  | _ => exact .inr (by simp [IsUnshielding, Update.isShielding])

/-- A block leaves the shields accounted for. -/
theorem Block.shieldsHold {s : Fight} {b : List Action} (h : Block s b) (hlast : Along ShieldsLast s b)
    (hs : s.ShieldsHold) : Along ShieldsHoldBetween s b ∧ (after s b).ShieldsHold := by
  rcases h.shielding with ⟨targetId, buff, hshield, rfl⟩ | hunshielding
  · obtain ⟨-, hvalue, -⟩ := hlast
    refine ⟨⟨hs, fun hnot => ?_, trivial⟩, Fight.shieldsHold_iff.2 fun f' hf' => ?_⟩
    · rw [hshield] at hnot
      cases hnot
    · -- both writes find the same fighter
      have hboth : (after s [.update (.addShield targetId buff.value), .update (.addBuff targetId buff)]).fighters =
          modifyFirst (·.id = targetId) (fun f => (f.addShield buff.value).addBuff buff) s.fighters :=
        modifyFirst_modifyFirst fun _ => rfl
      rw [hboth] at hf'
      rcases mem_modifyFirst hf' with hmem | ⟨f, hf, rfl⟩
      · exact (hs f' hmem).1
      · exact (hs f (List.mem_of_find?_eq_some hf)).1.shield hshield (hvalue hshield)
  · have hsteps := (h.mayWrite.and hunshielding).and hlast
    have hrun := hsteps.invariant (I := Fight.ShieldsHold) (fun s a hs ha => ?_) hs
    · exact ⟨hrun.1.imp fun s a hs => hs.between a, hrun.2⟩
    · obtain ⟨⟨hwrite, hu⟩, hlast⟩ := ha
      cases a with
      | update u =>
        refine Fight.shieldsHold_iff.2 fun f' hf' => ?_
        rcases Fight.mem_apply hf' with hmem | ⟨f, hmem, hchanged⟩ | ⟨casterId, rfl⟩
        · exact (hs f' hmem).1
        · exact hchanged.shieldsAccounted hu hlast (hs f hmem).1
        · cases hwrite with
          | summon _ _ _ => exact ⟨rfl, .nil⟩
          | quiet hquiet => cases hquiet
      | _ => exact hs

theorem startPveFight_shieldsHold {maps : Int → Option MapData} (c : Character) (mapId : Int)
    (nextMarkId drawn : Nat) : (startPveFight maps c mapId nextMarkId drawn).ShieldsHold := by
  refine Fight.shieldsHold_iff.2 fun f hf => ?_
  simp only [startPveFight, List.mem_cons, List.not_mem_nil, or_false] at hf
  rcases hf with rfl | rfl
  · exact ⟨rfl, .nil⟩
  · exact ⟨rfl, .nil⟩

/-- In a fight whose shields last, the shield points of every fighter are those of its shields all the time. -/
theorem shields_accounted (maps : Int → Option MapData) (n : Nat) (c : Character) (mapId : Int)
    (nextMarkId drawn : Nat) (rs : List Request) :
    let s := startPveFight maps c mapId nextMarkId drawn
    let t := (history maps n c.id rs s).trace
    Along ShieldsLast s t → Along ShieldsHoldBetween s t ∧ (after s t).ShieldsHold := by
  intro s t hlast
  have hcoherent := @startPveFight_coherent maps c mapId nextMarkId drawn
  exact (history_composed rs hcoherent).along_invariant (fun _ _ hs hb hlast => hb.shieldsHold hlast hs) hlast
    (startPveFight_shieldsHold c mapId nextMarkId drawn)

/-- A shield of 100 points for one turn, or for two. -/
def shieldSpell (duration : Int) : SpellData :=
  { SpellData.fallback with apCost := 2, minRange := 0, effects := [⟨1040, 100, 0, duration, .neutral⟩] }

/-- The shield of a novice lasts over the turn of the monster. -/
theorem shields_accounted_novice :
    let s := startPveFight (fun _ => none) .novice 0 0 0
    let t := (history (fun _ => none) 3 1 [.ready true, .cast 1 280 (some (shieldSpell 2)) 0, .turnFinish] s).trace
    Along ShieldsHoldBetween s t ∧ (after s t).ShieldsHold :=
  shields_accounted (fun _ => none) 3 .novice 0 0 0 [.ready true, .cast 1 280 (some (shieldSpell 2)) 0, .turnFinish]
    (by decide +kernel)

/-- A shield that has expired still counts. -/
theorem shield_outlives_buff : ¬∀ (maps : Int → Option MapData) (n : Nat) (c : Character) (mapId : Int)
    (nextMarkId drawn : Nat) (rs : List Request),
    let s := startPveFight maps c mapId nextMarkId drawn
    let t := (history maps n c.id rs s).trace
    Along ShieldsHoldBetween s t ∧ (after s t).ShieldsHold := by
  intro h
  have hend := (h (fun _ => none) 3 .novice 0 0 0 [.ready true, .cast 1 280 (some (shieldSpell 1)) 0, .turnFinish]).2
  have hdiffer : ¬∀ f ∈ (after (startPveFight (fun _ => none) .novice 0 0 0) (history (fun _ => none) 3 1
      [.ready true, .cast 1 280 (some (shieldSpell 1)) 0, .turnFinish]
      (startPveFight (fun _ => none) .novice 0 0 0)).trace).fighters, f.shieldPoints = f.buffs.shieldPoints := by
    decide +kernel
  exact hdiffer fun f hf => (hend f hf).1.1

end Otomai.Combat
