import Otomai.Combat.History

/-!
# Automatic play

A fighter that is not a player attacks the nearest player, whatever its team, and pays for a move that it does not
make.

* `foldlM_nearer_iff`, `Fight.nearestPlayer_iff`: the target is the first of the players at the least distance.
* `monsterAttack_fair_iff`: exactly when the attack is fair, that is, when it hits an enemy from an adjacent cell, and
  the movement points it spends are those of a move.
-/

namespace Otomai.Combat

open Machine Otomai.Common Trace Program

/-! ### The nearest player -/

/-- A fighter is the first one of a list at the least distance from a cell. -/
structure Nearest (cell : Nat) (fs : List Fighter) (f : Fighter) (d : Nat) : Prop where
  first : fs.find? (fun g => distance cell (asU16 g.cellId) = some d) = some f
  least : ∀ g ∈ fs, ∃ e, distance cell (asU16 g.cellId) = some e ∧ d ≤ e

namespace Nearest

variable {cell d : Nat} {fs : List Fighter} {f g : Fighter}

theorem not_nil : ¬Nearest cell [] f d := fun h => nomatch h.first

theorem distance_eq (h : Nearest cell fs f d) : distance cell (asU16 f.cellId) = some d := by
  simpa using List.find?_some h.first

/-- Behind a nearer fighter, or one as near, nobody is nearest. -/
theorem skip_second {e d₀ : Nat} (hf : distance cell (asU16 f.cellId) = some d₀)
    (hg : distance cell (asU16 g.cellId) = some e) (hle : d₀ ≤ e) {h : Fighter} :
    Nearest cell (f :: g :: fs) h d ↔ Nearest cell (f :: fs) h d := by
  have hfind : d ≤ d₀ → (f :: g :: fs).find? (fun g => distance cell (asU16 g.cellId) = some d) =
      (f :: fs).find? (fun g => distance cell (asU16 g.cellId) = some d) := by
    intro hd
    by_cases heq : d₀ = d
    · simp [hf, heq]
    · have hne : e ≠ d := by omega
      simp [hf, hg, heq, hne]
  constructor
  · rintro ⟨hfirst, hleast⟩
    obtain ⟨d₁, hd₁, hle₁⟩ := hleast f List.mem_cons_self
    rw [hf, Option.some.injEq] at hd₁
    subst hd₁
    refine ⟨hfind hle₁ ▸ hfirst, fun k hk => hleast k ?_⟩
    rcases List.mem_cons.1 hk with rfl | hk
    · exact List.mem_cons_self
    · exact List.mem_cons_of_mem _ (List.mem_cons_of_mem _ hk)
  · rintro ⟨hfirst, hleast⟩
    obtain ⟨d₁, hd₁, hle₁⟩ := hleast f List.mem_cons_self
    rw [hf, Option.some.injEq] at hd₁
    subst hd₁
    refine ⟨(hfind hle₁).trans hfirst, fun k hk => ?_⟩
    rcases List.mem_cons.1 hk with rfl | hk
    · exact ⟨d₀, hf, hle₁⟩
    rcases List.mem_cons.1 hk with rfl | hk
    · exact ⟨e, hg, hle₁.trans hle⟩
    · exact hleast k (List.mem_cons_of_mem _ hk)

/-- A fighter that is farther away than a later one is not nearest. -/
theorem skip_first {e d₀ : Nat} (hf : distance cell (asU16 f.cellId) = some d₀)
    (hg : distance cell (asU16 g.cellId) = some e) (hlt : e < d₀) {h : Fighter} :
    Nearest cell (f :: g :: fs) h d ↔ Nearest cell (g :: fs) h d := by
  have hfind : d ≤ e → (f :: g :: fs).find? (fun g => distance cell (asU16 g.cellId) = some d) =
      (g :: fs).find? (fun g => distance cell (asU16 g.cellId) = some d) := by
    intro hd
    have hne : d₀ ≠ d := by omega
    rw [List.find?_cons_of_neg (by simp [hf, hne])]
  constructor
  · rintro ⟨hfirst, hleast⟩
    obtain ⟨e₁, he₁, hle₁⟩ := hleast g (List.mem_cons_of_mem _ List.mem_cons_self)
    rw [hg, Option.some.injEq] at he₁
    subst he₁
    exact ⟨hfind hle₁ ▸ hfirst, fun k hk => hleast k (List.mem_cons_of_mem _ hk)⟩
  · rintro ⟨hfirst, hleast⟩
    obtain ⟨e₁, he₁, hle₁⟩ := hleast g List.mem_cons_self
    rw [hg, Option.some.injEq] at he₁
    subst he₁
    refine ⟨(hfind hle₁).trans hfirst, fun k hk => ?_⟩
    rcases List.mem_cons.1 hk with rfl | hk
    · exact ⟨d₀, hf, by omega⟩
    · exact hleast k hk

end Nearest

/-- The loop keeps the first one at the least distance. -/
theorem foldlM_nearer_iff {cell : Nat} {fs : List Fighter} {f g : Fighter} {d₀ d : Nat}
    (hf : distance cell (asU16 f.cellId) = some d₀) :
    fs.foldlM (nearer cell) (some (f, d₀)) = some (some (g, d)) ↔ Nearest cell (f :: fs) g d := by
  induction fs generalizing f d₀ with
  | nil =>
    constructor
    · intro h
      simp only [List.foldlM_nil, Option.pure_def, Option.some.injEq, Prod.mk.injEq] at h
      obtain ⟨rfl, rfl⟩ := h
      exact ⟨by simp [hf], fun k hk => ⟨d₀, by rw [List.mem_singleton.1 hk]; exact hf, le_rfl⟩⟩
    · intro h
      obtain ⟨hfind, hd⟩ := List.find?_eq_some_iff_append.1 h.first
      have hmem := List.mem_singleton.1 (List.mem_of_find?_eq_some h.first)
      have hdist := h.distance_eq
      rw [hmem, hf, Option.some.injEq] at hdist
      rw [hmem, hdist]
      rfl
  | cons k fs ih =>
    rw [List.foldlM_cons, nearer]
    cases hk : distance cell (asU16 k.cellId) with
    | none =>
      refine iff_of_false (by rintro ⟨⟩) fun h => ?_
      obtain ⟨e, he, -⟩ := h.least k (List.mem_cons_of_mem _ List.mem_cons_self)
      rw [hk] at he
      cases he
    | some e =>
      simp only [Option.map_some, Option.bind_eq_bind, Option.bind_some]
      split
      · rename_i hlt
        exact (ih hk).trans (Nearest.skip_first hf hk hlt).symm
      · rename_i hle
        exact (ih hf).trans (Nearest.skip_second hf hk (Nat.le_of_not_lt hle)).symm

/-- The players that are alive. -/
def Fight.playersAlive (s : Fight) : List Fighter := s.fighters.filter fun f => f.isPlayer && f.isAlive

/-- The target is the first of the players at the least distance. -/
theorem Fight.nearestPlayer_iff {s : Fight} {cell : Nat} {f : Fighter} :
    s.nearestPlayer cell = some (some f) ↔ ∃ d, Nearest cell s.playersAlive f d := by
  have hfold : s.nearestPlayer cell = some (some f) ↔
      ∃ d, s.playersAlive.foldlM (nearer cell) none = some (some (f, d)) := by
    constructor
    · intro h
      obtain ⟨best, hbest, hmap⟩ := Option.map_eq_some_iff.1 h
      obtain ⟨⟨g, d⟩, rfl, rfl⟩ := Option.map_eq_some_iff.1 hmap
      exact ⟨d, hbest⟩
    · rintro ⟨d, h⟩
      exact Option.map_eq_some_iff.2 ⟨some (f, d), h, rfl⟩
  rw [hfold]
  refine exists_congr fun d => ?_
  cases s.playersAlive with
  | nil => exact iff_of_false (by rintro ⟨⟩) Nearest.not_nil
  | cons g fs =>
    rw [List.foldlM_cons, nearer]
    cases hg : distance cell (asU16 g.cellId) with
    | none =>
      refine iff_of_false (by rintro ⟨⟩) fun h => ?_
      obtain ⟨e, he, -⟩ := h.least g List.mem_cons_self
      rw [hg] at he
      cases he
    | some e => exact foldlM_nearer_iff hg

/-! ### The attack -/

/-- Movement points are spent on a move to another cell within them; a hit is on an enemy alive, from an adjacent
cell. -/
def FairPlay (s : Fight) : Action → Prop
  | .update (.spendMovement mpUsed) =>
    ∃ m ∈ s.currentFighter, mpUsed ≤ m.movementPoints ∧
      ∃ m' ∈ (s.apply (.spendMovement mpUsed)).currentFighter,
        ∃ moved ∈ distance (asU16 m.cellId) (asU16 m'.cellId), 0 < moved ∧ moved ≤ mpUsed
  | .update (.hit targetId _) =>
    ∃ m ∈ s.currentFighter, ∃ t ∈ s.getFighter targetId,
      t.isAlive = true ∧ t.team ≠ m.team ∧ distance (asU16 m.cellId) (asU16 t.cellId) = some 1
  | _ => True

instance (s : Fight) (a : Action) : Decidable (FairPlay s a) := by
  delta FairPlay
  induction a using Action.casesOn with
  | update u => induction u using Update.casesOn <;> infer_instance
  | _ => infer_instance

/-- Whoever plays by itself is so near to its target that it does not move, or cannot move; and its target cannot be
hurt, or is an enemy alive in an adjacent cell. -/
def Fight.FairlyMatched (s : Fight) : Prop :=
  ∀ m ∈ s.currentFighter, m.isPlayer = false → ∀ f d, Nearest (asU16 m.cellId) s.playersAlive f d →
    (d ≤ 1 ∨ m.movementPoints ≤ 0) ∧ ∀ t ∈ s.getFighter f.id, t.isInvulnerable = true ∨
      t.isAlive = true ∧ t.team ≠ m.team ∧ distance (asU16 m.cellId) (asU16 t.cellId) = some 1

theorem distance_self {a d : Nat} (h : distance a a = some d) : d = 0 := by
  unfold distance at h
  cases ha : cellCoord a with
  | none => simp [ha] at h
  | some ca =>
    simp only [ha, Option.bind_eq_bind, Option.bind_some, sub_self, Int.natAbs_zero, add_zero, Option.pure_def,
      Option.some.injEq] at h
    exact h.symm

/-- The movement points are spent, and the cell stays the same. -/
theorem not_fairPlay_spendMovement {s : Fight} {mpUsed : Int} : ¬FairPlay s (.update (.spendMovement mpUsed)) := by
  rintro ⟨m, hm, -, m', hm', moved, hmoved, hpos, -⟩
  have hcurrent := s.currentFighter_modifyCurrent (·.spend mpUsed)
  have hsame : m' = m.spend mpUsed := by
    rw [hm] at hcurrent
    exact Option.some.inj ((hm'.symm.trans hcurrent))
  subst hsame
  have hzero := distance_self hmoved
  omega

/-- What `apply_damage` does is fair if its target cannot be hurt, or is a fair one. -/
theorem applyDamage_fair_iff {s : Fight} {m f : Fighter} {sourceId damage : Int} {element : Element}
    (hm : s.currentFighter = some m) :
    Along FairPlay s (applyDamage sourceId f.id damage element s).trace ↔
      ∀ t ∈ s.getFighter f.id, t.isInvulnerable = true ∨
        t.isAlive = true ∧ t.team ≠ m.team ∧ distance (asU16 m.cellId) (asU16 t.cellId) = some 1 := by
  unfold applyDamage
  rw [get_bind_run]
  cases ht : s.getFighter f.id with
  | none => exact iff_of_true trivial fun t h => nomatch h
  | some t =>
    simp only [Option.mem_def, Option.some.injEq, forall_eq']
    cases hvulnerable : t.isInvulnerable with
    | true => exact iff_of_true trivial (.inl rfl)
    | false =>
      simp only [Bool.false_eq_true, if_false, false_or, update, perform_bind_run, along_cons]
      have hhit : FairPlay s (.update (.hit f.id (max damage 0))) ↔
          t.isAlive = true ∧ t.team ≠ m.team ∧ distance (asU16 m.cellId) (asU16 t.cellId) = some 1 := by
        simp only [FairPlay, hm, ht, Option.mem_def, Option.some.injEq, exists_eq_left']
      rw [hhit]
      refine and_iff_left ?_
      rw [get_bind_run]
      simp only [send, perform_bind_run, along_cons]
      refine ⟨trivial, ?_⟩
      cases (((act s (Action.update (.hit f.id (max damage 0)))).getFighter f.id).any (!·.isAlive)) with
      | true => exact ⟨trivial, trivial⟩
      | false => trivial

/-- What follows an attack is no part of it. -/
theorem attack_fair_iff {s : Fight} {m f : Fighter} {damage : Int} (hm : s.currentFighter = some m) :
    Along FairPlay s ((do
      send (.sequenceStart 1 m.id)
      perform (Action.autoAttack m.id f.id)
      let _ ← applyDamage m.id f.id damage .neutral
      send (.sequenceEnd 300 m.id 1)) s).trace ↔
      ∀ t ∈ s.getFighter f.id, t.isInvulnerable = true ∨
        t.isAlive = true ∧ t.team ≠ m.team ∧ distance (asU16 m.cellId) (asU16 t.cellId) = some 1 := by
  simp only [send, perform_bind_run, along_cons, act_send, act_autoAttack]
  refine (and_iff_right trivial).trans ((and_iff_right trivial).trans ?_)
  rw [← @applyDamage_fair_iff _ _ _ m.id damage .neutral hm]
  constructor
  · exact fun h => (along_bind h).1
  · intro h
    rw [bind_run]
    cases hend : (applyDamage m.id f.id damage .neutral s).ending with
    | value died => exact along_append.2 ⟨h, trivial, trivial⟩
    | panic => exact h
    | exhausted => exact h

/-- Automatic play is fair exactly if whoever plays is fairly matched. -/
theorem monsterAttack_fair_iff (s : Fight) : Along FairPlay s (monsterAttack s).trace ↔ s.FairlyMatched := by
  unfold monsterAttack Fight.FairlyMatched
  rw [get_bind_run]
  cases hm : s.currentFighter with
  | none => exact iff_of_true trivial (by rintro m ⟨⟩)
  | some m =>
    simp only [Option.mem_def, Option.some.injEq, forall_eq']
    cases hplayer : m.isPlayer with
    | true => exact iff_of_true trivial (by rintro ⟨⟩)
    | false =>
      simp only [Bool.false_eq_true, if_false, true_implies]
      cases hnearest : s.nearestPlayer (asU16 m.cellId) with
      | none =>
        refine iff_of_true trivial fun f d h => ?_
        have htarget := Fight.nearestPlayer_iff.2 ⟨d, h⟩
        rw [hnearest] at htarget
        cases htarget
      | some target =>
        cases target with
        | none =>
          refine iff_of_true trivial fun f d h => ?_
          have htarget := Fight.nearestPlayer_iff.2 ⟨d, h⟩
          rw [hnearest] at htarget
          cases htarget
        | some f =>
          obtain ⟨d, hd⟩ := Fight.nearestPlayer_iff.1 hnearest
          have honly : ∀ f' d', Nearest (asU16 m.cellId) s.playersAlive f' d' → f' = f ∧ d' = d := by
            intro f' d' h
            have htarget := Fight.nearestPlayer_iff.2 ⟨d', h⟩
            rw [hnearest, Option.some.injEq, Option.some.injEq] at htarget
            subst htarget
            have hdist := h.distance_eq
            rw [hd.distance_eq, Option.some.injEq] at hdist
            exact ⟨rfl, hdist.symm⟩
          simp only [ofOption_some, pure_bind_run, hd.distance_eq]
          have hlt := distance_lt hd.distance_eq
          have hmatched : (∀ f' d', Nearest (asU16 m.cellId) s.playersAlive f' d' →
              (d' ≤ 1 ∨ m.movementPoints ≤ 0) ∧ ∀ t ∈ s.getFighter f'.id, t.isInvulnerable = true ∨
                t.isAlive = true ∧ t.team ≠ m.team ∧ distance (asU16 m.cellId) (asU16 t.cellId) = some 1) ↔
              (d ≤ 1 ∨ m.movementPoints ≤ 0) ∧ ∀ t ∈ s.getFighter f.id, t.isInvulnerable = true ∨
                t.isAlive = true ∧ t.team ≠ m.team ∧ distance (asU16 m.cellId) (asU16 t.cellId) = some 1 := by
            constructor
            · exact fun h => h f d hd
            · intro h f' d' h'
              obtain ⟨rfl, rfl⟩ := honly f' d' h'
              exact h
          refine Iff.trans ?_ hmatched.symm
          by_cases hfar : 1 < d ∧ 0 < m.movementPoints
          · refine iff_of_false (fun h => ?_) fun h => ?_
            · rw [when, if_pos hfar] at h
              exact not_fairPlay_spendMovement h.1
            · rcases h.1 with h | h <;> omega
          · have hnear : d ≤ 1 ∨ m.movementPoints ≤ 0 := by omega
            rw [when, if_neg hfar, pure_bind_run, and_iff_right hnear]
            exact attack_fair_iff hm

/-- The turn of a novice's summon that stands next to it. -/
def summonsTurn : Fight :=
  let s := startPveFight (fun _ => none) .novice 0 0 0
  after s [.update (.setPhase .fighting), .update (.summon 1 (s.summoned 1 294 1 1)), .update .advanceTurn,
    .update .advanceTurn]

/-- The novice's summon attacks it. -/
theorem monsterAttack_unfair : ¬∀ s, Along FairPlay s (monsterAttack s).trace := by
  intro h
  have hsummon : ¬Along FairPlay summonsTurn (monsterAttack summonsTurn).trace := by decide +kernel
  exact hsummon (h summonsTurn)

end Otomai.Combat
