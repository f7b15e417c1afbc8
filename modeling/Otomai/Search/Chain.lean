import Mathlib.Data.Fintype.Card
import Mathlib.Data.Set.Finite.Basic
import Mathlib.Logic.Relation

/-!
# Chains

Each node has at most one successor, and a recursion follows them until there is none.  `follow next n a` is the node
it ends at, within `n` nested calls.

* `follow_iff_acc`: the recursion ends exactly if the node is accessible.
* `follow_iff`: where finitely many nodes have a successor, exactly if it comes to no node that leads back to itself.
-/

namespace Search

open Relation

variable {α : Type}

/-- The second node is the successor of the first one. -/
def Leads (next : α → Option α) (a b : α) : Prop := next a = some b

/-- The node without a successor at the end of the chain. -/
def follow (next : α → Option α) : Nat → α → Option α
  | 0, _ => none
  | n + 1, a => match next a with
    | none => some a
    | some b => follow next n b

section

variable {next : α → Option α} {a b e : α} {n : Nat}

theorem follow_of_none (h : next a = none) (n : Nat) : follow next (n + 1) a = some a := by
  rw [follow, h]

theorem follow_of_some (h : next a = some b) (n : Nat) : follow next (n + 1) a = follow next n b := by
  rw [follow, h]

/-- The recursion ends exactly on the nodes from which every chain is finite. -/
theorem follow_iff_acc : (∃ n e, follow next n a = some e) ↔ Acc (fun b a => Leads next a b) a := by
  constructor
  · rintro ⟨n, e, h⟩
    induction n generalizing a with
    | zero => cases h
    | succ n ih =>
      refine Acc.intro a fun b hb => ?_
      rw [follow_of_some hb] at h
      exact ih h
  · intro h
    induction h with
    | intro a _ ih =>
      cases hnext : next a with
      | none => exact ⟨1, a, follow_of_none hnext 0⟩
      | some b =>
        obtain ⟨n, e, h⟩ := ih b hnext
        exact ⟨n + 1, e, (follow_of_some hnext n).trans h⟩

/-- The node leads to one that leads back to itself. -/
def Loops (next : α → Option α) (a : α) : Prop :=
  ∃ b, ReflTransGen (Leads next) a b ∧ TransGen (Leads next) b b

/-- The node behind one that loops loops as well. -/
theorem loops_next (h : Loops next a) : ∃ b, Leads next a b ∧ Loops next b := by
  obtain ⟨b, hreach, hback⟩ := h
  rcases hreach.cases_head with rfl | ⟨c, hstep, hreach⟩
  · obtain ⟨c, hstep, hreach⟩ := TransGen.head'_iff.1 hback
    exact ⟨c, hstep, a, hreach, hback⟩
  · exact ⟨c, hstep, b, hreach, hback⟩

theorem not_loops_of_acc (h : Acc (fun b a => Leads next a b) a) : ¬Loops next a := by
  induction h with
  | intro a _ ih =>
    intro hloops
    obtain ⟨b, hstep, hb⟩ := loops_next hloops
    exact ih b hstep hb

/-- Where finitely many nodes can be reached, a chain without an end passes a node twice. -/
theorem acc_of_not_loops (nodes : List α) (hnodes : ∀ a b, Leads next a b → a ∈ nodes) (h : ¬Loops next a) :
    Acc (fun b a => Leads next a b) a := by
  let reached := {b : α // ReflTransGen (Leads next) a b ∧ b ∈ nodes}
  have hfinite : Finite reached :=
    ((nodes.finite_toSet).subset fun b hb => hb.2 : {b | ReflTransGen (Leads next) a b ∧ b ∈ nodes}.Finite)
  let below : reached → reached → Prop := fun c b => TransGen (Leads next) b.1 c.1
  have : IsTrans reached below := ⟨fun _ _ _ hcb hdc => hdc.trans hcb⟩
  have : Std.Irrefl below := ⟨fun b hb => h ⟨b.1, b.2.1, hb⟩⟩
  have hwf : WellFounded below := Finite.wellFounded_of_trans_of_irrefl below
  suffices hreached : ∀ b : reached, Acc (fun b a => Leads next a b) b.1 by
    refine Acc.intro a fun b hb => ?_
    by_cases hmem : b ∈ nodes
    · exact hreached ⟨b, .single hb, hmem⟩
    · exact Acc.intro b fun c hc => absurd (hnodes b c hc) hmem
  intro b
  induction b using hwf.induction with
  | _ b ih =>
    refine Acc.intro b.1 fun c hc => ?_
    by_cases hmem : c ∈ nodes
    · exact ih ⟨c, b.2.1.tail hc, hmem⟩ (.single hc)
    · exact Acc.intro c fun d hd => absurd (hnodes c d hd) hmem

/-- The recursion ends exactly if it never comes back to a node. -/
theorem follow_iff (nodes : List α) (hnodes : ∀ a b, Leads next a b → a ∈ nodes) :
    (∃ n e, follow next n a = some e) ↔ ¬Loops next a :=
  follow_iff_acc.trans ⟨not_loops_of_acc, acc_of_not_loops nodes hnodes⟩

theorem follow_of_le {m : Nat} (h : follow next n a = some e) (hm : n ≤ m) : follow next m a = some e := by
  induction n generalizing m a with
  | zero => cases h
  | succ n ih =>
    obtain ⟨m, rfl⟩ := Nat.exists_eq_succ_of_ne_zero (Nat.ne_zero_of_lt hm)
    cases hnext : next a with
    | none =>
      rw [follow_of_none hnext] at h ⊢
      exact h
    | some b =>
      rw [follow_of_some hnext] at h ⊢
      exact ih h (Nat.le_of_succ_le_succ hm)

/-- Where no node loops, some number of nested calls is enough for all of them. -/
theorem exists_follow (nodes : List α) (hnodes : ∀ a b, Leads next a b → a ∈ nodes) (h : ∀ a, ¬Loops next a) :
    ∃ n, ∀ a, ∃ e, follow next n a = some e := by
  have hlist : ∀ l : List α, ∃ n, ∀ a ∈ l, ∃ e, follow next n a = some e := by
    intro l
    induction l with
    | nil => exact ⟨0, fun a ha => absurd ha List.not_mem_nil⟩
    | cons b l ih =>
      obtain ⟨n, hn⟩ := ih
      obtain ⟨m, e, hm⟩ := (follow_iff nodes hnodes).2 (h b)
      refine ⟨max n m, fun a ha => ?_⟩
      rcases List.mem_cons.1 ha with rfl | ha
      · exact ⟨e, follow_of_le hm (Nat.le_max_right n m)⟩
      · obtain ⟨e', he'⟩ := hn a ha
        exact ⟨e', follow_of_le he' (Nat.le_max_left n m)⟩
  obtain ⟨n, hn⟩ := hlist nodes
  refine ⟨n + 1, fun a => ?_⟩
  cases hnext : next a with
  | none => exact ⟨a, follow_of_none hnext n⟩
  | some b =>
    obtain ⟨e, he⟩ := hn a (hnodes a b hnext)
    exact ⟨e, follow_of_le he (Nat.le_succ n)⟩

end

end Search
