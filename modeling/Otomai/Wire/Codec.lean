import Otomai.Wire.Ends

/-!
# Codecs

A reader and a writer that belong together: what is written of the values in `P` is read back, and only values in `P`
are ever read.  So a value comes back if and only if it is in `P`.

* `Codes.field`, `Codes.last`: a structure is coded field by field.
* `Codes.replicate`: a list.
* `decode_iff`: which values come back from the bytes that were written of them.
-/

namespace Wire

variable {ε α β : Type}

/-- Values in `P` are read back where they were written, and what is read is in `P`. -/
structure Codes (r : Reader ε α) (w : α → List UInt8) (P : α → Prop) : Prop where
  reads : ∀ v, P v → Reads r (w v) v
  holds : ∀ c v c', r c = .ok (v, c') → P v

namespace Codes

variable {r : Reader ε α} {w : α → List UInt8} {P : α → Prop}

theorem of_iff {Q : α → Prop} (h : Codes r w P) (hP : ∀ v, P v ↔ Q v) : Codes r w Q where
  reads v hv := h.reads v ((hP v).2 hv)
  holds c v c' hr := (hP v).1 (h.holds c v c' hr)

theorem of_eq {w' : α → List UInt8} (h : Codes r w P) (hw : ∀ v, w v = w' v) : Codes r w' P where
  reads v hv := hw v ▸ h.reads v hv
  holds := h.holds

/-- The next field of a structure of which `E` is known, and the fields behind it. -/
theorem field {k : α → Reader ε β} {w' : β → List UInt8} {E Q : β → Prop} (proj : β → α) (h : Codes r w P)
    (hk : ∀ a, Codes (k a) w' fun v => (E v ∧ proj v = a) ∧ Q v) :
    Codes (r >>= k) (fun v => w (proj v) ++ w' v) fun v => E v ∧ P (proj v) ∧ Q v where
  reads v hv := (h.reads (proj v) hv.2.1).bind ((hk (proj v)).reads v ⟨⟨hv.1, rfl⟩, hv.2.2⟩)
  holds c v c' hr := by
    obtain ⟨⟨a, d⟩, ha, hr⟩ := Outcome.bind_eq_ok.1 hr
    obtain ⟨⟨hE, rfl⟩, hQ⟩ := (hk a).holds d v c' hr
    exact ⟨hE, h.holds c _ d ha, hQ⟩

/-- The last field of a structure, which is put together from all of them. -/
theorem last {f : α → β} {E : β → Prop} (proj : β → α) (h : Codes r w P) (hf : ∀ a v, E v ∧ proj v = a ↔ v = f a) :
    Codes (r >>= fun a => pure (f a)) (fun v => w (proj v)) fun v => E v ∧ P (proj v) where
  reads v hv := by
    have hv' : v = f (proj v) := (hf (proj v) v).1 ⟨hv.1, rfl⟩
    refine (h.reads (proj v) hv.2).map ?_
    rw [← hv']
    exact Reads.pure v
  holds c v c' hr := by
    obtain ⟨⟨a, d⟩, ha, hr⟩ := Outcome.bind_eq_ok.1 hr
    obtain ⟨rfl, -⟩ := Prod.mk.inj (Outcome.ok.inj hr)
    obtain ⟨hE, hproj⟩ := (hf a (f a)).2 rfl
    exact ⟨hE, hproj.symm ▸ h.holds c a d ha⟩

/-- Nothing is written of what is known. -/
theorem known (u : α) : Codes (pure u : Reader ε α) (fun _ => []) (· = u) where
  reads _ hv := hv ▸ Reads.pure u
  holds _ _ _ hr := (Prod.mk.inj (Outcome.ok.inj hr)).1.symm

/-- Bytes that are always the same. -/
theorem skip {w₀ : List UInt8} {a : β} {r₀ : Reader ε β} (hr₀ : Reads r₀ w₀ a) (h : Codes r w P) :
    Codes (r₀ >>= fun _ => r) (fun v => w₀ ++ w v) P where
  reads v hv := hr₀.bind (h.reads v hv)
  holds c v c' hr := by
    obtain ⟨⟨_, d⟩, -, hr⟩ := Outcome.bind_eq_ok.1 hr
    exact h.holds d v c' hr

theorem replicate (h : Codes r w P) (n : Nat) :
    Codes (Reader.replicate r n) (List.flatMap w) fun vs => vs.length = n ∧ ∀ v ∈ vs, P v where
  reads vs hvs := by
    obtain ⟨rfl, hall⟩ := hvs
    exact Reads.replicate vs fun v hv => h.reads v (hall v hv)
  holds := by
    induction n with
    | zero =>
      intro c vs c' hr
      obtain ⟨rfl, -⟩ := Prod.mk.inj (Outcome.ok.inj hr)
      exact ⟨rfl, fun v hv => absurd hv List.not_mem_nil⟩
    | succ n ih =>
      intro c vs c' hr
      obtain ⟨⟨a, d⟩, ha, hr⟩ := Outcome.bind_eq_ok.1 hr
      obtain ⟨⟨as, d'⟩, has, hr⟩ := Outcome.bind_eq_ok.1 hr
      obtain ⟨rfl, -⟩ := Prod.mk.inj (Outcome.ok.inj hr)
      obtain ⟨hlen, hall⟩ := ih d as d' has
      exact ⟨congrArg (· + 1) hlen, List.forall_mem_cons.2 ⟨h.holds c a d ha, hall⟩⟩

end Codes

/-- The value that a reader finds in some bytes if it takes all of them. -/
def Reader.decode (r : Reader ε α) (data : List UInt8) : Option α :=
  match r (.ofBytes data) with
  | .ok (v, c) => if c.unread = [] then some v else none
  | _ => none

/-- A value comes back from the bytes that were written of it if and only if it is one of those that are coded. -/
theorem Codes.decode_iff {r : Reader ε α} {w : α → List UInt8} {P : α → Prop} (h : Codes r w P) {v : α} :
    r.decode (w v) = some v ↔ P v := by
  unfold Reader.decode
  constructor
  · intro hdecode
    split at hdecode
    · next u c hr =>
      split at hdecode
      · obtain rfl := Option.some.inj hdecode
        exact h.holds _ _ _ hr
      · cases hdecode
    · cases hdecode
  · intro hv
    have hr := h.reads v hv 0 []
    rw [List.append_nil] at hr
    rw [Cursor.ofBytes, hr]
    rfl

end Wire
