import Otomai.Text.Lines

/-!
# Signed decimal numbers

* `parseSigned_eq_some`: the numerals that are read as a number.
* `numeral_toString`: the usual one is among them.
-/

namespace Text

/-- A decimal number from `-bound` to below `bound`, with an optional sign. -/
def parseSigned (bound : Nat) : List Char → Option Int
  | '-' :: digits =>
    if digits = [] then none else ((digitsValue 0 digits).filter (· ≤ bound)).map fun n : Nat => -(n : Int)
  | s => (parseUnsigned bound s).map fun n : Nat => (n : Int)

/-- A decimal number as it is written, without a plus sign. -/
inductive Numeral (bound : Nat) (v : Int) : List Char → Prop where
  | nonneg {digits : List Char} (hne : digits ≠ []) (hdigits : ∀ c ∈ digits, c.isDigit = true)
      (hv : v = Nat.ofDigitChars 10 digits 0) (hlt : Nat.ofDigitChars 10 digits 0 < bound) : Numeral bound v digits
  | neg {digits : List Char} (hne : digits ≠ []) (hdigits : ∀ c ∈ digits, c.isDigit = true)
      (hv : v = -(Nat.ofDigitChars 10 digits 0 : Nat)) (hle : Nat.ofDigitChars 10 digits 0 ≤ bound) :
    Numeral bound v ('-' :: digits)

variable {bound n v d : Nat} {c : Char} {s : List Char}

theorem digitValue_eq_some : digitValue c = some d ↔ c.isDigit = true ∧ d = c.toNat - '0'.toNat := by
  have hdigit : ('0' ≤ c ∧ c ≤ '9') ↔ c.isDigit = true := by
    simp only [Char.isDigit, Bool.and_eq_true, decide_eq_true_eq]
    exact Iff.rfl
  rw [digitValue]
  by_cases h : '0' ≤ c ∧ c ≤ '9'
  · rw [if_pos h, Option.some.injEq]
    exact ⟨fun hd => ⟨hdigit.1 h, hd.symm⟩, fun hd => hd.2.symm⟩
  · rw [if_neg h]
    constructor
    · intro hd
      cases hd
    · exact fun hd => absurd (hdigit.2 hd.1) h

theorem digitsValue_eq_some :
    digitsValue n s = some v ↔ (∀ c ∈ s, c.isDigit = true) ∧ v = Nat.ofDigitChars 10 s n := by
  induction s generalizing n with
  | nil =>
    rw [digitsValue, Nat.ofDigitChars_nil, Option.some.injEq]
    exact ⟨fun h => ⟨fun c hc => absurd hc List.not_mem_nil, h.symm⟩, fun h => h.2.symm⟩
  | cons c s ih =>
    rw [digitsValue, Nat.ofDigitChars_cons, List.forall_mem_cons]
    cases hc : digitValue c with
    | none =>
      have hnot : c.isDigit ≠ true := by
        intro h
        rw [digitValue_eq_some.2 ⟨h, rfl⟩] at hc
        cases hc
      constructor
      · intro h
        cases h
      · exact fun h => absurd h.1.1 hnot
    | some d =>
      obtain ⟨hdigit, rfl⟩ := digitValue_eq_some.1 hc
      dsimp only
      rw [ih]
      exact ⟨fun h => ⟨⟨hdigit, h.1⟩, h.2⟩, fun h => ⟨h.1.2, h.2⟩⟩

theorem parseUnsigned_eq_some (hplus : '+' ∉ s) :
    parseUnsigned bound s = some v ↔
      s ≠ [] ∧ (∀ c ∈ s, c.isDigit = true) ∧ v = Nat.ofDigitChars 10 s 0 ∧ v < bound := by
  cases s with
  | nil =>
    constructor
    · intro h
      cases h
    · exact fun h => absurd rfl h.1
  | cons c s =>
    have hstrip : stripPrefix ['+'] (c :: s) = none := by
      rw [stripPrefix, if_neg]
      rintro ⟨t, ht⟩
      rw [List.singleton_append, List.cons.injEq] at ht
      exact hplus (ht.1 ▸ List.mem_cons_self)
    have hparse : parseUnsigned bound (c :: s) = (digitsValue 0 (c :: s)).filter (· < bound) := by
      simp only [parseUnsigned, hstrip]
    rw [hparse, Option.filter_eq_some_iff, digitsValue_eq_some, decide_eq_true_eq]
    constructor
    · exact fun h => ⟨List.cons_ne_nil c s, h.1.1, h.1.2, h.2⟩
    · exact fun h => ⟨⟨h.2.1, h.2.2.1⟩, h.2.2.2⟩

/-- Without a plus sign, what is read as a number is a numeral of it. -/
theorem parseSigned_eq_some {v : Int} (hplus : '+' ∉ s) : parseSigned bound s = some v ↔ Numeral bound v s := by
  by_cases hminus : ∃ digits, s = '-' :: digits
  · obtain ⟨digits, rfl⟩ := hminus
    rw [parseSigned]
    by_cases hne : digits = []
    · rw [if_pos hne]
      constructor
      · intro h
        cases h
      · intro h
        cases h with
        | nonneg _ hdigits _ _ => exact absurd (hdigits '-' List.mem_cons_self) (by decide)
        | neg hne' _ _ _ => exact absurd hne hne'
    · rw [if_neg hne, Option.map_eq_some_iff]
      constructor
      · rintro ⟨n, hn, rfl⟩
        rw [Option.filter_eq_some_iff, digitsValue_eq_some, decide_eq_true_eq] at hn
        obtain ⟨⟨hdigits, rfl⟩, hle⟩ := hn
        exact .neg hne hdigits rfl hle
      · intro h
        cases h with
        | nonneg _ hdigits _ _ => exact absurd (hdigits '-' List.mem_cons_self) (by decide)
        | neg _ hdigits hv hle =>
          refine ⟨Nat.ofDigitChars 10 digits 0, ?_, hv.symm⟩
          rw [Option.filter_eq_some_iff, digitsValue_eq_some, decide_eq_true_eq]
          exact ⟨⟨hdigits, rfl⟩, hle⟩
  · have hparse : parseSigned bound s = (parseUnsigned bound s).map fun n : Nat => (n : Int) := by
      rw [parseSigned]
      exact fun digits h => hminus ⟨digits, h⟩
    rw [hparse, Option.map_eq_some_iff]
    constructor
    · rintro ⟨n, hn, rfl⟩
      obtain ⟨hne, hdigits, rfl, hlt⟩ := (parseUnsigned_eq_some hplus).1 hn
      exact .nonneg hne hdigits rfl hlt
    · intro h
      cases h with
      | nonneg hne hdigits hv hlt =>
        exact ⟨Nat.ofDigitChars 10 s 0, (parseUnsigned_eq_some hplus).2 ⟨hne, hdigits, rfl, hlt⟩, hv.symm⟩
      | neg _ _ _ _ => exact absurd ⟨_, rfl⟩ hminus

/-- The usual numeral of a number. -/
theorem numeral_toString {v : Int} (hlow : -(bound : Int) ≤ v) (hhigh : v < bound) :
    Numeral bound v (toString v).toList := by
  have hdigits (n : Nat) : ∀ c ∈ Nat.toDigits 10 n, c.isDigit = true :=
    fun c hc => Nat.isDigit_of_mem_toDigits (by decide) (by decide) hc
  cases v with
  | ofNat n =>
    have htext : (toString (Int.ofNat n)).toList = Nat.toDigits 10 n := Nat.toList_repr
    have hvalue : Nat.ofDigitChars 10 (Nat.toDigits 10 n) 0 = n := Nat.ofDigitChars_ten_toDigits
    rw [htext]
    refine .nonneg Nat.toDigits_ne_nil (hdigits n) ?_ ?_
    · rw [hvalue]
      rfl
    · rw [hvalue]
      exact Int.ofNat_lt.1 hhigh
  | negSucc n =>
    have htext : (toString (Int.negSucc n)).toList = '-' :: Nat.toDigits 10 (n + 1) := by
      change ("-" ++ Nat.repr (n + 1)).toList = _
      rw [String.toList_append, Nat.toList_repr]
      rfl
    have hvalue : Nat.ofDigitChars 10 (Nat.toDigits 10 (n + 1)) 0 = n + 1 := Nat.ofDigitChars_ten_toDigits
    rw [htext]
    refine .neg Nat.toDigits_ne_nil (hdigits (n + 1)) ?_ ?_
    · rw [hvalue]
      rfl
    · rw [hvalue]
      omega

end Text
