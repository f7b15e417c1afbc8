import Mathlib.Data.List.TakeWhile
import Otomai.Text.Search

/-!
# Lines, words and numbers

`lines`, `trim`, `split` and the slices next to the last occurrence of a character, as the string functions of those
names compute them, and decimal numbers.
-/

namespace Text

/-! ### White space -/

/-- The characters with the Unicode property `White_Space`. -/
def isWhitespace (c : Char) : Bool :=
  (9 ≤ c.toNat && c.toNat ≤ 13) || c.toNat == 0x20 || c.toNat == 0x85 || c.toNat == 0xA0 || c.toNat == 0x1680 ||
    (0x2000 ≤ c.toNat && c.toNat ≤ 0x200A) || c.toNat == 0x2028 || c.toNat == 0x2029 || c.toNat == 0x202F ||
    c.toNat == 0x205F || c.toNat == 0x3000

def trim (s : List Char) : List Char := ((s.dropWhile isWhitespace).reverse.dropWhile isWhitespace).reverse

private theorem dropWhile_of_head {l : List Char} (h : ∀ c, l.head? = some c → isWhitespace c = false) :
    l.dropWhile isWhitespace = l := by
  cases l with
  | nil => rfl
  | cons c l => rw [List.dropWhile_cons_of_neg (by simp [h c rfl])]

/-- Text that neither starts nor ends with white space is what is left of it between white space. -/
theorem trim_append {x l y : List Char} (hx : ∀ c ∈ x, isWhitespace c = true) (hy : ∀ c ∈ y, isWhitespace c = true)
    (hhead : ∀ c, l.head? = some c → isWhitespace c = false)
    (hlast : ∀ c, l.getLast? = some c → isWhitespace c = false) : trim (x ++ (l ++ y)) = l := by
  have hback : l.reverse.dropWhile isWhitespace = l.reverse :=
    dropWhile_of_head fun c hc => hlast c (by rwa [List.head?_reverse] at hc)
  have hy' : ∀ c ∈ y.reverse, isWhitespace c = true := fun c hc => hy c (List.mem_reverse.1 hc)
  rw [trim, List.dropWhile_append_of_pos hx]
  cases l with
  | nil =>
    have : y.dropWhile isWhitespace = [] := by simpa using @List.dropWhile_append_of_pos _ _ y [] hy
    rw [List.nil_append, this]
    rfl
  | cons c l =>
    rw [dropWhile_of_head (l := c :: l ++ y) hhead, List.reverse_append, List.dropWhile_append_of_pos hy', hback,
      List.reverse_reverse]

theorem trim_append_left {x l : List Char} (hx : ∀ c ∈ x, isWhitespace c = true)
    (hhead : ∀ c, l.head? = some c → isWhitespace c = false)
    (hlast : ∀ c, l.getLast? = some c → isWhitespace c = false) : trim (x ++ l) = l := by
  have h := trim_append (y := []) hx (by simp) hhead hlast
  rwa [List.append_nil] at h

theorem trim_whitespace {x : List Char} (hx : ∀ c ∈ x, isWhitespace c = true) : trim x = [] := by
  simpa using trim_append_left (l := []) hx (by simp) (by simp)

theorem trim_of_forall {l : List Char} (h : ∀ c ∈ l, isWhitespace c = false) : trim l = l :=
  trim_append_left (x := []) (by simp) (fun c hc => h c (List.mem_of_mem_head? hc))
    fun c hc => h c (List.mem_of_getLast? hc)

theorem head_trim {s : List Char} {c : Char} (h : (trim s).head? = some c) : isWhitespace c = false := by
  have hprefix : trim s <+: s.dropWhile isWhitespace := by
    have hsuffix := List.dropWhile_suffix isWhitespace (l := (s.dropWhile isWhitespace).reverse)
    rw [← List.reverse_prefix, List.reverse_reverse] at hsuffix
    exact hsuffix
  have hnot := List.head?_dropWhile_not isWhitespace s
  obtain ⟨u, hu⟩ := hprefix
  rw [← hu, List.head?_append, h] at hnot
  simpa using hnot

/-! ### Lines -/

/-- A line without the carriage return of its line ending. -/
def stripCr (line : List Char) : List Char :=
  match line.getLast? with
  | some '\r' => line.dropLast
  | _ => line

/-- The lines of a text of which `line` was already read. -/
def linesFrom (line : List Char) : List Char → List (List Char)
  | [] => if line = [] then [] else [line]
  | c :: s => if c = '\n' then stripCr line :: linesFrom [] s else linesFrom (line ++ [c]) s

def lines (s : List Char) : List (List Char) := linesFrom [] s

/-- The text that has the given lines. -/
def joinLines (ls : List (List Char)) : List Char := ls.flatMap fun l => l ++ ['\n']

theorem joinLines_append (ls ls' : List (List Char)) : joinLines (ls ++ ls') = joinLines ls ++ joinLines ls' :=
  List.flatMap_append

private theorem linesFrom_append {x : List Char} (h : '\n' ∉ x) (line t : List Char) :
    linesFrom line (x ++ t) = linesFrom (line ++ x) t := by
  induction x generalizing line with
  | nil => simp
  | cons c x ih =>
    have hc : c ≠ '\n' := fun e => h (e ▸ List.mem_cons_self ..)
    rw [List.cons_append, linesFrom, if_neg hc, ih fun hx => h (List.mem_cons_of_mem _ hx)]
    simp

theorem lines_cons {x : List Char} (h : '\n' ∉ x) (t : List Char) :
    lines (x ++ '\n' :: t) = stripCr x :: lines t := by
  rw [lines, linesFrom_append h, List.nil_append, linesFrom, if_pos rfl]
  rfl

theorem lines_last {x : List Char} (h : '\n' ∉ x) : lines x = if x = [] then [] else [x] := by
  have := linesFrom_append h [] []
  rw [List.append_nil, List.nil_append, linesFrom] at this
  exact this

theorem lines_joinLines {ls : List (List Char)} (h : ∀ l ∈ ls, '\n' ∉ l) (t : List Char) :
    lines (joinLines ls ++ t) = ls.map stripCr ++ lines t := by
  induction ls with
  | nil => rfl
  | cons l ls ih =>
    have hl := h l (List.mem_cons_self ..)
    have hls := ih fun m hm => h m (List.mem_cons_of_mem _ hm)
    have hsplit : joinLines (l :: ls) ++ t = l ++ '\n' :: (joinLines ls ++ t) := by simp [joinLines]
    rw [hsplit, lines_cons hl, hls]
    rfl

/-- A carriage return is white space, so trimmed lines do not show it. -/
theorem trim_stripCr (l : List Char) : trim (stripCr l) = trim l := by
  unfold stripCr
  split
  · rename_i h
    obtain ⟨x, rfl⟩ := List.getLast?_eq_some_iff.1 h
    rw [List.dropLast_concat]
    by_cases hx : ∀ c ∈ x, isWhitespace c = true
    · have hall : ∀ c ∈ x ++ ['\r'], isWhitespace c = true := by
        intro c hc
        rcases List.mem_append.1 hc with hc | hc
        · exact hx c hc
        · rw [List.mem_singleton.1 hc]
          decide
      rw [trim_whitespace hx, trim_whitespace hall]
    · have hdrop : (x ++ ['\r']).dropWhile isWhitespace = x.dropWhile isWhitespace ++ ['\r'] := by
        rw [List.dropWhile_append, if_neg]
        intro hnil
        apply hx
        rw [List.isEmpty_iff, List.dropWhile_eq_nil_iff] at hnil
        exact hnil
      rw [trim, trim, hdrop, List.reverse_append, List.reverse_singleton, List.singleton_append,
        List.dropWhile_cons_of_pos (by decide)]
  · rfl

/-- A pattern that no line of a text has is searched after it. -/
theorem cut_joinLines {p : List Char} (hp : '\n' ∉ p) (hne : p ≠ []) {ls : List (List Char)}
    (h : ∀ l ∈ ls, contains p l = false) (t : List Char) :
    cut p (joinLines ls ++ t) = (cut p t).map fun y => (joinLines ls ++ y.1, y.2) := by
  induction ls with
  | nil =>
    show cut p t = (cut p t).map id
    rw [Option.map_id_fun, id]
  | cons l ls ih =>
    have hsplit (u : List Char) : joinLines (l :: ls) ++ u = l ++ '\n' :: (joinLines ls ++ u) := by simp [joinLines]
    rw [hsplit, cut_separated hp hne (h l (List.mem_cons_self ..)), ih fun m hm => h m (List.mem_cons_of_mem _ hm),
      Option.map_map]
    refine congrArg (fun f => Option.map f (cut p t)) (funext fun y => ?_)
    rw [hsplit]
    rfl

/-! ### Parts -/

/-- What stands between the occurrences of a character. -/
def split (c : Char) : List Char → List (List Char)
  | [] => [[]]
  | d :: s =>
    if d = c then [] :: split c s
    else match split c s with
      | [] => [[d]]
      | w :: ws => (d :: w) :: ws

theorem split_of_not_mem {c : Char} {x : List Char} (h : c ∉ x) : split c x = [x] := by
  induction x with
  | nil => rfl
  | cons d x ih =>
    have hd : d ≠ c := fun e => h (e ▸ List.mem_cons_self ..)
    rw [split, if_neg hd, ih fun hx => h (List.mem_cons_of_mem _ hx)]

theorem split_cons {c : Char} {x : List Char} (h : c ∉ x) (t : List Char) :
    split c (x ++ c :: t) = x :: split c t := by
  induction x with
  | nil => rw [List.nil_append, split, if_pos rfl]
  | cons d x ih =>
    have hd : d ≠ c := fun e => h (e ▸ List.mem_cons_self ..)
    rw [List.cons_append, split, if_neg hd, ih fun hx => h (List.mem_cons_of_mem _ hx)]

/-- What stands before the last occurrence of a character, and what follows it. -/
def cutLast (c : Char) (s : List Char) : Option (List Char × List Char) :=
  match cut [c] s.reverse with
  | some (after, before) => some (before.reverse, after.reverse)
  | none => none

theorem cutLast_append {c : Char} (x : List Char) {t : List Char} (ht : c ∉ t) :
    cutLast c (x ++ c :: t) = some (x, t) := by
  have hrev : (x ++ c :: t).reverse = t.reverse ++ c :: x.reverse := by simp
  rw [cutLast, hrev, cut_char (by simpa using ht)]
  simp

theorem eq_of_cutLast {c : Char} {s x t : List Char} (h : cutLast c s = some (x, t)) : s = x ++ c :: t := by
  unfold cutLast at h
  cases hcut : cut [c] s.reverse with
  | none =>
    rw [hcut] at h
    cases h
  | some y =>
    rw [hcut] at h
    obtain ⟨rfl, rfl⟩ := Prod.mk.inj (Option.some.inj h)
    rw [← List.reverse_reverse s, eq_of_cut hcut]
    simp

/-! ### Prefixes and suffixes -/

/-- What follows the prefix `p`. -/
def stripPrefix (p s : List Char) : Option (List Char) := if p <+: s then some (s.drop p.length) else none

@[simp] theorem stripPrefix_append (p s : List Char) : stripPrefix p (p ++ s) = some s := by
  rw [stripPrefix, if_pos (List.prefix_append ..), List.drop_left]

/-! ### Numbers -/

def digitValue (c : Char) : Option Nat := if '0' ≤ c ∧ c ≤ '9' then some (c.toNat - '0'.toNat) else none

def digitsValue (n : Nat) : List Char → Option Nat
  | [] => some n
  | c :: s => match digitValue c with
    | some d => digitsValue (10 * n + d) s
    | none => none

/-- A decimal number below `bound`, with an optional plus sign. -/
def parseUnsigned (bound : Nat) (s : List Char) : Option Nat :=
  match stripPrefix ['+'] s, s with
  | _, [] => none
  | some [], _ => none
  | some digits, _ => (digitsValue 0 digits).filter (· < bound)
  | none, digits => (digitsValue 0 digits).filter (· < bound)

end Text
