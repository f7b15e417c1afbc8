import Mathlib.Algebra.Group.Nat.Defs
import Mathlib.Data.List.Induction
import Mathlib.Logic.Function.Basic

/-!
# The rate limit of logins

`AuthState` counts the calls of each address since the start of its current window.  A check that finds the window
older than sixty seconds starts a new one; a failed login adds one more call to the window, whatever its age.  Times
are nanoseconds, and the counter is a `u32` that wraps around.

The windows of an address follow one another and do not slide with the clock: as many logins as the limit allows can
end one window and as many begin the next.

* `told_windows`: in each window a check is allowed as long as the calls so far, checks and failures alike, are within
  the limit.
* `rateLimit_bounds`: the limit in each window, twice the limit in any sixty seconds, and no address sees the calls of
  another one.
-/

namespace Otomai.Auth

/-- `Duration::from_secs(60)`. -/
def window : Nat := 60 * 1000000000

inductive Call where
  | checkRateLimit
  | recordFailedAttempt
  deriving DecidableEq, Repr

/-- A call for the address `ip` when the clock shows `now`. -/
structure TimedCall (Ip : Type) where
  ip : Ip
  now : Nat
  call : Call
  deriving DecidableEq, Repr

/-- The rate limiting of `AuthState`: for each address the attempts it has made and the start of its window. -/
structure AuthState (Ip : Type) where
  rateLimits : Ip → Option (UInt32 × Nat)
  rateLimitMax : UInt32

namespace AuthState

variable {Ip : Type} [DecidableEq Ip]

def start (rateLimitMax : UInt32) : AuthState Ip := ⟨fun _ => none, rateLimitMax⟩

/-- `limits.entry(ip).or_insert((0, now))`. -/
def entry (s : AuthState Ip) (ip : Ip) (now : Nat) : UInt32 × Nat := (s.rateLimits ip).getD (0, now)

def setEntry (s : AuthState Ip) (ip : Ip) (e : UInt32 × Nat) : AuthState Ip :=
  { s with rateLimits := Function.update s.rateLimits ip (some e) }

/-- Returns true if the request is allowed, false if rate-limited. -/
def checkRateLimit (s : AuthState Ip) (ip : Ip) (now : Nat) : Bool × AuthState Ip :=
  let entry := s.entry ip now
  -- reset the window if it has expired
  let entry := if window < now - entry.2 then (0, now) else entry
  let entry := (entry.1 + 1, entry.2)
  (entry.1 ≤ s.rateLimitMax, s.setEntry ip entry)

def recordFailedAttempt (s : AuthState Ip) (ip : Ip) (now : Nat) : AuthState Ip :=
  let entry := s.entry ip now
  s.setEntry ip (entry.1 + 1, entry.2)

/-- The answer to a call, where a recorded failure allows nothing. -/
def serve (s : AuthState Ip) (c : TimedCall Ip) : Bool × AuthState Ip :=
  match c.call with
  | .checkRateLimit => s.checkRateLimit c.ip c.now
  | .recordFailedAttempt => (false, s.recordFailedAttempt c.ip c.now)

/-- The calls of a run, each with its answer. -/
def answers (s : AuthState Ip) : List (TimedCall Ip) → List (TimedCall Ip × Bool)
  | [] => []
  | c :: cs => (c, (s.serve c).1) :: (s.serve c).2.answers cs

end AuthState

/-! ### Windows -/

section Windows

variable {Ip : Type}

/-- A check later than sixty seconds after the start of the window. -/
def expired (start : Nat) (c : TimedCall Ip) : Bool := c.call = .checkRateLimit ∧ window < c.now - start

/-- The window that started at `start` has seen the calls `w`. -/
def windowsFrom (start : Nat) (w : List (TimedCall Ip × Bool)) :
    List (TimedCall Ip × Bool) → List (List (TimedCall Ip × Bool))
  | [] => [w]
  | x :: xs => if expired start x.1 then w :: windowsFrom x.1.now [x] xs else windowsFrom start (w ++ [x]) xs

/-- The windows of the calls of one address: the first call starts one, and so does each check after sixty seconds. -/
def windows : List (TimedCall Ip × Bool) → List (List (TimedCall Ip × Bool))
  | [] => []
  | x :: xs => windowsFrom x.1.now [x] xs

/-- In a window a check is allowed while the calls so far, itself included, are within the limit. -/
def Told (rateLimitMax : UInt32) (w : List (TimedCall Ip × Bool)) : Prop :=
  ∀ before x after, w = before ++ x :: after →
    (x.2 = true ↔ x.1.call = .checkRateLimit ∧ (before.length + 1) % 2 ^ 32 ≤ rateLimitMax.toNat)

/-- The attempts that were allowed in the sixty seconds from `t` on. -/
def allowedFrom (t : Nat) (xs : List (TimedCall Ip × Bool)) : Nat :=
  xs.countP fun x => t ≤ x.1.now ∧ x.1.now ≤ t + window ∧ x.2 = true

/-- The failures that were recorded in the sixty seconds from `t` on. -/
def failuresFrom (t : Nat) (xs : List (TimedCall Ip × Bool)) : Nat :=
  xs.countP fun x => t ≤ x.1.now ∧ x.1.now ≤ t + window ∧ x.1.call = .recordFailedAttempt

theorem flatten_windowsFrom (start : Nat) (w xs : List (TimedCall Ip × Bool)) :
    (windowsFrom start w xs).flatten = w ++ xs := by
  induction xs generalizing start w with
  | nil => simp [windowsFrom]
  | cons x xs ih =>
    unfold windowsFrom
    by_cases h : expired start x.1 = true
    · simp [h, ih]
    · simp [h, ih]

theorem flatten_windows (xs : List (TimedCall Ip × Bool)) : (windows xs).flatten = xs := by
  cases xs with
  | nil => rfl
  | cons x xs => exact flatten_windowsFrom x.1.now [x] xs

theorem told_append {rateLimitMax : UInt32} {w : List (TimedCall Ip × Bool)} {x : TimedCall Ip × Bool}
    (hw : Told rateLimitMax w)
    (hx : x.2 = true ↔ x.1.call = .checkRateLimit ∧ (w.length + 1) % 2 ^ 32 ≤ rateLimitMax.toNat) :
    Told rateLimitMax (w ++ [x]) := by
  intro before y after h
  cases after using List.reverseRecOn with
  | nil =>
    obtain ⟨rfl, hxy⟩ := List.append_inj' h rfl
    obtain rfl : x = y := List.cons.inj hxy |>.1
    exact hx
  | append_singleton after z =>
    have h' : w ++ [x] = (before ++ y :: after) ++ [z] := by simpa using h
    exact hw before y after (List.append_inj' h' rfl).1

/-- A window allows no more attempts than the limit. -/
theorem countP_of_told {rateLimitMax : UInt32} {w : List (TimedCall Ip × Bool)} (hw : Told rateLimitMax w)
    (hlength : w.length < 2 ^ 32) : w.countP (·.2) ≤ rateLimitMax.toNat := by
  have hlate : (w.drop rateLimitMax.toNat).countP (·.2) = 0 := by
    rw [List.countP_eq_zero]
    intro x hx hallowed
    obtain ⟨before, after, hsplit⟩ := List.append_of_mem hx
    have hw' : w = (w.take rateLimitMax.toNat ++ before) ++ x :: after := by
      rw [List.append_assoc, ← hsplit, List.take_append_drop]
    have hlt := congrArg List.length hw'
    have hdrop := congrArg List.length hsplit
    have hle := ((hw _ x after hw').1 hallowed).2
    simp only [List.length_append, List.length_cons, List.length_take, List.length_drop] at hlt hdrop hle
    rw [Nat.mod_eq_of_lt (by omega)] at hle
    omega
  have hearly := List.countP_le_length (p := (·.2)) (l := w.take rateLimitMax.toNat)
  rw [List.length_take] at hearly
  rw [← List.take_append_drop rateLimitMax.toNat w, List.countP_append, hlate]
  omega

/-! ### Sixty seconds -/

variable {limit t : Nat}

theorem allowedFrom_le (xs : List (TimedCall Ip × Bool)) : allowedFrom t xs ≤ xs.countP (·.2) := by
  refine List.countP_mono_left fun x _ hx => ?_
  simp only [decide_eq_true_eq] at hx
  exact hx.2.2

theorem allowedFrom_eq_zero {xs : List (TimedCall Ip × Bool)} (h : ∀ x ∈ xs, x.1.now < t ∨ t + window < x.1.now) :
    allowedFrom t xs = 0 := by
  refine List.countP_eq_zero.2 fun x hx hallowed => ?_
  simp only [decide_eq_true_eq] at hallowed
  have := h x hx
  omega

/-- Sixty seconds that begin before a window are over before the next one. -/
theorem allowedFrom_early {start : Nat} (ht : t ≤ start) {w xs : List (TimedCall Ip × Bool)}
    (hsorted : (w ++ xs).Pairwise fun x y => x.1.now ≤ y.1.now)
    (hlimit : ∀ w' ∈ windowsFrom start w xs, w'.countP (·.2) ≤ limit) : allowedFrom t (w ++ xs) ≤ limit := by
  induction xs generalizing w with
  | nil =>
    rw [List.append_nil]
    exact Nat.le_trans (allowedFrom_le w) (hlimit w (List.mem_singleton.2 rfl))
  | cons x xs ih =>
    unfold windowsFrom at hlimit
    by_cases hopens : expired start x.1 = true
    · rw [if_pos hopens] at hlimit
      -- the next window opens only after the sixty seconds
      have hlate : allowedFrom t (x :: xs) = 0 := by
        refine allowedFrom_eq_zero fun y hy => .inr ?_
        have hx : window < x.1.now - start := by
          simp only [expired, decide_eq_true_eq] at hopens
          exact hopens.2
        have hxy : x.1.now ≤ y.1.now := by
          have hpairs := List.pairwise_cons.1 (List.pairwise_append.1 hsorted).2.1
          rcases List.mem_cons.1 hy with rfl | hy
          · exact Nat.le_refl _
          · exact hpairs.1 y hy
        omega
      have hfirst := Nat.le_trans (allowedFrom_le w (t := t)) (hlimit w List.mem_cons_self)
      unfold allowedFrom at hlate hfirst ⊢
      rw [List.countP_append]
      omega
    · rw [if_neg hopens] at hlimit
      have happend : w ++ x :: xs = w ++ [x] ++ xs := by simp
      rw [happend] at hsorted ⊢
      exact ih hsorted hlimit

/-- Sixty seconds meet two windows at most. -/
theorem allowedFrom_windows {start : Nat} {w xs : List (TimedCall Ip × Bool)}
    (hsorted : (w ++ xs).Pairwise fun x y => x.1.now ≤ y.1.now)
    (hlimit : ∀ w' ∈ windowsFrom start w xs, w'.countP (·.2) ≤ limit) : allowedFrom t (w ++ xs) ≤ 2 * limit := by
  induction xs generalizing start w with
  | nil =>
    rw [List.append_nil]
    have := Nat.le_trans (allowedFrom_le w (t := t)) (hlimit w (List.mem_singleton.2 rfl))
    omega
  | cons x xs ih =>
    unfold windowsFrom at hlimit
    by_cases hopens : expired start x.1 = true
    · rw [if_pos hopens] at hlimit
      obtain ⟨hfirst, hrest⟩ := List.forall_mem_cons.1 hlimit
      have hsuffix : ([x] ++ xs).Pairwise fun x y => x.1.now ≤ y.1.now := (List.pairwise_append.1 hsorted).2.1
      have hsum : allowedFrom t (w ++ x :: xs) = allowedFrom t w + allowedFrom t ([x] ++ xs) := List.countP_append
      by_cases ht : t ≤ x.1.now
      · have hlast := allowedFrom_early ht hsuffix hrest
        have hw := Nat.le_trans (allowedFrom_le w (t := t)) hfirst
        omega
      · -- the window is over when the sixty seconds begin
        have hw : allowedFrom t w = 0 := by
          refine allowedFrom_eq_zero fun y hy => .inl ?_
          have := (List.pairwise_append.1 hsorted).2.2 y hy x List.mem_cons_self
          omega
        have hlast := ih hsuffix hrest
        omega
    · rw [if_neg hopens] at hlimit
      have happend : w ++ x :: xs = w ++ [x] ++ xs := by simp
      rw [happend] at hsorted ⊢
      exact ih hsorted hlimit

end Windows

/-! ### Runs -/

section Runs

variable {Ip : Type} [DecidableEq Ip] {rateLimitMax : UInt32} {ip : Ip}

/-- The calls of one address with their answers. -/
def own (ip : Ip) (xs : List (TimedCall Ip × Bool)) : List (TimedCall Ip × Bool) := xs.filter fun x => x.1.ip = ip

namespace AuthState

@[simp] theorem rateLimitMax_serve (s : AuthState Ip) (c : TimedCall Ip) :
    (s.serve c).2.rateLimitMax = s.rateLimitMax := by
  unfold serve
  cases c.call with
  | checkRateLimit => rfl
  | recordFailedAttempt => rfl

theorem rateLimits_serve_of_ne {s : AuthState Ip} {c : TimedCall Ip} (h : c.ip ≠ ip) :
    (s.serve c).2.rateLimits ip = s.rateLimits ip := by
  unfold serve
  cases c.call with
  | checkRateLimit => exact Function.update_of_ne (Ne.symm h) _ _
  | recordFailedAttempt => exact Function.update_of_ne (Ne.symm h) _ _

/-- The answer to a call and what it stores depend on the entry of its address. -/
theorem serve_congr {s s' : AuthState Ip} {c : TimedCall Ip} (hmax : s.rateLimitMax = s'.rateLimitMax)
    (hentry : s.rateLimits c.ip = s'.rateLimits c.ip) :
    (s.serve c).1 = (s'.serve c).1 ∧ (s.serve c).2.rateLimits c.ip = (s'.serve c).2.rateLimits c.ip := by
  have he : s.entry c.ip c.now = s'.entry c.ip c.now := by rw [entry, entry, hentry]
  unfold serve
  cases c.call with
  | checkRateLimit => simp [checkRateLimit, setEntry, he, hmax]
  | recordFailedAttempt => simp [recordFailedAttempt, setEntry, he]

theorem own_answers {s s' : AuthState Ip} (hmax : s.rateLimitMax = s'.rateLimitMax)
    (hentry : s.rateLimits ip = s'.rateLimits ip) (cs : List (TimedCall Ip)) :
    own ip (s.answers cs) = s'.answers (cs.filter fun c => c.ip = ip) := by
  induction cs generalizing s s' with
  | nil => rfl
  | cons c cs ih =>
    by_cases h : c.ip = ip
    · subst h
      obtain ⟨hanswer, hstored⟩ := serve_congr hmax hentry
      have hrest := @ih (s.serve c).2 (s'.serve c).2 (by simpa using hmax) hstored
      simp only [own, answers, List.filter_cons, decide_true, if_true] at hrest ⊢
      rw [hanswer, hrest]
    · have hrest := @ih (s.serve c).2 s' (by simpa using hmax)
        ((rateLimits_serve_of_ne h).trans hentry)
      simpa [own, answers, List.filter_cons, h] using hrest

/-- What a call finds in a window of `n` calls, and what it leaves. -/
theorem serve_window {s : AuthState Ip} {c : TimedCall Ip} {n start : Nat}
    (hentry : s.rateLimits c.ip = some (UInt32.ofNat n, start)) :
    let found := if expired start c then (0, c.now) else (n, start)
    ((s.serve c).1 = true ↔ c.call = .checkRateLimit ∧ (found.1 + 1) % 2 ^ 32 ≤ s.rateLimitMax.toNat) ∧
      (s.serve c).2.rateLimits c.ip = some (UInt32.ofNat (found.1 + 1), found.2) := by
  have he : s.entry c.ip c.now = (UInt32.ofNat n, start) := by rw [entry, hentry, Option.getD_some]
  unfold serve
  cases hcall : c.call with
  | checkRateLimit =>
    have hexpired : expired start c = decide (window < c.now - start) := by simp [expired, hcall]
    by_cases hopens : window < c.now - start
    · simp [checkRateLimit, setEntry, he, hexpired, hopens, UInt32.le_iff_toNat_le]
    · simp [checkRateLimit, setEntry, he, hexpired, hopens, UInt32.le_iff_toNat_le]
  | recordFailedAttempt =>
    have hexpired : expired start c = false := by simp [expired, hcall]
    simp [recordFailedAttempt, setEntry, he, hexpired]

theorem told_windowsFrom {s : AuthState Ip} {cs : List (TimedCall Ip)} (hown : ∀ c ∈ cs, c.ip = ip) {start : Nat}
    {w : List (TimedCall Ip × Bool)} (hw : Told s.rateLimitMax w)
    (hentry : s.rateLimits ip = some (UInt32.ofNat w.length, start)) :
    ∀ w' ∈ windowsFrom start w (s.answers cs), Told s.rateLimitMax w' := by
  induction cs generalizing s start w with
  | nil =>
    intro w' hw'
    rw [List.mem_singleton.1 hw']
    exact hw
  | cons c cs ih =>
    obtain ⟨rfl, hrest⟩ := List.forall_mem_cons.1 hown
    obtain ⟨hanswer, hstored⟩ := serve_window hentry
    have hmax := s.rateLimitMax_serve c
    unfold answers windowsFrom
    by_cases hopens : expired start c = true
    · rw [if_pos hopens] at hanswer hstored ⊢
      have hnil : Told s.rateLimitMax ([] : List (TimedCall Ip × Bool)) := by
        intro before x after h
        simp at h
      have hfirst : Told s.rateLimitMax [(c, (s.serve c).1)] := told_append hnil hanswer
      have htail := ih (s := (s.serve c).2) (w := [(c, (s.serve c).1)]) hrest (hmax.symm ▸ hfirst) hstored
      rw [hmax] at htail
      exact List.forall_mem_cons.2 ⟨hw, htail⟩
    · rw [if_neg hopens] at hanswer hstored ⊢
      have htail := ih (s := (s.serve c).2) (w := w ++ [(c, (s.serve c).1)]) hrest
        (hmax.symm ▸ told_append hw hanswer) (by simpa using hstored)
      rwa [hmax] at htail

end AuthState

/-- Every window is told what the limit says of it. -/
theorem told_windows (calls : List (TimedCall Ip)) :
    ∀ w ∈ windows (own ip ((AuthState.start rateLimitMax).answers calls)), Told rateLimitMax w := by
  rw [AuthState.own_answers rfl rfl]
  have hown : ∀ c ∈ calls.filter fun c => c.ip = ip, c.ip = ip := fun c hc => by simpa using (List.mem_filter.1 hc).2
  generalize (calls.filter fun c => c.ip = ip) = cs at hown
  cases cs with
  | nil => exact fun w hw => absurd hw List.not_mem_nil
  | cons c cs =>
    -- an address without an entry is served as one whose window has just started
    obtain ⟨rfl, hrest⟩ := List.forall_mem_cons.1 hown
    have hentry : ((AuthState.start rateLimitMax).setEntry c.ip (0, c.now)).rateLimits c.ip =
        some (UInt32.ofNat 0, c.now) := Function.update_self ..
    have hserve : ((AuthState.start rateLimitMax).setEntry c.ip (0, c.now)).serve c =
        (AuthState.start rateLimitMax).serve c := by
      unfold AuthState.serve
      cases c.call with
      | checkRateLimit => simp [AuthState.checkRateLimit, AuthState.setEntry, AuthState.entry, AuthState.start]
      | recordFailedAttempt =>
        simp [AuthState.recordFailedAttempt, AuthState.setEntry, AuthState.entry, AuthState.start]
    have hfresh : expired c.now c = false := by simp [expired]
    have hserved := AuthState.serve_window hentry
    rw [hfresh, hserve] at hserved
    obtain ⟨hanswer, hstored⟩ := hserved
    have hmax := (AuthState.start rateLimitMax).rateLimitMax_serve c
    have hnil : Told rateLimitMax ([] : List (TimedCall Ip × Bool)) := by
      intro before x after h
      simp at h
    have hfirst : Told rateLimitMax [(c, ((AuthState.start rateLimitMax).serve c).1)] := told_append hnil hanswer
    have htold := AuthState.told_windowsFrom (s := ((AuthState.start rateLimitMax).serve c).2)
      (w := [(c, ((AuthState.start rateLimitMax).serve c).1)]) hrest (hmax.symm ▸ hfirst) hstored
    rwa [hmax] at htold

theorem map_fst_answers (s : AuthState Ip) (calls : List (TimedCall Ip)) :
    (s.answers calls).map Prod.fst = calls := by
  induction calls generalizing s with
  | nil => rfl
  | cons c cs ih => rw [AuthState.answers, List.map_cons, ih]

/-- What the limiter does keep: the answers to an address are those it would get alone; in each of its windows a check
is allowed while the calls so far are within the limit; and unless the counter wraps around, it is allowed the limit
in each window, and twice the limit in any sixty seconds. -/
theorem rateLimit_bounds {calls : List (TimedCall Ip)} (hclock : calls.Pairwise fun c d => c.now ≤ d.now)
    (rateLimitMax : UInt32) (ip : Ip) :
    let log := own ip ((AuthState.start rateLimitMax).answers calls)
    log = (AuthState.start rateLimitMax).answers (calls.filter fun c => c.ip = ip) ∧
      (windows log).flatten = log ∧ (∀ w ∈ windows log, Told rateLimitMax w) ∧
      ((∀ w ∈ windows log, w.length < 2 ^ 32) → (∀ w ∈ windows log, w.countP (·.2) ≤ rateLimitMax.toNat) ∧
        ∀ t, allowedFrom t log ≤ 2 * rateLimitMax.toNat) := by
  intro log
  have htold : ∀ w ∈ windows log, Told rateLimitMax w := told_windows calls
  refine ⟨AuthState.own_answers rfl rfl calls, flatten_windows log, htold, fun hlength => ?_⟩
  have hlimit : ∀ w ∈ windows log, w.countP (·.2) ≤ rateLimitMax.toNat := fun w hw =>
    countP_of_told (htold w hw) (hlength w hw)
  refine ⟨hlimit, fun t => ?_⟩
  have hsorted : log.Pairwise fun x y => x.1.now ≤ y.1.now := by
    refine List.Pairwise.filter _ ?_
    rw [← map_fst_answers (.start rateLimitMax) calls, List.pairwise_map] at hclock
    exact hclock
  cases hlog : log with
  | nil => exact Nat.zero_le _
  | cons x xs =>
    rw [hlog] at hsorted hlimit
    exact allowedFrom_windows (w := [x]) hsorted hlimit

/-- Three logins in three seconds where two are allowed, around the end of a window. -/
def burst : List (TimedCall Nat) :=
  [⟨1, 0, .checkRateLimit⟩, ⟨1, 59000000000, .checkRateLimit⟩, ⟨1, 61000000000, .checkRateLimit⟩,
    ⟨1, 62000000000, .checkRateLimit⟩]

theorem rateLimit_bounds_burst :
    let log := own 1 ((AuthState.start 2).answers burst)
    log = (AuthState.start 2).answers (burst.filter fun c => c.ip = 1) ∧ (windows log).flatten = log ∧
      (∀ w ∈ windows log, Told 2 w) ∧
      ((∀ w ∈ windows log, w.length < 2 ^ 32) → (∀ w ∈ windows log, w.countP (·.2) ≤ (2 : UInt32).toNat) ∧
        ∀ t, allowedFrom t log ≤ 2 * (2 : UInt32).toNat) :=
  rateLimit_bounds (by decide) 2 1

/-- Sixty seconds around the end of a window allow more than the limit. -/
theorem limit_exceeded_around_reset : ¬∀ (rateLimitMax : UInt32) (calls : List (TimedCall Nat)) (ip t : Nat),
    (calls.Pairwise fun c d => c.now ≤ d.now) →
    allowedFrom t (own ip ((AuthState.start rateLimitMax).answers calls)) ≤
      rateLimitMax.toNat - failuresFrom t (own ip ((AuthState.start rateLimitMax).answers calls)) := by
  intro h
  have hburst := h 2 burst 1 59000000000 (by decide)
  have hthree : allowedFrom 59000000000 (own 1 ((AuthState.start 2).answers burst)) = 3 := by decide +kernel
  rw [hthree] at hburst
  have htwo : (2 : UInt32).toNat = 2 := rfl
  omega

end Runs

end Otomai.Auth
