import Otomai.Auth.Session

/-!
# Logins

The sessions of the auth server run side by side: between two steps of one session any of the others may take some,
accounts may be banned and servers changed, and world servers may be presented tickets.

* `admitted_with_password`: nobody enters a world more often than the name and the password of the account were
  presented.
* `never_panics`: no interleaving makes a session panic, and the permits are neither lost nor duplicated.
* `transcripts`: what each session says, in order, and that the client can open the ticket it is sent.
-/

namespace Otomai.Auth.Login

open Trace

/-- The auth server with all its sessions, and the world servers. -/
structure System (Ip : Type) where
  config : Config
  shared : Shared Ip
  sessions : List (Conn Ip)

inductive Event (Ip : Type) where
  | connect (ip : Ip) (now : Nat)
  | wake (i : Nat) (w : Wake)
  | presentTicket (worldId : UInt16) (ticket : String) (now : Int) (failure : Option Failure)
  | amend (accountId adminLevel : Int) (banned : Bool)
  | setServers (servers : List Server)
  | setMaintenance (enabled : Bool)

section System

variable {Ip : Type} [DecidableEq Ip]

def System.start (config : Config) (rateLimitMax : UInt32) (maintenance : Bool) (maxConnections : Nat)
    (accounts : Accounts) (servers : List Server) : System Ip :=
  ⟨config, ⟨AuthState.start rateLimitMax, maintenance, maxConnections, accounts, Cluster.start servers⟩, []⟩

def System.step (s : System Ip) : Event Ip → System Ip
  | .connect ip now =>
    let r := handleClient s.shared ip now
    { s with shared := r.1, sessions := s.sessions ++ [r.2] }
  | .wake i w =>
    match s.sessions[i]? with
    | none => s
    | some c =>
      let r := advance s.config s.shared c w
      { s with shared := r.1, sessions := s.sessions.set i r.2 }
  | .presentTicket worldId ticket now failure =>
    { s with shared := { s.shared with cluster := handleTicket s.shared.cluster worldId ticket now failure } }
  | .amend accountId adminLevel banned =>
    { s with shared := { s.shared with accounts := s.shared.accounts.amend accountId adminLevel banned } }
  | .setServers servers => { s with shared := { s.shared with cluster := { s.shared.cluster with servers } } }
  | .setMaintenance enabled => { s with shared := { s.shared with maintenance := enabled } }

instance : Acts (System Ip) (Event Ip) := ⟨System.step⟩

end System

/-! ### Tickets of an account -/

section Spending

/-- The tickets that were issued for an account. -/
def issuedAs (accountId : Int) (log : List Entry) : Nat :=
  log.countP fun e => match e with
    | .issued row _ => row.accountId = accountId
    | .admitted _ => false

/-- The times that an account was let into a world. -/
def admittedAs (accountId : Int) (log : List Entry) : Nat :=
  log.countP fun e => match e with
    | .issued _ _ => false
    | .admitted a => a.accountId = accountId

/-- A ticket of an account is spent, is in the table or is gone, and never two of these. -/
def Spends (s : Cluster) : Prop := ∀ accountId,
  admittedAs accountId s.log + s.tickets.countP (fun row => row.accountId = accountId) ≤ issuedAs accountId s.log

@[simp] theorem issuedAs_issued (accountId : Int) (row : Ticket) (expires : Int) (log : List Entry) :
    issuedAs accountId (.issued row expires :: log) =
      issuedAs accountId log + if row.accountId = accountId then 1 else 0 := by
  simp [issuedAs, List.countP_cons]

@[simp] theorem issuedAs_admitted (accountId : Int) (a : Admission) (log : List Entry) :
    issuedAs accountId (.admitted a :: log) = issuedAs accountId log := by
  simp [issuedAs]

@[simp] theorem admittedAs_issued (accountId : Int) (row : Ticket) (expires : Int) (log : List Entry) :
    admittedAs accountId (.issued row expires :: log) = admittedAs accountId log := by
  simp [admittedAs]

@[simp] theorem admittedAs_admitted (accountId : Int) (a : Admission) (log : List Entry) :
    admittedAs accountId (.admitted a :: log) =
      admittedAs accountId log + if a.accountId = accountId then 1 else 0 := by
  simp [admittedAs, List.countP_cons]

/-- Rows that are deleted with one that counts. -/
theorem countP_filter_lt {α : Type} {l : List α} {p q : α → Bool} {a : α} (ha : a ∈ l) (hp : p a = true)
    (hq : q a = false) : (l.filter q).countP p < l.countP p := by
  rw [List.countP_filter]
  have hsplit := List.append_of_mem ha
  obtain ⟨l₁, l₂, rfl⟩ := hsplit
  have hle (l : List α) : l.countP (fun b => p b && q b) ≤ l.countP p :=
    List.countP_mono_left fun b _ hb => (Bool.and_eq_true _ _ ▸ hb : p b = true ∧ q b = true).1
  have h₁ := hle l₁
  have h₂ := hle l₂
  simp only [List.countP_append, List.countP_cons, hp, hq]
  simp
  omega

theorem Spends.step {s : Cluster} (h : Spends s) (hs : s.Inv) (e : Auth.Event) : Spends (act s e) := by
  intro accountId
  have hold := h accountId
  rcases Cluster.step_cases hs e with
    ⟨hlog, hsub, -⟩ | ⟨row, expires, -, -, -, hlog, htickets, -⟩ |
      ⟨worldId, ticket, now, row, -, hmem, hrow, hnow, hlog, htickets⟩
  · rw [hlog]
    have hfew : (act s e).tickets.countP (fun row => row.accountId = accountId) ≤
        s.tickets.countP fun row => row.accountId = accountId := hsub.countP_le
    omega
  · rw [hlog, htickets, issuedAs_issued, admittedAs_issued, List.countP_append, List.countP_singleton]
    simp only [decide_eq_true_eq]
    omega
  · rw [hlog, htickets, issuedAs_admitted, admittedAs_admitted]
    by_cases haccount : row.accountId = accountId
    · have hless := countP_filter_lt (p := fun row : Ticket => decide (row.accountId = accountId))
        (q := fun other : Ticket => decide ¬(other.ticket = cleanTicket ticket ∧ now < other.expiresAt)) hmem
        (by simpa using haccount) (by simp [hrow, hnow])
      rw [if_pos haccount]
      omega
    · have hfew : (s.tickets.filter fun other => ¬(other.ticket = cleanTicket ticket ∧ now < other.expiresAt)).countP
          (fun row => row.accountId = accountId) ≤ s.tickets.countP fun row => row.accountId = accountId :=
        List.filter_sublist.countP_le
      rw [if_neg haccount]
      omega

/-- Whoever is let in has a ticket of his account. -/
theorem issued_of_admitted {log : List Entry} (h : EachAdmission Genuine log) {a : Admission}
    (ha : .admitted a ∈ log) :
    ∃ row expires, .issued row expires ∈ log ∧ row.ticket = a.ticket ∧ row.accountId = a.accountId := by
  induction log with
  | nil => cases ha
  | cons e log ih =>
    cases e with
    | issued row expires =>
      have hlater : .admitted a ∈ log := by simpa using ha
      obtain ⟨row, expires, hmem, hsame⟩ := ih h hlater
      exact ⟨row, expires, List.mem_cons_of_mem _ hmem, hsame⟩
    | admitted b =>
      by_cases hlater : .admitted a ∈ log
      · obtain ⟨row, expires, hmem, hsame⟩ := ih h.2 hlater
        exact ⟨row, expires, List.mem_cons_of_mem _ hmem, hsame⟩
      · obtain rfl : a = b := by simpa [hlater] using ha
        obtain ⟨⟨row, expires, hlast, haccount, -⟩, -⟩ := h
        have hticket := @List.find?_some _ (fun e : Entry => decide (e.ticket = a.ticket)) _ _ hlast
        exact ⟨row, expires, List.mem_cons_of_mem _ (List.mem_of_find?_eq_some hlast), of_decide_eq_true hticket,
          haccount.symm⟩

end Spending

/-! ### Runs -/

section Runs

variable {Ip : Type} [DecidableEq Ip]

/-- The ticket of the session is of this account. -/
def Conn.IssuedAs (accountId : Int) (c : Conn Ip) : Bool := c.ticket.any fun row => row.accountId = accountId

structure Inv (maxConnections : Nat) (s : System Ip) : Prop where
  good : ∀ c ∈ s.sessions, Good s.config s.shared.accounts c
  permits : s.shared.permits + s.sessions.countP (·.Active) = maxConnections
  cluster : s.shared.cluster.Inv
  spends : Spends s.shared.cluster
  issued : ∀ accountId, issuedAs accountId s.shared.cluster.log = s.sessions.countP (·.IssuedAs accountId)
  owned : ∀ row expires, .issued row expires ∈ s.shared.cluster.log → ∃ c ∈ s.sessions, c.ticket = some row

variable {maxConnections : Nat} {s : System Ip}

omit [DecidableEq Ip] in
theorem inv_start (config : Config) (rateLimitMax : UInt32) (maintenance : Bool) (maxConnections : Nat)
    (accounts : Accounts) (servers : List Server) :
    Inv maxConnections
      (System.start config rateLimitMax maintenance maxConnections accounts servers : System Ip) where
  good := fun _ h => absurd h List.not_mem_nil
  permits := rfl
  cluster := Cluster.inv_start servers
  spends := fun _ => Nat.le_refl _
  issued := fun _ => rfl
  owned := fun _ _ h => absurd h List.not_mem_nil

theorem handleClient_cases (s : Shared Ip) (ip : Ip) (now : Nat) :
    (handleClient s ip now).1.accounts = s.accounts ∧ (handleClient s ip now).1.cluster = s.cluster ∧
      (handleClient s ip now).1.permits = s.permits ∧
      ((handleClient s ip now).2 = Conn.start ip ∨
        ∃ reason, (handleClient s ip now).2 =
          { Conn.start ip with phase := .closed, sent := [.identificationFailed reason] }) := by
  unfold handleClient
  dsimp only
  split_ifs with hallowed hmaintenance
  · exact ⟨rfl, rfl, rfl, .inr ⟨6, rfl⟩⟩
  · exact ⟨rfl, rfl, rfl, .inr ⟨5, rfl⟩⟩
  · exact ⟨rfl, rfl, rfl, .inl rfl⟩

/-- A session that begins knows nothing and holds nothing. -/
theorem handleClient_new (cfg : Config) (s : Shared Ip) (ip : Ip) (now : Nat) :
    Good cfg s.accounts (handleClient s ip now).2 ∧ ¬(handleClient s ip now).2.Active ∧
      (handleClient s ip now).2.ticket = none := by
  obtain ⟨-, -, -, hconn⟩ := handleClient_cases s ip now
  rcases hconn with h | ⟨reason, h⟩
  · rw [h]
    refine ⟨⟨?_, ?_, Transcript.silent, ⟨rfl, rfl, rfl⟩⟩, fun h => h.1 rfl, rfl⟩
    · intro account haccount
      cases haccount
    · intro row hrow
      cases hrow
  · rw [h]
    refine ⟨⟨?_, ?_, Transcript.turnedAway reason, trivial⟩, fun h => h.2.1 rfl, rfl⟩
    · intro account haccount
      cases haccount
    · intro row hrow
      cases hrow

theorem Inv.connect (hs : Inv maxConnections s) (ip : Ip) (now : Nat) :
    Inv maxConnections (act s (.connect ip now : Event Ip)) := by
  obtain ⟨haccounts, hcluster, hpermits, -⟩ := handleClient_cases s.shared ip now
  obtain ⟨hgood, hidle, hticket⟩ := handleClient_new s.config s.shared ip now
  refine ⟨fun c hc => ?_, ?_, ?_, ?_, fun accountId => ?_, fun row expires hrow => ?_⟩
  · show Good s.config (handleClient s.shared ip now).1.accounts c
    rw [haccounts]
    rcases List.mem_append.1 hc with hc | hc
    · exact hs.good c hc
    · rw [List.mem_singleton.1 hc]
      exact hgood
  · show (handleClient s.shared ip now).1.permits + (s.sessions ++ [_]).countP _ = maxConnections
    rw [hpermits, List.countP_append, List.countP_singleton, if_neg (by simpa using hidle)]
    exact hs.permits
  · show (handleClient s.shared ip now).1.cluster.Inv
    rw [hcluster]
    exact hs.cluster
  · show Spends (handleClient s.shared ip now).1.cluster
    rw [hcluster]
    exact hs.spends
  · show issuedAs accountId (handleClient s.shared ip now).1.cluster.log = (s.sessions ++ [_]).countP _
    rw [hcluster, List.countP_append, List.countP_singleton, if_neg (by simp [Conn.IssuedAs, hticket])]
    exact hs.issued accountId
  · have hold : .issued row expires ∈ (handleClient s.shared ip now).1.cluster.log := hrow
    rw [hcluster] at hold
    obtain ⟨c, hc, hsome⟩ := hs.owned row expires hold
    exact ⟨c, List.mem_append_left _ hc, hsome⟩

theorem countP_replace {α : Type} (p : α → Bool) (l₁ l₂ : List α) (a : α) :
    (l₁ ++ a :: l₂).countP p = (l₁ ++ l₂).countP p + if p a = true then 1 else 0 := by
  simp only [List.countP_append, List.countP_cons]
  omega

omit [DecidableEq Ip] in
/-- One session has moved on. -/
theorem Inv.replace (hs : Inv maxConnections s) {l₁ l₂ : List (Conn Ip)} {c : Conn Ip} {r : Shared Ip × Conn Ip}
    (hsessions : s.sessions = l₁ ++ c :: l₂) (hr : Advances s.config s.shared c r) :
    Inv maxConnections { s with shared := r.1, sessions := l₁ ++ r.2 :: l₂ } := by
  have hothers : ∀ other ∈ l₁ ++ r.2 :: l₂, other = r.2 ∨ other ∈ s.sessions := by
    intro other ho
    rw [hsessions]
    simp only [List.mem_append, List.mem_cons] at ho ⊢
    rcases ho with ho | ho | ho
    · exact .inr (.inl ho)
    · exact .inl ho
    · exact .inr (.inr (.inr ho))
  have hcluster : r.1.cluster.Inv ∧ Spends r.1.cluster := by
    rcases hr.moves with hsame | ⟨e, he⟩
    · rw [hsame]
      exact ⟨hs.cluster, hs.spends⟩
    · rw [he]
      exact ⟨hs.cluster.step e, hs.spends.step hs.cluster e⟩
  refine ⟨fun other ho => ?_, ?_, hcluster.1, hcluster.2, fun accountId => ?_, fun row expires hrow => ?_⟩
  · rcases hothers other ho with rfl | ho
    · exact hr.good
    · exact (hs.good other ho).mono hr.grows
  · have hold := hs.permits
    have hpermits := hr.permits
    simp only [Conn.held] at hpermits
    rw [hsessions, countP_replace] at hold
    show r.1.permits + (l₁ ++ r.2 :: l₂).countP _ = maxConnections
    rw [countP_replace]
    simp only [decide_eq_true_eq] at hold ⊢
    omega
  · have hold := hs.issued accountId
    rw [hsessions, countP_replace] at hold
    show issuedAs accountId r.1.cluster.log = (l₁ ++ r.2 :: l₂).countP _
    rw [countP_replace]
    rcases hr.tickets with ⟨hlog, hticket⟩ | ⟨row, expires, hnone, hsome, hlog⟩
    · rw [hlog, hold, Conn.IssuedAs, Conn.IssuedAs, hticket]
    · rw [hlog, issuedAs_issued, hold]
      simp [Conn.IssuedAs, hnone, hsome]
  · -- a session that holds a ticket keeps it
    have hkept : .issued row expires ∈ s.shared.cluster.log → ∃ other ∈ l₁ ++ r.2 :: l₂, other.ticket = some row := by
      intro hold
      obtain ⟨other, ho, hticket⟩ := hs.owned row expires hold
      rw [hsessions] at ho
      rcases List.mem_append.1 ho with ho | ho
      · exact ⟨other, List.mem_append_left _ ho, hticket⟩
      · rcases List.mem_cons.1 ho with rfl | ho
        · rcases hr.tickets with ⟨-, hsame⟩ | ⟨row, expires, hnone, -, -⟩
          · exact ⟨r.2, List.mem_append_right _ List.mem_cons_self, hsame.trans hticket⟩
          · rw [hnone] at hticket
            cases hticket
        · exact ⟨other, List.mem_append_right _ (List.mem_cons_of_mem _ ho), hticket⟩
    have hlog : .issued row expires ∈ r.1.cluster.log := hrow
    rcases hr.tickets with ⟨hsame, -⟩ | ⟨row', expires', -, hsome, hnew⟩
    · rw [hsame] at hlog
      exact hkept hlog
    · rw [hnew] at hlog
      rcases List.mem_cons.1 hlog with heq | hold
      · obtain ⟨rfl, -⟩ := Entry.issued.inj heq
        exact ⟨r.2, List.mem_append_right _ List.mem_cons_self, hsome⟩
      · exact hkept hold

theorem Inv.wake (hs : Inv maxConnections s) (i : Nat) (w : Wake) :
    Inv maxConnections (act s (.wake i w : Event Ip)) := by
  cases hc : s.sessions[i]? with
  | none =>
    have hstay : act s (.wake i w : Event Ip) = s := by
      show s.step (.wake i w) = s
      simp only [System.step, hc]
    rw [hstay]
    exact hs
  | some c =>
    obtain ⟨hi, hget⟩ := List.getElem?_eq_some_iff.1 hc
    obtain ⟨l₁, l₂, hbefore, -, hafter⟩ := @List.exists_of_set _ i (advance s.config s.shared c w).2 s.sessions hi
    rw [hget] at hbefore
    have hmove : act s (.wake i w : Event Ip) = { s with
        shared := (advance s.config s.shared c w).1
        sessions := l₁ ++ (advance s.config s.shared c w).2 :: l₂ } := by
      show s.step (.wake i w) = _
      simp only [System.step, hc, hafter]
    rw [hmove]
    refine hs.replace hbefore (Advances.of_advance (hs.good c ?_) w)
    rw [hbefore]
    exact List.mem_append_right _ List.mem_cons_self

omit [DecidableEq Ip] in
/-- Events that leave the sessions alone. -/
theorem Inv.shared (hs : Inv maxConnections s) {shared : Shared Ip}
    (hgrows : s.shared.accounts.Grows shared.accounts) (hpermits : shared.permits = s.shared.permits)
    (hcluster : shared.cluster.Inv ∧ Spends shared.cluster)
    (hlog : shared.cluster.log = s.shared.cluster.log ∨
      ∃ a, shared.cluster.log = .admitted a :: s.shared.cluster.log) :
    Inv maxConnections { s with shared } := by
  have hissued : ∀ accountId, issuedAs accountId shared.cluster.log = issuedAs accountId s.shared.cluster.log := by
    intro accountId
    rcases hlog with h | ⟨a, h⟩
    · rw [h]
    · rw [h, issuedAs_admitted]
  have howned : ∀ row expires, .issued row expires ∈ shared.cluster.log →
      .issued row expires ∈ s.shared.cluster.log := by
    intro row expires hrow
    rcases hlog with h | ⟨a, h⟩
    · rw [h] at hrow
      exact hrow
    · rw [h] at hrow
      simpa using hrow
  exact ⟨fun c hc => (hs.good c hc).mono hgrows, by rw [← hs.permits, ← hpermits], hcluster.1, hcluster.2,
    fun accountId => (hissued accountId).trans (hs.issued accountId),
    fun row expires hrow => hs.owned row expires (howned row expires hrow)⟩

theorem Cluster.act_presentTicket (s : Cluster) (worldId : UInt16) (ticket : String) (now : Int)
    (failure : Option Failure) :
    act s (Auth.Event.presentTicket worldId ticket now failure) = handleTicket s worldId ticket now failure := rfl

theorem Cluster.act_setServers (s : Cluster) (servers : List Server) :
    act s (Auth.Event.setServers servers) = { s with servers } := rfl

theorem Inv.step (hs : Inv maxConnections s) (e : Event Ip) : Inv maxConnections (act s e) := by
  cases e with
  | connect ip now => exact hs.connect ip now
  | wake i w => exact hs.wake i w
  | presentTicket worldId ticket now failure =>
    show Inv maxConnections { s with
      shared := { s.shared with cluster := handleTicket s.shared.cluster worldId ticket now failure } }
    have hcases := handleTicket_cases s.shared.cluster worldId ticket now failure
    have hinv := hs.cluster.step (.presentTicket worldId ticket now failure)
    have hspends := hs.spends.step hs.cluster (.presentTicket worldId ticket now failure)
    rw [Cluster.act_presentTicket] at hinv hspends
    generalize handleTicket s.shared.cluster worldId ticket now failure = cluster at hcases hinv hspends ⊢
    refine hs.shared (Accounts.Grows.refl _) rfl ⟨hinv, hspends⟩ ?_
    rcases hcases with ⟨hlog, -, -⟩ | ⟨-, row, -, -, -, hlog, -⟩
    · exact .inl hlog
    · exact .inr ⟨_, hlog⟩
  | amend accountId adminLevel banned =>
    show Inv maxConnections { s with
      shared := { s.shared with accounts := s.shared.accounts.amend accountId adminLevel banned } }
    exact hs.shared (Accounts.grows_amend _ accountId adminLevel banned) rfl ⟨hs.cluster, hs.spends⟩ (.inl rfl)
  | setServers servers =>
    show Inv maxConnections { s with shared := { s.shared with cluster := { s.shared.cluster with servers } } }
    have hinv := hs.cluster.step (.setServers servers)
    rw [Cluster.act_setServers] at hinv
    exact hs.shared (Accounts.Grows.refl _) rfl ⟨hinv, hs.spends⟩ (.inl rfl)
  | setMaintenance enabled =>
    show Inv maxConnections { s with shared := { s.shared with maintenance := enabled } }
    exact hs.shared (Accounts.Grows.refl _) rfl ⟨hs.cluster, hs.spends⟩ (.inl rfl)

theorem Inv.run (hs : Inv maxConnections s) (es : List (Event Ip)) : Inv maxConnections (after s es) :=
  (along_true.invariant (fun _ e hs _ => hs.step e) hs).2

theorem config_after (es : List (Event Ip)) : (after s es).config = s.config := by
  induction es generalizing s with
  | nil => rfl
  | cons e es ih =>
    rw [after_cons, ih]
    cases e with
    | wake i w =>
      show (s.step (.wake i w)).config = s.config
      simp only [System.step]
      split <;> rfl
    | _ => rfl

variable (config : Config) (rateLimitMax : UInt32) (maintenance : Bool) (maxConnections : Nat) (accounts : Accounts)
  (servers : List Server) (es : List (Event Ip))

/-- The system after some events. -/
def System.run : System Ip := after (System.start config rateLimitMax maintenance maxConnections accounts servers) es

theorem inv_run :
    Inv maxConnections (System.run config rateLimitMax maintenance maxConnections accounts servers es) :=
  (inv_start config rateLimitMax maintenance maxConnections accounts servers).run es

/-- An account is let into a world at most as often as its name and its password were presented, and by a ticket that
was made for a session they were presented to. -/
structure AdmittedWithPassword (s : System Ip) : Prop where
  often : ∀ accountId, admittedAs accountId s.shared.cluster.log ≤
    s.sessions.countP fun c => Presented s.config s.shared.accounts accountId c
  each : ∀ a, .admitted a ∈ s.shared.cluster.log →
    ∃ c ∈ s.sessions, Presented s.config s.shared.accounts a.accountId c ∧
      ∃ row, c.ticket = some row ∧ row.ticket = a.ticket ∧ row.accountId = a.accountId

theorem admitted_with_password :
    AdmittedWithPassword (System.run config rateLimitMax maintenance maxConnections accounts servers es) := by
  have hinv := inv_run config rateLimitMax maintenance maxConnections accounts servers es
  generalize System.run config rateLimitMax maintenance maxConnections accounts servers es = s at hinv ⊢
  constructor
  · intro accountId
    have hspent := hinv.spends accountId
    have hissued := hinv.issued accountId
    have hpresented : s.sessions.countP (·.IssuedAs accountId) ≤
        s.sessions.countP fun c => Presented s.config s.shared.accounts accountId c := by
      refine List.countP_mono_left fun c hc hany => ?_
      obtain ⟨row, hrow, haccount⟩ := (Option.any_eq_true _ _).1 hany
      rw [← of_decide_eq_true haccount]
      exact decide_eq_true ((hinv.good c hc).presented hrow)
    omega
  · intro a ha
    obtain ⟨row, expires, hrow, hticket, haccount⟩ := issued_of_admitted hinv.cluster.genuine ha
    obtain ⟨c, hc, hsome⟩ := hinv.owned row expires hrow
    refine ⟨c, hc, ?_, row, hsome, hticket, haccount⟩
    rw [← haccount]
    exact (hinv.good c hc).presented hsome

/-- No session panics, and each permit is free or held by one session. -/
structure NeverPanics (maxConnections : Nat) (s : System Ip) : Prop where
  calm : ∀ c ∈ s.sessions, c.phase ≠ .panicked
  permits : s.shared.permits + s.sessions.countP (·.Active) = maxConnections

/-- The client can open the ticket it is sent, with a decryption that fits. -/
def Opened (decrypt : List UInt8 → List UInt8 → List UInt8 → List UInt8) (c : Conn Ip)
    (encryptedTicket : List UInt8) : Prop :=
  ∃ account row username password aesKey presented, c.account = some account ∧ c.ticket = some row ∧
    row.accountId = account.id ∧ c.presented = some (username, password, aesKey) ∧
    decodeWithAes decrypt aesKey encryptedTicket = some presented ∧ Recognised presented row.ticket

/-- What a session says is in order, and ends with a ticket only if it is one the client can use. -/
theorem transcripts {decrypt : List UInt8 → List UInt8 → List UInt8 → List UInt8}
    (hcipher : ∀ key iv buf, key.length = 32 → iv.length = 16 → buf.length % 16 = 0 →
      decrypt key iv (config.encrypt key iv buf) = buf) :
    ∀ c ∈ (System.run config rateLimitMax maintenance maxConnections accounts servers es).sessions,
      Transcript config c c.sent ∧
      ∀ serverId encryptedTicket, .selectedServerData serverId encryptedTicket ∈ c.sent →
        Opened decrypt c encryptedTicket := by
  have hinv := inv_run config rateLimitMax maintenance maxConnections accounts servers es
  have hconfig : (System.run config rateLimitMax maintenance maxConnections accounts servers es).config = config :=
    config_after es
  intro c hc
  have hgood := hinv.good c hc
  rw [hconfig] at hgood
  have htranscript := hgood.transcript
  refine ⟨htranscript, fun serverId encryptedTicket hsent => ?_⟩
  generalize c.sent = sent at htranscript hsent
  cases htranscript with
  | silent => simp at hsent
  | turnedAway reason => simp at hsent
  | greeted => simp [hello] at hsent
  | refused reason haccount => simp [hello] at hsent
  | welcomed account haccount => simp [hello, success] at hsent
  | listed account servers haccount => simp [hello, success] at hsent
  | redirected account servers row ticket username password aesKey told haccount hrow hticket hpresented hkey htold =>
    obtain ⟨-, rfl⟩ : serverId = Int16.ofInt row.serverId ∧ encryptedTicket = told := by
      simpa [hello, success] using hsent
    obtain ⟨ciphertext, presented, hciphertext, hdecoded, hrecognised⟩ :=
      recognised hcipher (by rw [hkey]; decide) ticket
    rw [← hticket, htold] at hciphertext
    obtain rfl : encryptedTicket = ciphertext := Option.some.inj hciphertext
    obtain ⟨other, hother, hid⟩ := hgood.issued row hrow
    rw [← hticket] at hrecognised
    exact ⟨other, row, username, password, aesKey, presented, hother, hrow, hid.symm, hpresented,
      hdecoded, hrecognised⟩

end Runs

/-- A server that creates accounts, with AES on the sample ticket. -/
def sampleConfig : Config := ⟨some, id, sampleCipher, true⟩

/-- The client names an account that does not exist, selects the first server and takes its ticket there. -/
def sampleLogin : List (Event Nat) :=
  [.connect 1 0, .wake 0 (.enter "short"),
    .wake 0 (.receive (some (.identification (some (layout "short" sampleKey none "admin" "secret123", false)))) 1),
    .wake 0 (.query 2 0 sampleTicket none), .wake 0 (.query 3 0 sampleTicket none),
    .wake 0 (.query 4 0 sampleTicket none), .wake 0 (.query 5 0 sampleTicket none),
    .wake 0 (.receive (some .other) 6), .wake 0 (.receive (some (.serverSelection (some 1))) 7),
    .wake 0 (.query 8 1000000 sampleTicket none),
    .presentTicket 1 (sampleTicket.text ++ String.ofList (List.replicate 12 '\x00')) 2000 none]

def sampleSystem : System Nat := System.run sampleConfig 10 false 100 Accounts.empty [⟨1, 3⟩] sampleLogin

example : admittedAs 1 sampleSystem.shared.cluster.log = 1 := by decide +kernel

theorem sampleCipher_sampleCipher (key iv buf : List UInt8) :
    sampleCipher key iv (sampleCipher key iv buf) = buf := by
  have hne : sampleCiphertext ≠ BigEndianWriter.asBytes sampleTicket.text ++ List.replicate 12 0 := by decide +kernel
  unfold sampleCipher
  split_ifs <;> simp_all

theorem transcripts_sample :
    ∃ c, sampleSystem.sessions = [c] ∧ Transcript sampleConfig c c.sent ∧ Opened sampleCipher c sampleCiphertext := by
  have hsent : sampleSystem.sessions.map Conn.sent =
      [hello "short" ++ [.identificationSuccess false "admin" "admin" 1, .serversList [⟨true, 1, 3⟩],
        .selectedServerData 1 sampleCiphertext]] := by decide +kernel
  obtain ⟨c, hc, hsaid⟩ := List.map_eq_singleton_iff.1 hsent
  have hmem : c ∈ sampleSystem.sessions := by
    rw [hc]
    exact List.mem_singleton.2 rfl
  obtain ⟨htranscript, hopened⟩ := transcripts sampleConfig 10 false 100 Accounts.empty [⟨1, 3⟩] sampleLogin
    (fun key iv buf _ _ _ => sampleCipher_sampleCipher key iv buf) c hmem
  refine ⟨c, hc, htranscript, hopened 1 sampleCiphertext ?_⟩
  rw [hsaid]
  simp

end Otomai.Auth.Login
