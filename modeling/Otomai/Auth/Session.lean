import Otomai.Auth.Accounts
import Otomai.Auth.Credentials
import Otomai.Auth.RateLimit
import Otomai.Auth.Ticket

/-!
# Sessions

A session of the auth server waits for a permit, for its client and for the database, and keeps the credentials that
the client presented, the account it was verified against and the ticket that was made for it.  Between two of its
steps the other sessions and the database move on, so what a session relies on is what nobody takes away: its account
stays in the table (`Good.mono`).

* `Good`: what holds of a session between two of its steps.
* `Advances.of_advance`: what one step can do.
-/

namespace Otomai.Auth.Login

open Trace

/-! ### The sessions -/

/-- What a server of the list is told to be. -/
structure GameServerInformations where
  isSelectable : Bool
  id : Int16
  status : UInt8
  deriving DecidableEq, Repr

inductive Reply where
  | identificationFailed (reason : UInt8)
  | protocolRequired
  | helloConnect (salt : String)
  | identificationSuccess (hasRights : Bool) (login nickname : String) (accountId : Int32)
  | serversList (servers : List GameServerInformations)
  | selectedServerData (serverId : Int16) (ticket : List UInt8)
  deriving DecidableEq, Repr

/-- A message of the client; the two that are waited for are `none` where they cannot be read. -/
inductive ClientMessage where
  | identification (message : Option (List UInt8 × Bool))
  | serverSelection (serverId : Option Int16)
  | other
  deriving DecidableEq, Repr

/-- What a session waits for, with what it holds meanwhile. -/
inductive Phase where
  /-- A permit. -/
  | queued
  /-- The `IdentificationMessage`. -/
  | greeted
  /-- The account of this name. -/
  | looking (username password : String) (aesKey : List UInt8)
  /-- The account that it creates. -/
  | creating (username password : String) (aesKey : List UInt8)
  /-- The account that it has created. -/
  | reloading (username password : String) (aesKey : List UInt8)
  /-- The servers. -/
  | identified (accountId : Int) (aesKey : List UInt8)
  /-- The `ServerSelectionMessage`. -/
  | choosing (accountId : Int) (aesKey : List UInt8)
  /-- The server, and its ticket. -/
  | selecting (accountId : Int) (aesKey : List UInt8) (serverId : Int16)
  | closed
  | panicked
  deriving DecidableEq, Repr

/-- A session: what it has said, and the credentials, the account and the ticket it has held. -/
structure Conn (Ip : Type) where
  ip : Ip
  salt : String
  phase : Phase
  sent : List Reply
  presented : Option (String × String × List UInt8)
  account : Option Account
  ticket : Option Ticket
  deriving DecidableEq, Repr

/-- The decryption with the session key, the hash of passwords, the cipher of tickets, and a switch. -/
structure Config where
  decrypt : List UInt8 → Option (List UInt8)
  hashPassword : String → String
  encrypt : List UInt8 → List UInt8 → List UInt8 → List UInt8
  autoCreateAccounts : Bool

/-- What the sessions share. -/
structure Shared (Ip : Type) where
  limits : AuthState Ip
  maintenance : Bool
  permits : Nat
  accounts : Accounts
  cluster : Cluster

/-- What a session waits for comes; the clock of the rate limit and that of the tickets show `now` and `utc`. -/
inductive Wake where
  | enter (salt : String)
  | receive (message : Option ClientMessage) (now : Nat)
  | query (now : Nat) (utc : Int) (ticket : Uuid) (failure : Option Failure)
  | fail

section Handlers

variable {Ip : Type} [DecidableEq Ip]

def Conn.start (ip : Ip) : Conn Ip := ⟨ip, "", .queued, [], none, none, none⟩

/-- The session holds a permit. -/
def Conn.Active (c : Conn Ip) : Prop := c.phase ≠ .queued ∧ c.phase ≠ .closed ∧ c.phase ≠ .panicked

instance : DecidablePred (@Conn.Active Ip) := fun c =>
  inferInstanceAs (Decidable (c.phase ≠ .queued ∧ c.phase ≠ .closed ∧ c.phase ≠ .panicked))

/-- The session says something and ends: its permit is dropped. -/
def finish (s : Shared Ip) (c : Conn Ip) (said : List Reply) : Shared Ip × Conn Ip :=
  ({ s with permits := s.permits + 1 }, { c with phase := .closed, sent := c.sent ++ said })

def unwind (s : Shared Ip) (c : Conn Ip) : Shared Ip × Conn Ip :=
  ({ s with permits := s.permits + 1 }, { c with phase := .panicked })

/-- A login that failed counts for the rate limit. -/
def recordFailure (s : Shared Ip) (c : Conn Ip) (now : Nat) (reason : UInt8) : Shared Ip × Conn Ip :=
  finish { s with limits := s.limits.recordFailedAttempt c.ip now } c [.identificationFailed reason]

/-- The start of `handle_client`. -/
def handleClient (s : Shared Ip) (ip : Ip) (now : Nat) : Shared Ip × Conn Ip :=
  let allowed := (s.limits.checkRateLimit ip now).1
  let s := { s with limits := (s.limits.checkRateLimit ip now).2 }
  if allowed = false then
    -- `TOO_MANY_ON_IP`
    (s, { Conn.start ip with phase := .closed, sent := [.identificationFailed 6] })
  else if s.maintenance then
    -- `IN_MAINTENANCE`
    (s, { Conn.start ip with phase := .closed, sent := [.identificationFailed 5] })
  else (s, Conn.start ip)

/-- Steps 3 and 4 of `handle_identification`. -/
def receiveIdentification (cfg : Config) (s : Shared Ip) (c : Conn Ip) (now : Nat) :
    Option ClientMessage → Shared Ip × Conn Ip
  | some (.identification (some (credentials, useCertificate))) =>
    match decryptCredentials cfg.decrypt c.salt credentials useCertificate with
    | .ok (username, password, aesKey) =>
      (s, { c with phase := .looking username password aesKey, presented := some (username, password, aesKey) })
    -- `UNKNOWN_AUTH_ERROR`
    | .err _ => recordFailure s c now 99
    | .panic => unwind s c
    | .exhausted => unwind s c
  | _ => finish s c []

/-- The end of step 5, and step 6. -/
def verifyAccount (cfg : Config) (s : Shared Ip) (c : Conn Ip) (now : Nat) (account : Account) (password : String)
    (aesKey : List UInt8) : Shared Ip × Conn Ip :=
  -- `BANNED`
  if account.banned then finish s c [.identificationFailed 3]
  -- `WRONG_CREDENTIALS`
  else if account.passwordHash ≠ cfg.hashPassword password then recordFailure s c now 2
  else
    (s, { c with
      phase := .identified account.id aesKey
      account := some account
      sent := c.sent ++ [.identificationSuccess (0 < account.adminLevel) account.username account.nickname
        (Int32.ofInt account.id)] })

/-- What the list says of a server, where `NOJOIN` is 4. -/
def serverInformations (maintenance : Bool) (server : Server) : GameServerInformations :=
  let status := if maintenance then 4 else UInt8.ofNat (server.status % 256).toNat
  ⟨(status.toNat : Int) = online, Int16.ofInt server.id, status⟩

/-- The row that a selection has added to the table of tickets, if it has. -/
def added (before after : Cluster) : Option Ticket := (after.tickets.drop before.tickets.length).head?

/-- Step 9: the ticket is stored and sent under the key of the client. -/
def redirect (cfg : Config) (s : Shared Ip) (c : Conn Ip) (accountId : Int) (aesKey : List UInt8) (serverId : Int16)
    (utc : Int) (ticket : Uuid) (failure : Option Failure) : Shared Ip × Conn Ip :=
  let cluster := handleServerSelection s.cluster accountId serverId ticket utc failure
  match added s.cluster cluster with
  | none => finish { s with cluster } c []
  | some row =>
    let c := { c with ticket := some row }
    if failure.isSome then finish { s with cluster } c []
    else
      match encryptTicketAes cfg.encrypt aesKey row.ticket with
      | none => unwind { s with cluster } c
      | some encryptedTicket =>
        finish { s with cluster } c [.selectedServerData (Int16.ofInt row.serverId) encryptedTicket]

/-- Step 5 of `handle_identification`: the account is looked up. -/
def lookUp (cfg : Config) (s : Shared Ip) (c : Conn Ip) (now : Nat) (username password : String) (aesKey : List UInt8)
    (failure : Option Failure) : Shared Ip × Conn Ip :=
  -- a text of the database holds no zero
  if '\x00' ∈ username.toList ∨ failure.isSome then finish s c []
  else
    match s.accounts.findAccountByUsername username with
    | some account => verifyAccount cfg s c now account password aesKey
    | none =>
      if cfg.autoCreateAccounts then (s, { c with phase := .creating username password aesKey })
      else recordFailure s c now 2

/-- The account is created. -/
def autoCreate (cfg : Config) (s : Shared Ip) (c : Conn Ip) (username password : String) (aesKey : List UInt8)
    (failure : Option Failure) : Shared Ip × Conn Ip :=
  if failure = some .query then finish s c []
  else
    match s.accounts.createAccount username (cfg.hashPassword password) username with
    | (none, accounts) => finish { s with accounts } c []
    | (some _, accounts) =>
      if failure.isSome then finish { s with accounts } c []
      else ({ s with accounts }, { c with phase := .reloading username password aesKey })

/-- The account that was created is looked up. -/
def reload (cfg : Config) (s : Shared Ip) (c : Conn Ip) (now : Nat) (username password : String) (aesKey : List UInt8)
    (failure : Option Failure) : Shared Ip × Conn Ip :=
  if failure.isSome then finish s c []
  else
    match s.accounts.findAccountByUsername username with
    | some account => verifyAccount cfg s c now account password aesKey
    | none => unwind s c

/-- Step 7 of `handle_server_selection`. -/
def listServers (s : Shared Ip) (c : Conn Ip) (accountId : Int) (aesKey : List UInt8) (failure : Option Failure) :
    Shared Ip × Conn Ip :=
  if failure.isSome then finish s c []
  else
    (s, { c with
      phase := .choosing accountId aesKey
      sent := c.sent ++ [.serversList (s.cluster.servers.map (serverInformations s.maintenance))] })

/-- The database answers what a session has asked, or fails. -/
def answer (cfg : Config) (s : Shared Ip) (c : Conn Ip) (now : Nat) (utc : Int) (ticket : Uuid)
    (failure : Option Failure) : Shared Ip × Conn Ip :=
  match c.phase with
  | .looking username password aesKey => lookUp cfg s c now username password aesKey failure
  | .creating username password aesKey => autoCreate cfg s c username password aesKey failure
  | .reloading username password aesKey => reload cfg s c now username password aesKey failure
  | .identified accountId aesKey => listServers s c accountId aesKey failure
  | .selecting accountId aesKey serverId => redirect cfg s c accountId aesKey serverId utc ticket failure
  | _ => (s, c)

/-- A session moves on. -/
def advance (cfg : Config) (s : Shared Ip) (c : Conn Ip) : Wake → Shared Ip × Conn Ip
  | .enter salt =>
    if c.phase = .queued ∧ 0 < s.permits then
      ({ s with permits := s.permits - 1 },
        { c with salt, phase := .greeted, sent := c.sent ++ [.protocolRequired, .helloConnect salt] })
    else (s, c)
  | .receive message now =>
    match c.phase with
    | .greeted => receiveIdentification cfg s c now message
    | .choosing accountId aesKey =>
      match message with
      | some (.serverSelection (some serverId)) => (s, { c with phase := .selecting accountId aesKey serverId })
      | some (.serverSelection none) => finish s c []
      | some _ => (s, c)
      | none => finish s c []
    | _ => (s, c)
  | .query now utc ticket failure => answer cfg s c now utc ticket failure
  | .fail => if c.Active then finish s c [] else (s, c)

end Handlers

/-! ### What a session knows -/

section Good

variable {Ip : Type}

/-- The session was presented the name and the password of this account. -/
def Presented (cfg : Config) (t : Accounts) (accountId : Int) (c : Conn Ip) : Prop :=
  match c.presented with
  | none => False
  | some (username, password, _) => t.Holds accountId username (cfg.hashPassword password)

instance (t : Accounts) (id : Int) (username passwordHash : String) : Decidable (t.Holds id username passwordHash) :=
  inferInstanceAs (Decidable (∃ row ∈ t.rows, row.id = id ∧ row.username = username ∧
    row.passwordHash = passwordHash))

instance (cfg : Config) (t : Accounts) (accountId : Int) : DecidablePred (@Presented Ip cfg t accountId) := by
  intro c
  unfold Presented
  split <;> infer_instance

/-- The account that a session was verified against. -/
structure Authentic (cfg : Config) (t : Accounts) (c : Conn Ip) (account : Account) : Prop where
  presented : ∃ password aesKey, c.presented = some (account.username, password, aesKey) ∧
    account.passwordHash = cfg.hashPassword password
  allowed : account.banned = false
  held : t.Holds account.id account.username account.passwordHash

def hello (salt : String) : List Reply := [.protocolRequired, .helloConnect salt]

def success (account : Account) : Reply :=
  .identificationSuccess (0 < account.adminLevel) account.username account.nickname (Int32.ofInt account.id)

/-- What a session may have said. -/
inductive Transcript (cfg : Config) (c : Conn Ip) : List Reply → Prop where
  | silent : Transcript cfg c []
  | turnedAway (reason : UInt8) : Transcript cfg c [.identificationFailed reason]
  | greeted : Transcript cfg c (hello c.salt)
  | refused (reason : UInt8) (haccount : c.account = none) :
    Transcript cfg c (hello c.salt ++ [.identificationFailed reason])
  | welcomed (account : Account) (haccount : c.account = some account) :
    Transcript cfg c (hello c.salt ++ [success account])
  | listed (account : Account) (servers : List GameServerInformations) (haccount : c.account = some account) :
    Transcript cfg c (hello c.salt ++ [success account, .serversList servers])
  | redirected (account : Account) (servers : List GameServerInformations) (row : Ticket) (ticket : Uuid)
    (username password : String) (aesKey encryptedTicket : List UInt8) (haccount : c.account = some account)
    (hrow : c.ticket = some row) (hticket : row.ticket = ticket.text)
    (hpresented : c.presented = some (username, password, aesKey)) (hkey : aesKey.length = aesKeyLength)
    (hencrypted : encryptTicketAes cfg.encrypt aesKey row.ticket = some encryptedTicket) :
    Transcript cfg c (hello c.salt ++
      [success account, .serversList servers, .selectedServerData (Int16.ofInt row.serverId) encryptedTicket])

/-- The session waits for its account. -/
structure Waiting (c : Conn Ip) (username password : String) (aesKey : List UInt8) : Prop where
  presented : c.presented = some (username, password, aesKey)
  key : aesKey.length = aesKeyLength
  account : c.account = none
  ticket : c.ticket = none
  sent : c.sent = hello c.salt

/-- The session has its account. -/
structure Welcomed (c : Conn Ip) (account : Account) (accountId : Int) (aesKey : List UInt8) : Prop where
  verified : c.account = some account
  id : account.id = accountId
  presented : ∃ username password, c.presented = some (username, password, aesKey)
  key : aesKey.length = aesKeyLength
  ticket : c.ticket = none

def PhaseHolds (t : Accounts) (c : Conn Ip) : Prop :=
  match c.phase with
  | .queued => c.account = none ∧ c.ticket = none ∧ c.sent = []
  | .greeted => c.account = none ∧ c.ticket = none ∧ c.sent = hello c.salt
  | .looking username password aesKey => Waiting c username password aesKey
  | .creating username password aesKey => Waiting c username password aesKey
  | .reloading username password aesKey =>
    Waiting c username password aesKey ∧ (t.findAccountByUsername username).isSome
  | .identified accountId aesKey => ∃ account, Welcomed c account accountId aesKey ∧
    c.sent = hello c.salt ++ [success account]
  | .choosing accountId aesKey => ∃ account servers, Welcomed c account accountId aesKey ∧
    c.sent = hello c.salt ++ [success account, .serversList servers]
  | .selecting accountId aesKey _ => ∃ account servers, Welcomed c account accountId aesKey ∧
    c.sent = hello c.salt ++ [success account, .serversList servers]
  | .closed => True
  | .panicked => False

/-- What holds of a session between two of its steps. -/
structure Good (cfg : Config) (t : Accounts) (c : Conn Ip) : Prop where
  authentic : ∀ account, c.account = some account → Authentic cfg t c account
  issued : ∀ row, c.ticket = some row → ∃ account, c.account = some account ∧ account.id = row.accountId
  transcript : Transcript cfg c c.sent
  phase : PhaseHolds t c

variable {cfg : Config} {t t' : Accounts} {c : Conn Ip}

/-- What other sessions do to the table of accounts does not matter. -/
theorem Good.mono (h : Good cfg t c) (hgrows : t.Grows t') : Good cfg t' c where
  authentic := fun account haccount =>
    have hold := h.authentic account haccount
    ⟨hold.presented, hold.allowed, hgrows _ _ _ hold.held⟩
  issued := h.issued
  transcript := h.transcript
  phase := by
    have hphase := h.phase
    unfold PhaseHolds at hphase ⊢
    split at hphase
    case h_5 username password aesKey heq =>
      obtain ⟨id, hash, hheld⟩ := Accounts.find_isSome.1 hphase.2
      exact ⟨hphase.1, Accounts.find_isSome.2 ⟨id, hash, hgrows _ _ _ hheld⟩⟩
    all_goals exact hphase

/-- A session that was verified was presented the password of its account. -/
theorem Good.presented (h : Good cfg t c) {row : Ticket} (hrow : c.ticket = some row) :
    Presented cfg t row.accountId c := by
  obtain ⟨account, haccount, hid⟩ := h.issued row hrow
  have hauth := h.authentic account haccount
  obtain ⟨password, aesKey, hpresented, hhash⟩ := hauth.presented
  have hheld := hauth.held
  unfold Presented
  rw [hpresented, ← hid]
  rw [hhash] at hheld
  exact hheld

theorem Transcript.congr {c' : Conn Ip} (hsalt : c'.salt = c.salt) (haccount : c'.account = c.account)
    (hticket : c'.ticket = c.ticket) (hpresented : c'.presented = c.presented) {l : List Reply}
    (h : Transcript cfg c l) : Transcript cfg c' l := by
  cases h with
  | silent => exact .silent
  | turnedAway reason => exact .turnedAway reason
  | greeted => exact hsalt ▸ .greeted
  | refused reason h => exact hsalt ▸ .refused reason (haccount.trans h)
  | welcomed account h => exact hsalt ▸ .welcomed account (haccount.trans h)
  | listed account servers h => exact hsalt ▸ .listed account servers (haccount.trans h)
  | redirected account servers row ticket username password aesKey encryptedTicket h hrow huuid hp hkey henc =>
    exact hsalt ▸ .redirected account servers row ticket username password aesKey encryptedTicket (haccount.trans h)
      (hticket.trans hrow) huuid (hpresented.trans hp) hkey henc

/-- A session that only says something and goes on. -/
theorem Good.move (h : Good cfg t c) {p : Phase} {l : List Reply} (hl : Transcript cfg c l)
    (hp : PhaseHolds t { c with phase := p, sent := l }) : Good cfg t { c with phase := p, sent := l } where
  authentic := fun account haccount =>
    have hold := h.authentic account haccount
    ⟨hold.presented, hold.allowed, hold.held⟩
  issued := h.issued
  transcript := @Transcript.congr Ip cfg c { c with phase := p, sent := l } rfl rfl rfl rfl l hl
  phase := hp

end Good

/-! ### What one step of a session does -/

section Advances

variable {Ip : Type}

/-- The permits a session holds. -/
def Conn.held (c : Conn Ip) : Nat := if c.Active then 1 else 0

/-- The session is good afterwards; it has only added to the accounts, has kept or given back its permit, and has
issued at most the one ticket that it holds. -/
structure Advances (cfg : Config) (s : Shared Ip) (c : Conn Ip) (r : Shared Ip × Conn Ip) : Prop where
  good : Good cfg r.1.accounts r.2
  grows : s.accounts.Grows r.1.accounts
  permits : r.1.permits + r.2.held = s.permits + c.held
  moves : r.1.cluster = s.cluster ∨ ∃ e, r.1.cluster = act s.cluster e
  tickets : (r.1.cluster.log = s.cluster.log ∧ r.2.ticket = c.ticket) ∨
    ∃ row expires, c.ticket = none ∧ r.2.ticket = some row ∧ r.1.cluster.log = .issued row expires :: s.cluster.log

variable {cfg : Config} {s s' : Shared Ip} {c : Conn Ip}

theorem Advances.stay (h : Good cfg s.accounts c) : Advances cfg s c (s, c) :=
  ⟨h, Accounts.Grows.refl _, rfl, .inl rfl, .inl ⟨rfl, rfl⟩⟩

theorem Advances.move (h : Good cfg s.accounts c) (hgrows : s.accounts.Grows s'.accounts)
    (hpermits : s'.permits = s.permits) (hcluster : s'.cluster = s.cluster) {p : Phase} {l : List Reply}
    (hactive : (({ c with phase := p, sent := l } : Conn Ip).Active ↔ c.Active)) (hl : Transcript cfg c l)
    (hp : PhaseHolds s'.accounts { c with phase := p, sent := l }) :
    Advances cfg s c (s', { c with phase := p, sent := l }) where
  good := (h.mono hgrows).move hl hp
  grows := hgrows
  permits := by
    rw [hpermits, Conn.held, Conn.held, if_congr hactive rfl rfl]
  moves := .inl hcluster
  tickets := .inl ⟨by rw [hcluster], rfl⟩

theorem Advances.finish (h : Good cfg s.accounts c) (hactive : c.Active) (hgrows : s.accounts.Grows s'.accounts)
    (hpermits : s'.permits = s.permits) (hcluster : s'.cluster = s.cluster) {said : List Reply}
    (hsaid : Transcript cfg c (c.sent ++ said)) : Advances cfg s c (finish s' c said) where
  good := (h.mono hgrows).move hsaid trivial
  grows := hgrows
  permits := by
    have hclosed : ¬({ c with phase := .closed, sent := c.sent ++ said } : Conn Ip).Active := fun h => h.2.1 rfl
    show s'.permits + 1 + Conn.held { c with phase := .closed, sent := c.sent ++ said } = s.permits + c.held
    rw [Conn.held, Conn.held, if_pos hactive, if_neg hclosed, hpermits]
  moves := .inl hcluster
  tickets := .inl ⟨by rw [← hcluster]; rfl, rfl⟩

/-- A session can always end without a word. -/
theorem Advances.leave (h : Good cfg s.accounts c) (hactive : c.Active) : Advances cfg s c (Login.finish s c []) := by
  refine Advances.finish h hactive (Accounts.Grows.refl _) rfl rfl ?_
  rw [List.append_nil]
  exact h.transcript

/-- A session that has said no more than its greetings can refuse its client. -/
theorem Advances.refuse (h : Good cfg s.accounts c) (hactive : c.Active) (haccounts : s'.accounts = s.accounts)
    (hpermits : s'.permits = s.permits) (hcluster : s'.cluster = s.cluster) (haccount : c.account = none)
    (hsent : c.sent = hello c.salt) (reason : UInt8) :
    Advances cfg s c (Login.finish s' c [.identificationFailed reason]) := by
  refine Advances.finish h hactive (haccounts ▸ Accounts.Grows.refl _) hpermits hcluster ?_
  rw [hsent]
  exact .refused reason haccount

theorem active_of_phase {p : Phase} (h : c.phase = p) (hp : p ≠ .queued ∧ p ≠ .closed ∧ p ≠ .panicked) :
    c.Active := by
  unfold Conn.Active
  rw [h]
  exact hp

theorem PhaseHolds.of_phase {t : Accounts} {p : Phase} (h : PhaseHolds t c) (hp : c.phase = p) :
    PhaseHolds t { c with phase := p } := by
  rw [← hp]
  exact h

theorem handleServerSelection_log (s : Cluster) (accountId : Int) (serverId : Int16) (ticket : Uuid) (utc : Int)
    (failure : Option Failure) :
    (added s (handleServerSelection s accountId serverId ticket utc failure) = none ∧
      (handleServerSelection s accountId serverId ticket utc failure).log = s.log) ∨
    ∃ row expires, row.accountId = accountId ∧ row.ticket = ticket.text ∧
      added s (handleServerSelection s accountId serverId ticket utc failure) = some row ∧
      (handleServerSelection s accountId serverId ticket utc failure).log = .issued row expires :: s.log := by
  have hsame : added s s = none := by simp [added]
  unfold handleServerSelection
  cases s.getServerById serverId.toInt with
  | none => exact .inl ⟨hsame, rfl⟩
  | some server =>
    dsimp only
    by_cases honline : server.status % 256 ≠ online
    · rw [if_pos honline]
      exact .inl ⟨hsame, rfl⟩
    rw [if_neg honline]
    by_cases hquery : failure = some .query
    · rw [if_pos hquery]
      exact .inl ⟨hsame, rfl⟩
    rw [if_neg hquery, Cluster.createTicket]
    by_cases hany : (s.tickets.any fun other => other.ticket = ticket.text) = true
    · rw [if_pos hany]
      exact .inl ⟨hsame, rfl⟩
    · rw [if_neg hany]
      refine .inr ⟨_, _, rfl, rfl, ?_, rfl⟩
      simp [added]

/-- The ticket of a session is of its account, and can be opened with the key that the client presented. -/
theorem advances_redirect (h : Good cfg s.accounts c) {account : Account} {accountId : Int} {aesKey : List UInt8}
    {servers : List GameServerInformations} (serverId : Int16)
    (hphase : c.phase = .selecting accountId aesKey serverId)
    (hwelcomed : Welcomed c account accountId aesKey)
    (hsent : c.sent = hello c.salt ++ [success account, .serversList servers]) (utc : Int) (ticket : Uuid)
    (failure : Option Failure) :
    Advances cfg s c (redirect cfg s c accountId aesKey serverId utc ticket failure) := by
  have hactive : c.Active := active_of_phase hphase (by simp)
  have hmoves : ∃ e : Auth.Event, handleServerSelection s.cluster accountId serverId ticket utc failure =
      act s.cluster e := ⟨.selectServer accountId serverId ticket utc failure, rfl⟩
  unfold redirect
  dsimp only
  rcases handleServerSelection_log s.cluster accountId serverId ticket utc failure with
    ⟨hadded, hlog⟩ | ⟨row, expires, haccount, hticket, hadded, hlog⟩
  · rw [hadded]
    have hleave := Advances.leave h hactive
    exact ⟨hleave.good, hleave.grows, hleave.permits, .inr hmoves, .inl ⟨hlog, rfl⟩⟩
  rw [hadded]
  dsimp only
  -- the session with its ticket, whatever it says of it
  have hend (said : List Reply)
      (hsaid : Transcript cfg { c with phase := .closed, sent := c.sent ++ said, ticket := some row }
        (c.sent ++ said)) :
      Advances cfg s c (Login.finish
        { s with cluster := handleServerSelection s.cluster accountId serverId ticket utc failure }
        { c with ticket := some row } said) := by
    refine ⟨⟨fun other ho => ?_, fun other ho => ?_, hsaid, trivial⟩, Accounts.Grows.refl _, ?_, .inr hmoves,
      .inr ⟨row, expires, hwelcomed.ticket, rfl, hlog⟩⟩
    · have hold := h.authentic other ho
      exact ⟨hold.presented, hold.allowed, hold.held⟩
    · obtain rfl : row = other := Option.some.inj ho
      exact ⟨account, hwelcomed.verified, hwelcomed.id.trans haccount.symm⟩
    · exact (Advances.leave h hactive).permits
  have hsilent : Transcript cfg { c with phase := .closed, sent := c.sent ++ [], ticket := some row }
      (c.sent ++ []) := by
    rw [List.append_nil, hsent]
    exact .listed account servers hwelcomed.verified
  by_cases hfailure : failure.isSome = true
  · rw [if_pos hfailure]
    exact hend [] hsilent
  rw [if_neg hfailure]
  cases hencrypted : encryptTicketAes cfg.encrypt aesKey row.ticket with
  | none =>
    -- the key is long enough
    have hkey := hwelcomed.key
    unfold encryptTicketAes at hencrypted
    rw [if_neg (by rw [hkey]; decide)] at hencrypted
    cases hencrypted
  | some encryptedTicket =>
    obtain ⟨username, password, hpresented⟩ := hwelcomed.presented
    refine hend _ ?_
    rw [hsent, List.append_assoc]
    exact .redirected account servers row ticket username password aesKey encryptedTicket
      hwelcomed.verified rfl hticket
      hpresented hwelcomed.key hencrypted

variable [DecidableEq Ip]

theorem advances_recordFailure (h : Good cfg s.accounts c) (hactive : c.Active) (haccount : c.account = none)
    (hsent : c.sent = hello c.salt) (now : Nat) (reason : UInt8) :
    Advances cfg s c (recordFailure s c now reason) := by
  unfold recordFailure
  refine Advances.refuse h hactive ?_ ?_ ?_ haccount hsent reason <;> rfl

/-- Credentials that are parsed come with a key that is long enough for the ticket. -/
theorem decryptCredentials_cases (decrypt : List UInt8 → Option (List UInt8)) (salt : String)
    (encrypted : List UInt8) (hasCertificate : Bool) :
    (∃ e, decryptCredentials decrypt salt encrypted hasCertificate = .err e) ∨
      ∃ username password aesKey, aesKey.length = aesKeyLength ∧
        decryptCredentials decrypt salt encrypted hasCertificate = .ok (username, password, aesKey) := by
  unfold decryptCredentials
  cases decrypt encrypted with
  | none => exact .inl ⟨_, rfl⟩
  | some decrypted =>
    rcases parseCredentialBytes_cases decrypted salt hasCertificate with herr | ⟨k, u, p, hparts⟩
    · exact .inl herr
    · dsimp only
      rw [parseCredentialBytes_eq hparts, user]
      by_cases hempty : DataReader.World.fromUtf8Lossy u = ""
      · rw [if_pos hempty]
        exact .inl ⟨_, rfl⟩
      · rw [if_neg hempty]
        exact .inr ⟨_, _, k, hparts.key, rfl⟩

theorem advances_receiveIdentification (h : Good cfg s.accounts c) (hphase : c.phase = .greeted) (now : Nat)
    (message : Option ClientMessage) : Advances cfg s c (receiveIdentification cfg s c now message) := by
  have hactive : c.Active := active_of_phase hphase (by decide)
  obtain ⟨haccount, hticket, hsent⟩ := h.phase.of_phase hphase
  unfold receiveIdentification
  split
  case h_2 => exact Advances.leave h hactive
  case h_1 credentials useCertificate =>
    rcases decryptCredentials_cases cfg.decrypt c.salt credentials useCertificate with
      ⟨e, herr⟩ | ⟨username, password, aesKey, hkey, hok⟩
    · rw [herr]
      exact advances_recordFailure h hactive haccount hsent now 99
    · rw [hok]
      -- the credentials are new, but there is no account yet that could be another one's
      refine ⟨⟨fun account ha => ?_, fun row hr => ?_, ?_, ⟨rfl, hkey, haccount, hticket, hsent⟩⟩,
        Accounts.Grows.refl _, ?_, .inl rfl, .inl ⟨rfl, rfl⟩⟩
      · rw [haccount] at ha
        cases ha
      · rw [hticket] at hr
        cases hr
      · show Transcript cfg _ c.sent
        rw [hsent]
        exact .greeted
      · show s.permits + Conn.held _ = s.permits + c.held
        rw [Conn.held, Conn.held, if_pos hactive, if_pos (active_of_phase rfl (by simp))]

/-- A session with an account of the table that its client has named. -/
theorem advances_verifyAccount (h : Good cfg s.accounts c) (hactive : c.Active) (now : Nat) {account : Account}
    {username password : String} {aesKey : List UInt8} (hwaiting : Waiting c username password aesKey)
    (hfind : s.accounts.findAccountByUsername username = some account) :
    Advances cfg s c (verifyAccount cfg s c now account password aesKey) := by
  obtain ⟨hmem, hname⟩ := Accounts.find_some hfind
  unfold verifyAccount
  by_cases hbanned : account.banned = true
  · rw [if_pos hbanned]
    exact Advances.refuse h hactive rfl rfl rfl hwaiting.account hwaiting.sent 3
  rw [if_neg hbanned]
  by_cases hhash : account.passwordHash ≠ cfg.hashPassword password
  · rw [if_pos hhash]
    exact advances_recordFailure h hactive hwaiting.account hwaiting.sent now 2
  rw [if_neg hhash]
  obtain ⟨c', hc'⟩ : ∃ c' : Conn Ip, c' = { c with
      phase := .identified account.id aesKey
      account := some account
      sent := c.sent ++ [.identificationSuccess (0 < account.adminLevel) account.username account.nickname
        (Int32.ofInt account.id)] } := ⟨_, rfl⟩
  have hsent : c'.sent = hello c'.salt ++ [success account] := by
    rw [hc']
    show c.sent ++ _ = _
    rw [hwaiting.sent]
    rfl
  have haccount : c'.account = some account := by rw [hc']
  have hpresented : c'.presented = some (username, password, aesKey) := by
    rw [hc']
    exact hwaiting.presented
  have hticket : c'.ticket = none := by
    rw [hc']
    exact hwaiting.ticket
  have hphase : c'.phase = .identified account.id aesKey := by rw [hc']
  rw [← hc']
  refine ⟨⟨fun other ho => ?_, fun row hr => ?_, ?_, ?_⟩, Accounts.Grows.refl _, ?_, .inl rfl, .inl ⟨rfl, ?_⟩⟩
  · obtain rfl : account = other := Option.some.inj (haccount.symm.trans ho)
    refine ⟨⟨password, aesKey, ?_, not_not.1 hhash⟩, by simpa using hbanned, ⟨account, hmem, rfl, rfl, rfl⟩⟩
    rw [hpresented, hname]
  · rw [hticket] at hr
    cases hr
  · rw [hsent]
    exact .welcomed account haccount
  · unfold PhaseHolds
    rw [hphase]
    exact ⟨account, ⟨haccount, rfl, ⟨_, _, hpresented⟩, hwaiting.key, hticket⟩, hsent⟩
  · have hactive' : c'.Active := active_of_phase hphase (by simp)
    rw [Conn.held, Conn.held, if_pos hactive, if_pos hactive']
  · rw [hticket, hwaiting.ticket]

theorem advances_lookUp (h : Good cfg s.accounts c) (hactive : c.Active) (now : Nat) {username password : String}
    {aesKey : List UInt8} (hwaiting : Waiting c username password aesKey) (failure : Option Failure) :
    Advances cfg s c (lookUp cfg s c now username password aesKey failure) := by
  unfold lookUp
  by_cases hfailed : '\x00' ∈ username.toList ∨ failure.isSome = true
  · rw [if_pos hfailed]
    exact Advances.leave h hactive
  rw [if_neg hfailed]
  cases hfind : s.accounts.findAccountByUsername username with
  | some account => exact advances_verifyAccount h hactive now hwaiting hfind
  | none =>
    dsimp only
    by_cases hauto : cfg.autoCreateAccounts = true
    · rw [if_pos hauto]
      refine Advances.move h (Accounts.Grows.refl _) rfl rfl ?_ h.transcript ?_
      · exact iff_of_true (active_of_phase rfl (by simp)) hactive
      · exact ⟨hwaiting.presented, hwaiting.key, hwaiting.account, hwaiting.ticket, hwaiting.sent⟩
    · rw [if_neg hauto]
      exact advances_recordFailure h hactive hwaiting.account hwaiting.sent now 2

omit [DecidableEq Ip] in
theorem advances_autoCreate (h : Good cfg s.accounts c) (hactive : c.Active) {username password : String}
    {aesKey : List UInt8} (hwaiting : Waiting c username password aesKey) (failure : Option Failure) :
    Advances cfg s c (autoCreate cfg s c username password aesKey failure) := by
  have hsilent : Transcript cfg c (c.sent ++ []) := by
    rw [List.append_nil]
    exact h.transcript
  unfold autoCreate
  by_cases hquery : failure = some .query
  · rw [if_pos hquery]
    exact Advances.leave h hactive
  rw [if_neg hquery]
  have hgrows := s.accounts.grows_createAccount username (cfg.hashPassword password) username
  have hfind := fun id => @Accounts.find_createAccount s.accounts username (cfg.hashPassword password) username id
  obtain ⟨⟨id?, accounts⟩, hcreate⟩ :
      ∃ r, s.accounts.createAccount username (cfg.hashPassword password) username = r :=
    ⟨_, rfl⟩
  rw [hcreate] at hgrows hfind ⊢
  cases id? with
  | none =>
    refine Advances.finish h hactive ?_ ?_ ?_ hsilent
    exacts [hgrows, rfl, rfl]
  | some id =>
    dsimp only
    by_cases hfailure : failure.isSome = true
    · rw [if_pos hfailure]
      refine Advances.finish h hactive ?_ ?_ ?_ hsilent
      exacts [hgrows, rfl, rfl]
    · rw [if_neg hfailure]
      refine Advances.move h ?_ ?_ ?_ ?_ h.transcript ?_
      · exact hgrows
      · rfl
      · rfl
      · exact iff_of_true (active_of_phase rfl (by simp)) hactive
      · exact ⟨⟨hwaiting.presented, hwaiting.key, hwaiting.account, hwaiting.ticket, hwaiting.sent⟩, hfind id rfl⟩

/-- The account that was created is still there, whoever else has been at the table. -/
theorem advances_reload (h : Good cfg s.accounts c) (hactive : c.Active) (now : Nat) {username password : String}
    {aesKey : List UInt8} (hwaiting : Waiting c username password aesKey)
    (hsome : (s.accounts.findAccountByUsername username).isSome = true) (failure : Option Failure) :
    Advances cfg s c (reload cfg s c now username password aesKey failure) := by
  unfold reload
  by_cases hfailed : failure.isSome = true
  · rw [if_pos hfailed]
    exact Advances.leave h hactive
  rw [if_neg hfailed]
  cases hfind : s.accounts.findAccountByUsername username with
  | some account => exact advances_verifyAccount h hactive now hwaiting hfind
  | none =>
    rw [hfind] at hsome
    cases hsome

omit [DecidableEq Ip] in
theorem advances_listServers (h : Good cfg s.accounts c) (hactive : c.Active) {account : Account} {accountId : Int}
    {aesKey : List UInt8} (hwelcomed : Welcomed c account accountId aesKey)
    (hsent : c.sent = hello c.salt ++ [success account]) (failure : Option Failure) :
    Advances cfg s c (listServers s c accountId aesKey failure) := by
  unfold listServers
  by_cases hfailed : failure.isSome = true
  · rw [if_pos hfailed]
    exact Advances.leave h hactive
  rw [if_neg hfailed]
  have hlisted : c.sent ++ [.serversList (s.cluster.servers.map (serverInformations s.maintenance))] =
      hello c.salt ++ [success account, .serversList (s.cluster.servers.map (serverInformations s.maintenance))] := by
    rw [hsent, List.append_assoc]
    rfl
  refine Advances.move h (Accounts.Grows.refl _) rfl rfl ?_ ?_ ?_
  · exact iff_of_true (active_of_phase rfl (by simp)) hactive
  · rw [hlisted]
    exact .listed account _ hwelcomed.verified
  · exact ⟨account, _, ⟨hwelcomed.verified, hwelcomed.id, hwelcomed.presented, hwelcomed.key, hwelcomed.ticket⟩,
      hlisted⟩

theorem advances_answer (h : Good cfg s.accounts c) (now : Nat) (utc : Int) (ticket : Uuid)
    (failure : Option Failure) :
    Advances cfg s c (answer cfg s c now utc ticket failure) := by
  have hphase := h.phase
  unfold PhaseHolds at hphase
  unfold answer
  cases hp : c.phase with
  | queued => exact Advances.stay h
  | greeted => exact Advances.stay h
  | choosing accountId aesKey => exact Advances.stay h
  | closed => exact Advances.stay h
  | panicked => exact Advances.stay h
  | looking username password aesKey =>
    rw [hp] at hphase
    exact advances_lookUp h (active_of_phase hp (by simp)) now hphase failure
  | creating username password aesKey =>
    rw [hp] at hphase
    exact advances_autoCreate h (active_of_phase hp (by simp)) hphase failure
  | reloading username password aesKey =>
    rw [hp] at hphase
    exact advances_reload h (active_of_phase hp (by simp)) now hphase.1 hphase.2 failure
  | identified accountId aesKey =>
    rw [hp] at hphase
    obtain ⟨account, hwelcomed, hsent⟩ := hphase
    exact advances_listServers h (active_of_phase hp (by simp)) hwelcomed hsent failure
  | selecting accountId aesKey serverId =>
    rw [hp] at hphase
    obtain ⟨account, servers, hwelcomed, hsent⟩ := hphase
    exact advances_redirect h serverId hp hwelcomed hsent utc ticket failure

theorem Advances.of_advance (h : Good cfg s.accounts c) (w : Wake) : Advances cfg s c (advance cfg s c w) := by
  cases w with
  | query now utc ticket failure => exact advances_answer h now utc ticket failure
  | fail =>
    unfold advance
    by_cases hactive : c.Active
    · rw [if_pos hactive]
      exact Advances.leave h hactive
    · rw [if_neg hactive]
      exact Advances.stay h
  | enter salt =>
    unfold advance
    dsimp only
    by_cases hfree : c.phase = .queued ∧ 0 < s.permits
    · rw [if_pos hfree]
      obtain ⟨haccount, hticket, hsent⟩ := h.phase.of_phase hfree.1
      have hidle : ¬c.Active := fun h => h.1 hfree.1
      have hgreeted : c.sent ++ [.protocolRequired, .helloConnect salt] = hello salt := by
        rw [hsent]
        rfl
      refine ⟨⟨fun account ha => ?_, fun row hr => ?_, ?_, ⟨haccount, hticket, hgreeted⟩⟩, Accounts.Grows.refl _, ?_,
        .inl rfl, .inl ⟨rfl, rfl⟩⟩
      · rw [haccount] at ha
        cases ha
      · rw [hticket] at hr
        cases hr
      · show Transcript cfg _ (c.sent ++ [.protocolRequired, .helloConnect salt])
        rw [hgreeted]
        exact .greeted
      · show s.permits - 1 + Conn.held _ = s.permits + c.held
        rw [Conn.held, Conn.held, if_neg hidle, if_pos (active_of_phase rfl (by simp))]
        omega
    · rw [if_neg hfree]
      exact Advances.stay h
  | receive message now =>
    unfold advance
    cases hp : c.phase with
    | greeted => exact advances_receiveIdentification h hp now message
    | choosing accountId aesKey =>
      have hphase := h.phase
      unfold PhaseHolds at hphase
      rw [hp] at hphase
      have hactive : c.Active := active_of_phase hp (by simp)
      cases message with
      | none => exact Advances.leave h hactive
      | some message =>
        cases message with
        | serverSelection serverId =>
          cases serverId with
          | none => exact Advances.leave h hactive
          | some serverId =>
            refine Advances.move h (Accounts.Grows.refl _) rfl rfl ?_ h.transcript ?_
            · exact iff_of_true (active_of_phase rfl (by simp)) hactive
            · obtain ⟨account, servers, hwelcomed, hsent⟩ : ∃ account servers, Welcomed c account accountId aesKey ∧
                c.sent = hello c.salt ++ [success account, .serversList servers] := hphase
              exact ⟨account, servers,
                ⟨hwelcomed.verified, hwelcomed.id, hwelcomed.presented, hwelcomed.key, hwelcomed.ticket⟩, hsent⟩
        | _ => exact Advances.stay h
    | _ => exact Advances.stay h

end Advances

end Otomai.Auth.Login
