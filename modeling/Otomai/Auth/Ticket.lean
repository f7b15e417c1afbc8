import Otomai.Io.RoundTrip
import Otomai.Trace.Program
import Mathlib.Data.List.Nodup
import Mathlib.Data.List.TakeWhile

/-!
# Tickets

The auth server writes a ticket to the shared database and sends it, encrypted, to the client; the client presents it
to a world server, which deletes the row and takes the account from it.  A run is any interleaving of selections at
the auth server and of presentations at world servers, with the failures that can befall each of them; the log says
which tickets were issued and which sessions were let in, the latest first.

A row holds the server that was selected, but no world server compares it with its own id: a ticket is good for any of
them (`ticket_used_elsewhere`).

* `genuine_run`: a session is let in by a ticket that nobody has used, in time, and as its account.
* `addressed_run_iff`: all sessions are on the selected server if and only if clients go nowhere else.
* `recognised`: the zero padding of the encrypted ticket does no harm.
* `tickets_iff`: all of it together.
-/

namespace Otomai.Auth

open Trace BigEndianWriter

/-! ### The database -/

/-- A row of the table of servers. -/
structure Server where
  id : Int
  status : Int
  deriving DecidableEq, Repr

/-- A row of the table of tickets; `expiresAt` is a `timestamptz`, in microseconds. -/
structure Ticket where
  ticket : String
  accountId : Int
  serverId : Int
  expiresAt : Int
  deriving DecidableEq, Repr

/-- The text of a version 4 UUID: hexadecimal digits and dashes. -/
structure Uuid where
  text : String
  valid : (text.toList.all fun c => c.isDigit || ['a', 'b', 'c', 'd', 'e', 'f', '-'].contains c) = true

/-- A session that was let in: the ticket, the account, the id of the world server, and `NOW()` when the row was
deleted. -/
structure Admission where
  ticket : String
  accountId : Int
  worldId : UInt16
  now : Int
  deriving DecidableEq, Repr

/-- What has happened to tickets: one was issued, to expire at `expires` nanoseconds, or it has let in a session. -/
inductive Entry where
  | issued (row : Ticket) (expires : Int)
  | admitted (a : Admission)
  deriving DecidableEq, Repr

def Entry.ticket : Entry → String
  | issued row _ => row.ticket
  | admitted a => a.ticket

/-- The tables the servers share, and the log. -/
structure Cluster where
  servers : List Server
  tickets : List Ticket
  log : List Entry
  deriving DecidableEq, Repr

/-- A query fails without effect, or after its effect; a message to the client cannot be sent. -/
inductive Failure where
  | query
  | reply
  | send
  deriving DecidableEq, Repr

namespace Cluster

def start (servers : List Server) : Cluster := ⟨servers, [], []⟩

def getServerById (s : Cluster) (serverId : Int) : Option Server := s.servers.find? fun server => server.id = serverId

/-- `INSERT INTO tickets`: the ticket is the primary key. -/
def createTicket (s : Cluster) (row : Ticket) : Option Cluster :=
  if s.tickets.any fun other => other.ticket = row.ticket then none else some { s with tickets := s.tickets ++ [row] }

/-- `DELETE FROM tickets WHERE ticket = $1 AND expires_at > NOW() RETURNING *`. -/
def consumeTicket (s : Cluster) (ticket : String) (now : Int) : Option Ticket × Cluster :=
  let matching := fun row : Ticket => row.ticket = ticket ∧ now < row.expiresAt
  (s.tickets.find? matching, { s with tickets := s.tickets.filter fun row => ¬matching row })

end Cluster

/-! ### The handlers -/

/-- `server_status::ONLINE`. -/
def online : Int := 3

/-- A `timestamptz` has microseconds. -/
def toTimestamptz (nanoseconds : Int) : Int := (nanoseconds + 500) / 1000

/-- Step 9 of `handle_server_selection`: validate the server and create the ticket. -/
def handleServerSelection (s : Cluster) (accountId : Int) (serverId : Int16) (ticket : Uuid) (now : Int)
    (failure : Option Failure) : Cluster :=
  match s.getServerById serverId.toInt with
  | none => s
  | some server =>
    if server.status % 256 ≠ online then s
    else if failure = some .query then s
    else
      let expires := now + 30 * 1000000000
      let row : Ticket := ⟨ticket.text, accountId, server.id, toTimestamptz expires⟩
      match s.createTicket row with
      | none => s
      | some s => { s with log := .issued row expires :: s.log }

/-- `ticket_msg.ticket.trim_end_matches('\0')`. -/
def cleanTicket (ticket : String) : String :=
  String.ofList (ticket.toList.reverse.dropWhile (· = '\x00')).reverse

/-- `handle_ticket`: the account of a session that is let in.  A text of the database holds no zero. -/
def handleTicket (s : Cluster) (worldId : UInt16) (ticket : String) (now : Int) (failure : Option Failure) :
    Cluster :=
  let ticket := cleanTicket ticket
  if '\x00' ∈ ticket.toList then s
  else if failure = some .query then s
  else
    match s.consumeTicket ticket now with
    | (none, s) => s
    | (some row, s) =>
      if failure.isSome then s
      else { s with log := .admitted ⟨ticket, row.accountId, worldId, now⟩ :: s.log }

inductive Event where
  | selectServer (accountId : Int) (serverId : Int16) (ticket : Uuid) (now : Int) (failure : Option Failure)
  | presentTicket (worldId : UInt16) (ticket : String) (now : Int) (failure : Option Failure)
  | setServers (servers : List Server)

def Cluster.step (s : Cluster) : Event → Cluster
  | .selectServer accountId serverId ticket now failure =>
    handleServerSelection s accountId serverId ticket now failure
  | .presentTicket worldId ticket now failure => handleTicket s worldId ticket now failure
  | .setServers servers => { s with servers }

instance : Acts Cluster Event := ⟨Cluster.step⟩

/-! ### What a log says -/

/-- The last thing that happened to a ticket. -/
def lastOf (ticket : String) (log : List Entry) : Option Entry := log.find? fun e => e.ticket = ticket

/-- Every session that was let in satisfies `P`, with the log of before. -/
def EachAdmission (P : Admission → List Entry → Prop) : List Entry → Prop
  | [] => True
  | .issued _ _ :: log => EachAdmission P log
  | .admitted a :: log => P a log ∧ EachAdmission P log

/-- The ticket was issued to this account and has let in nobody since, and it has not expired. -/
def Genuine (a : Admission) (before : List Entry) : Prop :=
  ∃ row expires, lastOf a.ticket before = some (.issued row expires) ∧ a.accountId = row.accountId ∧
    a.now * 1000 < expires

/-- The ticket was issued for this server. -/
def Addressed (a : Admission) (before : List Entry) : Prop :=
  ∃ row expires, lastOf a.ticket before = some (.issued row expires) ∧ (a.worldId.toNat : Int) = row.serverId

def issues (ticket : String) (log : List Entry) : Nat :=
  log.countP fun e => match e with
    | .issued row _ => row.ticket = ticket
    | .admitted _ => false

def admissions (ticket : String) (log : List Entry) : Nat :=
  log.countP fun e => match e with
    | .issued _ _ => false
    | .admitted a => a.ticket = ticket

/-- Tickets are single-use, timely and addressed: no ticket lets in more sessions than it was issued, and each session
is let in before the expiry of its ticket, as its account and on its server. -/
def TicketsHold (log : List Entry) : Prop :=
  (∀ ticket, admissions ticket log ≤ issues ticket log) ∧ EachAdmission Genuine log ∧ EachAdmission Addressed log

/-- A ticket that is good is presented to the server it is for. -/
def AtHome (s : Cluster) : Event → Prop
  | .presentTicket worldId ticket now none =>
    ∀ row ∈ s.tickets, row.ticket = cleanTicket ticket → now < row.expiresAt → (worldId.toNat : Int) = row.serverId
  | _ => True

instance (s : Cluster) : DecidablePred (AtHome s)
  | .presentTicket worldId ticket now none =>
    inferInstanceAs (Decidable (∀ row ∈ s.tickets, row.ticket = cleanTicket ticket → now < row.expiresAt →
      (worldId.toNat : Int) = row.serverId))
  | .presentTicket _ _ _ (some _) => .isTrue trivial
  | .selectServer .. => .isTrue trivial
  | .setServers _ => .isTrue trivial

theorem admissions_le_issues {log : List Entry} (h : EachAdmission Genuine log) (ticket : String) :
    admissions ticket log ≤ issues ticket log := by
  -- a ticket that was issued last has one use left
  suffices hleft : admissions ticket log ≤ issues ticket log ∧
      ∀ row expires, lastOf ticket log = some (.issued row expires) → admissions ticket log < issues ticket log from
    hleft.1
  induction log with
  | nil => exact ⟨Nat.le_refl _, fun row expires h => by cases h⟩
  | cons e log ih =>
    cases e with
    | issued row expires =>
      obtain ⟨hle, hlt⟩ := ih h
      by_cases hticket : row.ticket = ticket
      · have hissues : issues ticket (.issued row expires :: log) = issues ticket log + 1 := by
          simp [issues, hticket]
        have hadmissions : admissions ticket (.issued row expires :: log) = admissions ticket log := by
          simp [admissions]
        rw [hissues, hadmissions]
        exact ⟨by omega, fun _ _ _ => by omega⟩
      · have hissues : issues ticket (.issued row expires :: log) = issues ticket log := by
          simp [issues, hticket]
        have hadmissions : admissions ticket (.issued row expires :: log) = admissions ticket log := by
          simp [admissions]
        have hlast : lastOf ticket (.issued row expires :: log) = lastOf ticket log := by
          simp [lastOf, Entry.ticket, hticket]
        rw [hissues, hadmissions, hlast]
        exact ⟨hle, hlt⟩
    | admitted a =>
      obtain ⟨⟨row, expires, hlast, -, -⟩, hlog⟩ := h
      obtain ⟨hle, hlt⟩ := ih hlog
      have hissues : issues ticket (.admitted a :: log) = issues ticket log := by
        simp [issues]
      by_cases hticket : a.ticket = ticket
      · have hadmissions : admissions ticket (.admitted a :: log) = admissions ticket log + 1 := by
          simp [admissions, hticket]
        rw [hticket] at hlast
        have hone := hlt row expires hlast
        rw [hissues, hadmissions]
        refine ⟨by omega, fun row expires h => ?_⟩
        simp [lastOf, Entry.ticket, hticket] at h
      · have hadmissions : admissions ticket (.admitted a :: log) = admissions ticket log := by
          simp [admissions, hticket]
        have hlast' : lastOf ticket (.admitted a :: log) = lastOf ticket log := by
          simp [lastOf, Entry.ticket, hticket]
        rw [hissues, hadmissions, hlast']
        exact ⟨hle, hlt⟩

/-! ### The encrypted form -/

/-- `encrypt_ticket_aes`, for a cipher that takes a key, an initialization vector and whole blocks; it panics on a key
that is too short. -/
def encryptTicketAes (encrypt : List UInt8 → List UInt8 → List UInt8 → List UInt8) (aesKey : List UInt8)
    (ticket : String) : Option (List UInt8) :=
  if aesKey.length < 32 then none
  else
    let plaintext := asBytes ticket
    let padLen := (16 - plaintext.length % 16) % 16
    some (encrypt (aesKey.take 32) (aesKey.take 16) (plaintext ++ List.replicate padLen 0))

/-- The text the client makes of an encrypted ticket: it leaves the padding. -/
def decodeWithAes (decrypt : List UInt8 → List UInt8 → List UInt8 → List UInt8) (aesKey ciphertext : List UInt8) :
    Option String :=
  String.fromUTF8? ⟨(decrypt (aesKey.take 32) (aesKey.take 16) ciphertext).toArray⟩

/-- A world server that is presented the text lets in the session of the ticket, if the row is there in time. -/
def Recognised (presented ticket : String) : Prop :=
  ∀ (s : Cluster) (worldId : UInt16) (now : Int), ∀ row ∈ s.tickets, row.ticket = ticket → now < row.expiresAt →
    ∃ a, (handleTicket s worldId presented now none).log = .admitted a :: s.log ∧ a.ticket = ticket

/-! ### What one event does -/

theorem Uuid.zero_not_mem (ticket : Uuid) : '\x00' ∉ ticket.text.toList := by
  intro h
  have hvalid := List.all_eq_true.1 ticket.valid _ h
  exact absurd hvalid (by decide)

theorem handleServerSelection_cases (s : Cluster) (accountId : Int) (serverId : Int16) (ticket : Uuid) (now : Int)
    (failure : Option Failure) :
    handleServerSelection s accountId serverId ticket now failure = s ∨
    ∃ row expires, (∀ other ∈ s.tickets, other.ticket ≠ row.ticket) ∧ row.ticket = ticket.text ∧
      row.expiresAt = toTimestamptz expires ∧
      handleServerSelection s accountId serverId ticket now failure =
        { s with tickets := s.tickets ++ [row], log := .issued row expires :: s.log } := by
  unfold handleServerSelection
  cases s.getServerById serverId.toInt with
  | none => exact .inl rfl
  | some server =>
    dsimp only
    by_cases honline : server.status % 256 ≠ online
    · rw [if_pos honline]
      exact .inl rfl
    · rw [if_neg honline]
      by_cases hquery : failure = some .query
      · rw [if_pos hquery]
        exact .inl rfl
      · rw [if_neg hquery, Cluster.createTicket]
        by_cases hany : (s.tickets.any fun other => other.ticket = ticket.text) = true
        · rw [if_pos hany]
          exact .inl rfl
        · rw [if_neg hany]
          refine .inr ⟨_, _, fun other hmem heq => hany ?_, rfl, rfl, rfl⟩
          exact List.any_eq_true.2 ⟨other, hmem, decide_eq_true heq⟩

/-- The row a ticket is answered by, if there is one. -/
theorem consumeTicket_fst (s : Cluster) (ticket : String) (now : Int) :
    ((s.consumeTicket ticket now).1 = none ∧ ∀ row ∈ s.tickets, row.ticket = ticket → ¬now < row.expiresAt) ∨
    ∃ row ∈ s.tickets, (s.consumeTicket ticket now).1 = some row ∧ row.ticket = ticket ∧ now < row.expiresAt := by
  cases hfind : (s.consumeTicket ticket now).1 with
  | none =>
    refine .inl ⟨rfl, fun row hmem hticket hnow => ?_⟩
    have h := List.find?_eq_none.1 hfind row hmem
    exact h (decide_eq_true ⟨hticket, hnow⟩)
  | some row =>
    have hpred :=
      @List.find?_some _ (fun row : Ticket => decide (row.ticket = ticket ∧ now < row.expiresAt)) _ _ hfind
    exact .inr ⟨row, List.mem_of_find?_eq_some hfind, rfl, of_decide_eq_true hpred⟩

theorem handleTicket_cases (s : Cluster) (worldId : UInt16) (ticket : String) (now : Int) (failure : Option Failure) :
    ((handleTicket s worldId ticket now failure).log = s.log ∧
      List.Sublist (handleTicket s worldId ticket now failure).tickets s.tickets ∧
      (failure = none → '\x00' ∈ (cleanTicket ticket).toList ∨
        ∀ row ∈ s.tickets, row.ticket = cleanTicket ticket → ¬now < row.expiresAt)) ∨
    failure = none ∧ ∃ row ∈ s.tickets, row.ticket = cleanTicket ticket ∧ now < row.expiresAt ∧
      (handleTicket s worldId ticket now failure).log =
        .admitted ⟨cleanTicket ticket, row.accountId, worldId, now⟩ :: s.log ∧
      (handleTicket s worldId ticket now failure).tickets =
        s.tickets.filter fun other => ¬(other.ticket = cleanTicket ticket ∧ now < other.expiresAt) := by
  unfold handleTicket
  dsimp only
  by_cases hzero : '\x00' ∈ (cleanTicket ticket).toList
  · rw [if_pos hzero]
    exact .inl ⟨rfl, List.Sublist.refl _, fun _ => .inl hzero⟩
  · rw [if_neg hzero]
    by_cases hquery : failure = some .query
    · rw [if_pos hquery]
      exact .inl ⟨rfl, List.Sublist.refl _, fun h => by rw [h] at hquery; cases hquery⟩
    · rw [if_neg hquery]
      have hsub : List.Sublist (s.consumeTicket (cleanTicket ticket) now).2.tickets s.tickets :=
        List.filter_sublist
      rcases consumeTicket_fst s (cleanTicket ticket) now with ⟨hnone, hexpired⟩ | ⟨row, hmem, hsome, hrow, hnow⟩
      · rw [← Prod.eta (s.consumeTicket (cleanTicket ticket) now), hnone]
        exact .inl ⟨rfl, hsub, fun _ => .inr hexpired⟩
      · rw [← Prod.eta (s.consumeTicket (cleanTicket ticket) now), hsome]
        cases failure with
        | some f => exact .inl ⟨rfl, hsub, fun h => by cases h⟩
        | none => exact .inr ⟨rfl, row, hmem, hrow, hnow, rfl, rfl⟩

/-! ### The padding -/

theorem asBytes_append (s t : String) : asBytes (s ++ t) = asBytes s ++ asBytes t := by
  simp [asBytes]

theorem asBytes_zeros (n : Nat) : asBytes (String.ofList (List.replicate n '\x00')) = List.replicate n 0 := by
  induction n with
  | zero => rfl
  | succ n ih =>
    have hcons : String.ofList (List.replicate (n + 1) '\x00') =
        String.ofList ['\x00'] ++ String.ofList (List.replicate n '\x00') := by
      rw [← String.ofList_append, List.replicate_succ]
      rfl
    rw [hcons, asBytes_append, ih]
    rfl

/-- A text without zeros comes back from under the padding. -/
theorem cleanTicket_append_zeros {ticket : String} (h : '\x00' ∉ ticket.toList) (n : Nat) :
    cleanTicket (ticket ++ String.ofList (List.replicate n '\x00')) = ticket := by
  have hreverse : (ticket ++ String.ofList (List.replicate n '\x00')).toList.reverse =
      List.replicate n '\x00' ++ ticket.toList.reverse := by
    rw [String.toList_append, String.toList_ofList, List.reverse_append, List.reverse_replicate]
  have hkeep : ticket.toList.reverse.dropWhile (· = '\x00') = ticket.toList.reverse := by
    rw [List.dropWhile_eq_self_iff]
    intro hlen heq
    refine h ?_
    rw [← of_decide_eq_true heq]
    exact List.mem_reverse.1 (List.getElem_mem hlen)
  rw [cleanTicket, hreverse, List.dropWhile_append_of_pos, hkeep, List.reverse_reverse, String.ofList_toList]
  intro c hc
  exact decide_eq_true (List.eq_of_mem_replicate hc)

theorem recognised_of_clean {presented ticket : String} (h : '\x00' ∉ ticket.toList)
    (hclean : cleanTicket presented = ticket) : Recognised presented ticket := by
  intro s worldId now row hmem hrow hnow
  rcases handleTicket_cases s worldId presented now none with
    ⟨-, -, hexpired⟩ | ⟨-, other, -, -, -, hlog, -⟩
  · rw [hclean] at hexpired
    rcases hexpired rfl with hzero | hexpired
    · exact absurd hzero h
    · exact absurd hnow (hexpired row hmem hrow)
  · exact ⟨_, hlog, hclean⟩

theorem recognised {encrypt decrypt : List UInt8 → List UInt8 → List UInt8 → List UInt8} {aesKey : List UInt8}
    (hcipher : ∀ key iv buf, key.length = 32 → iv.length = 16 → buf.length % 16 = 0 →
      decrypt key iv (encrypt key iv buf) = buf)
    (hkey : 32 ≤ aesKey.length) (ticket : Uuid) :
    ∃ ciphertext presented, encryptTicketAes encrypt aesKey ticket.text = some ciphertext ∧
      decodeWithAes decrypt aesKey ciphertext = some presented ∧ Recognised presented ticket.text := by
  obtain ⟨padLen, hpad⟩ : ∃ padLen, padLen = (16 - (asBytes ticket.text).length % 16) % 16 := ⟨_, rfl⟩
  have hzeros := asBytes_zeros padLen
  have hblocks : (asBytes ticket.text ++ List.replicate padLen (0 : UInt8)).length % 16 = 0 := by
    rw [List.length_append, List.length_replicate]
    omega
  refine ⟨_, ticket.text ++ String.ofList (List.replicate padLen '\x00'), if_neg (Nat.not_lt.2 hkey), ?_, ?_⟩
  · dsimp only [decodeWithAes]
    rw [← hpad, hcipher _ _ _ (List.length_take_of_le hkey) (List.length_take_of_le (by omega)) hblocks, ← hzeros,
      ← asBytes_append, fromUTF8?_asBytes]
  · exact recognised_of_clean ticket.zero_not_mem (cleanTicket_append_zeros ticket.zero_not_mem padLen)

/-! ### Runs -/

namespace Cluster

variable {s : Cluster}

/-- The rows are the tickets that were issued and have not been used. -/
structure Inv (s : Cluster) : Prop where
  /-- The primary key. -/
  distinct : (s.tickets.map Ticket.ticket).Nodup
  plain : ∀ row ∈ s.tickets, '\x00' ∉ row.ticket.toList
  unused : ∀ row ∈ s.tickets, ∃ expires, lastOf row.ticket s.log = some (.issued row expires) ∧
    row.expiresAt = toTimestamptz expires
  genuine : EachAdmission Genuine s.log

theorem inv_start (servers : List Server) : Inv (start servers) where
  distinct := List.nodup_nil
  plain := fun _ h => absurd h List.not_mem_nil
  unused := fun _ h => absurd h List.not_mem_nil
  genuine := trivial

/-- What an event can do: nothing to the log; issue a ticket that is not there; delete a row, and let in its
session. -/
theorem step_cases (hs : Inv s) (e : Event) :
    ((act s e).log = s.log ∧ List.Sublist (act s e).tickets s.tickets ∧ AtHome s e) ∨
    (∃ row expires, (∀ other ∈ s.tickets, other.ticket ≠ row.ticket) ∧ '\x00' ∉ row.ticket.toList ∧
      row.expiresAt = toTimestamptz expires ∧ (act s e).log = .issued row expires :: s.log ∧
      (act s e).tickets = s.tickets ++ [row] ∧ AtHome s e) ∨
    ∃ worldId ticket now row, e = .presentTicket worldId ticket now none ∧ row ∈ s.tickets ∧
      row.ticket = cleanTicket ticket ∧ now < row.expiresAt ∧
      (act s e).log = .admitted ⟨cleanTicket ticket, row.accountId, worldId, now⟩ :: s.log ∧
      (act s e).tickets = s.tickets.filter fun other =>
        ¬(other.ticket = cleanTicket ticket ∧ now < other.expiresAt) := by
  cases e with
  | setServers servers => exact .inl ⟨rfl, List.Sublist.refl _, trivial⟩
  | selectServer accountId serverId ticket now failure =>
    rw [show act s (Event.selectServer accountId serverId ticket now failure) =
      handleServerSelection s accountId serverId ticket now failure from rfl]
    rcases handleServerSelection_cases s accountId serverId ticket now failure with
      h | ⟨row, expires, hnew, hrow, hexpires, h⟩
    · rw [h]
      exact .inl ⟨rfl, List.Sublist.refl _, trivial⟩
    · refine .inr (.inl ⟨row, expires, hnew, ?_, hexpires, ?_, ?_, trivial⟩)
      · rw [hrow]
        exact ticket.zero_not_mem
      · rw [h]
      · rw [h]
  | presentTicket worldId ticket now failure =>
    rcases handleTicket_cases s worldId ticket now failure with
      ⟨hlog, hsub, hexpired⟩ | ⟨rfl, row, hmem, hrow, hnow, hlog, htickets⟩
    · refine .inl ⟨hlog, hsub, ?_⟩
      cases failure with
      | some f => trivial
      | none =>
        intro row hmem hrow hnow
        rcases hexpired rfl with hzero | hexpired
        · rw [← hrow] at hzero
          exact absurd hzero (hs.plain row hmem)
        · exact absurd hnow (hexpired row hmem hrow)
    · exact .inr (.inr ⟨worldId, ticket, now, row, rfl, hmem, hrow, hnow, hlog, htickets⟩)

theorem lastOf_cons_of_ne {e : Entry} {ticket : String} {log : List Entry} (h : e.ticket ≠ ticket) :
    lastOf ticket (e :: log) = lastOf ticket log := by
  rw [lastOf, List.find?_cons, decide_eq_false h]
  rfl

theorem lastOf_cons_self (e : Entry) (log : List Entry) : lastOf e.ticket (e :: log) = some e := by
  rw [lastOf, List.find?_cons, decide_eq_true rfl]

/-- Rounding the expiry to microseconds gives the ticket no time. -/
theorem lt_of_lt_toTimestamptz {now expires : Int} (h : now < toTimestamptz expires) : now * 1000 < expires := by
  unfold toTimestamptz at h
  omega

theorem Inv.step (hs : Inv s) (e : Event) : Inv (act s e) := by
  rcases step_cases hs e with
    ⟨hlog, hsub, -⟩ | ⟨row, expires, hnew, hplain, hexpires, hlog, htickets, -⟩ |
      ⟨worldId, ticket, now, row, -, hmem, hrow, hnow, hlog, htickets⟩
  · refine ⟨hs.distinct.sublist (hsub.map _), fun row h => hs.plain row (hsub.subset h), fun row h => ?_, ?_⟩
    · rw [hlog]
      exact hs.unused row (hsub.subset h)
    · rw [hlog]
      exact hs.genuine
  · refine ⟨?_, ?_, ?_, ?_⟩
    · rw [htickets, List.map_append]
      refine hs.distinct.append (List.nodup_singleton _) fun ticket h h' => ?_
      obtain ⟨other, hother, hticket⟩ := List.mem_map.1 h
      exact hnew other hother (hticket.trans (List.mem_singleton.1 h'))
    · intro other h
      rw [htickets] at h
      rcases List.mem_append.1 h with h | h
      · exact hs.plain other h
      · rw [List.mem_singleton.1 h]
        exact hplain
    · intro other h
      rw [htickets] at h
      rw [hlog]
      rcases List.mem_append.1 h with h | h
      · have hne : (Entry.issued row expires).ticket ≠ other.ticket := fun heq => hnew other h heq.symm
        rw [lastOf_cons_of_ne hne]
        exact hs.unused other h
      · rw [List.mem_singleton.1 h]
        exact ⟨expires, lastOf_cons_self _ _, hexpires⟩
    · rw [hlog]
      exact hs.genuine
  · obtain ⟨expires, hlast, hexpires⟩ := hs.unused row hmem
    refine ⟨?_, ?_, ?_, ?_⟩
    · rw [htickets]
      exact hs.distinct.sublist (List.filter_sublist.map _)
    · intro other h
      rw [htickets] at h
      exact hs.plain other (List.mem_of_mem_filter h)
    · intro other h
      rw [htickets] at h
      obtain ⟨hother, hleft⟩ := List.mem_filter.1 h
      -- a row with the same ticket would be the row that was deleted
      have hne : (Entry.admitted ⟨cleanTicket ticket, row.accountId, worldId, now⟩).ticket ≠ other.ticket := by
        intro heq
        have hsame : other = row := List.inj_on_of_nodup_map hs.distinct hother hmem (heq.symm.trans hrow.symm)
        rw [hsame] at hleft
        exact of_decide_eq_true hleft ⟨hrow, hnow⟩
      rw [hlog, lastOf_cons_of_ne hne]
      exact hs.unused other hother
    · rw [hlog]
      refine ⟨⟨row, expires, ?_, rfl, ?_⟩, hs.genuine⟩
      · rw [← hrow]
        exact hlast
      · rw [hexpires] at hnow
        exact lt_of_lt_toTimestamptz hnow

theorem Inv.run (hs : Inv s) (es : List Event) : Inv (after s es) :=
  (along_true.invariant (fun _ e hs _ => hs.step e) hs).2

/-! ### Addressed tickets -/

/-- An event keeps all sessions on their servers if and only if it takes no good ticket elsewhere. -/
theorem addressed_step_iff (hs : Inv s) (e : Event) :
    EachAdmission Addressed (act s e).log ↔ EachAdmission Addressed s.log ∧ AtHome s e := by
  rcases step_cases hs e with
    ⟨hlog, -, hhome⟩ | ⟨row, expires, -, -, -, hlog, -, hhome⟩ |
      ⟨worldId, ticket, now, row, rfl, hmem, hrow, hnow, hlog, -⟩
  · rw [hlog]
    exact (and_iff_left hhome).symm
  · rw [hlog]
    exact (and_iff_left hhome).symm
  · rw [hlog]
    obtain ⟨expires, hlast, -⟩ := hs.unused row hmem
    rw [hrow] at hlast
    constructor
    · rintro ⟨⟨row', expires', hlast', hworld⟩, hrest⟩
      rw [hlast] at hlast'
      obtain ⟨rfl, -⟩ := Entry.issued.inj (Option.some.inj hlast')
      refine ⟨hrest, fun other hother hticket _ => ?_⟩
      have hsame : other = row := List.inj_on_of_nodup_map hs.distinct hother hmem (hticket.trans hrow.symm)
      rw [hsame]
      exact hworld
    · rintro ⟨hrest, hhome⟩
      exact ⟨⟨row, expires, hlast, hhome row hmem hrow hnow⟩, hrest⟩

theorem addressed_run_iff (hs : Inv s) (es : List Event) :
    EachAdmission Addressed (after s es).log ↔ EachAdmission Addressed s.log ∧ Along AtHome s es := by
  induction es generalizing s with
  | nil => exact (and_iff_left trivial).symm
  | cons e es ih =>
    calc EachAdmission Addressed (after (act s e) es).log
        ↔ EachAdmission Addressed (act s e).log ∧ Along AtHome (act s e) es := ih (hs.step e)
      _ ↔ (EachAdmission Addressed s.log ∧ AtHome s e) ∧ Along AtHome (act s e) es := by
        rw [addressed_step_iff hs e]
      _ ↔ EachAdmission Addressed s.log ∧ Along AtHome s (e :: es) := and_assoc

end Cluster

/-- Tickets are single-use, timely and addressed in a run, and recognised under their padding, if and only if every
ticket that is good is presented to the server it is for. -/
theorem tickets_iff {encrypt decrypt : List UInt8 → List UInt8 → List UInt8 → List UInt8} {aesKey : List UInt8}
    (hcipher : ∀ key iv buf, key.length = 32 → iv.length = 16 → buf.length % 16 = 0 →
      decrypt key iv (encrypt key iv buf) = buf)
    (hkey : 32 ≤ aesKey.length) (servers : List Server) (es : List Event) :
    (TicketsHold (after (Cluster.start servers) es).log ∧
      ∀ ticket : Uuid, ∃ ciphertext presented, encryptTicketAes encrypt aesKey ticket.text = some ciphertext ∧
        decodeWithAes decrypt aesKey ciphertext = some presented ∧ Recognised presented ticket.text) ↔
      Along AtHome (Cluster.start servers) es := by
  have hinv := (Cluster.inv_start servers).run es
  have haddressed := Cluster.addressed_run_iff (Cluster.inv_start servers) es
  constructor
  · rintro ⟨⟨-, -, h⟩, -⟩
    exact (haddressed.1 h).2
  · intro h
    refine ⟨⟨?_, hinv.genuine, haddressed.2 ⟨trivial, h⟩⟩, recognised hcipher hkey⟩
    exact admissions_le_issues hinv.genuine

def sampleTicket : Uuid := ⟨"12345678-9abc-4def-8123-456789abcdef", by decide +kernel⟩

def sampleKey : List UInt8 := (List.range 32).map UInt8.ofNat

/-- The sample ticket under its padding, encrypted with the sample key. -/
def sampleCiphertext : List UInt8 :=
  [122, 47, 126, 223, 134, 183, 193, 233, 106, 162, 12, 181, 233, 130, 140, 109, 255, 175, 15, 94, 160, 150, 172, 225,
    84, 83, 63, 170, 18, 217, 62, 116, 124, 2, 226, 161, 12, 240, 76, 16, 33, 87, 168, 57, 144, 66, 223, 151]

/-- AES on the sample ticket. -/
def sampleCipher (_key _iv buf : List UInt8) : List UInt8 :=
  let plaintext := asBytes sampleTicket.text ++ List.replicate 12 0
  if buf = plaintext then sampleCiphertext else if buf = sampleCiphertext then plaintext else buf

/-- The sample ticket is issued for the first server, is presented to it under its padding, and is replayed at both
servers. -/
def sampleRun : List Event :=
  [.selectServer 7 1 sampleTicket 1000000 none,
    .presentTicket 1 (sampleTicket.text ++ String.ofList (List.replicate 12 '\x00')) 2000 none,
    .presentTicket 1 sampleTicket.text 3000 none, .presentTicket 2 sampleTicket.text 3000 none]

theorem tickets_iff_sample :
    TicketsHold (after (Cluster.start [⟨1, 3⟩, ⟨2, 3⟩]) sampleRun).log ∧
      ∀ ticket : Uuid, ∃ ciphertext presented, encryptTicketAes sampleCipher sampleKey ticket.text = some ciphertext ∧
        decodeWithAes sampleCipher sampleKey ciphertext = some presented ∧ Recognised presented ticket.text := by
  refine (tickets_iff ?_ (by decide) _ _).2 ?_
  · intro key iv buf _ _ _
    have hne : sampleCiphertext ≠ asBytes sampleTicket.text ++ List.replicate 12 0 := by decide +kernel
    unfold sampleCipher
    split_ifs <;> simp_all
  · decide +kernel

/-- A ticket that was issued for the first server lets in a session on the second. -/
theorem ticket_used_elsewhere :
    ¬TicketsHold (after (Cluster.start [⟨1, 3⟩, ⟨2, 3⟩])
      [.selectServer 7 1 sampleTicket 1000000 none, .presentTicket 2 sampleTicket.text 2000 none]).log := by
  intro h
  have hhome := (Cluster.addressed_run_iff (Cluster.inv_start _) _).1 h.2.2
  exact absurd hhome.2 (by decide +kernel)

end Otomai.Auth
