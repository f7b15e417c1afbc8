import Otomai.Common.HashMap
import Otomai.World.Actors

/-!
# Whispers

A private message is delivered to the first player who is found under its name.  The players are found in the order in
which the hash maps of the world happen to be iterated, and the names are compared without regard to the case of ASCII
letters; names that differ in case only are different names for the creation of a character.

* `accepted_created`: the names that characters can have.
* `findPlayerByName_iff`: when a player is found under the own name, whatever the order.
* `whispers_iff`: when a private message reaches the player whose name it bears.
-/

namespace Otomai

namespace World

/-! ### The world -/

/-- The players of a map, by their characters. -/
abbrev WorldMap := HashMap Int64 MapPlayer

end World

/-- The maps that somebody is on. -/
abbrev World := HashMap Int64 World.WorldMap

namespace World

open BigEndianWriter

def toAsciiLowercase (b : UInt8) : UInt8 := if 65 ≤ b ∧ b ≤ 90 then b + 32 else b

/-- `a.eq_ignore_ascii_case(b)`. -/
def eqIgnoreAsciiCase (a b : String) : Bool :=
  (asBytes a).map toAsciiLowercase = (asBytes b).map toAsciiLowercase

/-- All players, in the order in which two loops come to them. -/
def players (w : World) : List MapPlayer := (HashMap.values w).flatMap HashMap.values

def findPlayerByName (w : World) (name : String) : Option MapPlayer :=
  w.players.find? fun player => eqIgnoreAsciiCase player.name name

/-- A player is on one of the maps. -/
def Online (w : World) (player : MapPlayer) : Prop :=
  ∃ (mapId : Int64) (m : WorldMap) (characterId : Int64), w.lookup mapId = some m ∧ m.lookup characterId = some player

/-- The same world, whose hash maps are iterated in orders of their own. -/
def Same (w w' : World) : Prop := ∀ mapId : Int64, Option.Rel HashMap.Same (w.lookup mapId) (w'.lookup mapId)

/-! ### Names -/

/-- The result of a creation, and the names of the table of characters after it. -/
def handleCharacterCreation (names : List String) (name : String) : UInt8 × List String :=
  if name = "" ∨ 20 < (asBytes name).length then (4, names)
  else if name ∈ names then (1, names)
  else (0, name :: names)

/-! ### Private messages -/

structure ChatServerMessage where
  channel : UInt8
  content : String
  timestamp : Int32
  fingerprint : String
  senderId : UInt64
  senderName : String
  prefixText : String
  senderAccountId : Int32
  deriving DecidableEq, Repr

structure ChatServerCopyMessage where
  channel : UInt8
  content : String
  timestamp : Int32
  fingerprint : String
  receiverId : Int64
  receiverName : String
  deriving DecidableEq, Repr

/-- What the session of the sender is sent. -/
inductive Reply where
  | chatServer (msg : ChatServerMessage)
  | chatServerCopy (msg : ChatServerCopyMessage)
  deriving DecidableEq, Repr

/-- The messages that are put into the queues behind players, and those that are sent back. -/
structure Effects where
  delivered : List (MapPlayer × ChatServerMessage)
  sent : List Reply

/-- Who sends a private message, and when. -/
structure Sender where
  characterId : Int64
  characterName : String
  accountId : Int64
  timestamp : Int32

def Sender.message (sender : Sender) (content : String) : ChatServerMessage where
  channel := 9
  content := content
  timestamp := sender.timestamp
  fingerprint := ""
  senderId := sender.characterId.toFloat.toBits
  senderName := sender.characterName
  prefixText := ""
  senderAccountId := sender.accountId.toInt32

def Sender.copy (sender : Sender) (content : String) (target : MapPlayer) : ChatServerCopyMessage where
  channel := 9
  content := content
  timestamp := sender.timestamp
  fingerprint := ""
  receiverId := target.characterId
  receiverName := target.name

def Sender.notConnected (sender : Sender) (receiver : String) : ChatServerMessage where
  channel := 10
  content := "Le joueur \"" ++ receiver ++ "\" n'est pas connecté."
  timestamp := sender.timestamp
  fingerprint := ""
  senderId := 0
  senderName := ""
  prefixText := ""
  senderAccountId := 0

def handleChatPrivate (w : World) (sender : Sender) (receiver content : String) : Effects :=
  if content = "" ∨ 512 < (asBytes content).length then { delivered := [], sent := [] }
  else
    match findPlayerByName w receiver with
    | some target =>
      { delivered := [(target, sender.message content)], sent := [.chatServerCopy (sender.copy content target)] }
    | none => { delivered := [], sent := [.chatServer (sender.notConnected receiver)] }

/-- The message is delivered to one player and to nobody else, and the copy names that player. -/
def Reaches (e : Effects) (sender : Sender) (content : String) (target : MapPlayer) : Prop :=
  e.delivered = [(target, sender.message content)] ∧ e.sent = [.chatServerCopy (sender.copy content target)]

/-! ### Who is found -/

section

variable {w w' : World} {p q : MapPlayer} {name : String}

theorem eqIgnoreAsciiCase_self (name : String) : eqIgnoreAsciiCase name name = true := by
  simp only [eqIgnoreAsciiCase, decide_true]

theorem mem_players : p ∈ w.players ↔ w.Online p := by
  simp only [players, Online, List.mem_flatMap, HashMap.mem_values]
  constructor
  · rintro ⟨m, ⟨mapId, hm⟩, characterId, hp⟩
    exact ⟨mapId, m, characterId, hm, hp⟩
  · rintro ⟨mapId, m, characterId, hm, hp⟩
    exact ⟨m, ⟨mapId, hm⟩, characterId, hp⟩

theorem same_refl (w : World) : w.Same w := by
  intro mapId
  cases w.lookup mapId with
  | none => exact .none
  | some m => exact .some (HashMap.Same.refl m)

/-- Who is online does not depend on an order. -/
theorem online_of_same (h : w.Same w') (hp : w'.Online p) : w.Online p := by
  obtain ⟨mapId, m', characterId, hm', hlookup⟩ := hp
  have hmap := h mapId
  rw [hm'] at hmap
  generalize hm : w.lookup mapId = found at hmap
  cases hmap with
  | @some m _ hsame => exact ⟨mapId, m, characterId, hm, (hsame characterId).trans hlookup⟩

theorem Same.symm (h : w.Same w') : w'.Same w := by
  intro mapId
  have hmap := h mapId
  generalize w.lookup mapId = found, w'.lookup mapId = found' at hmap ⊢
  cases hmap with
  | none => exact .none
  | some hsame => exact .some fun characterId => (hsame characterId).symm

/-- Every player online is the first one in some order. -/
theorem exists_same_first (hq : w.Online q) : ∃ w' : World, w.Same w' ∧ ∃ rest, w'.players = q :: rest := by
  obtain ⟨mapId, m, characterId, hm, hlookup⟩ := hq
  refine ⟨w.insert mapId (m.insert characterId q), fun mapId' => ?_, ?_⟩
  · by_cases hid : mapId' = mapId
    · rw [hid, AList.lookup_insert, hm]
      exact .some (HashMap.same_insert hlookup)
    · rw [AList.lookup_insert_ne hid]
      exact same_refl w mapId'
  · obtain ⟨maps, hmaps⟩ := HashMap.values_insert w mapId (m.insert characterId q)
    obtain ⟨others, hothers⟩ := HashMap.values_insert m characterId q
    refine ⟨others ++ maps.flatMap HashMap.values, ?_⟩
    rw [players, hmaps, List.flatMap_cons, hothers, List.cons_append]

theorem findPlayerByName_mem (h : w.findPlayerByName name = some q) :
    w.Online q ∧ eqIgnoreAsciiCase q.name name = true := by
  have hfind : w.players.find? (fun player => eqIgnoreAsciiCase player.name name) = some q := h
  have hname := List.find?_some hfind
  exact ⟨mem_players.1 (List.mem_of_find?_eq_some hfind), hname⟩

theorem findPlayerByName_first {rest : List MapPlayer} (h : w.players = q :: rest)
    (hname : eqIgnoreAsciiCase q.name name = true) : w.findPlayerByName name = some q := by
  rw [findPlayerByName, h]
  exact List.find?_cons_of_pos (p := fun player : MapPlayer => eqIgnoreAsciiCase player.name name) hname

/-- Whatever the order, a player is found under the own name if and only if no other player is online whose name
differs from it in the case of letters at most. -/
theorem findPlayerByName_iff (hp : w.Online p) :
    (∀ w', w.Same w' → findPlayerByName w' p.name = some p) ↔
      ∀ q, w.Online q → eqIgnoreAsciiCase q.name p.name = true → q = p := by
  constructor
  · intro hfound q hq hname
    obtain ⟨w', hsame, rest, hfirst⟩ := exists_same_first hq
    have hmet := findPlayerByName_first hfirst hname
    rw [hfound w' hsame] at hmet
    exact (Option.some.inj hmet).symm
  · intro hunique w' hsame
    cases hfound : findPlayerByName w' p.name with
    | none =>
      -- the player would have been found itself
      have hnone := List.find?_eq_none.1 hfound p (mem_players.2 (online_of_same hsame.symm hp))
      rw [eqIgnoreAsciiCase_self] at hnone
      exact absurd rfl hnone
    | some q =>
      obtain ⟨hq, hname⟩ := findPlayerByName_mem hfound
      rw [hunique q (online_of_same hsame hq) hname]

/-! ### Names that are created -/

/-- The names of the table of characters after some creations. -/
def created (names : List String) (requests : List String) : List String :=
  requests.foldl (fun names name => (handleCharacterCreation names name).2) names

/-- Names that are accepted differ from each other and have one to twenty bytes. -/
def Accepted (names : List String) : Prop :=
  names.Nodup ∧ ∀ name ∈ names, name ≠ "" ∧ (asBytes name).length ≤ 20

theorem accepted_handleCharacterCreation {names : List String} (h : Accepted names) (name : String) :
    Accepted (handleCharacterCreation names name).2 := by
  unfold handleCharacterCreation
  by_cases hname : name = "" ∨ 20 < (asBytes name).length
  · rw [if_pos hname]
    exact h
  rw [if_neg hname]
  by_cases hexists : name ∈ names
  · rw [if_pos hexists]
    exact h
  rw [if_neg hexists]
  obtain ⟨hempty, hlong⟩ := not_or.1 hname
  exact ⟨List.nodup_cons.2 ⟨hexists, h.1⟩, List.forall_mem_cons.2 ⟨⟨hempty, Nat.le_of_not_lt hlong⟩, h.2⟩⟩

theorem accepted_created {names : List String} (h : Accepted names) (requests : List String) :
    Accepted (created names requests) := by
  induction requests generalizing names with
  | nil => exact h
  | cons name requests ih => exact ih (accepted_handleCharacterCreation h name)

/-! ### Delivery -/

theorem reaches_iff {sender : Sender} {content : String} :
    Reaches (handleChatPrivate w sender name content) sender content p ↔
      (content ≠ "" ∧ (asBytes content).length ≤ 512) ∧ w.findPlayerByName name = some p := by
  unfold handleChatPrivate Reaches
  by_cases hcontent : content = "" ∨ 512 < (asBytes content).length
  · rw [if_pos hcontent]
    constructor
    · rintro ⟨hnobody, -⟩
      cases hnobody
    · rintro ⟨⟨hne, hle⟩, -⟩
      rcases hcontent with hempty | hlong
      · exact absurd hempty hne
      · omega
  rw [if_neg hcontent]
  obtain ⟨hne, hle⟩ := not_or.1 hcontent
  cases hfound : w.findPlayerByName name with
  | none => simp
  | some q =>
    constructor
    · rintro ⟨hdelivered, -⟩
      obtain ⟨rfl, -⟩ := Prod.mk.inj (List.singleton_inj.1 hdelivered)
      exact ⟨⟨hne, Nat.le_of_not_lt hle⟩, rfl⟩
    · rintro ⟨-, hq⟩
      obtain rfl := Option.some.inj hq
      exact ⟨rfl, rfl⟩

/-- Whatever the order in which the world is iterated, a private message to the name of a player online reaches that
player and nobody else, if and only if it has one to 512 bytes and nobody else is online under a name that differs
from it in the case of ASCII letters at most. -/
theorem whispers_iff (w : World) (sender : Sender) (content : String) (p : MapPlayer) (hp : w.Online p) :
    (∀ w', w.Same w' → Reaches (handleChatPrivate w' sender p.name content) sender content p) ↔
      (content ≠ "" ∧ (asBytes content).length ≤ 512) ∧
        ∀ q, w.Online q → eqIgnoreAsciiCase q.name p.name = true → q = p := by
  rw [← findPlayerByName_iff hp]
  simp only [reaches_iff]
  constructor
  · exact fun h => ⟨(h w (same_refl w)).1, fun w' hsame => (h w' hsame).2⟩
  · exact fun h w' hsame => ⟨h.1, h.2 w' hsame⟩

end

/-! ### A few players -/

/-- A player under some name. -/
def named (characterId : Int64) (name : String) : MapPlayer where
  characterId := characterId
  accountId := characterId
  name := name
  entityLook := .mk 1 [10] [] [100] []
  cellId := 300
  direction := 1
  sex := false

def on (mapId : Int64) (ps : List MapPlayer) (w : World) : World :=
  w.insert mapId (HashMap.ofPairs (ps.map fun p => (p.characterId, p)))

def alice : Sender := { characterId := 9, characterName := "Alice", accountId := 9, timestamp := 0 }

/-- Bob has a neighbour, and there is somebody on another map. -/
def crowd : World := on 2 [named 8 "Carol"] (on 1 [named 7 "Bob", named 6 "Bobby"] ∅)

theorem online_crowd (q : MapPlayer) :
    crowd.Online q ↔ q = named 8 "Carol" ∨ q = named 6 "Bobby" ∨ q = named 7 "Bob" := by
  have hplayers : crowd.players = [named 8 "Carol", named 6 "Bobby", named 7 "Bob"] := rfl
  rw [← mem_players, hplayers]
  simp only [List.mem_cons, List.not_mem_nil, or_false]

theorem whispers_iff_crowd : crowd.Online (named 7 "Bob") ∧ ∀ w', crowd.Same w' →
    Reaches (handleChatPrivate w' alice "Bob" "hello") alice "hello" (named 7 "Bob") := by
  have hbob : crowd.Online (named 7 "Bob") := (online_crowd _).2 (.inr (.inr rfl))
  refine ⟨hbob, (whispers_iff crowd alice "hello" _ hbob).2 ⟨⟨by decide, by decide⟩, fun q hq hname => ?_⟩⟩
  rcases (online_crowd q).1 hq with rfl | rfl | rfl
  · exact absurd hname (by decide)
  · exact absurd hname (by decide)
  · rfl

/-- Both names can be created, and where the one is met first, a message to the other does not reach it. -/
theorem not_reaches_bob : created [] ["Bob", "bob"] = ["bob", "Bob"] ∧
    ¬Reaches (handleChatPrivate (on 2 [named 8 "bob"] (on 1 [named 7 "Bob"] ∅)) alice "Bob" "hello") alice "hello"
      (named 7 "Bob") := by
  refine ⟨by decide, fun hreaches => ?_⟩
  have hplayers : (on 2 [named 8 "bob"] (on 1 [named 7 "Bob"] ∅)).players = [named 8 "bob", named 7 "Bob"] := rfl
  have hfound := (reaches_iff.1 hreaches).2
  rw [findPlayerByName_first hplayers (by decide)] at hfound
  have hid := congrArg MapPlayer.characterId (Option.some.inj hfound)
  exact absurd hid (by decide)

end World

end Otomai
