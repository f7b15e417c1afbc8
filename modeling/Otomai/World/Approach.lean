import Otomai.Trace.Program
import Otomai.World.Characters

/-!
# The approach of players

Before it enters the world, a session creates characters, lists them and selects one, and it may befriend or ignore
others.  Each of these requests takes several queries, between which the other sessions go on; any query may fail,
before or after its effect, and any message to the client may get lost, which ends the session.
-/

namespace Otomai.World.Approach

open BigEndianWriter Trace

/-! ### The sessions -/

structure CharacterCreationRequestMessage where
  name : String
  breed : UInt8
  sex : Bool
  colors : List Int32
  deriving DecidableEq, Repr

/-- A query fails without effect, or after its effect. -/
inductive Failure where
  | query
  | reply
  deriving DecidableEq, Repr

/-- The two lists of other accounts. -/
inductive Book where
  | friends
  | ignored
  deriving DecidableEq, Repr

inductive Request where
  | charactersList
  | creation (msg : CharacterCreationRequestMessage)
  | selection (id : Int)
  | add (book : Book) (name : String)
  | delete (book : Book) (accountId : Int32)
  deriving DecidableEq, Repr

/-- What a session says; a result of a creation with the request it answers, and the character that was created. -/
inductive Reply where
  | creationResult (msg : CharacterCreationRequestMessage) (result : UInt8) (character : Option Identity)
  | charactersList (rows : List Row)
  | characterSelectedError
  | characterSelectedSuccess (row : Row)
  /-- `send_empty`: the lists of friends and of ignored accounts are not filled. -/
  | emptyList (book : Book)
  | friendDeleteResult
  deriving DecidableEq, Repr

/-- What a session waits for, with what it holds meanwhile. -/
inductive Phase where
  | idle
  /-- The rows of the account. -/
  | listing
  /-- Whether the name exists. -/
  | checking (msg : CharacterCreationRequestMessage)
  /-- The new row. -/
  | inserting (msg : CharacterCreationRequestMessage)
  /-- The spells that are left. -/
  | learning (msg : CharacterCreationRequestMessage) (character : Identity) (left : List SpellRow)
  /-- The result has been sent. -/
  | telling (msg : CharacterCreationRequestMessage) (result : UInt8) (character : Option Identity)
  /-- The row that is selected. -/
  | choosing (id : Int)
  /-- The name of the selected character. -/
  | naming (id : Int)
  /-- The account that has a character of this name. -/
  | seeking (book : Book) (name : String)
  | adding (book : Book) (target : Int)
  | removing (book : Book) (target : Int)
  | closed
  deriving DecidableEq, Repr

structure Player where
  accountId : Int
  phase : Phase
  sent : List Reply
  characterId : Option Int
  characterName : Option String
  deriving DecidableEq, Repr

/-- The tables that the sessions share. -/
structure Shared where
  accounts : List Int
  characters : Characters
  spells : List SpellRow
  friends : List (Int × Int)
  ignored : List (Int × Int)

/-- What a session waits for comes. -/
inductive Wake where
  | receive (request : Option Request)
  | query (failure : Option Failure)
  | sent
  | fail

def Player.start (accountId : Int) : Player := ⟨accountId, .idle, [], none, none⟩

/-- The session says something and waits for a request. -/
def Player.say (p : Player) (r : Reply) : Player := { p with phase := .idle, sent := p.sent ++ [r] }

def Player.close (p : Player) : Player := { p with phase := .closed }

def ValidName (name : String) : Prop := name ≠ "" ∧ (asBytes name).length ≤ 20

instance : DecidablePred ValidName := fun _ => inferInstanceAs (Decidable (_ ∧ _))

/-- A text of the database holds no zero. -/
def Storable (name : String) : Prop := '\x00' ∉ name.toList

instance : DecidablePred Storable := fun _ => inferInstanceAs (Decidable (_ ∉ _))

def Shared.pairs (s : Shared) : Book → List (Int × Int)
  | .friends => s.friends
  | .ignored => s.ignored

def Shared.setPairs (s : Shared) : Book → List (Int × Int) → Shared
  | .friends, pairs => { s with friends := pairs }
  | .ignored, pairs => { s with ignored := pairs }

/-- The start of a handler. -/
def begin (p : Player) : Request → Player
  | .charactersList => { p with phase := .listing }
  | .creation msg =>
    -- `ERR_INVALID_NAME`
    if ValidName msg.name then { p with phase := .checking msg } else { p with phase := .telling msg 4 none }
  | .selection id => { p with phase := .choosing id }
  | .add book name => { p with phase := .seeking book name }
  | .delete book accountId => { p with phase := .removing book accountId.toInt }

/-- The end of `handle_characters_list_request`. -/
def listed (s : Shared) (p : Player) (failure : Option Failure) : Player :=
  if failure.isSome then p.close else p.say (.charactersList (s.characters.list p.accountId))

def checked (s : Shared) (p : Player) (msg : CharacterCreationRequestMessage) (failure : Option Failure) : Player :=
  if failure.isSome ∨ ¬Storable msg.name then p.close
  -- `ERR_NAME_ALREADY_EXISTS`
  else if s.characters.nameExists msg.name then { p with phase := .telling msg 1 none }
  else { p with phase := .inserting msg }

/-- Another spell of the new character, or the end. -/
def learn (p : Player) (msg : CharacterCreationRequestMessage) (c : Identity) (left : List SpellRow) : Player :=
  if left = [] then { p with phase := .telling msg 0 (some c) } else { p with phase := .learning msg c left }

/-- The row of `create_character`; any error of it is `ERR_TOO_MANY_CHARACTERS`. -/
def inserted (s : Shared) (p : Player) (msg : CharacterCreationRequestMessage) (failure : Option Failure) :
    Shared × Player :=
  if failure = some .query then (s, { p with phase := .telling msg 2 none })
  else
    match s.characters.insertCharacter s.accounts p.accountId msg.name (Int32.ofNat msg.breed.toNat)
      (if msg.sex then 1 else 0) msg.colors with
    | (none, characters) => ({ s with characters }, { p with phase := .telling msg 2 none })
    | (some c, characters) =>
      if failure.isSome then ({ s with characters }, { p with phase := .telling msg 2 none })
      else ({ s with characters }, learn p msg c (startingSpells c))

/-- A step of the loop of `insert_breed_spells`. -/
def learnt (s : Shared) (p : Player) (msg : CharacterCreationRequestMessage) (c : Identity)
    (failure : Option Failure) :
    List SpellRow → Shared × Player
  | [] => (s, learn p msg c [])
  | row :: left =>
    if failure = some .query then (s, { p with phase := .telling msg 2 none })
    else
      let s := { s with spells := insertSpell s.spells row }
      if failure.isSome then (s, { p with phase := .telling msg 2 none }) else (s, learn p msg c left)

def chosen (s : Shared) (p : Player) (id : Int) (failure : Option Failure) : Player :=
  if failure.isSome then p.close
  else
    match s.characters.getCharacterForAccount id p.accountId with
    | some row => { p with phase := .naming id, sent := p.sent ++ [.characterSelectedSuccess row] }
    | none => p.say .characterSelectedError

/-- What the dispatcher does after a selection. -/
def named (s : Shared) (p : Player) (id : Int) (failure : Option Failure) : Player :=
  if failure.isSome then p.close
  else
    match s.characters.getCharacter id with
    | some row => { p with phase := .idle, characterId := some id, characterName := some row.who.name }
    | none => { p with phase := .idle, characterId := some id }

def sought (s : Shared) (p : Player) (book : Book) (name : String) (failure : Option Failure) : Player :=
  if failure.isSome ∨ ¬Storable name then p.close
  else
    match s.characters.findAccountByCharacterName name with
    | some target =>
      if target ≠ p.accountId then { p with phase := .adding book target } else { p with phase := .idle }
    | none => { p with phase := .idle }

/-- The pair is inserted, or deleted, and the session says so. -/
def change (s : Shared) (p : Player) (book : Book) (pairs : List (Int × Int)) (r : Reply) (failure : Option Failure) :
    Shared × Player :=
  if failure = some .query then (s, p.close)
  else if failure.isSome then (s.setPairs book pairs, p.close)
  else (s.setPairs book pairs, p.say r)

/-- The database answers what a session has asked, or fails. -/
def answer (s : Shared) (p : Player) (failure : Option Failure) : Shared × Player :=
  match p.phase with
  | .listing => (s, listed s p failure)
  | .checking msg => (s, checked s p msg failure)
  | .inserting msg => inserted s p msg failure
  | .learning msg c left => learnt s p msg c failure left
  | .choosing id => (s, chosen s p id failure)
  | .naming id => (s, named s p id failure)
  | .seeking book name => (s, sought s p book name failure)
  | .adding book target => change s p book (addPair (s.pairs book) (p.accountId, target)) (.emptyList book) failure
  | .removing book target =>
    change s p book (removePair (s.pairs book) (p.accountId, target))
      (if book = .friends then .friendDeleteResult else .emptyList book) failure
  | _ => (s, p)

/-- A session moves on. -/
def advance (s : Shared) (p : Player) : Wake → Shared × Player
  | .receive request =>
    if p.phase = .idle then
      match request with
      | some request => (s, begin p request)
      | none => (s, p.close)
    else (s, p)
  | .query failure => answer s p failure
  | .sent =>
    match p.phase with
    | .telling msg result character =>
      let p := p.say (.creationResult msg result character)
      -- the list is sent again
      (s, if result = 0 then { p with phase := .listing } else p)
    | _ => (s, p)
  | .fail => (s, p.close)

/-! ### The system -/

structure System where
  shared : Shared
  sessions : List Player

inductive Event where
  | register (accountId : Int)
  | connect (accountId : Int)
  | wake (i : Nat) (w : Wake)
  | amend (id : Int) (level : Int32) (mapId : Int64) (cellId direction : Int32)

def System.start : System := ⟨⟨[], .empty, [], [], []⟩, []⟩

def System.step (s : System) : Event → System
  | .register accountId => { s with shared := { s.shared with accounts := s.shared.accounts.insert accountId } }
  | .connect accountId =>
    if accountId ∈ s.shared.accounts then { s with sessions := s.sessions ++ [Player.start accountId] } else s
  | .wake i w =>
    match s.sessions[i]? with
    | none => s
    | some p =>
      let r := advance s.shared p w
      { shared := r.1, sessions := s.sessions.set i r.2 }
  | .amend id level mapId cellId direction =>
    { s with shared := { s.shared with characters := s.shared.characters.amend id level mapId cellId direction } }

instance : Acts System Event := ⟨System.step⟩

end Otomai.World.Approach
