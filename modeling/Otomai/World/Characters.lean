import Otomai.World.Actors

/-!
# The tables of the world

The tables of characters, of their spells, and of friends and ignored accounts, with the queries that the approach of
a player needs.  Nothing of who a character is changes, and no character is deleted.

* `insertCharacter_cases`: what becomes of an insertion.
* `spellsOf_insertSpell`: the spells of a character after one more.
-/

namespace Otomai.World.Approach

open BigEndianWriter

/-- What never changes of a character. -/
structure Identity where
  id : Int
  accountId : Int
  name : String
  breedId : Int32
  sex : Int32
  colors : List Int32
  deriving DecidableEq, Repr

/-- A row of the table of characters. -/
structure Row where
  who : Identity
  level : Int32
  mapId : Int64
  cellId : Int32
  direction : Int32
  deriving DecidableEq, Repr

/-- The row as it is listed. -/
def Row.listed (row : Row) : World.Character where
  id := Int64.ofInt row.who.id
  name := row.who.name
  breedId := row.who.breedId
  sex := row.who.sex
  level := row.level
  colors := .array (row.who.colors.map DataReader.Value.ofI32)

def Row.amend (row : Row) (id : Int) (level : Int32) (mapId : Int64) (cellId direction : Int32) : Row :=
  if row.who.id = id then { row with level, mapId, cellId, direction } else row

@[simp] theorem Row.who_amend (row : Row) (id : Int) (level : Int32) (mapId : Int64) (cellId direction : Int32) :
    (row.amend id level mapId cellId direction).who = row.who := by
  unfold Row.amend
  split <;> rfl

/-- The table of characters: the names are unique, and the ids come from a sequence. -/
structure Characters where
  rows : List Row
  nextId : Int
  names : (rows.map fun row => row.who.name).Nodup
  ids : (rows.map fun row => row.who.id).Nodup
  fresh : ∀ row ∈ rows, row.who.id < nextId

structure SpellRow where
  characterId : Int
  spellId : Int32
  level : Int32
  position : Int32
  deriving DecidableEq, Repr

/-- `DEFAULT_MAP_ID` and `DEFAULT_CELL_ID`. -/
def defaultMapId : Int64 := 154010883

def defaultCellId : Int32 := 297

/-- `BREED_SPELLS`: the starting spells of each breed. -/
def breedSpells : List (Int32 × List Int32) :=
  [(1, [3, 6, 17]), (2, [21, 22, 23]), (3, [41, 43, 44]), (4, [61, 62, 65]), (5, [81, 82, 83]), (6, [102, 103, 105]),
    (7, [121, 124, 125]), (8, [141, 142, 143]), (9, [161, 162, 163]), (10, [183, 184, 189]), (11, [432, 433, 434]),
    (12, [686, 687, 688]), (13, [2763, 2766, 2769]), (14, [2872, 2876, 2878]), (15, [2980, 2981, 2982]),
    (16, [3499, 3500, 3501]), (17, [4627, 4628, 4629]), (18, [5084, 5085, 5086])]

/-- The rows that `insert_breed_spells` inserts, one after the other. -/
def startingSpells (c : Identity) : List SpellRow :=
  let spells := ((breedSpells.find? fun p => p.1 = c.breedId).map Prod.snd).getD []
  spells.zipIdx.map fun p => ⟨c.id, p.1, 1, Int32.ofNat p.2⟩

namespace Characters

def empty : Characters := ⟨[], 1, List.nodup_nil, List.nodup_nil, fun _ h => absurd h List.not_mem_nil⟩

/-- Who there is. -/
def who (t : Characters) : List Identity := t.rows.map Row.who

def nameExists (t : Characters) (name : String) : Bool := t.rows.any fun row => row.who.name = name

/-- `list_characters`, in the order of the ids. -/
def list (t : Characters) (accountId : Int) : List Row :=
  (t.rows.filter fun row => row.who.accountId = accountId).insertionSort fun row row' => row.who.id ≤ row'.who.id

def getCharacter (t : Characters) (id : Int) : Option Row := t.rows.find? fun row => row.who.id = id

def getCharacterForAccount (t : Characters) (id accountId : Int) : Option Row :=
  t.rows.find? fun row => row.who.id = id ∧ row.who.accountId = accountId

def findAccountByCharacterName (t : Characters) (name : String) : Option Int :=
  (t.rows.find? fun row => row.who.name = name).map fun row => row.who.accountId

theorem nodup_append_new {α β : Type} {f : α → β} {l : List α} {a : α} (h : (l.map f).Nodup)
    (ha : ∀ b ∈ l, f b ≠ f a) : ((l ++ [a]).map f).Nodup := by
  rw [List.map_append]
  refine h.append (List.nodup_singleton _) fun x hx hx' => ?_
  obtain ⟨b, hb, rfl⟩ := List.mem_map.1 hx
  exact ha b hb (List.mem_singleton.1 hx')

/-- `INSERT INTO characters`: it needs an account and a new name; a `bigserial` moves on whatever becomes of the
row. -/
def insertCharacter (t : Characters) (accounts : List Int) (accountId : Int) (name : String) (breedId sex : Int32)
    (colors : List Int32) : Option Identity × Characters :=
  if 9223372036854775807 < t.nextId then (none, t)
  else if h : accountId ∈ accounts ∧ ∀ row ∈ t.rows, row.who.name ≠ name then
    let row : Row := ⟨⟨t.nextId, accountId, name, breedId, sex, colors⟩, 1, defaultMapId, defaultCellId, 1⟩
    (some row.who,
      { rows := t.rows ++ [row]
        nextId := t.nextId + 1
        names := nodup_append_new t.names h.2
        ids := nodup_append_new t.ids fun row hrow => Int.ne_of_lt (t.fresh row hrow)
        fresh := fun row hrow => by
          rcases List.mem_append.1 hrow with hrow | hrow
          · have := t.fresh row hrow
            omega
          · rw [List.mem_singleton.1 hrow]
            exact Int.lt_succ t.nextId })
  else
    (none, { t with
      nextId := t.nextId + 1
      fresh := fun row hrow => Int.lt_add_one_of_le (Int.le_of_lt (t.fresh row hrow)) })

/-- A character moves, or rises. -/
def amend (t : Characters) (id : Int) (level : Int32) (mapId : Int64) (cellId direction : Int32) : Characters where
  rows := t.rows.map fun row => row.amend id level mapId cellId direction
  nextId := t.nextId
  names := by
    have hsame : (t.rows.map fun row => row.amend id level mapId cellId direction).map (fun row => row.who.name) =
        t.rows.map fun row => row.who.name := by
      simp [Function.comp_def]
    rw [hsame]
    exact t.names
  ids := by
    have hsame : (t.rows.map fun row => row.amend id level mapId cellId direction).map (fun row => row.who.id) =
        t.rows.map fun row => row.who.id := by
      simp [Function.comp_def]
    rw [hsame]
    exact t.ids
  fresh := fun row hrow => by
    obtain ⟨old, hold, rfl⟩ := List.mem_map.1 hrow
    rw [Row.who_amend]
    exact t.fresh old hold

@[simp] theorem who_empty : empty.who = [] := rfl

@[simp] theorem who_amend (t : Characters) (id : Int) (level : Int32) (mapId : Int64) (cellId direction : Int32) :
    (t.amend id level mapId cellId direction).who = t.who := by
  simp [who, amend, Function.comp_def]

variable {t : Characters}

theorem mem_who {c : Identity} : c ∈ t.who ↔ ∃ row ∈ t.rows, row.who = c := List.mem_map

theorem who_mem {row : Row} (h : row ∈ t.rows) : row.who ∈ t.who := mem_who.2 ⟨row, h, rfl⟩

theorem nodup_names : (t.who.map Identity.name).Nodup := by
  rw [who, List.map_map]
  exact t.names

theorem nodup_ids : (t.who.map Identity.id).Nodup := by
  rw [who, List.map_map]
  exact t.ids

theorem lt_nextId {c : Identity} (h : c ∈ t.who) : c.id < t.nextId := by
  obtain ⟨row, hrow, rfl⟩ := mem_who.1 h
  exact t.fresh row hrow

theorem eq_of_id {c d : Identity} (hc : c ∈ t.who) (hd : d ∈ t.who) (h : c.id = d.id) : c = d :=
  List.inj_on_of_nodup_map nodup_ids hc hd h

theorem nameExists_iff {name : String} : t.nameExists name = true ↔ ∃ c ∈ t.who, c.name = name := by
  rw [nameExists, List.any_eq_true]
  constructor
  · rintro ⟨row, hrow, hname⟩
    exact ⟨row.who, who_mem hrow, of_decide_eq_true hname⟩
  · rintro ⟨c, hc, rfl⟩
    obtain ⟨row, hrow, rfl⟩ := mem_who.1 hc
    exact ⟨row, hrow, decide_eq_true rfl⟩

theorem getCharacterForAccount_some {id accountId : Int} {row : Row}
    (h : t.getCharacterForAccount id accountId = some row) :
    row.who ∈ t.who ∧ row.who.id = id ∧ row.who.accountId = accountId := by
  have hrow := @List.find?_some _ (fun row : Row => decide (row.who.id = id ∧ row.who.accountId = accountId)) _ _ h
  exact ⟨who_mem (List.mem_of_find?_eq_some h), of_decide_eq_true hrow⟩

theorem getCharacter_of_mem {c : Identity} (h : c ∈ t.who) : ∃ row, t.getCharacter c.id = some row ∧ row.who = c := by
  obtain ⟨row, hrow, rfl⟩ := mem_who.1 h
  cases hfind : t.getCharacter row.who.id with
  | none => exact absurd (decide_eq_true rfl) (List.find?_eq_none.1 hfind row hrow)
  | some row' =>
    have hid := @List.find?_some _ (fun other : Row => decide (other.who.id = row.who.id)) _ _ hfind
    exact ⟨row', rfl, eq_of_id (who_mem (List.mem_of_find?_eq_some hfind)) (who_mem hrow) (of_decide_eq_true hid)⟩

theorem findAccountByCharacterName_some {name : String} {accountId : Int}
    (h : t.findAccountByCharacterName name = some accountId) :
    ∃ c ∈ t.who, c.name = name ∧ c.accountId = accountId := by
  obtain ⟨row, hfind, rfl⟩ := Option.map_eq_some_iff.1 h
  have hname := @List.find?_some _ (fun row : Row => decide (row.who.name = name)) _ _ hfind
  exact ⟨row.who, who_mem (List.mem_of_find?_eq_some hfind), of_decide_eq_true hname, rfl⟩

theorem mem_list {accountId : Int} {row : Row} :
    row ∈ t.list accountId ↔ row ∈ t.rows ∧ row.who.accountId = accountId := by
  rw [list, List.mem_insertionSort, List.mem_filter, decide_eq_true_eq]

theorem pairwise_list (accountId : Int) : (t.list accountId).Pairwise fun row row' => row.who.id < row'.who.id := by
  have : Std.Total fun row row' : Row => row.who.id ≤ row'.who.id := ⟨fun _ _ => Int.le_total _ _⟩
  have : IsTrans Row fun row row' => row.who.id ≤ row'.who.id := ⟨fun _ _ _ => Int.le_trans⟩
  have hsorted : (t.list accountId).Pairwise fun row row' => row.who.id ≤ row'.who.id :=
    List.pairwise_insertionSort _ _
  have hnodup : ((t.list accountId).map fun row => row.who.id).Nodup := by
    have hperm := (List.perm_insertionSort (fun row row' : Row => row.who.id ≤ row'.who.id)
      (t.rows.filter fun row => row.who.accountId = accountId)).map fun row => row.who.id
    exact hperm.nodup_iff.2 ((List.filter_sublist.map _).nodup t.ids)
  have hne : (t.list accountId).Pairwise fun row row' => row.who.id ≠ row'.who.id := List.pairwise_map.1 hnodup
  exact (hsorted.and hne).imp fun h => Int.lt_iff_le_and_ne.2 h

/-- What becomes of an insertion: there is a new character at the end, with a new id, or there is none. -/
theorem insertCharacter_cases (t : Characters) (accounts : List Int) (accountId : Int) (name : String)
    (breedId sex : Int32) (colors : List Int32) :
    (∃ t' : Characters, t.insertCharacter accounts accountId name breedId sex colors = (none, t') ∧ t'.who = t.who) ∨
      ∃ (c : Identity) (t' : Characters), t.insertCharacter accounts accountId name breedId sex colors =
        (some c, t') ∧
        c = ⟨t.nextId, accountId, name, breedId, sex, colors⟩ ∧ t'.who = t.who ++ [c] ∧ accountId ∈ accounts := by
  unfold insertCharacter
  split_ifs with hfull hnew
  · exact .inl ⟨t, rfl, rfl⟩
  · exact .inr ⟨_, _, rfl, rfl, by simp [who], hnew.1⟩
  · exact .inl ⟨_, rfl, rfl⟩

end Characters

/-! ### Spells -/

/-- The spells of a character, in the order in which they were learnt. -/
def spellsOf (spells : List SpellRow) (characterId : Int) : List SpellRow :=
  spells.filter fun row => row.characterId = characterId

/-- `INSERT INTO spells` does nothing if the character has the spell. -/
def insertSpell (spells : List SpellRow) (row : SpellRow) : List SpellRow :=
  if spells.any fun old => old.characterId = row.characterId ∧ old.spellId = row.spellId then spells
  else spells ++ [row]

theorem spellsOf_insertSpell_of_ne {spells : List SpellRow} {row : SpellRow} {id : Int} (h : row.characterId ≠ id) :
    spellsOf (insertSpell spells row) id = spellsOf spells id := by
  unfold insertSpell
  split_ifs
  · rfl
  · simp [spellsOf, List.filter_append, h]

theorem mem_insertSpell {spells : List SpellRow} {row r : SpellRow} (h : r ∈ insertSpell spells row) :
    r ∈ spells ∨ r = row := by
  unfold insertSpell at h
  split_ifs at h
  · exact .inl h
  · simpa using h

theorem characterId_of_mem_startingSpells {c : Identity} {row : SpellRow} (h : row ∈ startingSpells c) :
    row.characterId = c.id := by
  obtain ⟨p, -, rfl⟩ := List.mem_map.1 h
  rfl

theorem nodup_startingSpells (c : Identity) : ((startingSpells c).map SpellRow.spellId).Nodup := by
  have htable : ∀ p ∈ breedSpells, p.2.Nodup := by decide
  unfold startingSpells
  rw [List.map_map]
  have hids (spells : List Int32) :
      spells.zipIdx.map (SpellRow.spellId ∘ fun p => ⟨c.id, p.1, 1, Int32.ofNat p.2⟩) = spells :=
    List.zipIdx_map_fst 0 spells
  rw [hids]
  cases hfind : breedSpells.find? fun p => p.1 = c.breedId with
  | none => exact List.nodup_nil
  | some p => exact htable p (List.mem_of_find?_eq_some hfind)

/-- The next starting spell is one more. -/
theorem spellsOf_insertSpell {spells learnt left : List SpellRow} {c : Identity} {row : SpellRow}
    (hsplit : startingSpells c = learnt ++ row :: left) (hspells : spellsOf spells c.id = learnt) :
    spellsOf (insertSpell spells row) c.id = learnt ++ [row] := by
  have hrow : row.characterId = c.id := characterId_of_mem_startingSpells (by rw [hsplit]; simp)
  have hnew : ¬spells.any (fun old => old.characterId = row.characterId ∧ old.spellId = row.spellId) = true := by
    intro hany
    obtain ⟨old, hold, hsame⟩ := List.any_eq_true.1 hany
    obtain ⟨hcharacter, hspell⟩ := of_decide_eq_true hsame
    have hlearnt : old ∈ learnt := by
      rw [← hspells]
      exact List.mem_filter.2 ⟨hold, decide_eq_true (hcharacter.trans hrow)⟩
    have hnodup := nodup_startingSpells c
    rw [hsplit, List.map_append, List.map_cons, List.nodup_append] at hnodup
    exact hnodup.2.2 old.spellId (List.mem_map_of_mem hlearnt) row.spellId List.mem_cons_self hspell
  rw [insertSpell, if_neg hnew, spellsOf, List.filter_append, ← hspells, spellsOf]
  simp [hrow]

/-! ### Friends -/

/-- `INSERT .. ON CONFLICT DO NOTHING`. -/
def addPair (pairs : List (Int × Int)) (p : Int × Int) : List (Int × Int) := pairs.insert p

def removePair (pairs : List (Int × Int)) (p : Int × Int) : List (Int × Int) := pairs.filter fun q => q ≠ p

end Otomai.World.Approach
