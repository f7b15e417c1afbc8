import Mathlib.Data.List.Nodup

/-!
# Accounts

The auth server creates accounts and looks them up by their name; the rows are banned or made administrators from
elsewhere, and none is deleted.  The table carries its keys with it, so that no sequence of queries can break them.

* `Grows`: what every query keeps of the table.
* `find_createAccount`: an account that was created is found.
-/

namespace Otomai.Auth.Login

structure Account where
  id : Int
  username : String
  passwordHash : String
  nickname : String
  adminLevel : Int
  banned : Bool
  deriving DecidableEq, Repr

/-- The table of accounts: the names are unique, and the ids come from a sequence. -/
structure Accounts where
  rows : List Account
  nextId : Int
  names : (rows.map Account.username).Nodup
  ids : (rows.map Account.id).Nodup
  fresh : ∀ row ∈ rows, row.id < nextId

/-- What the table says of an account once it is amended. -/
def Account.amend (row : Account) (id adminLevel : Int) (banned : Bool) : Account :=
  if row.id = id then { row with adminLevel, banned } else row

@[simp] theorem Account.amend_id (row : Account) (id adminLevel : Int) (banned : Bool) :
    (row.amend id adminLevel banned).id = row.id := by
  unfold Account.amend
  split <;> rfl

@[simp] theorem Account.amend_username (row : Account) (id adminLevel : Int) (banned : Bool) :
    (row.amend id adminLevel banned).username = row.username := by
  unfold Account.amend
  split <;> rfl

@[simp] theorem Account.amend_passwordHash (row : Account) (id adminLevel : Int) (banned : Bool) :
    (row.amend id adminLevel banned).passwordHash = row.passwordHash := by
  unfold Account.amend
  split <;> rfl

namespace Accounts

/-- The table holds a row with this id, name and hash. -/
def Holds (t : Accounts) (id : Int) (username passwordHash : String) : Prop :=
  ∃ row ∈ t.rows, row.id = id ∧ row.username = username ∧ row.passwordHash = passwordHash

def empty : Accounts := ⟨[], 1, List.nodup_nil, List.nodup_nil, fun _ h => absurd h List.not_mem_nil⟩

def findAccountByUsername (t : Accounts) (username : String) : Option Account :=
  t.rows.find? fun row => row.username = username

theorem nodup_append_singleton {α β : Type} {f : α → β} {l : List α} {a : α} (h : (l.map f).Nodup)
    (ha : ∀ b ∈ l, f b ≠ f a) : ((l ++ [a]).map f).Nodup := by
  rw [List.map_append]
  refine h.append (List.nodup_singleton _) fun x hx hx' => ?_
  obtain ⟨b, hb, rfl⟩ := List.mem_map.1 hx
  exact ha b hb (List.mem_singleton.1 hx')

/-- `INSERT INTO accounts`: a `bigserial` moves on whatever becomes of the row. -/
def createAccount (t : Accounts) (username passwordHash nickname : String) : Option Int × Accounts :=
  if 9223372036854775807 < t.nextId then (none, t)
  else if h : ∀ row ∈ t.rows, row.username ≠ username then
    (some t.nextId,
      { rows := t.rows ++ [⟨t.nextId, username, passwordHash, nickname, 0, false⟩]
        nextId := t.nextId + 1
        names := nodup_append_singleton t.names h
        ids := nodup_append_singleton t.ids fun row hrow => Int.ne_of_lt (t.fresh row hrow)
        fresh := fun row hrow => by
          rcases List.mem_append.1 hrow with hrow | hrow
          · have := t.fresh row hrow
            omega
          · rw [List.mem_singleton.1 hrow]
            exact Int.lt_succ t.nextId })
  else
    (none, { t with
      nextId := t.nextId + 1
      fresh := fun row hrow => Int.lt_add_one_of_le (Int.le_of_lt (t.fresh row hrow)) })

/-- An account is banned, or made an administrator. -/
def amend (t : Accounts) (id adminLevel : Int) (banned : Bool) : Accounts where
  rows := t.rows.map fun row => row.amend id adminLevel banned
  nextId := t.nextId
  names := by
    have hsame : (t.rows.map fun row => row.amend id adminLevel banned).map Account.username =
        t.rows.map Account.username := by
      simp [Function.comp_def]
    rw [hsame]
    exact t.names
  ids := by
    have hsame : (t.rows.map fun row => row.amend id adminLevel banned).map Account.id =
        t.rows.map Account.id := by
      simp [Function.comp_def]
    rw [hsame]
    exact t.ids
  fresh := fun row hrow => by
    obtain ⟨old, hold, rfl⟩ := List.mem_map.1 hrow
    rw [Account.amend_id]
    exact t.fresh old hold

/-- No row leaves the table, or changes its id, its name or its password. -/
def Grows (t t' : Accounts) : Prop := ∀ id username passwordHash,
  t.Holds id username passwordHash → t'.Holds id username passwordHash

variable {t t' : Accounts}

theorem Grows.refl (t : Accounts) : Grows t t := fun _ _ _ h => h

theorem grows_createAccount (t : Accounts) (username passwordHash nickname : String) :
    Grows t (t.createAccount username passwordHash nickname).2 := by
  intro id name hash h
  unfold createAccount
  split_ifs with hfull hnew
  · exact h
  · obtain ⟨row, hrow, hsame⟩ := h
    exact ⟨row, List.mem_append_left _ hrow, hsame⟩
  · exact h

theorem grows_amend (t : Accounts) (id adminLevel : Int) (banned : Bool) :
    Grows t (t.amend id adminLevel banned) := by
  intro id' name hash h
  obtain ⟨row, hrow, hid, hname, hhash⟩ := h
  exact ⟨_, List.mem_map_of_mem hrow, by simpa using hid, by simpa using hname, by simpa using hhash⟩

theorem find_some {username : String} {row : Account} (h : t.findAccountByUsername username = some row) :
    row ∈ t.rows ∧ row.username = username := by
  have hname := @List.find?_some _ (fun row : Account => decide (row.username = username)) _ _ h
  exact ⟨List.mem_of_find?_eq_some h, of_decide_eq_true hname⟩

theorem find_isSome {username : String} :
    (t.findAccountByUsername username).isSome ↔ ∃ id passwordHash, t.Holds id username passwordHash := by
  unfold findAccountByUsername
  rw [List.find?_isSome]
  constructor
  · intro h
    obtain ⟨row, hrow, hname⟩ := h
    exact ⟨row.id, row.passwordHash, row, hrow, rfl, of_decide_eq_true hname, rfl⟩
  · intro h
    obtain ⟨id, hash, row, hrow, hid, hname, hhash⟩ := h
    exact ⟨row, hrow, decide_eq_true hname⟩

/-- An account that was created is found. -/
theorem find_createAccount {username passwordHash nickname : String} {id : Int}
    (h : (t.createAccount username passwordHash nickname).1 = some id) :
    ((t.createAccount username passwordHash nickname).2.findAccountByUsername username).isSome := by
  refine find_isSome.2 ⟨t.nextId, passwordHash, ?_⟩
  unfold createAccount at h ⊢
  split_ifs with hfull hnew
  · rw [if_pos hfull] at h
    cases h
  · exact ⟨_, List.mem_append_right _ (List.mem_singleton_self _), rfl, rfl, rfl⟩
  · rw [if_neg hfull, dif_neg hnew] at h
    cases h

end Accounts

end Otomai.Auth.Login
