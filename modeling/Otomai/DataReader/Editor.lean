import Otomai.DataReader.D2oFile
import Otomai.Trace.Program

/-!
# The data editor

The server of the data tool keeps the edits of a file in memory until the file is saved.  Requests for one file run
side by side; each of them is a sequence of sections that are run without interruption, between which others may run.
-/

namespace Otomai.DataReader

/-- What the server holds for a file.  A mutex is poisoned when a thread panics that holds it. -/
structure AppState where
  disk : Option (List UInt8)
  d2oCache : Option D2OReader
  d2oEdits : HashMap Int32 Value
  cachePoisoned : Bool
  editsPoisoned : Bool

inductive SaveError where
  | cannotOpen (e : Option D2OError)
  | read (e : D2OError)
  | write (e : Option D2OError)
  | backup
  deriving DecidableEq, Repr

def SaveError.status : SaveError → Nat
  | cannotOpen _ => 404
  | read _ => 500
  | write _ => 500
  | backup => 500

/-- How far a request to save the file has come. -/
inductive Save where
  /-- before `ensure_d2o_loaded` -/
  | arrived
  /-- before the objects are collected -/
  | loaded
  /-- before the file is copied to its backup -/
  | collected (bytes : List UInt8)
  /-- before the file is opened for writing -/
  | copied (bytes : List UInt8)
  /-- before the opened file is filled -/
  | opened (bytes : List UInt8)
  /-- before the cache is dropped -/
  | written (bytes : List UInt8)
  /-- before the edits are dropped -/
  | uncached (bytes : List UInt8)
  /-- answered with ok -/
  | saved (bytes : List UInt8)
  | failed (e : SaveError)
  | panicked

/-- What a section finds in its surroundings: whether the file system fails, how much of the file it has written
before, and the order in which the class map is iterated. -/
structure Surroundings where
  fails : Bool
  writtenBefore : Nat
  classOrder : ClassTable

/-- The classes in the order of the surroundings. -/
def Surroundings.classes (surroundings : Surroundings) (reader : D2OReader) : ClassTable :=
  if surroundings.classOrder.Perm reader.classes.pairs then surroundings.classOrder else reader.classes.pairs

namespace AppState

/-- The state and the request after a panic in a section that holds the mutex of the cache. -/
def panicInCache (state : AppState) : AppState × Save := ({ state with cachePoisoned := true }, .panicked)

/-- The state and the request after a panic in a section that holds both mutexes. -/
def panicInBoth (state : AppState) : AppState × Save :=
  ({ state with cachePoisoned := true, editsPoisoned := true }, .panicked)

def ensureD2oLoaded (state : AppState) (surroundings : Surroundings) : AppState × Save :=
  if state.cachePoisoned then (state, .panicked)
  else
    match state.d2oCache with
    | some _ => (state, .loaded)
    | none =>
      match if surroundings.fails then none else state.disk with
      | none => (state, .failed (.cannotOpen none))
      | some data =>
        match D2OReader.fromBytes data with
        | .ok reader => ({ state with d2oCache := some reader }, .loaded)
        | .err e => (state, .failed (.cannotOpen (some e)))
        | _ => state.panicInCache

/-- The objects are collected while both mutexes are held, and written to memory after they are released. -/
def collect (state : AppState) (surroundings : Surroundings) : AppState × Save :=
  if state.cachePoisoned then (state, .panicked)
  else
    match state.d2oCache with
    | none => state.panicInCache
    | some reader =>
      if state.editsPoisoned then state.panicInCache
      else
        match snapshot reader state.d2oEdits reader.objectIds with
        | .ok objects =>
          match writeD2o (surroundings.classes reader) objects with
          | .ok bytes => (state, .collected bytes)
          | .err e => (state, .failed (.write (some e)))
          | _ => (state, .panicked)
        | .err e => (state, .failed (.read e))
        | _ => state.panicInBoth

def copy (state : AppState) (surroundings : Surroundings) (bytes : List UInt8) : AppState × Save :=
  match if surroundings.fails then none else state.disk with
  | none => (state, .failed .backup)
  | some _ => (state, .copied bytes)

/-- `fs::write` first opens the file, which empties it. -/
def openFile (state : AppState) (surroundings : Surroundings) (bytes : List UInt8) : AppState × Save :=
  if surroundings.fails then (state, .failed (.write none)) else ({ state with disk := some [] }, .opened bytes)

/-- The file after `bytes` were written to its beginning. -/
def overwritten (state : AppState) (bytes : List UInt8) : AppState :=
  { state with disk := some (bytes ++ (state.disk.getD []).drop bytes.length) }

def fill (state : AppState) (surroundings : Surroundings) (bytes : List UInt8) : AppState × Save :=
  if surroundings.fails then (state.overwritten (bytes.take surroundings.writtenBefore), .failed (.write none))
  else (state.overwritten bytes, .written bytes)

def dropCache (state : AppState) (bytes : List UInt8) : AppState × Save :=
  if state.cachePoisoned then (state, .panicked) else ({ state with d2oCache := none }, .uncached bytes)

def dropEdits (state : AppState) (bytes : List UInt8) : AppState × Save :=
  if state.editsPoisoned then (state, .panicked) else ({ state with d2oEdits := ∅ }, .saved bytes)

/-- The next section of `save_d2o_file`. -/
def saveD2oFile (state : AppState) (surroundings : Surroundings) : Save → AppState × Save
  | .arrived => state.ensureD2oLoaded surroundings
  | .loaded => state.collect surroundings
  | .collected bytes => state.copy surroundings bytes
  | .copied bytes => state.openFile surroundings bytes
  | .opened bytes => state.fill surroundings bytes
  | .written bytes => state.dropCache bytes
  | .uncached bytes => state.dropEdits bytes
  | save => (state, save)

/-- `update_d2o_object`: the state after the request, if it is answered with ok, and the object. -/
def updateD2oObject (state : AppState) (id : Int32) (body : Value) : Option (AppState × Value) :=
  match body.get? "object" with
  | none => none
  | some obj =>
    if state.editsPoisoned then none
    else some ({ state with d2oEdits := state.d2oEdits.insert id obj }, obj)

end AppState

/-- The server with the requests to save that have arrived, and the updates it has answered with ok, the latest
first. -/
structure Editor where
  state : AppState
  saves : List Save
  answered : List (Int32 × Value)

/-- What happens next: an update, a new request to save, or the next section of one of them. -/
inductive EditorEvent where
  | update (id : Int32) (body : Value)
  | save
  | proceed (i : Nat) (surroundings : Surroundings)

namespace Editor

/-- The editor of a file before the first request. -/
def start (disk : Option (List UInt8)) : Editor where
  state := { disk, d2oCache := none, d2oEdits := ∅, cachePoisoned := false, editsPoisoned := false }
  saves := []
  answered := []

def step (s : Editor) : EditorEvent → Editor
  | .update id body =>
    match s.state.updateD2oObject id body with
    | none => s
    | some (state, obj) => { s with state, answered := (id, obj) :: s.answered }
  | .save => { s with saves := s.saves ++ [.arrived] }
  | .proceed i surroundings =>
    match s.saves[i]? with
    | none => s
    | some save =>
      let next := s.state.saveD2oFile surroundings save
      { s with state := next.1, saves := s.saves.set i next.2 }

end Editor

instance : Trace.Acts Editor EditorEvent := ⟨Editor.step⟩

end Otomai.DataReader
