import Mathlib.Data.Fintype.Card
import Otomai.DataReader.D2iRoundTrip
import Otomai.DataReader.D2oFile
import Otomai.DataReader.D2p
import Otomai.DataReader.Editor
import Otomai.Search.Pages
import Otomai.Text.Search

/-!
# Lists in pages

The server lists the objects, the texts and the files of a data file, those that match a search, one page at a time.
The three handlers cut their lists into pages in the same way.

* `paginate_eq`: the page that is answered, where the arithmetic goes through.
* `partitions_iff`: for which pages the lists are partitioned.
* `listD2oObjects_panics`, `after_poisoned`: a page of objects that cannot be computed ends the use of the editor.
-/

namespace Otomai.DataReader

open Wire Search

/-! ### Pages -/

/-- The panics of machine arithmetic, with the checks of overflow that a build has by default. -/
inductive ArithmeticPanic where
  | overflow
  | divideByZero
  deriving DecidableEq, Repr

namespace Usize

def add (a b : Nat) : Except ArithmeticPanic Nat := if a + b < 2 ^ 64 then .ok (a + b) else .error .overflow

def sub (a b : Nat) : Except ArithmeticPanic Nat := if b ≤ a then .ok (a - b) else .error .overflow

def mul (a b : Nat) : Except ArithmeticPanic Nat := if a * b < 2 ^ 64 then .ok (a * b) else .error .overflow

def div (a b : Nat) : Except ArithmeticPanic Nat := if b = 0 then .error .divideByZero else .ok (a / b)

end Usize

/-- The parameters of a list; the file is the one whose content the handler is given. -/
structure FileParams where
  page : Option UInt64
  perPage : Option UInt64
  search : Option String

/-- The JSON object that is answered. -/
structure Page (α : Type) where
  items : List α
  total : Nat
  page : Nat
  perPage : Nat
  totalPages : Nat
  deriving DecidableEq, Repr

namespace FileParams

variable (params : FileParams)

def pageOrFirst : Nat := max ((params.page.map UInt64.toNat).getD 1) 1

/-- Each handler has a default and a limit of its own. -/
def perPageOr (default limit : Nat) : Nat := min ((params.perPage.map UInt64.toNat).getD default) limit

end FileParams

/-- The end of the three handlers. -/
def paginate {α : Type} (items : List α) (page perPage : Nat) : Except ArithmeticPanic (Page α) := do
  let total := items.length
  let start ← Usize.mul (← Usize.sub page 1) perPage
  let pageItems := (items.drop start).take perPage
  let totalPages ← Usize.div (← Usize.sub (← Usize.add total perPage) 1) perPage
  return { items := pageItems, total, page, perPage, totalPages }

/-- How a list request ends: with a page, with an error status, or with a panic. -/
inductive Listing (α : Type) where
  | answered (page : Page α)
  | refused (status : Nat)
  | panicked (cause : Option ArithmeticPanic)
  deriving DecidableEq, Repr

/-- A list that has been read, in pages. -/
def Listing.ofItems {α : Type} (items : List α) (page perPage : Nat) : Listing α :=
  match paginate items page perPage with
  | .ok page => .answered page
  | .error cause => .panicked (some cause)

/-! ### Handlers -/

section

variable (toLowercase : String → String) (toJson : Value → String)

/-- `contains`. -/
def contains (text pattern : String) : Bool := Text.contains pattern.toList text.toList

/-- What is sought: nothing, if no search is given. -/
def FileParams.sought (params : FileParams) : String := toLowercase (params.search.getD "")

structure ObjectItem where
  id : Int32
  className : String
  edited : Bool
  preview : Option Value

/-- The object as it is edited, or as it is in the file. -/
def currentObject (reader : D2OReader) (edits : HashMap Int32 Value) (id : Int32) : Outcome D2OError Value :=
  match edits.lookup id with
  | some edited => .ok edited
  | none => reader.readObject id

def ObjectItem.of (edits : HashMap Int32 Value) (id : Int32) (obj : Value) : ObjectItem where
  id
  className := ((obj.get? "_class").bind Value.asStr).getD ""
  edited := (edits.lookup id).isSome
  preview := (obj.get? "nameId").or ((obj.get? "name").or (obj.get? "id"))

/-- The objects of some ids that match a search. -/
def objectItems (reader : D2OReader) (edits : HashMap Int32 Value) (sought : String) :
    List Int32 → Outcome D2OError (List ObjectItem)
  | [] => .ok []
  | id :: ids => do
    let obj ← currentObject reader edits id
    let items ← objectItems reader edits sought ids
    if sought ≠ "" ∧ contains (toLowercase (toJson obj)) sought = false then .ok items
    else .ok (.of edits id obj :: items)

/-- `list_d2o_objects`, after the file is loaded. -/
def AppState.listD2oObjects (state : AppState) (params : FileParams) : AppState × Listing ObjectItem :=
  let panicInCache : AppState := { state with cachePoisoned := true }
  let panicInBoth : AppState := { state with cachePoisoned := true, editsPoisoned := true }
  if state.cachePoisoned then (state, .panicked none)
  else
    match state.d2oCache with
    | none => (panicInCache, .panicked none)
    | some reader =>
      if state.editsPoisoned then (panicInCache, .panicked none)
      else
        match objectItems toLowercase toJson reader state.d2oEdits (params.sought toLowercase) reader.objectIds with
        | .ok items =>
          match Listing.ofItems items params.pageOrFirst (params.perPageOr 50 500) with
          | .panicked cause => (panicInBoth, .panicked cause)
          | listing => (state, listing)
        | .err _ => (state, .refused 500)
        | _ => (panicInBoth, .panicked none)

/-- The texts of some ids. -/
def D2IReader.textsOf (reader : D2IReader) : List Int32 → Outcome D2IReader.Error (List (Int32 × String))
  | [] => .ok []
  | key :: keys => do
    let text ← reader.getText key
    let texts ← textsOf reader keys
    .ok ((key, text) :: texts)

def D2IReader.allTexts (reader : D2IReader) : Outcome D2IReader.Error (HashMap Int32 String) := do
  let texts ← reader.textsOf reader.textIndexes.keys
  .ok (.ofPairs texts)

/-- The texts that match a search, in the order of their ids. -/
def textItems (sought : String) (all : HashMap Int32 String) : List (Int32 × String) :=
  if sought = "" then all.sorted
  else all.sorted.filter fun entry =>
    contains (toLowercase entry.2) sought || contains (toString entry.1.toInt) sought

/-- `list_d2i_texts` with the content of the file, if it can be read. -/
def listD2iTexts (disk : Option (List UInt8)) (params : FileParams) : Listing (Int32 × String) :=
  match disk.map D2IReader.fromBytes with
  | some (.ok reader) =>
    match reader.allTexts with
    | .ok all =>
      Listing.ofItems (textItems toLowercase (params.sought toLowercase) all) params.pageOrFirst
        (params.perPageOr 50 500)
    | .err _ => .refused 500
    | _ => .panicked none
  | some (.err _) | none => .refused 404
  | _ => .panicked none

/-- The names of the files that match a search. -/
def fileItems (sought : String) (reader : D2PReader) : List String :=
  if sought = "" then reader.filenames else reader.filenames.filter fun f => contains (toLowercase f) sought

/-- `list_d2p_entries` with the content of the file, if it can be read; the properties of the archive are answered
with every page. -/
def listD2pEntries (disk : Option (List UInt8)) (params : FileParams) : Listing String × HashMap String String :=
  match disk.map D2PReader.fromBytes with
  | some (.ok reader) =>
    (Listing.ofItems (fileItems toLowercase (params.sought toLowercase) reader) params.pageOrFirst
      (params.perPageOr 100 1000), reader.properties)
  | some (.err _) | none => (.refused 404, ∅)
  | _ => (.panicked none, ∅)

end

/-! ### What is answered -/

section

variable {α : Type} {items : List α} {page perPage : Nat}

theorem paginate_eq (hpage : 1 ≤ page) (hperPage : 0 < perPage) (hstart : (page - 1) * perPage < 2 ^ 64)
    (hfits : items.length + perPage < 2 ^ 64) : paginate items page perPage =
      .ok { items := pageOf perPage items (page - 1), total := items.length, page, perPage
            totalPages := pageCount perPage items.length } := by
  have hsub : Usize.sub page 1 = .ok (page - 1) := if_pos hpage
  have hmul : Usize.mul (page - 1) perPage = .ok ((page - 1) * perPage) := if_pos hstart
  have hadd : Usize.add items.length perPage = .ok (items.length + perPage) := if_pos hfits
  have hsub' : Usize.sub (items.length + perPage) 1 = .ok (items.length + perPage - 1) := if_pos (by omega)
  have hdiv : Usize.div (items.length + perPage - 1) perPage = .ok (pageCount perPage items.length) :=
    if_neg (Nat.ne_of_gt hperPage)
  simp only [paginate, hsub, hmul, hadd, hsub', hdiv, bind, Except.bind, pure, Except.pure]
  rfl

theorem ofItems_eq (hpage : 1 ≤ page) (hperPage : 0 < perPage) (hstart : (page - 1) * perPage < 2 ^ 64)
    (hfits : items.length + perPage < 2 ^ 64) : Listing.ofItems items page perPage =
      .answered { items := pageOf perPage items (page - 1), total := items.length, page, perPage
                  totalPages := pageCount perPage items.length } := by
  rw [Listing.ofItems, paginate_eq hpage hperPage hstart hfits]

/-- Without items on its pages, a list panics. -/
theorem paginate_zero (items : List α) (page : Nat) : ∃ cause, paginate items page 0 = .error cause := by
  cases h : paginate items page 0 with
  | error cause => exact ⟨cause, rfl⟩
  | ok response =>
    unfold paginate at h
    have hdiv (n : Nat) : Usize.div n 0 = .error .divideByZero := if_pos rfl
    cases hsub : Usize.sub page 1 with
    | error cause => simp [hsub, bind, Except.bind] at h
    | ok before =>
      cases hmul : Usize.mul before 0 with
      | error cause => simp [hsub, hmul, bind, Except.bind] at h
      | ok start =>
        cases hadd : Usize.add items.length 0 with
        | error cause => simp [hsub, hmul, hadd, bind, Except.bind] at h
        | ok sum =>
          cases hsub' : Usize.sub sum 1 with
          | error cause => simp [hsub, hmul, hadd, hsub', bind, Except.bind] at h
          | ok rest => simp [hsub, hmul, hadd, hsub', hdiv, bind, Except.bind] at h

/-- A page whose first item has a number of more than sixty-four bits panics. -/
theorem paginate_overflow (hpage : 1 ≤ page) (hstart : 2 ^ 64 ≤ (page - 1) * perPage) :
    paginate items page perPage = .error .overflow := by
  have hsub : Usize.sub page 1 = .ok (page - 1) := if_pos hpage
  have hmul : Usize.mul (page - 1) perPage = .error .overflow := if_neg (Nat.not_lt.2 hstart)
  simp only [paginate, hsub, hmul, bind, Except.bind]

end

/-- A request for a page is answered; the number of pages is the one needed, the pages from the first to the last one
make the list, and a later page is empty. -/
def Partitions {α : Type} (list : FileParams → Listing α) (items : List α) (params : FileParams) : Prop :=
  ∃ response, list params = .answered response ∧
    (∀ m, response.totalPages ≤ m ↔ items.length ≤ m * response.perPage) ∧
    (∃ pages : List (Page α),
      (List.range response.totalPages).map
        (fun before => list { params with page := some (UInt64.ofNat (before + 1)) }) =
        pages.map .answered ∧ pages.flatMap Page.items = items) ∧
    (response.totalPages < response.page → response.items = [])

/-- A page has items, and the first of them a number of at most sixty-four bits. -/
def FileParams.Pageable (params : FileParams) (default limit : Nat) : Prop :=
  params.perPage ≠ some 0 ∧ (params.pageOrFirst - 1) * params.perPageOr default limit < 2 ^ 64

instance (params : FileParams) (default limit : Nat) : Decidable (params.Pageable default limit) :=
  inferInstanceAs (Decidable (_ ∧ _))

theorem FileParams.perPageOr_eq_zero {params : FileParams} {default limit : Nat} (hdefault : 0 < default)
    (hlimit : 0 < limit) : params.perPageOr default limit = 0 ↔ params.perPage = some 0 := by
  unfold FileParams.perPageOr
  cases hperPage : params.perPage with
  | none =>
    simp
    omega
  | some n =>
    have hzero : n.toNat = 0 ↔ n = 0 := ⟨fun h => UInt64.toNat.inj h, fun h => by rw [h]; rfl⟩
    rw [Option.map_some, Option.getD_some, Option.some.injEq, ← hzero]
    omega

/-- The lists are partitioned for exactly the pages that can be computed. -/
theorem partitions_iff {α : Type} {list : FileParams → Listing α} {items : List α} {params : FileParams}
    {default limit : Nat} (hdefault : 0 < default) (hlimit : 0 < limit) (hlimit' : limit ≤ 1000)
    (hitems : items.length < 2 ^ 63)
    (hlist : ∀ params' : FileParams, params'.search = params.search →
      list params' = .ofItems items params'.pageOrFirst (params'.perPageOr default limit)) :
    Partitions list items params ↔ params.Pageable default limit := by
  have hzero := @FileParams.perPageOr_eq_zero params default limit hdefault hlimit
  have hperPage : params.perPageOr default limit ≤ limit := Nat.min_le_right _ _
  have hpage : 1 ≤ params.pageOrFirst := Nat.le_max_right _ _
  constructor
  · rintro ⟨response, hresponse, -⟩
    rw [hlist params rfl] at hresponse
    constructor
    · intro hnone
      obtain ⟨cause, hcause⟩ := paginate_zero items params.pageOrFirst
      rw [hzero.2 hnone, Listing.ofItems, hcause] at hresponse
      cases hresponse
    · -- a page so far back overflows, and the request is not answered
      by_contra hstart
      rw [Listing.ofItems, paginate_overflow hpage (Nat.le_of_not_lt hstart)] at hresponse
      cases hresponse
  · rintro ⟨hsome, hstart⟩
    have hpos : 0 < params.perPageOr default limit := Nat.pos_of_ne_zero fun h => hsome (hzero.1 h)
    have hfits : items.length + params.perPageOr default limit < 2 ^ 64 := by omega
    refine ⟨_, (hlist params rfl).trans (ofItems_eq hpage hpos hstart hfits), fun m => pageCount_le_iff hpos, ?_,
      fun hlater => ?_⟩
    · refine ⟨(List.range (pageCount (params.perPageOr default limit) items.length)).map fun before =>
        { items := pageOf (params.perPageOr default limit) items before, total := items.length, page := before + 1
          perPage := params.perPageOr default limit
          totalPages := pageCount (params.perPageOr default limit) items.length }, ?_, ?_⟩
      · rw [List.map_map]
        refine List.map_congr_left fun before hbefore => ?_
        have hlt := mul_lt_of_lt_pageCount hpos (List.mem_range.1 hbefore)
        have hbefore' : before < 2 ^ 63 := Nat.lt_of_le_of_lt (Nat.le_mul_of_pos_right before hpos) (by omega)
        have hsize : UInt64.size = 2 ^ 64 := rfl
        -- the number of a page that is answered fits the request for it
        have hnat : (UInt64.ofNat (before + 1)).toNat = before + 1 := UInt64.toNat_ofNat_of_lt' (by omega)
        have hnumber : FileParams.pageOrFirst { params with page := some (UInt64.ofNat (before + 1)) } =
          before + 1 := by
          simp only [FileParams.pageOrFirst, Option.map_some, Option.getD_some, hnat]
          omega
        have hfirst : (before + 1 - 1) * params.perPageOr default limit < 2 ^ 64 := by
          rw [Nat.add_sub_cancel]
          omega
        have hanswer := hlist { params with page := some (UInt64.ofNat (before + 1)) } rfl
        rw [hnumber] at hanswer
        exact hanswer.trans (ofItems_eq (Nat.succ_pos before) hpos hfirst hfits)
      · rw [List.flatMap_map]
        exact flatMap_pageOf hpos items
    · exact pageOf_eq_nil hpos (Nat.le_sub_one_of_lt hlater)

/-! ### The three lists -/

section

variable {toLowercase : String → String} {toJson : Value → String}

/-- Each object is listed at most once, in the order of the index. -/
theorem objectItems_sublist {reader : D2OReader} {edits : HashMap Int32 Value} {sought : String} {ids : List Int32}
    {items : List ObjectItem} (h : objectItems toLowercase toJson reader edits sought ids = .ok items) :
    (items.map ObjectItem.id).Sublist ids := by
  induction ids generalizing items with
  | nil =>
    obtain rfl := Outcome.ok.inj h
    exact List.Sublist.slnil
  | cons id ids ih =>
    obtain ⟨obj, -, h⟩ := Outcome.bind_eq_ok.1 h
    obtain ⟨rest, hrest, h⟩ := Outcome.bind_eq_ok.1 h
    split at h
    · obtain rfl := Outcome.ok.inj h
      exact (ih hrest).cons id
    · obtain rfl := Outcome.ok.inj h
      exact (ih hrest).cons_cons id

theorem length_objectItems {data : List UInt8} {reader : D2OReader} (hreader : D2OReader.fromBytes data = .ok reader)
    {edits : HashMap Int32 Value} {sought : String} {items : List ObjectItem}
    (h : objectItems toLowercase toJson reader edits sought reader.objectIds = .ok items) :
    items.length < 2 ^ 63 := by
  have hle := (objectItems_sublist h).length_le
  have hindexes := (wellFormed_of_fromBytes hreader).indexes
  rw [List.length_map, D2OReader.objectIds, List.length_map] at hle
  omega

/-- There are no more texts than ids. -/
theorem length_textItems (sought : String) (all : HashMap Int32 String) :
    (textItems toLowercase sought all).length < 2 ^ 63 := by
  have hle : (textItems toLowercase sought all).length ≤ all.sorted.length := by
    unfold textItems
    split
    · exact Nat.le_refl _
    · exact List.length_filter_le _ _
  have hinj : Function.Injective fun key : Int32 => key.toBitVec.toFin := fun _ _ h =>
    Int32.toBitVec.inj (BitVec.toFin_inj.1 h)
  have hcard := List.Nodup.length_le_card (all.nodup_sorted.map hinj)
  rw [List.length_map, List.length_map, Fintype.card_fin] at hcard
  omega

theorem length_fileItems {data : List UInt8} {reader : D2PReader} (hreader : D2PReader.fromBytes data = .ok reader)
    (sought : String) : (fileItems toLowercase sought reader).length < 2 ^ 63 := by
  have hle : (fileItems toLowercase sought reader).length ≤ reader.filenames.length := by
    unfold fileItems
    split
    · exact Nat.le_refl _
    · exact List.length_filter_le _ _
  have hcount : reader.filenames.length < 2 ^ 32 := by
    unfold D2PReader.fromBytes at hreader
    split at hreader
    · cases hreader
    obtain ⟨⟨footer, c⟩, -, hreader⟩ := Outcome.bind_eq_ok.1 hreader
    obtain ⟨⟨properties, c₁⟩, -, hreader⟩ := Outcome.bind_eq_ok.1 hreader
    obtain ⟨⟨entries, c₂⟩, hentries, hreader⟩ := Outcome.bind_eq_ok.1 hreader
    obtain rfl := Outcome.ok.inj hreader
    have hlength := (forall_replicate (fun _ _ _ _ => trivial) (Outcome.mapErr_eq_ok.1 hentries)).1
    have hpairs := HashMap.length_pairs_ofPairs_le entries
    have hlt := footer.indexCount.toNat_lt
    rw [D2PReader.filenames, List.length_insertionSort, ← HashMap.map_fst_pairs, List.length_map]
    exact Nat.lt_of_le_of_lt (hpairs.trans_eq hlength) hlt
  omega

end

/-- Each of the three lists is partitioned for exactly the pages that can be computed: for the objects of a loaded
file with any edits, for the texts and for the files. -/
theorem lists_partition_iff (toLowercase : String → String) (toJson : Value → String) (params : FileParams) :
    (∀ (state : AppState) (data : List UInt8) (reader : D2OReader) (items : List ObjectItem),
      state.cachePoisoned = false → state.editsPoisoned = false → state.d2oCache = some reader →
      D2OReader.fromBytes data = .ok reader →
      objectItems toLowercase toJson reader state.d2oEdits (params.sought toLowercase) reader.objectIds = .ok items →
      (Partitions (fun params => (state.listD2oObjects toLowercase toJson params).2) items params ↔
        params.Pageable 50 500)) ∧
    (∀ (data : List UInt8) (reader : D2IReader) (all : HashMap Int32 String), D2IReader.fromBytes data = .ok reader →
      reader.allTexts = .ok all →
      (Partitions (listD2iTexts toLowercase (some data)) (textItems toLowercase (params.sought toLowercase) all)
          params ↔ params.Pageable 50 500)) ∧
    ∀ (data : List UInt8) (reader : D2PReader), D2PReader.fromBytes data = .ok reader →
      (Partitions (fun params => (listD2pEntries toLowercase (some data) params).1)
        (fileItems toLowercase (params.sought toLowercase) reader) params ↔ params.Pageable 100 1000) := by
  have hsought {params' : FileParams} (h : params'.search = params.search) :
      params'.sought toLowercase = params.sought toLowercase := by
    rw [FileParams.sought, h, FileParams.sought]
  refine ⟨fun state data reader items hcache hedits hsome hreader hitems => ?_,
    fun data reader all hreader hall => ?_, fun data reader hreader => ?_⟩
  · refine partitions_iff (by decide) (by decide) (by decide) (length_objectItems hreader hitems) fun params' h => ?_
    rw [← hsought h] at hitems
    simp only [AppState.listD2oObjects, hcache, hedits, hsome, hitems, Bool.false_eq_true, if_false]
    cases Listing.ofItems items params'.pageOrFirst (params'.perPageOr 50 500) <;> rfl
  · refine partitions_iff (by decide) (by decide) (by decide) (length_textItems _ all) fun params' h => ?_
    simp only [listD2iTexts, Option.map_some, hreader, hall, hsought h]
  · refine partitions_iff (by decide) (by decide) (by decide) (length_fileItems hreader _) fun params' h => ?_
    simp only [listD2pEntries, Option.map_some, hreader, hsought h]

/-! ### Panics -/

/-- Both mutexes are poisoned. -/
def AppState.Poisoned (state : AppState) : Prop := state.cachePoisoned = true ∧ state.editsPoisoned = true

/-- A list of objects is cut into pages while both mutexes are held, so a page that cannot be computed poisons
them. -/
theorem listD2oObjects_panics {toLowercase : String → String} {toJson : Value → String} {state : AppState}
    {reader : D2OReader} {items : List ObjectItem} {params : FileParams} (hcache : state.cachePoisoned = false)
    (hedits : state.editsPoisoned = false) (hsome : state.d2oCache = some reader)
    (hitems : objectItems toLowercase toJson reader state.d2oEdits (params.sought toLowercase)
      reader.objectIds = .ok items)
    (hpage : ¬params.Pageable 50 500) : (state.listD2oObjects toLowercase toJson params).1.Poisoned := by
  have hpanic : ∃ cause, paginate items params.pageOrFirst (params.perPageOr 50 500) = .error cause := by
    by_cases hzero : params.perPageOr 50 500 = 0
    · rw [hzero]
      exact paginate_zero items _
    · have hsome' : params.perPage ≠ some 0 := fun h =>
        hzero ((FileParams.perPageOr_eq_zero (by decide) (by decide)).2 h)
      have hstart : 2 ^ 64 ≤ (params.pageOrFirst - 1) * params.perPageOr 50 500 :=
        Nat.le_of_not_lt fun h => hpage ⟨hsome', h⟩
      exact ⟨.overflow, paginate_overflow (Nat.le_max_right _ _) hstart⟩
  obtain ⟨cause, hcause⟩ := hpanic
  simp only [AppState.listD2oObjects, hcache, hedits, hsome, hitems, Listing.ofItems, hcause,
    Bool.false_eq_true, if_false]
  exact ⟨rfl, rfl⟩

/-- From then on lists of objects panic. -/
theorem listD2oObjects_of_poisoned (toLowercase : String → String) (toJson : Value → String) {state : AppState}
    (h : state.Poisoned) (params : FileParams) :
    state.listD2oObjects toLowercase toJson params = (state, .panicked none) := by
  rw [AppState.listD2oObjects, if_pos h.1]

/-- No section of a save takes the poison away. -/
theorem saveD2oFile_poisoned {state : AppState} (h : state.Poisoned) (surroundings : Surroundings) (save : Save) :
    (state.saveD2oFile surroundings save).1.Poisoned := by
  cases save with
  | arrived => rwa [AppState.saveD2oFile, AppState.ensureD2oLoaded, if_pos h.1]
  | loaded => rwa [AppState.saveD2oFile, AppState.collect, if_pos h.1]
  | collected bytes =>
    rw [AppState.saveD2oFile, AppState.copy]
    split <;> exact h
  | copied bytes =>
    rw [AppState.saveD2oFile, AppState.openFile]
    split <;> exact h
  | opened bytes =>
    rw [AppState.saveD2oFile, AppState.fill]
    split <;> exact h
  | written bytes => rwa [AppState.saveD2oFile, AppState.dropCache, if_pos h.1]
  | uncached bytes => rwa [AppState.saveD2oFile, AppState.dropEdits, if_pos h.2]
  | _ => exact h

/-- Nor does any request, and no update is answered with ok. -/
theorem step_poisoned {s : Editor} (h : s.state.Poisoned) (event : EditorEvent) :
    (s.step event).state.Poisoned ∧ (s.step event).answered = s.answered := by
  cases event with
  | update id body =>
    have hrefused : s.state.updateD2oObject id body = none := by
      unfold AppState.updateD2oObject
      cases body.get? "object" with
      | none => rfl
      | some obj => exact if_pos h.2
    rw [Editor.step, hrefused]
    exact ⟨h, rfl⟩
  | save => exact ⟨h, rfl⟩
  | proceed i surroundings =>
    cases hsave : s.saves[i]? with
    | none =>
      have hsame : s.step (.proceed i surroundings) = s := by simp only [Editor.step, hsave]
      rw [hsame]
      exact ⟨h, rfl⟩
    | some save =>
      simp only [Editor.step, hsave]
      exact ⟨saveD2oFile_poisoned h surroundings save, trivial⟩

/-- The editor is of no use any more. -/
theorem after_poisoned {s : Editor} (h : s.state.Poisoned) (events : List EditorEvent) :
    (Trace.after s events).state.Poisoned ∧ (Trace.after s events).answered = s.answered := by
  induction events generalizing s with
  | nil => exact ⟨h, rfl⟩
  | cons event events ih =>
    obtain ⟨hpoisoned, hanswered⟩ := step_poisoned h event
    obtain ⟨hrest, hsame⟩ := ih hpoisoned
    exact ⟨hrest, hsame.trans hanswered⟩

/-! ### Examples -/

/-- A file with two messages. -/
def twoMessages : List UInt8 :=
  d2oBytes (Content.encode (.object 1 [.string [104, 105]]) ++ Content.encode (.object 1 [.string [104, 111]]))
    [(5, 7), (6, 15)] 1 messageTable

def twoMessagesReader : D2OReader := writtenReader [(1, messageClass)] [(5, 7), (6, 15)] twoMessages

theorem fromBytes_twoMessages : D2OReader.fromBytes twoMessages = .ok twoMessagesReader := by
  have htable : writeEach writeClassDef [(1, messageClass)] = .ok messageTable := by decide +kernel
  have hvalid : messageClass.Valid := ⟨by decide, fun field hfield => by
    obtain rfl := List.mem_singleton.1 hfield
    trivial⟩
  have hread := @fromBytes_d2oBytes
    (Content.encode (.object 1 [.string [104, 105]]) ++ Content.encode (.object 1 [.string [104, 111]]))
    [(5, 7), (6, 15)] messageTable [(1, messageClass)] (by decide) (by decide) (by decide)
    (fun p hp => by
      obtain rfl := List.mem_singleton.1 hp
      rfl)
    (fun p hp => by
      obtain rfl := List.mem_singleton.1 hp
      exact hvalid) htable
  exact hread

def twoMessagesState : AppState where
  disk := some twoMessages
  d2oCache := some twoMessagesReader
  d2oEdits := ∅
  cachePoisoned := false
  editsPoisoned := false

/-- The ids of its objects. -/
theorem items_twoMessages : ∃ items, objectItems (fun s => s) (fun _ => "") twoMessagesReader ∅ ""
    twoMessagesReader.objectIds = .ok items ∧ items.map ObjectItem.id = [5, 6] := by
  have hids : (objectItems (fun s => s) (fun _ => "") twoMessagesReader ∅ "" twoMessagesReader.objectIds).toOption.map
      (·.map ObjectItem.id) = some [5, 6] := by decide +kernel
  obtain ⟨items, hitems, hids⟩ := Option.map_eq_some_iff.1 hids
  exact ⟨items, Outcome.toOption_eq_some.1 hitems, hids⟩

def twoTexts : HashMap Int32 String := .ofPairs [(1, "a"), (2, "b")]

def twoTextsReader : D2IReader :=
  .ofEntries (contents twoTexts ∅ ∅) (indexEntries twoTexts ∅) (namedEntries twoTexts ∅ ∅)
    (twoTexts.sorted.map Prod.fst)

theorem fromBytes_twoTexts : D2IReader.fromBytes (contents twoTexts ∅ ∅) = .ok twoTextsReader :=
  fromBytes_contents (fun _ hp => absurd hp List.not_mem_nil) (by decide +kernel) (by decide +kernel)
    (by decide +kernel) (by decide +kernel)

def twoFiles : HashMap String (List UInt8) := .ofPairs [("a.png", [1]), ("b.png", [])]

theorem fromBytes_twoFiles : D2PReader.fromBytes (writeD2p twoFiles ∅) = .ok (packedReader twoFiles ∅) :=
  fromBytes_writeD2p (by decide +kernel) (fun _ h => absurd h List.not_mem_nil) (by decide +kernel)

/-- An archive without files. -/
def emptyD2p : List UInt8 := writeD2p ∅ ∅

theorem fromBytes_emptyD2p : D2PReader.fromBytes emptyD2p = .ok (packedReader ∅ ∅) :=
  fromBytes_writeD2p (fun _ h => absurd h List.not_mem_nil) (fun _ h => absurd h List.not_mem_nil) (by decide +kernel)

/-- The second page, with one item on a page. -/
def secondPage : FileParams where
  page := some 2
  perPage := some 1
  search := none

def noItems : FileParams where
  page := none
  perPage := some 0
  search := none

/-- Two messages, two texts and two files make two pages each. -/
theorem lists_partition_iff_secondPage :
    (∃ items, items.map ObjectItem.id = [5, 6] ∧
      Partitions (fun params => (twoMessagesState.listD2oObjects (fun s => s) (fun _ => "") params).2) items
        secondPage) ∧
    Partitions (listD2iTexts (fun s => s) (some (contents twoTexts ∅ ∅))) [(1, "a"), (2, "b")] secondPage ∧
    Partitions (fun params => (listD2pEntries (fun s => s) (some (writeD2p twoFiles ∅)) params).1) ["a.png", "b.png"]
      secondPage := by
  obtain ⟨hobjects, htexts, hfiles⟩ := lists_partition_iff (fun s => s) (fun _ => "") secondPage
  obtain ⟨items, hitems, hids⟩ := items_twoMessages
  have hread : twoTextsReader.textsOf twoTextsReader.textIndexes.keys = .ok [(2, "b"), (1, "a")] := by decide +kernel
  have hall : twoTextsReader.allTexts = .ok (.ofPairs [(2, "b"), (1, "a")]) := by
    rw [D2IReader.allTexts, hread]
    rfl
  have hsorted : textItems (fun s => s) "" (.ofPairs [(2, "b"), (1, "a")]) = [(1, "a"), (2, "b")] := by decide +kernel
  have hnames : fileItems (fun s => s) "" (packedReader twoFiles ∅) = ["a.png", "b.png"] := by decide +kernel
  refine ⟨⟨items, hids, ?_⟩, ?_, ?_⟩
  · exact (hobjects twoMessagesState twoMessages twoMessagesReader items rfl rfl rfl fromBytes_twoMessages hitems).2
      (by decide)
  · have hpages := (htexts _ _ _ fromBytes_twoTexts hall).2 (by decide)
    exact hsorted ▸ hpages
  · have hpages := (hfiles _ _ fromBytes_twoFiles).2 (by decide)
    exact hnames ▸ hpages

/-- No page of no items is answered, not even of an archive without files. -/
theorem not_partitions_noItems : ¬∀ (data : List UInt8) (reader : D2PReader) (params : FileParams),
    D2PReader.fromBytes data = .ok reader →
      Partitions (fun params => (listD2pEntries (fun s => s) (some data) params).1)
      (fileItems (fun s => s) (params.sought fun s => s) reader) params := by
  intro h
  obtain ⟨response, hresponse, -⟩ := h emptyD2p (packedReader ∅ ∅) noItems fromBytes_emptyD2p
  obtain ⟨cause, hcause⟩ := paginate_zero (fileItems (fun s => s) (noItems.sought fun s => s) (packedReader ∅ ∅)) 1
  have hzero : noItems.perPageOr 100 1000 = 0 := by decide
  have hfirst : noItems.pageOrFirst = 1 := by decide
  simp only [listD2pEntries, Option.map_some, fromBytes_emptyD2p, Listing.ofItems, hzero, hfirst, hcause] at hresponse
  cases hresponse

end Otomai.DataReader
