import RateWise.Cursors
import RateWise.Keyset

set_option autoImplicit false

namespace RateWise

inductive CursorFault where
  | malformedJson
  | badTimestamptz
  | badUuid
deriving DecidableEq

-- The columns of BaseEntity that the pages use, what JSON makes of a record,
-- and the options of the module.
structure PaginationService (T S : Type) where
  id : T → Uuid
  createdAt : T → Int
  serialise : T → S
  createCacheKeyFunction : Text → Text
  postgres : Postgres

-- A table and the cache in front of it. Queries that do not ask for an order
-- give the rows in any.
structure PageStore {T S : Type} (service : PaginationService T S) where
  rows : List T
  distinct : (rows.map service.id).Nodup
  cache : Text → Option S
  scan : List T → List T
  scanned : ∀ found, (scan found).Perm found

structure PaginatedRecord where
  id : Uuid
  cursor : JsString
deriving DecidableEq

-- A record of the database, or one that went through the cache as JSON.
inductive PageNode (T S : Type) where
  | fetched (record : T)
  | cached (value : S)

structure IEdgeType (T S : Type) where
  cursor : JsString
  node : Option (PageNode T S)

structure IPaginatedType (T S : Type) where
  totalCount : Nat
  nodes : List (Option (PageNode T S))
  hasNextPage : Bool
  edges : List (IEdgeType T S)

structure ICacheJobData (T : Type) where
  key : Text
  value : T

namespace PaginationService

variable {T S : Type} (service : PaginationService T S)

def key (row : T) : Lex (Int × Uuid) := toLex (service.createdAt row, service.id row)

def entry (row : T) : PaginatedRecord :=
  ⟨service.id row, encodeCursor (Utf16.ofText (service.postgres.timestamptzOut (service.createdAt row))) (Utf16.ofText (service.id row).text)⟩

def json : PageNode T S → S
  | .fetched record => service.serialise record
  | .cached value => value

-- A parameter of the query; undefined is sent as null.
def bindParameter {α : Type} (input : Text → Option α) (fault : CursorFault) (value : Option Json.Value) :
    Except CursorFault (Option α) :=
  match value.bind service.postgres.prepareValue with
  | none => .ok none
  | some text => match input text with
    | some read => .ok (some read)
    | none => .error fault

-- (createdAt, id) > (:date, :id), where a null compares as unknown.
def further (date : Option Int) (id : Option Uuid) (row : T) : Bool :=
  date.any fun date => date < service.createdAt row || (date = service.createdAt row && id.any fun id => id < service.id row)

def selected (rows : List T) (sqbModifier : Option (T → Bool)) : List T :=
  rows.filter fun row => sqbModifier.all fun selects => selects row

def cursorCondition (decodedCursor : Option Json.Value) : Except CursorFault (T → Bool) :=
  match decodedCursor.filter truthy with
  | none => .ok fun _ => true
  | some decoded => do
      let date ← service.bindParameter service.postgres.timestamptzIn .badTimestamptz (property "createdAt" decoded)
      let id ← service.bindParameter service.postgres.uuidInput .badUuid (property "id" decoded)
      pure (service.further date id)

def getPageIdsAndEncodedCursors (rows : List T) (limit : Nat) (decodedCursor : Option Json.Value)
    (sqbModifier : Option (T → Bool)) : Except CursorFault (List PaginatedRecord) := do
  let condition ← service.cursorCondition decodedCursor
  let found := (selected rows sqbModifier).filter condition
  let ordered := found.insertionSort fun a b => service.key a ≤ service.key b
  pure ((ordered.take (limit + 1)).map service.entry)

def getPageAndTotalCount (rows : List T) (limit : Nat) (decodedCursor : Option Json.Value)
    (sqbModifier : Option (T → Bool)) : Except CursorFault (Nat × List PaginatedRecord) := do
  let page ← service.getPageIdsAndEncodedCursors rows limit decodedCursor sqbModifier
  pure ((selected rows sqbModifier).length, page)

def decodedCursor : Option JsString → Except CursorFault (Option Json.Value)
  | none => .ok none
  | some [] => .ok none
  | some cursor => match decodeCursor cursor with
    | some decoded => .ok (some decoded)
    | none => .error .malformedJson

theorem decoded_read (cursor : JsString) (nonempty : cursor ≠ []) (decoded : Json.Value) (read : decodeCursor cursor = some decoded) :
    decodedCursor (some cursor) = .ok (some decoded) := by
  cases cursor with
  | nil => exact absurd rfl nonempty
  | cons u rest => simp only [decodedCursor, read]

def recordWith (records : List T) (id : Uuid) : Option T := records.find? fun record => service.id record = id

-- A placeholder is replaced by the fetched record.
def filled (records : List T) (result : Option S) (entry : PaginatedRecord) : Option (PageNode T S) :=
  match result with
  | some value => some (.cached value)
  | none => (service.recordWith records entry.id).map .fetched

variable {service}

def fetchRecords (store : PageStore service) (ids : List Uuid) : List T :=
  store.scan (store.rows.filter fun row => service.id row ∈ ids)

def getFromCache (store : PageStore service) (page : List PaginatedRecord) : List (Option S) × List Uuid :=
  let cacheKeys := page.map fun record => service.createCacheKeyFunction record.id.text
  let cachedValues := cacheKeys.map store.cache
  (cachedValues, ((page.zip cachedValues).filter fun pair => pair.2.isNone).map fun pair => pair.1.id)

-- An entry beyond the limit only tells that there is a next page.
def popped (limit : Nat) (page : List PaginatedRecord) : List PaginatedRecord :=
  if limit < page.length then page.dropLast else page

def edgesOf (page : List PaginatedRecord) (records : List (Option (PageNode T S))) : List (IEdgeType T S) :=
  List.zipWith (fun record entry => ⟨entry.cursor, record⟩) records page

def createPaginationCached (store : PageStore service) (limit : Nat) (cursor : Option JsString) (sqbModifier : Option (T → Bool)) :
    Except CursorFault (IPaginatedType T S × List (ICacheJobData T)) := do
  let decoded ← decodedCursor cursor
  let (totalCount, found) ← service.getPageAndTotalCount store.rows limit decoded sqbModifier
  let hasNextPage : Bool := limit < found.length
  let page := popped limit found
  let (results, idsNotInCache) := getFromCache store page
  let fetchedRecordsMap := if idsNotInCache.length > 0 then fetchRecords store idsNotInCache else []
  let fullResults := List.zipWith (service.filled fetchedRecordsMap) results page
  let jobs := fetchedRecordsMap.map fun record =>
    ⟨service.createCacheKeyFunction (service.id record).text, record⟩
  let edges := edgesOf page fullResults
  pure (⟨totalCount, edges.map IEdgeType.node, hasNextPage, edges⟩, jobs)

def createPagination (store : PageStore service) (limit : Nat) (cursor : Option JsString) (sqbModifier : Option (T → Bool)) :
    Except CursorFault (IPaginatedType T S) := do
  let decoded ← decodedCursor cursor
  let (totalCount, found) ← service.getPageAndTotalCount store.rows limit decoded sqbModifier
  let hasNextPage : Bool := limit < found.length
  let page := popped limit found
  let sortedIds := page.map PaginatedRecord.id
  let idRecordMap := fetchRecords store sortedIds
  let entities := page.map fun entry => (service.recordWith idRecordMap entry.id).map PageNode.fetched
  let edges := edgesOf page entities
  pure ⟨totalCount, entities, hasNextPage, edges⟩

def create (store : PageStore service) (cache : Bool) (limit : Nat) (cursor : Option JsString) (sqbModifier : Option (T → Bool)) :
    Except CursorFault (IPaginatedType T S × List (ICacheJobData T)) :=
  if cache then createPaginationCached store limit cursor sqbModifier
  else do
    let page ← createPagination store limit cursor sqbModifier
    pure (page, [])

section Pages

theorem mem_fetch_records (store : PageStore service) (ids : List Uuid) (record : T) :
    record ∈ fetchRecords store ids ↔ record ∈ store.rows ∧ service.id record ∈ ids := by
  rw [fetchRecords, (store.scanned _).mem_iff, List.mem_filter, decide_eq_true_iff]

theorem found_record (store : PageStore service) (ids : List Uuid) (row : T) (stored : row ∈ store.rows)
    (asked : service.id row ∈ ids) :
    service.recordWith (fetchRecords store ids) (service.id row) = some row := by
  have fetched := (mem_fetch_records store ids row).mpr ⟨stored, asked⟩
  cases found : service.recordWith (fetchRecords store ids) (service.id row) with
  | none =>
      have missing := List.find?_eq_none.mp found row fetched
      simp at missing
  | some other =>
      have same : service.id other = service.id row := by simpa using List.find?_some found
      have listed := (mem_fetch_records store ids other).mp (List.mem_of_find?_eq_some found)
      rw [List.inj_on_of_nodup_map store.distinct listed.1 stored same]

theorem fetch_records_count (store : PageStore service) (ids : List Uuid) (id : Uuid) :
    (fetchRecords store ids).countP (fun record => service.id record = id) =
      if id ∈ ids ∧ id ∈ store.rows.map service.id then 1 else 0 := by
  have single : ((store.rows.filter fun row => service.id row ∈ ids).map service.id).Nodup :=
    store.distinct.sublist (List.filter_sublist.map service.id)
  rw [fetchRecords, (store.scanned _).countP_eq]
  have counted : (store.rows.filter fun row => service.id row ∈ ids).countP (fun record => service.id record = id) =
      ((store.rows.filter fun row => service.id row ∈ ids).map service.id).count id := by
    rw [List.count, List.countP_map]
    refine List.countP_congr fun row _ => ?_
    simp
  rw [counted, single.count]
  refine if_congr ?_ rfl rfl
  simp only [List.mem_map, List.mem_filter, decide_eq_true_eq]
  constructor
  · rintro ⟨row, ⟨stored, asked⟩, rfl⟩
    exact ⟨asked, row, stored, rfl⟩
  · rintro ⟨asked, row, stored, rfl⟩
    exact ⟨row, ⟨stored, asked⟩, rfl⟩

theorem popped_entries (limit : Nat) (listed : List T) :
    popped limit ((listed.take (limit + 1)).map service.entry) = (listed.take limit).map service.entry := by
  unfold popped
  rw [List.length_map, List.length_take]
  by_cases longer : limit < listed.length
  · have more : limit < min (limit + 1) listed.length := by omega
    rw [if_pos more, ← List.map_dropLast, List.dropLast_eq_take, List.take_take, List.length_take]
    congr 2
    omega
  · have short : ¬ limit < min (limit + 1) listed.length := by omega
    have whole : listed.length ≤ limit := Nat.le_of_not_lt longer
    rw [if_neg short, List.take_of_length_le whole, List.take_of_length_le (Nat.le_succ_of_le whole)]

theorem announced (limit : Nat) (listed : List T) :
    limit < ((listed.take (limit + 1)).map service.entry).length ↔ limit < listed.length := by
  rw [List.length_map, List.length_take]
  omega

theorem page_listed (rows : List T) (limit : Nat) (decoded : Option Json.Value) (sqbModifier : Option (T → Bool))
    (count : Nat) (page : List PaginatedRecord)
    (found : service.getPageAndTotalCount rows limit decoded sqbModifier = .ok (count, page)) :
    ∃ listed : List T, page = (listed.take (limit + 1)).map service.entry ∧ listed.Subperm rows := by
  unfold getPageAndTotalCount getPageIdsAndEncodedCursors at found
  cases given : service.cursorCondition decoded with
  | error fault =>
      rw [given] at found
      cases found
  | ok condition =>
      rw [given] at found
      cases found
      have part : ((selected rows sqbModifier).filter condition).Sublist rows := List.filter_sublist.trans List.filter_sublist
      exact ⟨_, rfl, (List.perm_insertionSort _ _).subperm.trans part.subperm⟩

def served (store : PageStore service) (row : T) : PageNode T S :=
  match store.cache (service.createCacheKeyFunction (service.id row).text) with
  | some value => .cached value
  | none => .fetched row

def missing (store : PageStore service) (row : T) : Bool :=
  (store.cache (service.createCacheKeyFunction (service.id row).text)).isNone

variable (service) in
def shown (count limit : Nat) (listed : List T) (node : T → PageNode T S) : IPaginatedType T S :=
  ⟨count, (listed.take limit).map fun row => some (node row), limit < listed.length,
    (listed.take limit).map fun row => ⟨(service.entry row).cursor, some (node row)⟩⟩

theorem edges_listed (listed : List T) (node : T → PageNode T S) :
    edgesOf (listed.map service.entry) (listed.map fun row => some (node row)) =
      listed.map fun row => ⟨(service.entry row).cursor, some (node row)⟩ := by
  simp only [edgesOf, List.zipWith_map, List.zipWith_self]

theorem cache_listed (store : PageStore service) (listed : List T) :
    getFromCache store (listed.map service.entry) =
      (listed.map fun row => store.cache (service.createCacheKeyFunction (service.id row).text),
        (listed.filter (missing store)).map service.id) := by
  simp only [getFromCache, List.map_map]
  refine Prod.ext rfl ?_
  show ((List.zip (listed.map service.entry) (listed.map _)).filter _).map _ = _
  rw [List.zip_map', List.filter_map, List.map_map]
  rfl

theorem results_listed (store : PageStore service) (listed records : List T)
    (fetched : ∀ row ∈ listed, missing store row = true → service.recordWith records (service.id row) = some row) :
    List.zipWith (service.filled records)
      (listed.map fun row => store.cache (service.createCacheKeyFunction (service.id row).text)) (listed.map service.entry) =
        listed.map fun row => some (served store row) := by
  rw [List.zipWith_map, List.zipWith_self]
  refine List.map_congr_left fun row member => ?_
  have supplied := fetched row member
  unfold missing at supplied
  unfold served
  cases cached : store.cache (service.createCacheKeyFunction (service.id row).text) with
  | some value => rfl
  | none =>
      rw [cached] at supplied
      show (service.recordWith records (service.id row)).map _ = _
      rw [supplied rfl]
      rfl

theorem pagination_listed (store : PageStore service) (limit : Nat) (cursor : Option JsString) (sqbModifier : Option (T → Bool))
    (decoded : Option Json.Value) (read : decodedCursor cursor = .ok decoded) (count : Nat) (listed : List T)
    (found : service.getPageAndTotalCount store.rows limit decoded sqbModifier =
      .ok (count, (listed.take (limit + 1)).map service.entry))
    (stored : ∀ row ∈ listed, row ∈ store.rows) :
    createPagination store limit cursor sqbModifier = .ok (service.shown count limit listed .fetched) := by
  have entities : ((listed.take limit).map service.entry).map (fun entry =>
      (service.recordWith (fetchRecords store (((listed.take limit).map service.entry).map PaginatedRecord.id)) entry.id).map
        (PageNode.fetched (S := S))) = (listed.take limit).map fun row => some (.fetched row) := by
    rw [List.map_map]
    refine List.map_congr_left fun row member => ?_
    have asked : service.id row ∈ ((listed.take limit).map service.entry).map PaginatedRecord.id := by
      rw [List.map_map]
      exact List.mem_map_of_mem member
    show (service.recordWith _ (service.id row)).map _ = _
    rw [found_record store _ row (stored row (List.mem_of_mem_take member)) asked]
    rfl
  simp only [createPagination, read, found, bind, Except.bind, pure, Except.pure, popped_entries, entities, edges_listed,
    announced]
  rfl

theorem pagination_cached_listed (store : PageStore service) (limit : Nat) (cursor : Option JsString)
    (sqbModifier : Option (T → Bool)) (decoded : Option Json.Value) (read : decodedCursor cursor = .ok decoded) (count : Nat)
    (listed : List T)
    (found : service.getPageAndTotalCount store.rows limit decoded sqbModifier =
      .ok (count, (listed.take (limit + 1)).map service.entry))
    (stored : ∀ row ∈ listed, row ∈ store.rows) :
    createPaginationCached store limit cursor sqbModifier = .ok (service.shown count limit listed (served store),
      (fetchRecords store (((listed.take limit).filter (missing store)).map service.id)).map fun record =>
        ⟨service.createCacheKeyFunction (service.id record).text, record⟩) := by
  have fetched : (if (((listed.take limit).filter (missing store)).map service.id).length > 0 then
      fetchRecords store (((listed.take limit).filter (missing store)).map service.id) else []) =
        fetchRecords store (((listed.take limit).filter (missing store)).map service.id) := by
    split
    · rfl
    · rename_i none
      have empty := List.eq_nil_of_length_eq_zero (Nat.eq_zero_of_not_pos none)
      refine (List.eq_nil_iff_forall_not_mem.mpr fun record member => ?_).symm
      have asked := ((mem_fetch_records store _ record).mp member).2
      rw [empty] at asked
      cases asked
  have results := results_listed store (listed.take limit)
    (fetchRecords store (((listed.take limit).filter (missing store)).map service.id)) fun row member absent =>
      found_record store _ row (stored row (List.mem_of_mem_take member))
        (List.mem_map_of_mem (List.mem_filter.mpr ⟨member, absent⟩))
  simp only [createPaginationCached, read, found, bind, Except.bind, pure, Except.pure, popped_entries, cache_listed, fetched,
    results, edges_listed, announced]
  refine congrArg Except.ok (Prod.ext ?_ rfl)
  simp only [shown, List.map_map]
  rfl

end Pages

section Refinement

-- Every entry of the cache is the current record with its id.
def Coherent (store : PageStore service) : Prop :=
  ∀ id value, store.cache (service.createCacheKeyFunction id.text) = some value →
    ∃ record ∈ store.rows, service.id record = id ∧ value = service.serialise record

-- The edge is that of the page entry, with the record that has its id.
def Carries (store : PageStore service) (edge : IEdgeType T S) (entry : PaginatedRecord) : Prop :=
  edge.cursor = entry.cursor ∧
    ∃ record ∈ store.rows, service.id record = entry.id ∧ edge.node.map service.json = some (service.serialise record)

structure Agrees (store : PageStore service) (entries : List PaginatedRecord) (cached plain : IPaginatedType T S)
    (jobs : List (ICacheJobData T)) : Prop where
  totalCount : cached.totalCount = plain.totalCount
  hasNextPage : cached.hasNextPage = plain.hasNextPage
  cursors : cached.edges.map IEdgeType.cursor = plain.edges.map IEdgeType.cursor
  nodes : cached.nodes.map (Option.map service.json) = plain.nodes.map (Option.map service.json)
  edgeNodes : cached.edges.map IEdgeType.node = cached.nodes ∧ plain.edges.map IEdgeType.node = plain.nodes
  cachedEdges : List.Forall₂ (Carries store) cached.edges entries
  plainEdges : List.Forall₂ (Carries store) plain.edges entries
  jobsOnce : ∀ id, jobs.countP (fun job => service.id job.value = id) =
    if id ∈ entries.map PaginatedRecord.id ∧ store.cache (service.createCacheKeyFunction id.text) = none then 1 else 0
  jobsKeyed : ∀ job ∈ jobs, job.value ∈ store.rows ∧ job.key = service.createCacheKeyFunction (service.id job.value).text

theorem served_json (store : PageStore service) (coherent : Coherent store) (row : T) (stored : row ∈ store.rows) :
    service.json (served store row) = service.serialise row := by
  unfold served
  cases cached : store.cache (service.createCacheKeyFunction (service.id row).text) with
  | none => rfl
  | some value =>
      obtain ⟨record, listed, same, rfl⟩ := coherent (service.id row) value cached
      rw [List.inj_on_of_nodup_map store.distinct listed stored same]
      rfl

theorem shown_carries (store : PageStore service) (count limit : Nat) (listed : List T) (node : T → PageNode T S)
    (stored : ∀ row ∈ listed, row ∈ store.rows) (same : ∀ row ∈ store.rows, service.json (node row) = service.serialise row) :
    List.Forall₂ (Carries store) (service.shown count limit listed node).edges ((listed.take limit).map service.entry) := by
  rw [shown, List.forall₂_map_left_iff, List.forall₂_map_right_iff, List.forall₂_same]
  intro row member
  have inTable := stored row (List.mem_of_mem_take member)
  exact ⟨rfl, row, inTable, rfl, congrArg some (same row inTable)⟩

theorem jobs_once (store : PageStore service) (page : List T) (stored : ∀ row ∈ page, row ∈ store.rows) (id : Uuid) :
    ((fetchRecords store ((page.filter (missing store)).map service.id)).map fun record =>
      (⟨service.createCacheKeyFunction (service.id record).text, record⟩ : ICacheJobData T)).countP
        (fun job => service.id job.value = id) =
    if id ∈ (page.map service.entry).map PaginatedRecord.id ∧
      store.cache (service.createCacheKeyFunction id.text) = none then 1 else 0 := by
  rw [List.countP_map]
  refine (fetch_records_count store _ id).trans (if_congr ?_ rfl rfl)
  simp only [List.mem_map, List.mem_filter, missing, Option.isNone_iff_eq_none]
  constructor
  · rintro ⟨⟨row, ⟨member, absent⟩, rfl⟩, -⟩
    exact ⟨⟨service.entry row, ⟨row, member, rfl⟩, rfl⟩, absent⟩
  · rintro ⟨⟨_, ⟨row, member, rfl⟩, rfl⟩, absent⟩
    exact ⟨⟨row, ⟨member, absent⟩, rfl⟩, row, stored row member, rfl⟩

theorem listed_agrees (store : PageStore service) (coherent : Coherent store) (count limit : Nat) (listed : List T)
    (stored : ∀ row ∈ listed, row ∈ store.rows) :
    Agrees store ((listed.take limit).map service.entry) (service.shown count limit listed (served store))
      (service.shown count limit listed .fetched)
      ((fetchRecords store (((listed.take limit).filter (missing store)).map service.id)).map fun record =>
        ⟨service.createCacheKeyFunction (service.id record).text, record⟩) where
  totalCount := rfl
  hasNextPage := rfl
  cursors := by
    simp only [shown, List.map_map]
    rfl
  nodes := by
    simp only [shown, List.map_map]
    refine List.map_congr_left fun row member => ?_
    exact congrArg some (served_json store coherent row (stored row (List.mem_of_mem_take member)))
  edgeNodes := by
    simp only [shown, List.map_map]
    exact ⟨rfl, rfl⟩
  cachedEdges := shown_carries store count limit listed _ stored (served_json store coherent)
  plainEdges := shown_carries store count limit listed _ stored fun _ _ => rfl
  jobsOnce := jobs_once store (listed.take limit) fun row member => stored row (List.mem_of_mem_take member)
  jobsKeyed := by
    intro job member
    obtain ⟨record, fetched, rfl⟩ := List.mem_map.mp member
    exact ⟨((mem_fetch_records store _ record).mp fetched).1, rfl⟩

-- With a coherent cache, a page comes out the same with it and without it, and
-- one job is queued for each record of the page that the cache did not have.
theorem cached_pages_refine (store : PageStore service) (coherent : Coherent store) (limit : Nat) (cursor : Option JsString)
    (sqbModifier : Option (T → Bool)) :
    (∃ fault, create store true limit cursor sqbModifier = .error fault ∧
      create store false limit cursor sqbModifier = .error fault) ∨
    ∃ decoded count page cached plain jobs, decodedCursor cursor = .ok decoded ∧
      service.getPageAndTotalCount store.rows limit decoded sqbModifier = .ok (count, page) ∧
      create store true limit cursor sqbModifier = .ok (cached, jobs) ∧
      create store false limit cursor sqbModifier = .ok (plain, []) ∧
      Agrees store (popped limit page) cached plain jobs := by
  cases read : decodedCursor cursor with
  | error fault =>
      refine .inl ⟨fault, ?_, ?_⟩
      · simp only [create, createPaginationCached, read, bind, Except.bind, if_true]
      · simp only [create, createPagination, read, bind, Except.bind, Bool.false_eq_true, if_false]
  | ok decoded =>
      cases found : service.getPageAndTotalCount store.rows limit decoded sqbModifier with
      | error fault =>
          refine .inl ⟨fault, ?_, ?_⟩
          · simp only [create, createPaginationCached, read, found, bind, Except.bind, if_true]
          · simp only [create, createPagination, read, found, bind, Except.bind, Bool.false_eq_true, if_false]
      | ok pair =>
          obtain ⟨count, page⟩ := pair
          obtain ⟨listed, rfl, part⟩ := page_listed store.rows limit decoded sqbModifier count page found
          have stored : ∀ row ∈ listed, row ∈ store.rows := fun row member => part.subset member
          refine .inr ⟨decoded, count, _, _, service.shown count limit listed .fetched, _, rfl, found,
            pagination_cached_listed store limit cursor sqbModifier decoded read count listed found stored, ?_, ?_⟩
          · simp only [create, pagination_listed store limit cursor sqbModifier decoded read count listed found stored, bind,
              Except.bind, pure, Except.pure, Bool.false_eq_true, if_false]
          · rw [popped_entries]
            exact listed_agrees store coherent count limit listed stored

def createVoteCacheKey (voteID : Text) : Text := "cache:vote:".toList ++ voteID

def onlyStrings : Json.Value → Option Text
  | .string units => some (parameter units)
  | _ => none

def twoInstants : Postgres where
  timestamptzOut time := if time = 0 then "2026-11-20 10:00:00+00".toList else "2026-11-20 10:00:00.000001+00".toList
  timestamptzIn text :=
    if text = "2026-11-20 10:00:00+00".toList then some 0
    else if text = "2026-11-20 10:00:00.000001+00".toList then some 1
    else none
  uuidInput := uuidIn
  prepareValue := onlyStrings
  uuid_text := uuid_in_text
  prepare_string _ := rfl

def votePages : PaginationService (Uuid × Int) Text where
  id := Prod.fst
  createdAt := Prod.snd
  serialise vote := vote.1.text
  createCacheKeyFunction := createVoteCacheKey
  postgres := twoInstants

def voteNamed (c : Char) (hex : hexDigit c = true) : Uuid :=
  ⟨repeated c, by simp [repeated, uuidPattern, fits, hex, dash, List.replicate]⟩

def firstVote : Uuid := voteNamed 'a' (by decide)

def threeVotes : PageStore votePages where
  rows := [(voteNamed 'c' (by decide), 1), (voteNamed 'b' (by decide), 0), (firstVote, 0)]
  distinct := by decide
  cache key := if key = createVoteCacheKey firstVote.text then some firstVote.text else none
  scan := List.reverse
  scanned := List.reverse_perm

theorem three_votes_coherent : Coherent threeVotes := by
  intro id value cached
  have named : createVoteCacheKey id.text = createVoteCacheKey firstVote.text ∧ firstVote.text = value := by
    simpa [threeVotes, votePages] using cached
  have same := uuid_text_injective (List.append_cancel_left named.1)
  exact ⟨(firstVote, 0), by simp [threeVotes], same.symm, named.2.symm⟩

theorem cached_pages_refine_votes :
    (∃ fault, create threeVotes true 2 none none = .error fault ∧ create threeVotes false 2 none none = .error fault) ∨
    ∃ decoded count page cached plain jobs, decodedCursor none = .ok decoded ∧
      votePages.getPageAndTotalCount threeVotes.rows 2 decoded none = .ok (count, page) ∧
      create threeVotes true 2 none none = .ok (cached, jobs) ∧ create threeVotes false 2 none none = .ok (plain, []) ∧
      Agrees threeVotes (popped 2 page) cached plain jobs :=
  cached_pages_refine threeVotes three_votes_coherent 2 none none

end Refinement

end PaginationService

end RateWise
