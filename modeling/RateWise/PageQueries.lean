import RateWise.Pagination
import RateWise.PromiseRuns

set_option autoImplicit false

namespace RateWise

namespace PageRequests

open PaginationService
open Promises (Promise Ran start await both lift Observed Handles unhandled Contains reasonOf)
open Settling (Reason)

-- What one request asks for: both counts, the ids of the page, the cached
-- values, the records that are not cached, and a job for each of these.
inductive PageQuery where
  | countAll
  | countSelected
  | pageIds
  | cachedValues
  | records
  | job (index : Nat)
deriving DecidableEq

inductive PageFault (E : Type) where
  | cursor (fault : CursorFault)
  | failed (query : PageQuery) (error : E)

variable {T S : Type} (service : PaginationService T S)

-- What the queries of one request find, each at its own time.
structure Moments where
  counting : PageStore service
  listing : PageStore service
  caching : PageStore service
  fetching : PageStore service

variable {service} {E : Type} (fails : PageQuery → Option E)

def thrown {α : Type} : Except CursorFault α → Except (Reason (PageFault E)) α
  | .ok value => .ok value
  | .error fault => .error (.plain (.cursor fault))

def answered {α : Type} (query : PageQuery) (answer : Except CursorFault α) : Except (Reason (PageFault E)) α :=
  match fails query with
  | some error => .error (.plain (.failed query error))
  | none => thrown answer

abbrev PageRun (E : Type) := Ran PageQuery (PageFault E)

def ask {α : Type} (query : PageQuery) (answer : Except CursorFault α) : PageRun E (Promise PageQuery (PageFault E) α) :=
  start query (answered fails query answer)

-- The count of all records is started before it is known which one is needed.
def startCount (moments : Moments service) (sqbModifier : Option (T → Bool)) : PageRun E (Promise PageQuery (PageFault E) Nat) := do
  let countQuery ← ask fails .countAll (.ok moments.counting.rows.length)
  match sqbModifier with
  | none => pure countQuery
  | some selects => ask fails .countSelected (.ok (selected moments.counting.rows (some selects)).length)

def getPageAndTotalCount (moments : Moments service) (limit : Nat) (decodedCursor : Option Json.Value)
    (sqbModifier : Option (T → Bool)) : PageRun E (Nat × List PaginatedRecord) := do
  let countQuery ← startCount fails moments sqbModifier
  let page ← ask fails .pageIds (service.getPageIdsAndEncodedCursors moments.listing.rows limit decodedCursor sqbModifier)
  both countQuery page

def fetchRecords (moments : Moments service) (ids : List Uuid) : PageRun E (List T) :=
  ask fails .records (.ok (PaginationService.fetchRecords moments.fetching ids)) >>= await

def fetchMissing (moments : Moments service) (idsNotInCache : List Uuid) : PageRun E (List T) :=
  if idsNotInCache.length > 0 then fetchRecords fails moments idsNotInCache else pure []

def enqueue : Nat → List (ICacheJobData T) → PageRun E Unit
  | _, [] => pure ()
  | index, _ :: rest => do
      (ask fails (.job index) (.ok ()) >>= await : PageRun E Unit)
      enqueue (index + 1) rest

def createPaginationCached (moments : Moments service) (limit : Nat) (cursor : Option JsString) (sqbModifier : Option (T → Bool)) :
    PageRun E (IPaginatedType T S × List (ICacheJobData T)) := do
  let decoded ← lift (thrown (decodedCursor cursor))
  let (totalCount, found) ← getPageAndTotalCount fails moments limit decoded sqbModifier
  let hasNextPage : Bool := limit < found.length
  let page := popped limit found
  let (results, idsNotInCache) ← ask fails .cachedValues (.ok (getFromCache moments.caching page)) >>= await
  let fetchedRecordsMap ← fetchMissing fails moments idsNotInCache
  let fullResults := List.zipWith (service.filled fetchedRecordsMap) results page
  let jobs := fetchedRecordsMap.map fun record => ⟨service.createCacheKeyFunction (service.id record).text, record⟩
  enqueue fails 0 jobs
  let edges := edgesOf page fullResults
  pure (⟨totalCount, edges.map IEdgeType.node, hasNextPage, edges⟩, jobs)

def createPagination (moments : Moments service) (limit : Nat) (cursor : Option JsString) (sqbModifier : Option (T → Bool)) :
    PageRun E (IPaginatedType T S) := do
  let decoded ← lift (thrown (decodedCursor cursor))
  let (totalCount, found) ← getPageAndTotalCount fails moments limit decoded sqbModifier
  let hasNextPage : Bool := limit < found.length
  let page := popped limit found
  let sortedIds := page.map PaginatedRecord.id
  let idRecordMap ← fetchRecords fails moments sortedIds
  let entities := page.map fun entry => (service.recordWith idRecordMap entry.id).map PageNode.fetched
  let edges := edgesOf page entities
  pure ⟨totalCount, entities, hasNextPage, edges⟩

def create (moments : Moments service) (cache : Bool) (limit : Nat) (cursor : Option JsString) (sqbModifier : Option (T → Bool)) :
    PageRun E (IPaginatedType T S × List (ICacheJobData T)) :=
  if cache then createPaginationCached fails moments limit cursor sqbModifier
  else do
    let page ← createPagination fails moments limit cursor sqbModifier
    pure (page, [])

section Handlers

variable (moments : Moments service) (limit : Nat)

theorem reason_answered {α : Type} (query : PageQuery) (value : α) :
    reasonOf (answered fails query (.ok value)) = none ↔ fails query = none := by
  unfold answered
  cases fails query <;> simp [reasonOf, thrown]

theorem enqueue_observed (index : Nat) (jobs : List (ICacheJobData T)) : Observed (enqueue fails index jobs) := by
  induction jobs generalizing index with
  | nil => exact Promises.observed_pure ()
  | cons job rest ih => exact Promises.observed_bind _ _ (Promises.observed_await _ _) fun _ _ => ih (index + 1)

theorem enqueue_handles (index : Nat) (jobs : List (ICacheJobData T)) : Handles (· ≠ .countAll) (enqueue fails index jobs) := by
  induction jobs generalizing index with
  | nil => exact fun query impossible => by cases impossible
  | cons job rest ih =>
      refine Promises.handles_bind _ _ _ (Promises.handles_await _ _ _ ?_) fun _ _ => ih (index + 1)
      exact fun impossible => by cases impossible

-- After the two queries, each query is awaited where it is started.
def tail (cache : Bool) (found : Nat × List PaginatedRecord) : PageRun E (IPaginatedType T S × List (ICacheJobData T)) :=
  if cache then do
    let page := popped limit found.2
    let (results, idsNotInCache) ← ask fails .cachedValues (.ok (getFromCache moments.caching page)) >>= await
    let fetchedRecordsMap ← fetchMissing fails moments idsNotInCache
    let fullResults := List.zipWith (service.filled fetchedRecordsMap) results page
    let jobs := fetchedRecordsMap.map fun record => ⟨service.createCacheKeyFunction (service.id record).text, record⟩
    enqueue fails 0 jobs
    let edges := edgesOf page fullResults
    pure (⟨found.1, edges.map IEdgeType.node, limit < found.2.length, edges⟩, jobs)
  else do
    let page := popped limit found.2
    let idRecordMap ← fetchRecords fails moments (page.map PaginatedRecord.id)
    let entities := page.map fun entry => (service.recordWith idRecordMap entry.id).map PageNode.fetched
    let edges := edgesOf page entities
    pure (⟨found.1, entities, limit < found.2.length, edges⟩, [])

theorem create_tail (cache : Bool) (cursor : Option JsString) (sqbModifier : Option (T → Bool)) :
    create fails moments cache limit cursor sqbModifier = (do
      let decoded ← lift (thrown (decodedCursor cursor))
      let found ← getPageAndTotalCount fails moments limit decoded sqbModifier
      tail fails moments limit cache found) := by
  cases cache with
  | true => rfl
  | false =>
      simp only [create, createPagination, tail, Bool.false_eq_true, if_false, Promises.bind_assoc]
      rfl

theorem tail_observed (cache : Bool) (found : Nat × List PaginatedRecord) : Observed (tail fails moments limit cache found) := by
  unfold tail
  cases cache with
  | true =>
      simp only [if_true]
      refine Promises.observed_bind _ _ (Promises.observed_await _ _) fun cached _ => ?_
      refine Promises.observed_bind _ _ ?_ fun records _ => ?_
      · unfold fetchMissing
        split
        · exact Promises.observed_await _ _
        · exact Promises.observed_pure []
      · exact Promises.observed_bind _ _ (enqueue_observed fails 0 _) fun _ _ => Promises.observed_pure _
  | false =>
      simp only [Bool.false_eq_true, if_false]
      exact Promises.observed_bind _ _ (Promises.observed_await _ _) fun records _ => Promises.observed_pure _

theorem tail_handles (cache : Bool) (found : Nat × List PaginatedRecord) :
    Handles (· ≠ .countAll) (tail fails moments limit cache found) := by
  have nothing : ∀ {α : Type} (value : α), Handles (· ≠ PageQuery.countAll) (pure value : PageRun E α) :=
    fun value query impossible => by cases impossible
  unfold tail
  cases cache with
  | true =>
      simp only [if_true]
      refine Promises.handles_bind _ _ _ (Promises.handles_await _ _ _ fun impossible => by cases impossible) fun cached _ => ?_
      refine Promises.handles_bind _ _ _ ?_ fun records _ => ?_
      · unfold fetchMissing
        split
        · exact Promises.handles_await _ _ _ fun impossible => by cases impossible
        · exact nothing []
      · exact Promises.handles_bind _ _ _ (enqueue_handles fails 0 _) fun _ _ => nothing _
  | false =>
      simp only [Bool.false_eq_true, if_false]
      exact Promises.handles_bind _ _ _ (Promises.handles_await _ _ _ fun impossible => by cases impossible) fun records _ => nothing _

-- Without a filter both queries are settled together; with one, the count of
-- all records is dropped.
theorem pair_unfiltered (decoded : Option Json.Value) : Observed (getPageAndTotalCount fails moments limit decoded none) :=
  Promises.observed_both PageQuery.countAll PageQuery.pageIds (answered fails .countAll (.ok moments.counting.rows.length))
    (answered fails .pageIds (service.getPageIdsAndEncodedCursors moments.listing.rows limit decoded none))

def pairFiltered (decoded : Option Json.Value) (selects : T → Bool) : PageRun E (Nat × List PaginatedRecord) := do
  let countQuery ← ask fails .countSelected (.ok (selected moments.counting.rows (some selects)).length)
  let page ← ask fails .pageIds (service.getPageIdsAndEncodedCursors moments.listing.rows limit decoded (some selects))
  both countQuery page

theorem pair_filtered (decoded : Option Json.Value) (selects : T → Bool) :
    getPageAndTotalCount fails moments limit decoded (some selects) =
      (ask fails .countAll (.ok moments.counting.rows.length) >>= fun _ => pairFiltered fails moments limit decoded selects) := rfl

theorem pair_observed (decoded : Option Json.Value) (selects : T → Bool) :
    Observed (pairFiltered fails moments limit decoded selects) :=
  Promises.observed_both PageQuery.countSelected PageQuery.pageIds
    (answered fails .countSelected (.ok (selected moments.counting.rows (some selects)).length))
    (answered fails .pageIds (service.getPageIdsAndEncodedCursors moments.listing.rows limit decoded (some selects)))

theorem pair_handles (decoded : Option Json.Value) (selects : T → Bool) :
    Handles (· ≠ .countAll) (pairFiltered fails moments limit decoded selects) := by
  intro query member
  have either : query ∈ [PageQuery.countSelected, PageQuery.pageIds] := member
  rw [List.mem_cons, List.mem_singleton] at either
  rcases either with rfl | rfl <;> exact fun impossible => by cases impossible

theorem create_observed (cache : Bool) (cursor : Option JsString) (sqbModifier : Option (T → Bool)) :
    Observed (create fails moments cache limit cursor sqbModifier) ↔
      sqbModifier = none ∨ fails .countAll = none ∨ ∃ fault, decodedCursor cursor = .error fault := by
  rw [create_tail]
  cases read : decodedCursor cursor with
  | error fault =>
      refine ⟨fun _ => .inr (.inr ⟨fault, rfl⟩), fun _ => ?_⟩
      rw [Promises.bind_thrown _ _ (.plain (.cursor fault)) rfl]
      exact fun query reason impossible => by cases impossible
  | ok decoded =>
      have onward : (lift (thrown (.ok decoded)) >>= fun decoded => getPageAndTotalCount fails moments limit decoded sqbModifier >>=
          tail fails moments limit cache) = (getPageAndTotalCount fails moments limit decoded sqbModifier >>=
            tail fails moments limit cache : PageRun E _) := rfl
      rw [onward]
      cases sqbModifier with
      | none =>
          refine ⟨fun _ => .inl rfl, fun _ => ?_⟩
          exact Promises.observed_bind _ _ (pair_unfiltered fails moments limit decoded) fun found _ =>
            tail_observed fails moments limit cache found
      | some selects =>
          have rest : Observed (pairFiltered fails moments limit decoded selects >>= tail fails moments limit cache) :=
            Promises.observed_bind _ _ (pair_observed fails moments limit decoded selects) fun found _ =>
              tail_observed fails moments limit cache found
          have foreign : Handles (· ≠ .countAll) (pairFiltered fails moments limit decoded selects >>= tail fails moments limit cache) :=
            Promises.handles_bind _ _ _ (pair_handles fails moments limit decoded selects) fun found _ =>
              tail_handles fails moments limit cache found
          rw [pair_filtered, Promises.bind_assoc]
          have dropped := Promises.observed_dropped .countAll (answered fails .countAll (.ok moments.counting.rows.length)) _ rest foreign
          rw [reason_answered] at dropped
          refine dropped.trans ⟨fun fine => .inr (.inl fine), ?_⟩
          rintro (impossible | fine | ⟨fault, impossible⟩)
          · cases impossible
          · exact fine
          · cases impossible

-- handleFatalError for what reaches unhandledRejection.
def exitCode {α : Type} (ran : PageRun E α) : Option Nat := if unhandled ran = [] then none else some 1

theorem exit_code_none {α : Type} (ran : PageRun E α) : exitCode ran = none ↔ unhandled ran = [] := by
  unfold exitCode
  split
  · rename_i none
    exact ⟨fun _ => none, fun _ => rfl⟩
  · rename_i some_
    exact ⟨fun impossible => (by cases impossible), fun none => absurd none some_⟩

-- The count of all records is started before the filter is looked at, and then
-- dropped.
theorem failures_observed_iff (cache : Bool) (cursor : Option JsString) (sqbModifier : Option (T → Bool)) :
    ((∀ query reason, (query, some reason) ∈ (create fails moments cache limit cursor sqbModifier).started →
        ∃ thrown, (create fails moments cache limit cursor sqbModifier).result = .error thrown ∧ Contains thrown reason) ∧
      unhandled (create fails moments cache limit cursor sqbModifier) = [] ∧
      exitCode (create fails moments cache limit cursor sqbModifier) = none) ↔
    (sqbModifier = none ∨ fails .countAll = none ∨ ∃ fault, decodedCursor cursor = .error fault) := by
  rw [exit_code_none, and_self_iff, ← Promises.observed_iff]
  exact create_observed fails moments limit cache cursor sqbModifier

end Handlers

section Undisturbed

variable (store : PageStore service) (limit : Nat)

def still : Moments service := ⟨store, store, store, store⟩

def reliable : PageQuery → Option E := fun _ => none

theorem enqueue_returns (index : Nat) (jobs : List (ICacheJobData T)) :
    (enqueue (reliable : PageQuery → Option E) index jobs).result = .ok () := by
  induction jobs generalizing index with
  | nil => rfl
  | cons job rest ih => exact (Promises.bind_result _ _).trans (ih (index + 1))

theorem pair_result (decoded : Option Json.Value) (sqbModifier : Option (T → Bool)) :
    (getPageAndTotalCount (reliable : PageQuery → Option E) (still store) limit decoded sqbModifier).result =
      thrown (service.getPageAndTotalCount store.rows limit decoded sqbModifier) := by
  have everything : selected store.rows none = store.rows := List.filter_eq_self.mpr fun _ _ => rfl
  unfold PaginationService.getPageAndTotalCount
  cases found : service.getPageIdsAndEncodedCursors store.rows limit decoded sqbModifier with
  | error fault =>
      cases sqbModifier with
      | none =>
          simp only [getPageAndTotalCount, startCount, ask, answered, reliable, still, found]
          rfl
      | some selects =>
          simp only [getPageAndTotalCount, startCount, ask, answered, reliable, still, found]
          rfl
  | ok page =>
      cases sqbModifier with
      | none =>
          simp only [getPageAndTotalCount, startCount, ask, answered, reliable, still, found, everything]
          rfl
      | some selects =>
          simp only [getPageAndTotalCount, startCount, ask, answered, reliable, still, found]
          rfl

theorem fetch_missing_result (ids : List Uuid) : (fetchMissing (reliable : PageQuery → Option E) (still store) ids).result =
    .ok (if ids.length > 0 then PaginationService.fetchRecords store ids else []) := by
  unfold fetchMissing
  split <;> rfl

theorem tail_cached_result (found : Nat × List PaginatedRecord) :
    (tail (reliable : PageQuery → Option E) (still store) limit true found).result = .ok (
      let page := popped limit found.2
      let fetchedRecordsMap := if (getFromCache store page).2.length > 0 then
        PaginationService.fetchRecords store (getFromCache store page).2 else []
      let edges := edgesOf page (List.zipWith (service.filled fetchedRecordsMap) (getFromCache store page).1 page)
      (⟨found.1, edges.map IEdgeType.node, limit < found.2.length, edges⟩,
        fetchedRecordsMap.map fun record => ⟨service.createCacheKeyFunction (service.id record).text, record⟩)) := by
  simp only [tail, if_true]
  rw [Promises.bind_result]
  show (fetchMissing _ (still store) (getFromCache store (popped limit found.2)).2 >>= _).result = _
  rw [Promises.bind_result, fetch_missing_result]
  show (enqueue _ 0 _ >>= _).result = _
  rw [Promises.bind_result, enqueue_returns]
  rfl

-- When no query fails and nothing changes on the way, the request answers as
-- the page function does.
theorem create_undisturbed (cache : Bool) (cursor : Option JsString) (sqbModifier : Option (T → Bool)) :
    (create (reliable : PageQuery → Option E) (still store) cache limit cursor sqbModifier).result =
      thrown (PaginationService.create store cache limit cursor sqbModifier) := by
  rw [create_tail, Promises.bind_result]
  have pair := fun decoded => pair_result (E := E) store limit decoded sqbModifier
  cases read : decodedCursor cursor with
  | error fault =>
      cases cache <;> simp only [PaginationService.create, PaginationService.createPaginationCached,
        PaginationService.createPagination, read] <;> rfl
  | ok decoded =>
      show (getPageAndTotalCount _ (still store) limit decoded sqbModifier >>= tail _ (still store) limit cache).result = _
      rw [Promises.bind_result, pair decoded]
      cases found : service.getPageAndTotalCount store.rows limit decoded sqbModifier with
      | error fault =>
          cases cache <;> simp only [PaginationService.create, PaginationService.createPaginationCached,
            PaginationService.createPagination, read, found, bind, Except.bind, thrown] <;> rfl
      | ok pair =>
          cases cache with
          | true =>
              refine (tail_cached_result store limit pair).trans ?_
              simp only [PaginationService.create, PaginationService.createPaginationCached, read, found, bind, Except.bind, if_true]
              rfl
          | false =>
              simp only [PaginationService.create, PaginationService.createPagination, read, found, bind, Except.bind, thrown]
              rfl

end Undisturbed

def countFails : PageQuery → Option Text
  | .countAll => some "Connection terminated unexpectedly".toList
  | _ => none

-- The page is returned, and the count that nobody waits for stops the server.
theorem dropped_count_unobserved : ¬ ∀ (fails : PageQuery → Option Text) (moments : Moments votePages) (cache : Bool) (limit : Nat)
    (cursor : Option JsString) (sqbModifier : Option (Uuid × Int → Bool)),
    (∀ query reason, (query, some reason) ∈ (create fails moments cache limit cursor sqbModifier).started →
      ∃ thrown, (create fails moments cache limit cursor sqbModifier).result = .error thrown ∧ Contains thrown reason) ∧
    unhandled (create fails moments cache limit cursor sqbModifier) = [] ∧
    exitCode (create fails moments cache limit cursor sqbModifier) = none := by
  intro claim
  obtain ⟨thrown, handled, -⟩ := claim countFails (still threeVotes) true 2 none (some fun vote => vote.2 = 0)
  have observed := (Promises.observed_iff _).mpr ⟨thrown, handled⟩
  rcases (create_observed countFails (still threeVotes) 2 true none _).mp observed with impossible | impossible | ⟨fault, impossible⟩
  · cases impossible
  · cases impossible
  · cases impossible

end PageRequests

end RateWise
