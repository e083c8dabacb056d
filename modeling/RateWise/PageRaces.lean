import RateWise.PageQueries
import RateWise.PageWalks

set_option autoImplicit false

namespace RateWise

namespace PageRequests

open PaginationService
open Promises (Promise Ran start await both lift)

variable {T S E : Type} {service : PaginationService T S}

def cursorId (cursor : JsString) : Option Json.Value := (decodeCursor cursor).bind (property "id")

structure Whole (service : PaginationService T S) (page : IPaginatedType T S) : Prop where
  nodes : page.nodes = page.edges.map IEdgeType.node
  records : ∀ edge ∈ page.edges, ∃ node record, edge.node = some node ∧ service.json node = service.serialise record ∧
    cursorId edge.cursor = some (.string (Utf16.ofText (service.id record).text))

def requested (moments : Moments service) (limit : Nat) (cursor : Option JsString) (sqbModifier : Option (T → Bool)) :
    List PaginatedRecord :=
  match decodedCursor cursor with
  | .error _ => []
  | .ok decoded => match service.getPageIdsAndEncodedCursors moments.listing.rows limit decoded sqbModifier with
    | .error _ => []
    | .ok found => popped limit found

-- In the cache when it is asked, or still stored when the records are fetched.
def Available (moments : Moments service) (cache : Bool) (id : Uuid) : Prop :=
  (cache = true ∧ (moments.caching.cache (service.createCacheKeyFunction id.text)).isSome = true) ∨
    ∃ record ∈ moments.fetching.rows, service.id record = id

section Records

theorem answered_ok {α : Type} (fails : PageQuery → Option E) (query : PageQuery) (answer : Except CursorFault α) (value : α)
    (returned : answered fails query answer = .ok value) : answer = .ok value := by
  unfold answered at returned
  split at returned
  · cases returned
  · cases answer with
    | error fault => cases returned
    | ok other =>
        cases returned
        rfl

theorem cursor_id_entry (row : T) : cursorId (service.entry row).cursor = some (.string (Utf16.ofText (service.id row).text)) := by
  rw [cursorId, PaginationService.entry, decode_encode_cursor]
  rfl

theorem record_with_iff (store : PageStore service) (ids : List Uuid) (id : Uuid) :
    (∃ record, service.recordWith (PaginationService.fetchRecords store ids) id = some record) ↔
      id ∈ ids ∧ ∃ record ∈ store.rows, service.id record = id := by
  constructor
  · rintro ⟨record, found⟩
    have same : service.id record = id := by simpa using List.find?_some found
    obtain ⟨stored, asked⟩ := (mem_fetch_records store ids record).mp (List.mem_of_find?_eq_some found)
    exact ⟨same ▸ asked, record, stored, same⟩
  · rintro ⟨asked, record, stored, rfl⟩
    exact ⟨record, found_record store ids record stored asked⟩

def ShowsId (service : PaginationService T S) (node : Option (PageNode T S)) (id : Uuid) : Prop :=
  ∃ found record, node = some found ∧ service.json found = service.serialise record ∧ service.id record = id

theorem shows_fetched (store : PageStore service) (ids : List Uuid) (id : Uuid) (asked : id ∈ ids) :
    ShowsId service ((service.recordWith (PaginationService.fetchRecords store ids) id).map .fetched) id ↔
      ∃ record ∈ store.rows, service.id record = id := by
  constructor
  · rintro ⟨node, record, shown, -⟩
    obtain ⟨found, located, rfl⟩ := Option.map_eq_some_iff.mp shown
    exact ((record_with_iff store ids id).mp ⟨found, located⟩).2
  · intro stored
    obtain ⟨record, found⟩ := (record_with_iff store ids id).mpr ⟨asked, stored⟩
    have same : service.id record = id := by simpa using List.find?_some found
    exact ⟨.fetched record, record, by rw [found]; rfl, rfl, same⟩

theorem shows_filled (moments : Moments service) (owned : Owned moments.caching) (page : List PaginatedRecord) (entry : PaginatedRecord)
    (listed : entry ∈ page) : ShowsId service (service.filled (if (getFromCache moments.caching page).2.length > 0 then
        PaginationService.fetchRecords moments.fetching (getFromCache moments.caching page).2 else [])
      (moments.caching.cache (service.createCacheKeyFunction entry.id.text)) entry) entry.id ↔ Available moments true entry.id := by
  cases cached : moments.caching.cache (service.createCacheKeyFunction entry.id.text) with
  | some value =>
      obtain ⟨record, same, rfl⟩ := owned entry.id value cached
      refine ⟨fun _ => .inl ⟨rfl, by rw [cached]; rfl⟩, fun _ => ?_⟩
      exact ⟨.cached (service.serialise record), record, rfl, rfl, same⟩
  | none =>
      have asked : entry.id ∈ (getFromCache moments.caching page).2 := by
        simp only [getFromCache, List.map_map, List.mem_map, List.mem_filter]
        refine ⟨(entry, none), ⟨?_, rfl⟩, rfl⟩
        rw [← cached, List.mem_iff_getElem?]
        obtain ⟨i, at_⟩ := List.mem_iff_getElem?.mp listed
        exact ⟨i, by simp [List.getElem?_zip_eq_some, at_]⟩
      rw [if_pos (List.length_pos_of_mem asked)]
      refine (shows_fetched moments.fetching _ entry.id asked).trans ?_
      simp [Available, cached]

theorem edges_of_map (page : List PaginatedRecord) (node : PaginatedRecord → Option (PageNode T S)) :
    edgesOf page (page.map node) = page.map fun entry => ⟨entry.cursor, node entry⟩ := by
  simp only [edgesOf, List.zipWith_map_left, List.zipWith_self]

theorem whole_iff (page : IPaginatedType T S) (entries : List PaginatedRecord) (node : PaginatedRecord → Option (PageNode T S))
    (nodes : page.nodes = entries.map node) (edges : page.edges = entries.map fun entry => ⟨entry.cursor, node entry⟩)
    (rows : ∀ entry ∈ entries, ∃ row, entry = service.entry row) :
    Whole service page ↔ ∀ entry ∈ entries, ShowsId service (node entry) entry.id := by
  constructor
  · intro whole entry listed
    obtain ⟨row, rfl⟩ := rows entry listed
    obtain ⟨found, record, shown, same, encoded⟩ := whole.records ⟨(service.entry row).cursor, node (service.entry row)⟩
      (by rw [edges]; exact List.mem_map_of_mem listed)
    rw [cursor_id_entry, Option.some.injEq, Json.Value.string.injEq] at encoded
    exact ⟨found, record, shown, same, (uuid_text_injective (Utf16.of_text_injective _ _ encoded)).symm⟩
  · intro shows
    refine ⟨by rw [nodes, edges, List.map_map]; rfl, fun edge member => ?_⟩
    rw [edges] at member
    obtain ⟨entry, listed, rfl⟩ := List.mem_map.mp member
    obtain ⟨found, record, shown, same, known⟩ := shows entry listed
    obtain ⟨row, rfl⟩ := rows entry listed
    exact ⟨found, record, shown, same, by rw [known]; exact cursor_id_entry row⟩

end Records

section Races

variable (fails : PageQuery → Option E) (moments : Moments service) (limit : Nat)

theorem entries_rows (decoded : Option Json.Value) (sqbModifier : Option (T → Bool)) (found : List PaginatedRecord)
    (listed : service.getPageIdsAndEncodedCursors moments.listing.rows limit decoded sqbModifier = .ok found) :
    ∀ entry ∈ popped limit found, ∃ row, entry = service.entry row := by
  have counted : service.getPageAndTotalCount moments.listing.rows limit decoded sqbModifier =
      .ok ((selected moments.listing.rows sqbModifier).length, found) := by
    rw [PaginationService.getPageAndTotalCount, listed]
    rfl
  obtain ⟨rows, rfl, -⟩ := page_listed moments.listing.rows limit decoded sqbModifier _ found counted
  rw [popped_entries]
  intro entry member
  obtain ⟨row, -, rfl⟩ := List.mem_map.mp member
  exact ⟨row, rfl⟩

theorem pair_returned (decoded : Option Json.Value) (sqbModifier : Option (T → Bool)) (found : Nat × List PaginatedRecord)
    (returned : (getPageAndTotalCount fails moments limit decoded sqbModifier).result = .ok found) :
    service.getPageIdsAndEncodedCursors moments.listing.rows limit decoded sqbModifier = .ok found.2 := by
  unfold getPageAndTotalCount at returned
  obtain ⟨count, -, later⟩ := Promises.bind_ok _ _ _ returned
  obtain ⟨page, asked, last⟩ := Promises.bind_ok _ _ _ later
  cases asked
  refine answered_ok fails .pageIds _ found.2 ?_
  unfold both at last
  simp only at last
  split at last
  · rename_i answer
    cases last
    exact answer
  · cases last
  · cases last
  · cases last

theorem tail_whole (cache : Bool) (owned : cache = true → Owned moments.caching) (found : Nat × List PaginatedRecord)
    (rows : ∀ entry ∈ popped limit found.2, ∃ row, entry = service.entry row)
    (page : IPaginatedType T S) (jobs : List (ICacheJobData T))
    (returned : (tail fails moments limit cache found).result = .ok (page, jobs)) :
    Whole service page ↔ ∀ entry ∈ popped limit found.2, Available moments cache entry.id := by
  unfold tail at returned
  cases cache with
  | true =>
      simp only [if_true] at returned
      obtain ⟨cached, hit, later⟩ := Promises.bind_ok _ _ _ returned
      cases answered_ok fails .cachedValues _ cached hit
      obtain ⟨records, fetched, last⟩ := Promises.bind_ok _ _ _ later
      obtain ⟨-, -, ended⟩ := Promises.bind_ok _ _ _ last
      cases ended
      have supplied : records = if (getFromCache moments.caching (popped limit found.2)).2.length > 0 then
          PaginationService.fetchRecords moments.fetching (getFromCache moments.caching (popped limit found.2)).2 else [] := by
        unfold fetchMissing at fetched
        split at fetched
        · rename_i some_
          rw [if_pos some_]
          exact (Except.ok.inj (answered_ok fails .records _ records fetched)).symm
        · rename_i none
          rw [if_neg none]
          cases fetched
          rfl
      have filled : List.zipWith (service.filled records) (getFromCache moments.caching (popped limit found.2)).1 (popped limit found.2) =
          (popped limit found.2).map fun entry =>
            service.filled records (moments.caching.cache (service.createCacheKeyFunction entry.id.text)) entry := by
        simp only [getFromCache, List.map_map, List.zipWith_map_left, List.zipWith_self]
        rfl
      rw [filled, edges_of_map]
      refine (whole_iff _ (popped limit found.2) _ (by rw [List.map_map]; rfl) rfl rows).trans ?_
      refine forall_congr' fun entry => imp_congr_right fun listed => ?_
      rw [supplied]
      exact shows_filled moments (owned rfl) (popped limit found.2) entry listed
  | false =>
      simp only [Bool.false_eq_true, if_false] at returned
      obtain ⟨records, fetched, ended⟩ := Promises.bind_ok _ _ _ returned
      cases ended
      cases answered_ok fails .records _ records fetched
      rw [edges_of_map]
      refine (whole_iff _ (popped limit found.2) _ rfl rfl rows).trans ?_
      refine forall_congr' fun entry => imp_congr_right fun listed => ?_
      refine (shows_fetched moments.fetching _ entry.id (List.mem_map_of_mem listed)).trans ?_
      simp [Available]

-- Every edge of a returned page carries its record exactly when no record of
-- the page was removed before it was fetched, but for those from the cache.
theorem edges_carry_records_iff (cache : Bool) (owned : cache = true → Owned moments.caching) (cursor : Option JsString)
    (sqbModifier : Option (T → Bool)) (page : IPaginatedType T S) (jobs : List (ICacheJobData T))
    (returned : (create fails moments cache limit cursor sqbModifier).result = .ok (page, jobs)) :
    Whole service page ↔ ∀ entry ∈ requested moments limit cursor sqbModifier, Available moments cache entry.id := by
  rw [create_tail] at returned
  obtain ⟨decoded, lifted, later⟩ := Promises.bind_ok _ _ _ returned
  obtain ⟨found, pair, last⟩ := Promises.bind_ok _ _ _ later
  have listed := pair_returned fails moments limit decoded sqbModifier found pair
  have read : decodedCursor cursor = .ok decoded := by
    cases given : decodedCursor cursor with
    | error fault =>
        rw [given] at lifted
        cases lifted
    | ok value =>
        rw [given] at lifted
        cases lifted
        rfl
  have entries : requested moments limit cursor sqbModifier = popped limit found.2 := by
    simp only [requested, read, listed]
  rw [entries]
  exact tail_whole fails moments limit cache owned found (entries_rows moments limit decoded sqbModifier found.2 listed) page jobs last

end Races

theorem one_vote_distinct : ([(firstVote, 0)].map votePages.id).Nodup := List.nodup_singleton _

theorem no_vote_distinct : (([] : List (Uuid × Int)).map votePages.id).Nodup := List.nodup_nil

def oneVote : PageStore votePages :=
  { threeVotes with rows := [(firstVote, 0)], distinct := one_vote_distinct, cache := fun _ => none }

def noVote : PageStore votePages :=
  { threeVotes with rows := [], distinct := no_vote_distinct, cache := fun _ => none }

theorem one_vote_owned : Owned oneVote := fun _ _ cached => by cases cached

-- The vote is deleted between the two queries, and its edge has no node.
theorem deleted_vote_missing : ¬ ∀ (fails : PageQuery → Option Text) (moments : Moments votePages) (limit : Nat) (cache : Bool)
    (cursor : Option JsString) (sqbModifier : Option (Uuid × Int → Bool)) (page : IPaginatedType (Uuid × Int) Text)
    (jobs : List (ICacheJobData (Uuid × Int))), (cache = true → Owned moments.caching) →
    (create fails moments cache limit cursor sqbModifier).result = .ok (page, jobs) → Whole votePages page := by
  intro claim
  have whole := claim reliable ⟨oneVote, oneVote, oneVote, noVote⟩ 1 true none none _ _ (fun _ => one_vote_owned) rfl
  have served := (tail_whole (reliable : PageQuery → Option Text) ⟨oneVote, oneVote, oneVote, noVote⟩ 1 true (fun _ => one_vote_owned)
    (1, [votePages.entry (firstVote, 0)]) (fun entry member => ⟨(firstVote, 0), List.mem_singleton.mp member⟩) _ _ rfl).mp whole
  rcases served (votePages.entry (firstVote, 0)) (.head _) with ⟨-, hit⟩ | ⟨record, stored, -⟩
  · cases hit
  · cases stored

theorem edges_carry_records_iff_kept : ∃ page jobs,
    (create (reliable : PageQuery → Option Text) (still oneVote) true 1 none none).result = .ok (page, jobs) ∧ Whole votePages page := by
  refine ⟨_, _, rfl, ?_⟩
  refine (edges_carry_records_iff (reliable : PageQuery → Option Text) (still oneVote) 1 true (fun _ => one_vote_owned) none none _ _ rfl).mpr ?_
  intro entry member
  have only : entry = votePages.entry (firstVote, 0) := List.mem_singleton.mp member
  subst only
  exact .inr ⟨(firstVote, 0), .head _, rfl⟩

end PageRequests

end RateWise
