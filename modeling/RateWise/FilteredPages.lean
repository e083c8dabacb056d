import RateWise.PageWalks

set_option autoImplicit false

namespace RateWise

namespace PaginationService

variable {T S : Type} {service : PaginationService T S}

-- A copy in the cache is of a record with its id, which the filter takes for the
-- stored one.
def Copies (store : PageStore service) (selects : T → Bool) : Prop :=
  ∀ id value, store.cache (service.createCacheKeyFunction id.text) = some value →
    ∃ record, service.id record = id ∧ value = service.serialise record ∧
      ∀ row ∈ store.rows, service.id row = id → selects record = selects row

theorem copies_owned (store : PageStore service) (selects : T → Bool) (copies : Copies store selects) : Owned store := by
  intro id value cached
  obtain ⟨record, same, serialised, -⟩ := copies id value cached
  exact ⟨record, same, serialised⟩

-- The node shows a record that the filter selects, under the id of a stored one
-- that it selects.
def ShowsSelected (service : PaginationService T S) (rows : List T) (selects : T → Bool)
    (node : Option (PageNode T S)) : Prop :=
  ∃ record, node.map service.json = some (service.serialise record) ∧ selects record = true ∧
    ∃ row ∈ rows, selects row = true ∧ service.id record = service.id row

def Filtered {ε : Type} (service : PaginationService T S) (rows : List T) (selects : T → Bool)
    (answer : Except ε (IPaginatedType T S × List (ICacheJobData T))) : Prop :=
  ∃ page jobs, answer = .ok (page, jobs) ∧ page.totalCount = (rows.filter selects).length ∧
    ∀ node ∈ page.nodes, ShowsSelected service rows selects node

-- All pages together show each row that the filter selects, once.
def FilteredWalk {ε : Type} (service : PaginationService T S) (rows : List T) (selects : T → Bool)
    (answer : Except ε (List (IPaginatedType T S))) : Prop :=
  ∃ pages shown, answer = .ok pages ∧ Ended pages ∧
    List.Forall₂ (fun page listed => List.Forall₂ (Shows service) page.edges listed) pages shown ∧
    shown.flatten.Perm (rows.filter selects)

section Single

variable (store : PageStore service) (selects : T → Bool) (limit : Nat) (cursor : Option JsString)

def Readable (service : PaginationService T S) (cursor : Option JsString) : Prop :=
  ∃ decoded condition, decodedCursor cursor = .ok decoded ∧ service.cursorCondition decoded = .ok condition

theorem served_selected (copies : Copies store selects) (row : T) (stored : row ∈ store.rows) (selected : selects row = true) :
    ShowsSelected service store.rows selects (some (served store row)) := by
  unfold served
  cases cached : store.cache (service.createCacheKeyFunction (service.id row).text) with
  | none => exact ⟨row, rfl, selected, row, stored, selected, rfl⟩
  | some value =>
      obtain ⟨record, same, rfl, agrees⟩ := copies (service.id row) value cached
      exact ⟨record, rfl, by rw [agrees row stored rfl, selected], row, stored, selected, same⟩

theorem selected_page (readable : Readable service cursor) :
    ∃ page jobs, create store true limit cursor (some selects) = .ok (page, jobs) ∧
      page.totalCount = (store.rows.filter selects).length ∧
      ∀ node ∈ page.nodes, ∃ row ∈ store.rows, selects row = true ∧ node = some (served store row) := by
  obtain ⟨decoded, condition, read, given⟩ := readable
  have found : service.getPageAndTotalCount store.rows limit decoded (some selects) =
      .ok ((store.rows.filter selects).length,
        ((((store.rows.filter selects).filter condition).insertionSort fun a b => service.key a ≤ service.key b).take
          (limit + 1)).map service.entry) := by
    unfold getPageAndTotalCount getPageIdsAndEncodedCursors
    rw [given]
    rfl
  have chosen : ∀ row ∈ ((store.rows.filter selects).filter condition).insertionSort fun a b => service.key a ≤ service.key b,
      row ∈ store.rows ∧ selects row = true := by
    intro row member
    exact List.mem_filter.mp (List.mem_of_mem_filter ((List.mem_insertionSort _).mp member))
  refine ⟨_, _, pagination_cached_listed store limit cursor (some selects) decoded read _ _ found
    fun row member => (chosen row member).1, rfl, fun node member => ?_⟩
  obtain ⟨row, shown, rfl⟩ := List.mem_map.mp member
  obtain ⟨stored, selected⟩ := chosen row (List.mem_of_mem_take shown)
  exact ⟨row, stored, selected, rfl⟩

theorem filtered_page (copies : Copies store selects) (readable : Readable service cursor) :
    Filtered service store.rows selects (create store true limit cursor (some selects)) := by
  obtain ⟨page, jobs, created, total, nodes⟩ := selected_page store selects limit cursor readable
  refine ⟨page, jobs, created, total, fun node member => ?_⟩
  obtain ⟨row, stored, selected, rfl⟩ := nodes node member
  exact served_selected store selects copies row stored selected

theorem unreadable_fails (unreadable : ¬ Readable service cursor) (sqbModifier : Option (T → Bool)) :
    ∃ fault, create store true limit cursor sqbModifier = .error fault := by
  cases read : decodedCursor cursor with
  | error fault => exact ⟨fault, by simp only [create, createPaginationCached, read, bind, Except.bind, if_true]⟩
  | ok decoded =>
      cases given : service.cursorCondition decoded with
      | ok condition => exact absurd ⟨decoded, condition, read, given⟩ unreadable
      | error fault =>
          refine ⟨fault, ?_⟩
          simp only [create, createPaginationCached, read, getPageAndTotalCount, getPageIdsAndEncodedCursors, given, bind,
            Except.bind, if_true]

theorem created_readable (sqbModifier : Option (T → Bool)) (page : IPaginatedType T S) (jobs : List (ICacheJobData T))
    (created : create store true limit cursor sqbModifier = .ok (page, jobs)) : Readable service cursor := by
  by_contra unreadable
  obtain ⟨fault, failed⟩ := unreadable_fails store limit cursor unreadable sqbModifier
  rw [failed] at created
  cases created

theorem created_counts (page : IPaginatedType T S) (jobs : List (ICacheJobData T))
    (created : create store true limit cursor (some selects) = .ok (page, jobs)) :
    Readable service cursor ∧ page.totalCount = (store.rows.filter selects).length := by
  have readable := created_readable store limit cursor (some selects) page jobs created
  obtain ⟨other, again, same, total, -⟩ := selected_page store selects limit cursor readable
  rw [created] at same
  cases same
  exact ⟨readable, total⟩

theorem no_cursor_readable : Readable service none := ⟨none, fun _ => true, rfl, rfl⟩

end Single

section Whole

variable (limit : Nat) (selects : T → Bool) (rows : List T) (stores : List (PageStore service))

theorem same_rows_immutable (same : ∀ store ∈ stores, store.rows = rows) : Immutable stores := by
  intro one inOne two inTwo a inA b inB equal
  rw [same one inOne] at inA
  rw [same two inTwo] at inB
  have distinct := one.distinct
  rw [same one inOne] at distinct
  rw [List.inj_on_of_nodup_map distinct inA inB equal]

theorem returned_selected (positive : 1 ≤ limit) (same : ∀ store ∈ stores, store.rows = rows) (row : T)
    (member : row ∈ (returned limit (some selects) stores).flatten) : row ∈ rows.filter selects := by
  obtain ⟨page, listed, inPage⟩ := List.mem_flatten.mp member
  obtain ⟨⟨fetched, more⟩, inWalk, rfl⟩ := List.mem_map.mp listed
  obtain ⟨i, at_⟩ := List.mem_iff_getElem?.mp inWalk
  obtain ⟨store, here, -, inside, -⟩ := returned_paged limit (some selects) stores positive i fetched more at_
  rw [← same store (List.mem_of_getElem? here)]
  exact inside row inPage

theorem static_ends (positive : 1 ≤ limit) (same : ∀ store ∈ stores, store.rows = rows) (enough : rows.length < stores.length) :
    Keyset.Complete (Keyset.walk service.key limit none (tables (some selects) stores)) := by
  by_cases nonempty : 1 ≤ (selected rows (some selects)).length
  · refine (returned_static limit (some selects) stores positive rows same nonempty ?_).2
    have fewer : (selected rows (some selects)).length ≤ rows.length := List.length_filter_le _ _
    refine le_trans (Nat.div_le_of_le_mul ?_) (fewer.trans (Nat.le_of_lt enough))
    obtain ⟨n, count⟩ := Nat.exists_eq_add_of_le nonempty
    obtain ⟨m, size⟩ := Nat.exists_eq_add_of_le positive
    have area : (1 + m) * (1 + n) = 1 + n + (m + m * n) := by
      rw [Nat.add_mul, Nat.one_mul, Nat.mul_add m, Nat.mul_one]
    rw [count, size, area]
    omega
  · have nothing : selected rows (some selects) = [] := List.eq_nil_of_length_eq_zero (by omega)
    cases stores with
    | nil => exact absurd enough (Nat.not_lt_zero _)
    | cons store later =>
        have empty : selected store.rows (some selects) = [] := by rw [same store (by simp), nothing]
        have page : Keyset.fetch service.key limit none (selected store.rows (some selects)) = ([], false) := by
          rw [empty]
          simp [Keyset.fetch, Keyset.beyond]
        rw [tables, List.map_cons, Keyset.walk_cons, page]
        exact ⟨([], false), rfl, rfl⟩

theorem filtered_walk (positive : 1 ≤ limit) (same : ∀ store ∈ stores, store.rows = rows)
    (copies : ∀ store ∈ stores, Copies store selects) (printed : ∀ row ∈ rows, PrintsBack service row)
    (enough : rows.length < stores.length) :
    FilteredWalk service rows selects (walk true limit (some selects) none stores) := by
  obtain ⟨pages, walked, lists, -⟩ := walk_lists true limit (some selects) stores
    (fun _ store listed => copies_owned store selects (copies store listed))
    (fun store listed row stored => printed row (same store listed ▸ stored)) none none rfl
  have complete := static_ends limit selects rows stores positive same enough
  refine ⟨pages, returned limit (some selects) stores, walked, (ended_complete pages _ lists).mpr complete, ?_, ?_⟩
  · rw [returned, List.forall₂_map_right_iff]
    exact lists.imp fun _ _ both => both.2
  · obtain ⟨store, listed⟩ := List.exists_mem_of_length_pos (Nat.lt_of_le_of_lt (Nat.zero_le _) enough)
    have distinct : (rows.map service.id).Nodup := same store listed ▸ store.distinct
    have immutable := same_rows_immutable rows stores same
    have once := returned_once limit (some selects) stores positive immutable
    refine (List.perm_ext_iff_of_nodup (List.Nodup.of_map _ once) (List.Nodup.filter _ (List.Nodup.of_map _ distinct))).mpr
      fun row => ⟨returned_selected limit selects rows stores positive same row, fun chosen => ?_⟩
    have counted := returned_complete limit (some selects) stores positive immutable complete (service.id row)
      fun other member => ⟨row, by rw [same other (List.mem_of_mem_take member)]; exact chosen, rfl⟩
    have member : service.id row ∈ (returned limit (some selects) stores).flatten.map service.id :=
      List.count_pos_iff.mp (by omega)
    obtain ⟨other, inWalk, equal⟩ := List.mem_map.mp member
    have stored := List.mem_of_mem_filter (returned_selected limit selects rows stores positive same other inWalk)
    rw [← List.inj_on_of_nodup_map distinct stored (List.mem_of_mem_filter chosen) equal]
    exact inWalk

end Whole

section Calls

variable {σ ε : Type}

def walkCalls (call : σ → Option JsString → Except ε (IPaginatedType T S × List (ICacheJobData T))) :
    Option JsString → List σ → Except ε (List (IPaginatedType T S))
  | _, [] => .ok []
  | cursor, s :: later => do
      let (page, _) ← call s cursor
      if page.hasNextPage then do
        let rest ← walkCalls call (page.edges.getLast?.map IEdgeType.cursor) later
        pure (page :: rest)
      else pure [page]

theorem walk_calls (call : σ → Option JsString → Except ε (IPaginatedType T S × List (ICacheJobData T)))
    (store : σ → PageStore service) (limit : Nat) (sqbModifier : Option (T → Bool)) (wrap : CursorFault → ε) (states : List σ)
    (each : ∀ s ∈ states, ∀ cursor, call s cursor = (create (store s) true limit cursor sqbModifier).mapError wrap)
    (cursor : Option JsString) :
    walkCalls call cursor states = (walk true limit sqbModifier cursor (states.map store)).mapError wrap := by
  induction states generalizing cursor with
  | nil => rfl
  | cons s later ih =>
      have next := ih fun other member => each other (List.mem_cons_of_mem _ member)
      rw [walkCalls, each s (by simp), List.map_cons, walk]
      cases create (store s) true limit cursor sqbModifier with
      | error fault => rfl
      | ok pair =>
          obtain ⟨page, jobs⟩ := pair
          by_cases more : page.hasNextPage = true
          · simp only [Except.mapError, bind, Except.bind, more, if_true, next]
            cases walk true limit sqbModifier (page.edges.getLast?.map IEdgeType.cursor) (later.map store) <;> rfl
          · simp only [Except.mapError, bind, Except.bind, more]
            rfl

-- The call answers with what satisfies the filter, and so do the calls for all
-- pages, one after the other while the rows stay.
structure ExactFilter (service : PaginationService T S) (rows : List T) (satisfies : T → Bool)
    (call : σ → Option JsString → Except ε (IPaginatedType T S × List (ICacheJobData T))) (s : σ) (cursor : Option JsString)
    (Later : σ → Prop) : Prop where
  single : Filtered service rows satisfies (call s cursor)
  walked : ∀ calls : List σ, (∀ other ∈ calls, Later other) → rows.length < calls.length →
    FilteredWalk service rows satisfies (walkCalls call none calls)

theorem exact_filter (rows : List T) (satisfies : T → Bool) (limit : Nat) (positive : 1 ≤ limit)
    (call : σ → Option JsString → Except ε (IPaginatedType T S × List (ICacheJobData T))) (store : σ → PageStore service)
    (wrap : CursorFault → ε) (s : σ) (cursor : Option JsString) (Later : σ → Prop) (now : Later s)
    (each : ∀ other, Later other → ∀ cursor, call other cursor =
      (create (store other) true limit cursor (some satisfies)).mapError wrap)
    (same : ∀ other, Later other → (store other).rows = rows) (copies : ∀ other, Later other → Copies (store other) satisfies)
    (printed : ∀ row ∈ rows, PrintsBack service row) (readable : Readable service cursor) :
    ExactFilter service rows satisfies call s cursor Later where
  single := by
    obtain ⟨page, jobs, answered, exactly⟩ := filtered_page (store s) satisfies limit cursor (copies s now) readable
    rw [same s now] at exactly
    exact ⟨page, jobs, by rw [each s now, answered]; rfl, exactly⟩
  walked calls later enough := by
    obtain ⟨pages, shown, walked, rest⟩ := filtered_walk limit satisfies rows (calls.map store) positive
      (List.forall_mem_map.mpr fun other member => same other (later other member))
      (List.forall_mem_map.mpr fun other member => copies other (later other member)) printed
      (by rw [List.length_map]; exact enough)
    refine ⟨pages, shown, ?_, rest⟩
    rw [walk_calls call store limit (some satisfies) wrap calls fun other member => each other (later other member), walked]
    rfl

end Calls

end PaginationService

end RateWise
