import RateWise.Pagination

set_option autoImplicit false

namespace RateWise

namespace PaginationService

variable {T S : Type} {service : PaginationService T S}

-- One request for each state of the table, each with the cursor of the last
-- edge before it, until there is no next page.
def walk (cache : Bool) (limit : Nat) (sqbModifier : Option (T → Bool)) :
    Option JsString → List (PageStore service) → Except CursorFault (List (IPaginatedType T S))
  | _, [] => .ok []
  | cursor, store :: later => do
      let (page, _) ← create store cache limit cursor sqbModifier
      if page.hasNextPage then do
        let rest ← walk cache limit sqbModifier (page.edges.getLast?.map IEdgeType.cursor) later
        pure (page :: rest)
      else pure [page]

-- PostgreSQL reads the text of a created_at back.
def PrintsBack (service : PaginationService T S) (row : T) : Prop :=
  service.postgres.timestamptzIn (service.postgres.timestamptzOut (service.createdAt row)) = some (service.createdAt row)

def Owned (store : PageStore service) : Prop :=
  ∀ id value, store.cache (service.createCacheKeyFunction id.text) = some value →
    ∃ record, service.id record = id ∧ value = service.serialise record

-- PaginationCacheConsumer.process.
def process (store : PageStore service) (job : ICacheJobData T) : PageStore service :=
  { store with cache := Function.update store.cache job.key (some (service.serialise job.value)) }

theorem process_owned (store : PageStore service) (apart : Function.Injective service.createCacheKeyFunction)
    (owned : Owned store) (record : T) :
    Owned (process store ⟨service.createCacheKeyFunction (service.id record).text, record⟩) := by
  intro id value cached
  by_cases same : service.createCacheKeyFunction id.text = service.createCacheKeyFunction (service.id record).text
  · simp only [process, same, Function.update_self] at cached
    cases cached
    exact ⟨record, (uuid_text_injective (apart same)).symm, rfl⟩
  · simp only [process, Function.update_of_ne same] at cached
    exact owned id value cached

section Requests

def Names (service : PaginationService T S) : Option JsString → Option (Lex (Int × Uuid)) → Prop
  | none, after => after = none
  | some cursor, after => ∃ row, cursor = (service.entry row).cursor ∧ after = some (service.key row) ∧ PrintsBack service row

theorem further_beyond (last row : T) :
    service.further (some (service.createdAt last)) (some (service.id last)) row =
      decide (Keyset.Beyond (some (service.key last)) (service.key row)) := by
  have beyond : Keyset.Beyond (some (service.key last)) (service.key row) ↔ service.key last < service.key row :=
    ⟨fun further => further _ rfl, fun less _ same => by cases same; exact less⟩
  rw [Bool.eq_iff_iff, decide_eq_true_iff, beyond, Prod.Lex.lt_iff]
  simp [further, key]

theorem bind_text {α : Type} (input : Text → Option α) (fault : CursorFault) (text : Text) (read : α)
    (parses : input text = some read) : service.bindParameter input fault (some (.string (Utf16.ofText text))) = .ok (some read) := by
  unfold bindParameter
  rw [Option.bind_some, service.postgres.prepare_string, parameter, Utf16.to_text_of_text]
  simp only [parses]

theorem names_condition (cursor : Option JsString) (after : Option (Lex (Int × Uuid))) (names : Names service cursor after) :
    ∃ decoded, decodedCursor cursor = .ok decoded ∧
      service.cursorCondition decoded = .ok fun row => decide (Keyset.Beyond after (service.key row)) := by
  cases cursor with
  | none =>
      subst names
      refine ⟨none, rfl, congrArg Except.ok (funext fun row => ?_)⟩
      exact (decide_eq_true fun last impossible => by cases impossible).symm
  | some cursor =>
      obtain ⟨row, rfl, rfl, printed⟩ := names
      have read : decodedCursor (some (service.entry row).cursor) =
          .ok (some (cursorObject (Utf16.ofText (service.postgres.timestamptzOut (service.createdAt row)))
            (Utf16.ofText (service.id row).text))) :=
        decoded_read _ (encode_cursor_nonempty _ _) _ (decode_encode_cursor _ _)
      have date : service.bindParameter service.postgres.timestamptzIn .badTimestamptz _ = _ := bind_text _ _ _ _ printed
      have id : service.bindParameter service.postgres.uuidInput .badUuid _ = _ :=
        bind_text _ _ _ _ (service.postgres.uuid_text (service.id row))
      refine ⟨_, read, ?_⟩
      show (do
        let date ← service.bindParameter service.postgres.timestamptzIn .badTimestamptz (some (.string _))
        let id ← service.bindParameter service.postgres.uuidInput .badUuid (some (.string _))
        pure (service.further date id)) = _
      rw [date]
      show (do
        let id ← service.bindParameter service.postgres.uuidInput .badUuid (some (.string _))
        pure (service.further _ id)) = _
      rw [id]
      exact congrArg Except.ok (funext fun other => further_beyond row other)

theorem page_beyond (rows : List T) (limit : Nat) (sqbModifier : Option (T → Bool)) (cursor : Option JsString)
    (after : Option (Lex (Int × Uuid))) (names : Names service cursor after) :
    ∃ decoded, decodedCursor cursor = .ok decoded ∧
      service.getPageAndTotalCount rows limit decoded sqbModifier = .ok ((selected rows sqbModifier).length,
        ((Keyset.beyond service.key after (selected rows sqbModifier)).take (limit + 1)).map service.entry) := by
  obtain ⟨decoded, read, condition⟩ := names_condition cursor after names
  refine ⟨decoded, read, ?_⟩
  unfold getPageAndTotalCount getPageIdsAndEncodedCursors
  rw [condition]
  rfl

def Shows (service : PaginationService T S) (edge : IEdgeType T S) (row : T) : Prop :=
  edge.cursor = (service.entry row).cursor ∧
    ∃ record, service.id record = service.id row ∧ edge.node.map service.json = some (service.serialise record)

theorem served_owned (store : PageStore service) (owned : Owned store) (row : T) :
    ∃ record, service.id record = service.id row ∧ service.json (served store row) = service.serialise record := by
  unfold served
  cases cached : store.cache (service.createCacheKeyFunction (service.id row).text) with
  | none => exact ⟨row, rfl, rfl⟩
  | some value => exact owned (service.id row) value cached

theorem create_shows (cache : Bool) (store : PageStore service) (owned : cache = true → Owned store) (limit : Nat)
    (sqbModifier : Option (T → Bool)) (cursor : Option JsString) (after : Option (Lex (Int × Uuid)))
    (names : Names service cursor after) :
    ∃ page jobs, create store cache limit cursor sqbModifier = .ok (page, jobs) ∧
      page.totalCount = (selected store.rows sqbModifier).length ∧
      page.hasNextPage = (Keyset.fetch service.key limit after (selected store.rows sqbModifier)).2 ∧
      List.Forall₂ (Shows service) page.edges (Keyset.fetch service.key limit after (selected store.rows sqbModifier)).1 := by
  obtain ⟨decoded, read, found⟩ := page_beyond store.rows limit sqbModifier cursor after names
  have stored : ∀ row ∈ Keyset.beyond service.key after (selected store.rows sqbModifier), row ∈ store.rows :=
    fun row member => List.mem_of_mem_filter ((Keyset.mem_beyond _ _ _ row).mp member).1
  cases cache with
  | false =>
      refine ⟨service.shown (selected store.rows sqbModifier).length limit
        (Keyset.beyond service.key after (selected store.rows sqbModifier)) .fetched, [], ?_, rfl, rfl, ?_⟩
      · simp only [create, pagination_listed store limit cursor sqbModifier decoded read _ _ found stored, bind, Except.bind, pure,
          Except.pure, Bool.false_eq_true, if_false]
      · rw [shown, List.forall₂_map_left_iff, Keyset.fetch, List.forall₂_same]
        exact fun row _ => ⟨rfl, row, rfl, rfl⟩
  | true =>
      refine ⟨_, _, pagination_cached_listed store limit cursor sqbModifier decoded read _ _ found stored, rfl, rfl, ?_⟩
      rw [shown, List.forall₂_map_left_iff, Keyset.fetch, List.forall₂_same]
      intro row _
      obtain ⟨record, same, json⟩ := served_owned store (owned rfl) row
      exact ⟨rfl, record, same, congrArg some json⟩

end Requests

section Walks

def Lists (service : PaginationService T S) (page : IPaginatedType T S) (fetched : List T × Bool) : Prop :=
  page.hasNextPage = fetched.2 ∧ List.Forall₂ (Shows service) page.edges fetched.1

theorem last_named (edges : List (IEdgeType T S)) (rows : List T) (shows : List.Forall₂ (Shows service) edges rows)
    (printed : ∀ row ∈ rows, PrintsBack service row) :
    Names service (edges.getLast?.map IEdgeType.cursor) (rows.getLast?.map service.key) := by
  induction shows with
  | nil => rfl
  | @cons edge row edges rows first rest ih =>
      cases rest with
      | nil => exact ⟨row, first.1, rfl, printed row (by simp)⟩
      | cons next others => exact ih fun row member => printed row (List.mem_cons_of_mem _ member)

theorem walk_lists (cache : Bool) (limit : Nat) (sqbModifier : Option (T → Bool)) (stores : List (PageStore service))
    (owned : cache = true → ∀ store ∈ stores, Owned store)
    (printed : ∀ store ∈ stores, ∀ row ∈ store.rows, PrintsBack service row)
    (cursor : Option JsString) (after : Option (Lex (Int × Uuid))) (names : Names service cursor after) :
    ∃ pages, walk cache limit sqbModifier cursor stores = .ok pages ∧
      List.Forall₂ (Lists service) pages
        (Keyset.walk service.key limit after (stores.map fun store => selected store.rows sqbModifier)) ∧
      ∀ (i : Nat) (page : IPaginatedType T S), pages[i]? = some page →
        ∃ store : PageStore service, stores[i]? = some store ∧ page.totalCount = (selected store.rows sqbModifier).length := by
  induction stores generalizing cursor after with
  | nil => exact ⟨[], rfl, .nil, fun i page found => by simp at found⟩
  | cons store later ih =>
      obtain ⟨page, jobs, created, total, more, shows⟩ :=
        create_shows cache store (fun cached => owned cached store (by simp)) limit sqbModifier cursor after names
      have first : ∀ page', some page = some page' →
          ∃ store', some store = some store' ∧ page'.totalCount = (selected store'.rows sqbModifier).length :=
        fun _ same => ⟨store, rfl, by cases same; exact total⟩
      simp only [walk, created, bind, Except.bind, List.map_cons, Keyset.walk_cons]
      by_cases next : page.hasNextPage = true
      · have listed : ∀ row ∈ (Keyset.fetch service.key limit after (selected store.rows sqbModifier)).1, PrintsBack service row :=
          fun row member => printed store (by simp) row
            (List.mem_of_mem_filter (Keyset.mem_fetch _ _ _ _ row member).1)
        obtain ⟨rest, walked, lists, totals⟩ := ih (fun cached other member => owned cached other (List.mem_cons_of_mem _ member))
          (fun other member => printed other (List.mem_cons_of_mem _ member)) _ _ (last_named _ _ shows listed)
        rw [if_pos next, walked, if_pos (more ▸ next)]
        refine ⟨page :: rest, rfl, .cons ⟨more, shows⟩ lists, fun i page' found => ?_⟩
        cases i with
        | zero => exact first page' found
        | succ i => exact totals i page' found
      · rw [if_neg next, if_neg (more ▸ next)]
        refine ⟨[page], rfl, .cons ⟨more, shows⟩ .nil, fun i page' found => ?_⟩
        cases i with
        | zero => exact first page' found
        | succ i => simp at found

-- The keys of records do not change.
def Immutable (stores : List (PageStore service)) : Prop :=
  ∀ one ∈ stores, ∀ two ∈ stores, ∀ a ∈ one.rows, ∀ b ∈ two.rows, service.id a = service.id b →
    service.createdAt a = service.createdAt b

def Ended (pages : List (IPaginatedType T S)) : Prop := ∃ page, pages.getLast? = some page ∧ page.hasNextPage = false

-- What a walk returned, page by page, against the tables that its requests saw.
structure SoundWalk (limit : Nat) (sqbModifier : Option (T → Bool)) (stores : List (PageStore service))
    (pages : List (IPaginatedType T S)) (returned : List (List T)) : Prop where
  shown : List.Forall₂ (fun page rows => List.Forall₂ (Shows service) page.edges rows) pages returned
  increasing : (returned.flatten.map service.key).Pairwise (· < ·)
  once : (returned.flatten.map service.id).Nodup
  complete : Ended pages → ∀ id,
    (∀ store ∈ stores.take pages.length, ∃ row ∈ selected store.rows sqbModifier, service.id row = id) →
      (returned.flatten.map service.id).count id = 1
  paged : ∀ (i : Nat) (page : IPaginatedType T S), pages[i]? = some page → ∃ store rows, stores[i]? = some store ∧
    returned[i]? = some rows ∧ (∀ row ∈ rows, row ∈ selected store.rows sqbModifier) ∧ page.edges.length ≤ limit ∧
    page.totalCount = (selected store.rows sqbModifier).length ∧
    (page.hasNextPage = true ↔ ∃ row ∈ selected store.rows sqbModifier,
      ∀ before ∈ (returned.take (i + 1)).flatten, service.key before < service.key row)
  static : ∀ rows, (∀ store ∈ stores, store.rows = rows) → 1 ≤ (selected rows sqbModifier).length →
    ((selected rows sqbModifier).length + limit - 1) / limit ≤ stores.length →
      pages.length = ((selected rows sqbModifier).length + limit - 1) / limit ∧ Ended pages ∧
        ∀ page ∈ pages, page.totalCount = (selected rows sqbModifier).length

theorem selected_keyed (store : PageStore service) (sqbModifier : Option (T → Bool)) :
    Keyset.Keyed service.key (selected store.rows sqbModifier) := by
  have apart := (List.pairwise_map.mp store.distinct).sublist
    (List.filter_sublist (p := fun row => sqbModifier.all fun selects => selects row))
  exact apart.imp fun different same => different (congrArg (fun key => (ofLex key).2) same)

theorem keys_returned (fetched : List (List T × Bool)) :
    Keyset.keys service.key fetched = (fetched.map Prod.fst).flatten.map service.key := by
  induction fetched with
  | nil => rfl
  | cons page rest ih =>
      rw [List.map_cons, List.flatten_cons, List.map_append, ← ih]
      rfl

theorem ended_complete (pages : List (IPaginatedType T S)) (fetched : List (List T × Bool))
    (lists : List.Forall₂ (Lists service) pages fetched) : Ended pages ↔ Keyset.Complete fetched := by
  induction lists with
  | nil => simp [Ended, Keyset.Complete]
  | @cons page front pages fetched first rest ih =>
      cases rest with
      | nil =>
          constructor
          · rintro ⟨_, ⟨⟩, last⟩
            exact ⟨front, rfl, first.1 ▸ last⟩
          · rintro ⟨_, ⟨⟩, last⟩
            exact ⟨page, rfl, first.1.trans last⟩
      | cons next others =>
          unfold Ended Keyset.Complete at ih ⊢
          rw [List.getLast?_cons_cons, List.getLast?_cons_cons]
          exact ih

def tables (sqbModifier : Option (T → Bool)) (stores : List (PageStore service)) : List (List T) :=
  stores.map fun store => selected store.rows sqbModifier

theorem tables_keyed (sqbModifier : Option (T → Bool)) (stores : List (PageStore service)) :
    ∀ table ∈ tables sqbModifier stores, Keyset.Keyed service.key table := by
  intro table member
  obtain ⟨store, -, rfl⟩ := List.mem_map.mp member
  exact selected_keyed store sqbModifier

theorem table_of (sqbModifier : Option (T → Bool)) (stores : List (PageStore service)) (i : Nat) (table : List T)
    (found : (tables sqbModifier stores)[i]? = some table) :
    ∃ store, stores[i]? = some store ∧ selected store.rows sqbModifier = table := by
  rw [tables, List.getElem?_map] at found
  cases listed : stores[i]? with
  | none =>
      rw [listed] at found
      cases found
  | some store =>
      rw [listed] at found
      exact ⟨store, rfl, Option.some.inj found⟩

theorem same_key (stores : List (PageStore service)) (immutable : Immutable stores) (a b : T) (inA : ∃ store ∈ stores, a ∈ store.rows)
    (inB : ∃ store ∈ stores, b ∈ store.rows) (same : service.id a = service.id b) : service.key a = service.key b := by
  obtain ⟨one, oneListed, aStored⟩ := inA
  obtain ⟨two, twoListed, bStored⟩ := inB
  unfold key
  rw [immutable one oneListed two twoListed a aStored b bStored same, same]

variable (limit : Nat) (sqbModifier : Option (T → Bool)) (stores : List (PageStore service))

def returned : List (List T) := (Keyset.walk service.key limit none (tables sqbModifier stores)).map Prod.fst

theorem returned_stored (positive : 1 ≤ limit) (row : T) (member : row ∈ (returned limit sqbModifier stores).flatten) :
    ∃ store ∈ stores, row ∈ store.rows := by
  obtain ⟨rows, listed, inRows⟩ := List.mem_flatten.mp member
  obtain ⟨page, inWalk, rfl⟩ := List.mem_map.mp listed
  obtain ⟨i, found⟩ := List.mem_iff_getElem?.mp inWalk
  obtain ⟨table, at_, inside, -, -⟩ := Keyset.walk_more service.key limit positive _ (tables_keyed sqbModifier stores) none i page found
  obtain ⟨store, here, rfl⟩ := table_of sqbModifier stores i table at_
  exact ⟨store, List.mem_of_getElem? here, List.mem_of_mem_filter (inside row inRows)⟩

theorem returned_increasing (positive : 1 ≤ limit) : ((returned limit sqbModifier stores).flatten.map service.key).Pairwise (· < ·) := by
  rw [returned, ← keys_returned]
  exact (Keyset.walk_increasing service.key limit positive _ (tables_keyed sqbModifier stores) none).1

theorem returned_once (positive : 1 ≤ limit) (immutable : Immutable stores) :
    ((returned limit sqbModifier stores).flatten.map service.id).Nodup := by
  have increasing := List.pairwise_map.mp (returned_increasing limit sqbModifier stores positive)
  refine List.pairwise_map.mpr (increasing.imp_of_mem fun inA inB less same => ?_)
  have equal := same_key stores immutable _ _ (returned_stored limit sqbModifier stores positive _ inA)
    (returned_stored limit sqbModifier stores positive _ inB) same
  exact absurd equal (ne_of_lt less)

theorem returned_complete (positive : 1 ≤ limit) (immutable : Immutable stores)
    (ended : Keyset.Complete (Keyset.walk service.key limit none (tables sqbModifier stores))) (id : Uuid)
    (present : ∀ store ∈ stores.take (returned limit sqbModifier stores).length,
      ∃ row ∈ selected store.rows sqbModifier, service.id row = id) :
    ((returned limit sqbModifier stores).flatten.map service.id).count id = 1 := by
  rw [(returned_once limit sqbModifier stores positive immutable).count, if_pos]
  rw [returned, List.length_map] at present
  cases stores with
  | nil =>
      obtain ⟨page, last, -⟩ := ended
      cases last
  | cons store later =>
      obtain ⟨first, chosen, named⟩ := present store (by simp [tables, Keyset.walk_cons])
      have same : ∀ other ∈ store :: later, ∀ row ∈ other.rows, service.id row = id → service.key row = service.key first := by
        intro other listed row stored matched
        exact same_key _ immutable row first ⟨other, listed, stored⟩ ⟨store, by simp, List.mem_of_mem_filter chosen⟩
          (matched.trans named.symm)
      have found := Keyset.walk_complete service.key limit positive _ (tables_keyed sqbModifier (store :: later)) none ended
        (service.key first) (fun last impossible => by cases impossible) fun table member => by
          rw [tables, ← List.map_take] at member
          obtain ⟨other, listed, rfl⟩ := List.mem_map.mp member
          obtain ⟨row, stored, matched⟩ := present other listed
          rw [← same other (List.mem_of_mem_take listed) row (List.mem_of_mem_filter stored) matched]
          exact List.mem_map_of_mem stored
      rw [keys_returned] at found
      obtain ⟨row, listed, equal⟩ := List.mem_map.mp found
      rw [← named, ← show (ofLex (service.key row)).2 = service.id first by rw [equal]; rfl]
      exact List.mem_map_of_mem listed

theorem returned_paged (positive : 1 ≤ limit) (i : Nat) (rows : List T) (more : Bool)
    (found : (Keyset.walk service.key limit none (tables sqbModifier stores))[i]? = some (rows, more)) :
    ∃ store, stores[i]? = some store ∧ (returned limit sqbModifier stores)[i]? = some rows ∧
      (∀ row ∈ rows, row ∈ selected store.rows sqbModifier) ∧ rows.length ≤ limit ∧
      (more = true ↔ ∃ row ∈ selected store.rows sqbModifier,
        ∀ before ∈ ((returned limit sqbModifier stores).take (i + 1)).flatten, service.key before < service.key row) := by
  obtain ⟨table, listed, inside, short, announced⟩ := Keyset.walk_more service.key limit positive _
    (tables_keyed sqbModifier stores) none i (rows, more) found
  obtain ⟨store, here, rfl⟩ := table_of sqbModifier stores i table listed
  refine ⟨store, here, ?_, inside, short, announced.trans (exists_congr fun row => and_congr_right fun _ => ?_)⟩
  · rw [returned, List.getElem?_map, found]
    rfl
  · rw [keys_returned, List.map_take, List.forall_mem_map]
    exact ⟨fun both => both.2, fun after => ⟨fun last impossible => (by cases impossible), after⟩⟩

theorem returned_static (positive : 1 ≤ limit) (rows : List T) (same : ∀ store ∈ stores, store.rows = rows)
    (some_ : 1 ≤ (selected rows sqbModifier).length)
    (enough : ((selected rows sqbModifier).length + limit - 1) / limit ≤ stores.length) :
    (Keyset.walk service.key limit none (tables sqbModifier stores)).length =
        ((selected rows sqbModifier).length + limit - 1) / limit ∧
      Keyset.Complete (Keyset.walk service.key limit none (tables sqbModifier stores)) := by
  have replicated : tables sqbModifier stores = List.replicate stores.length (selected rows sqbModifier) := by
    refine List.eq_replicate_iff.mpr ⟨List.length_map _, fun table member => ?_⟩
    obtain ⟨store, listed, rfl⟩ := List.mem_map.mp member
    rw [same store listed]
  have all : (Keyset.beyond service.key none (selected rows sqbModifier)).length = (selected rows sqbModifier).length := by
    rw [Keyset.beyond_length, List.countP_eq_length]
    exact fun row _ => decide_eq_true fun last impossible => by cases impossible
  have keyed : Keyset.Keyed service.key (selected rows sqbModifier) := by
    cases stores with
    | nil =>
        have needed : 0 < ((selected rows sqbModifier).length + limit - 1) / limit := Nat.div_pos (by omega) positive
        rw [List.length_nil] at enough
        omega
    | cons store later =>
        rw [← same store (by simp)]
        exact selected_keyed store sqbModifier
  obtain ⟨length, complete⟩ := Keyset.walk_static service.key limit positive (selected rows sqbModifier) keyed none stores.length
    (all ▸ some_) (all ▸ enough)
  rw [all] at length
  rw [replicated]
  exact ⟨length, complete⟩

theorem lists_at (pages : List (IPaginatedType T S)) (fetched : List (List T × Bool))
    (lists : List.Forall₂ (Lists service) pages fetched) (i : Nat) (page : IPaginatedType T S) (found : pages[i]? = some page) :
    ∃ front, fetched[i]? = some front ∧ Lists service page front := by
  induction lists generalizing i with
  | nil => simp at found
  | @cons first front _ _ lists rest ih =>
      cases i with
      | zero =>
          cases found
          exact ⟨front, rfl, lists⟩
      | succ i => exact ih i found

-- Every walk returns the matching records in the order of their keys, none
-- twice, and those that stay all along once.
theorem pagination_walks (service : PaginationService T S) (cache : Bool) (limit : Nat) (positive : 1 ≤ limit)
    (sqbModifier : Option (T → Bool)) (stores : List (PageStore service)) (immutable : Immutable stores)
    (printed : ∀ store ∈ stores, ∀ row ∈ store.rows, PrintsBack service row)
    (owned : cache = true → ∀ store ∈ stores, Owned store) :
    ∃ pages returned, walk cache limit sqbModifier none stores = .ok pages ∧
      SoundWalk limit sqbModifier stores pages returned := by
  obtain ⟨pages, walked, lists, totals⟩ := walk_lists cache limit sqbModifier stores owned printed none none rfl
  have pagesLength : pages.length = (returned limit sqbModifier stores).length := by
    rw [returned, List.length_map]
    exact lists.length_eq
  refine ⟨pages, returned limit sqbModifier stores, walked, ?_⟩
  exact {
    shown := by
      rw [returned, List.forall₂_map_right_iff]
      exact lists.imp fun _ _ both => both.2
    increasing := returned_increasing limit sqbModifier stores positive
    once := returned_once limit sqbModifier stores positive immutable
    complete := fun ended id present => by
      rw [pagesLength] at present
      exact returned_complete limit sqbModifier stores positive immutable ((ended_complete pages _ lists).mp ended) id present
    paged := fun i page found => by
      obtain ⟨⟨rows, more⟩, fetched, announced, edges⟩ := lists_at pages _ lists i page found
      obtain ⟨store, listed, shown, inside, short, further⟩ := returned_paged limit sqbModifier stores positive i rows more fetched
      obtain ⟨other, again, total⟩ := totals i page found
      rw [listed] at again
      cases again
      exact ⟨store, rows, listed, shown, inside, edges.length_eq.trans_le short, total, by rw [announced, further]⟩
    static := fun rows same some_ enough => by
      obtain ⟨length, complete⟩ := returned_static limit sqbModifier stores positive rows same some_ enough
      refine ⟨lists.length_eq.trans length, (ended_complete pages _ lists).mpr complete, fun page member => ?_⟩
      obtain ⟨i, found⟩ := List.mem_iff_getElem?.mp member
      obtain ⟨store, listed, total⟩ := totals i page found
      rw [total, same store (List.mem_of_getElem? listed)] }

theorem pagination_walks_votes : ∃ pages returned, walk true 2 none none [threeVotes, threeVotes] = .ok pages ∧
    SoundWalk 2 none [threeVotes, threeVotes] pages returned := by
  have only : ∀ store ∈ [threeVotes, threeVotes], store = threeVotes := by simp
  refine pagination_walks votePages true 2 (by decide) none [threeVotes, threeVotes] ?_ ?_ fun _ store listed id value cached => ?_
  · intro one inOne two inTwo a inA b inB same
    rw [only one inOne] at inA
    rw [only two inTwo] at inB
    rw [List.inj_on_of_nodup_map threeVotes.distinct inA inB same]
  · intro store listed row stored
    rw [only store listed] at stored
    simp only [threeVotes, List.mem_cons, List.not_mem_nil, or_false] at stored
    rcases stored with rfl | rfl | rfl <;> rfl
  · rw [only store listed] at cached
    obtain ⟨record, -, same, serialised⟩ := three_votes_coherent id value cached
    exact ⟨record, same, serialised⟩

end Walks

end PaginationService

end RateWise
