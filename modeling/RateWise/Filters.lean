import RateWise.FilteredPages
import RateWise.ItemCache
import RateWise.ReviewCache

set_option autoImplicit false

namespace RateWise

open Interleave
open ReadCommitted
open PaginationService (Copies Readable ExactFilter)

namespace PAGINATION_RULES

def MAX : Int := 100

def MIN : Int := 1

def DEFAULT : Int := 5

end PAGINATION_RULES

def Nullable.given {α : Type} : Nullable α → Option α
  | .value given => some given
  | _ => none

namespace Graphql

structure PaginationArgs where
  cursor : Nullable JsString
  limit : Nullable Int
deriving DecidableEq

namespace PaginationArgs

def withDefaults (args : PaginationArgs) : PaginationArgs :=
  { args with limit := match args.limit with
    | .absent => .value PAGINATION_RULES.DEFAULT
    | given => given }

-- limit has no @IsOptional.
def valid (args : PaginationArgs) : Bool :=
  match args.limit with
  | .value limit => decide (PAGINATION_RULES.MIN ≤ limit ∧ limit ≤ PAGINATION_RULES.MAX)
  | _ => false

def size (args : PaginationArgs) : Nat := (args.limit.given.getD 0).toNat

def position (args : PaginationArgs) : Option JsString := args.cursor.given

theorem valid_size (args : PaginationArgs) (valid : args.valid = true) : 1 ≤ args.size := by
  obtain ⟨cursor, limit⟩ := args
  cases limit with
  | value limit =>
      have within : PAGINATION_RULES.MIN ≤ limit ∧ limit ≤ PAGINATION_RULES.MAX := of_decide_eq_true valid
      have least : 1 ≤ limit := within.1
      show 1 ≤ limit.toNat
      omega
  | _ => cases valid

end PaginationArgs

structure ItemFiltersArgs extends PaginationArgs where
  createdBy : Nullable JsString
  category : Nullable JsString
  tag : Nullable JsString
deriving DecidableEq

def Nullable.lowercased (toLowerCase : JsString → JsString) : Nullable JsString → Nullable JsString
  | .value text => .value (trimAndLowercase toLowerCase text)
  | missing => missing

namespace ItemFiltersArgs

def transform (toLowerCase : JsString → JsString) (args : ItemFiltersArgs) : ItemFiltersArgs :=
  { args with
    category := Nullable.lowercased toLowerCase args.category
    tag := Nullable.lowercased toLowerCase args.tag }

def valid (presentationSequences : JsString → Nat) (args : ItemFiltersArgs) : Bool :=
  args.toPaginationArgs.valid && args.category.given.all (hasLength presentationSequences ITEM_RULES.CATEGORY) &&
    args.tag.given.all (hasLength presentationSequences ITEM_RULES.TAG)

def piped (toLowerCase : JsString → JsString) (presentationSequences : JsString → Nat) (args : ItemFiltersArgs) :
    Option ItemFiltersArgs :=
  let entity := { args with toPaginationArgs := args.withDefaults }.transform toLowerCase
  if entity.valid presentationSequences then some (entity.transform toLowerCase) else none

def filters (args : ItemFiltersArgs) : RateWise.ItemFiltersArgs :=
  ⟨args.createdBy.given, args.category.given, args.tag.given⟩

-- The texts that the queries compare with columns of a text type.
def texts (args : ItemFiltersArgs) : List JsString := args.category.given.toList ++ args.tag.given.toList

end ItemFiltersArgs

structure ReviewFiltersArgs extends PaginationArgs where
  createdBy : Nullable JsString
  relatedItem : Nullable JsString
deriving DecidableEq

namespace ReviewFiltersArgs

def piped (args : ReviewFiltersArgs) : Option ReviewFiltersArgs :=
  let entity := { args with toPaginationArgs := args.withDefaults }
  if entity.toPaginationArgs.valid then some entity else none

def filters (args : ReviewFiltersArgs) : RateWise.ReviewFiltersArgs := ⟨args.createdBy.given, args.relatedItem.given⟩

end ReviewFiltersArgs

end Graphql

-- What the filters ask for: equal columns, and a tag among the stored tags.
def ItemFiltersArgs.satisfies (filters : ItemFiltersArgs) (row : Item) : Bool :=
  (filters.createdBy.all fun id => decide (uuidIn (parameter id) = some row.createdBy)) &&
  (filters.category.all fun category => decide (Utf16.ofText row.category = category)) &&
  filters.tag.all fun tag => decide (tag ∈ row.tags.map Utf16.ofText)

def ReviewFiltersArgs.satisfies (filters : ReviewFiltersArgs) (row : Review) : Bool :=
  (filters.createdBy.all fun id => decide (uuidIn (parameter id) = some row.createdBy)) &&
  filters.relatedItem.all fun id => decide (uuidIn (parameter id) = some row.relatedItem)

section Checks

variable (hashtext : Text → Int32)

-- The id of a stored row, of a version that gen_random_uuid draws.
def NamesAccount (t : Tables) (id : JsString) : Prop :=
  validUUID (parameter id) = true ∧ ∃ account ∈ t.accounts, uuidIn (parameter id) = some account.id

def NamesItem (t : Tables) (id : JsString) : Prop :=
  validUUID (parameter id) = true ∧ ∃ item ∈ t.items, uuidIn (parameter id) = some item.id

theorem verdict {α : Type} (world : World) (id : Nullable JsString) (check : Text → Async α) (named : JsString → Prop)
    (fault : Err) (answers : ∀ text, Yields (engine hashtext) (check (parameter text)) world none fun result _ _ =>
      (named text ∧ ∃ value, result = .ok value) ∨ (¬ named text ∧ result = .error fault)) :
    (ifGiven hashtext world id.given check = .ok () ∧ ∀ text, id = .value text → text ≠ [] → named text) ∨
      ((∃ text, id = .value text ∧ text ≠ [] ∧ ¬ named text) ∧
        ifGiven hashtext world id.given check = .error (.rejected fault)) := by
  cases id with
  | value text =>
      by_cases empty : text = []
      · subst empty
        exact .inl ⟨rfl, fun other same nonempty => absurd (Nullable.value.inj same).symm nonempty⟩
      · have asked : (some text).filter (fun id : JsString => !id.isEmpty) = some text := by simp [Option.filter, empty]
        rcases answers text with ⟨name, value, passed⟩ | ⟨nameless, failed⟩
        · refine .inl ⟨?_, fun other same _ => Nullable.value.inj same ▸ name⟩
          simp only [ifGiven, Nullable.given, asked, passed]
        · refine .inr ⟨⟨text, rfl, empty, nameless⟩, ?_⟩
          simp only [ifGiven, Nullable.given, asked, failed]
  | absent => exact .inl ⟨rfl, fun text impossible => by cases impossible⟩
  | null => exact .inl ⟨rfl, fun text impossible => by cases impossible⟩

theorem find_user_answers (id : JsString) (world : World) :
    Yields (engine hashtext) (UsersService.findOneByIdOrThrow (parameter id)) world none fun result _ _ =>
      (NamesAccount world.db id ∧ ∃ user, result = .ok user) ∨ (¬ NamesAccount world.db id ∧ result = .error userNotFound) := by
  cases valid : validUUID (parameter id) with
  | false =>
      simp only [UsersService.findOneByIdOrThrow, UsersService.findOneById, UsersService.validUuidOrThrow, valid]
      exact .inr ⟨fun named => by simp [NamesAccount, valid] at named, rfl⟩
  | true =>
      simp only [UsersService.findOneByIdOrThrow, UsersService.findOneById, UsersService.validUuidOrThrow, valid]
      refine yields_bind _ _ _ _ _ (yields_sql (S := schema) (C := Redis.commands) _ (Sql.findAccount (parameter id)) world _
        ?_ ?_)
      · intro fault verdict
        obtain ⟨uuid, parses⟩ := valid_uuid_parses _ valid
        have refused : world.db.refuses (.findAccount (parameter id)) = some fault := verdict
        simp [Tables.refuses, Sql.uuids, Tables.attempts, parses] at refused
      · intro _
        cases answered : world.db.answer (.findAccount (parameter id)) with
        | none =>
            simp only [answered]
            refine .inr ⟨fun named => ?_, rfl⟩
            obtain ⟨-, account, stored, same⟩ := named
            exact not_found_account world.db _ answered account stored same
        | some user =>
            simp only [answered]
            exact .inl ⟨⟨valid, user, found_account world.db _ user answered⟩, user, rfl⟩

theorem find_related_answers (id : JsString) (world : World) :
    Yields (engine hashtext) (ItemsService.findOneByIdOrThrow (parameter id)) world none fun result _ _ =>
      (NamesItem world.db id ∧ ∃ item, result = .ok item) ∨ (¬ NamesItem world.db id ∧ result = .error ItemsService.notFound) := by
  refine find_item_answers hashtext (parameter id) world _ ?_ ?_
  · intro missing
    refine .inr ⟨?_, rfl⟩
    rintro ⟨valid, item, stored, same⟩
    cases answered : world.db.answer (.findItem (parameter id)) with
    | some other => exact missing other valid answered
    | none =>
        have listed : world.db.items.find? (fun row => some row.id = uuidIn (parameter id)) = none := answered
        have missed := List.find?_eq_none.mp listed item stored
        simp [same] at missed
  · intro item valid answered
    exact .inl ⟨⟨valid, item, found_item world.db _ item answered⟩, item, rfl⟩

theorem creator_verdict (world : World) (id : Nullable JsString) :
    (ifGiven hashtext world id.given UsersService.findOneByIdOrThrow = .ok () ∧
      ∀ text, id = .value text → text ≠ [] → NamesAccount world.db text) ∨
    ((∃ text, id = .value text ∧ text ≠ [] ∧ ¬ NamesAccount world.db text) ∧
      ifGiven hashtext world id.given UsersService.findOneByIdOrThrow = .error (.rejected userNotFound)) :=
  verdict hashtext world id _ _ _ fun text => find_user_answers hashtext text world

theorem related_verdict (world : World) (id : Nullable JsString) :
    (ifGiven hashtext world id.given ItemsService.findOneByIdOrThrow = .ok () ∧
      ∀ text, id = .value text → text ≠ [] → NamesItem world.db text) ∨
    ((∃ text, id = .value text ∧ text ≠ [] ∧ ¬ NamesItem world.db text) ∧
      ifGiven hashtext world id.given ItemsService.findOneByIdOrThrow = .error (.rejected ItemsService.notFound)) :=
  verdict hashtext world id _ _ _ fun text => find_related_answers hashtext text world

end Checks

section Listings

variable (hashtext : Text → Int32) (postgres : Postgres)

-- A copy of an item is of the one that is stored under its id, as items do not
-- change.
def ItemSystem.Faithful (s : ItemSystem) : Prop :=
  ∀ (id : Uuid) value, s.copies.cache (createItemCacheKey id.text) = some value →
    ∃ record : Item, record.id = id ∧ value = record.entity ∧ ∀ row ∈ s.world.db.items, row.id = id → row = record

-- A copy of a review has the columns of the stored one that do not change.
def ReviewSystem.Faithful (s : ReviewSystem) : Prop :=
  ∀ (id : Uuid) value, s.copies.cache (createReviewCacheKey id.text) = some value →
    value.id = id ∧ ∀ row ∈ s.world.db.reviews, row.id = id → row.key = value.key

-- The field filterItems. A NUL in a text fails both queries.
def ItemsResolver.filterItems (args : Graphql.ItemFiltersArgs) (call : ItemSystem × Shuffle Item) (cursor : Option JsString) :
    Except ListFault (IPaginatedType Item ItemEntity × List (ICacheJobData Item)) :=
  if args.texts.any fun text => hasNul (parameter text) then do
    ifGiven hashtext call.1.world args.filters.createdBy UsersService.findOneByIdOrThrow
    let _decoded ← (PaginationService.decodedCursor cursor).mapError ListFault.cursor
    .error (.rejected .aggregateError)
  else ItemsService.filterItems hashtext postgres call.1 args.filters args.size cursor call.2

def ReviewResolver.filterReviews (args : Graphql.ReviewFiltersArgs) (call : ReviewSystem × Shuffle Review)
    (cursor : Option JsString) : Except ListFault (IPaginatedType Review Review × List (ICacheJobData Review)) :=
  ReviewService.filterReviews hashtext postgres call.1 args.filters args.size cursor call.2

-- In every state of the database, NOT_FOUND for a creator that there is not, or
-- exactly the items that satisfy the filters, on one page and on all.
def ItemsResolver.FiltersExactly (args : Graphql.ItemFiltersArgs) : Prop :=
  ∀ call : ItemSystem × Shuffle Item, call.1.Faithful →
    ((∃ id, args.createdBy = .value id ∧ ¬ NamesAccount call.1.world.db id) ∧
      filterItems hashtext postgres args call args.position = .error (.rejected userNotFound)) ∨
    ExactFilter (itemPages postgres) call.1.world.db.items args.filters.satisfies (filterItems hashtext postgres args) call
      args.position fun later => later.1.world = call.1.world ∧ later.1.Faithful

def ReviewResolver.FiltersExactly (args : Graphql.ReviewFiltersArgs) : Prop :=
  ∀ call : ReviewSystem × Shuffle Review, call.1.Faithful →
    ((∃ id, args.createdBy = .value id ∧ ¬ NamesAccount call.1.world.db id) ∧
      filterReviews hashtext postgres args call args.position = .error (.rejected userNotFound)) ∨
    ((∃ id, args.relatedItem = .value id ∧ ¬ NamesItem call.1.world.db id) ∧
      filterReviews hashtext postgres args call args.position = .error (.rejected ItemsService.notFound)) ∨
    ExactFilter (reviewPages postgres) call.1.world.db.reviews args.filters.satisfies (filterReviews hashtext postgres args)
      call args.position fun later => later.1.world = call.1.world ∧ later.1.Faithful

-- An id that fails the test of validUUID, which an empty one is spared.
def Nullable.malformed (id : Nullable JsString) : Prop := ∃ text, id = .value text ∧ text ≠ [] ∧ validUUID (parameter text) = false

def Graphql.ItemFiltersArgs.Answerable (args : Graphql.ItemFiltersArgs) : Prop :=
  args.createdBy.malformed ∨
    (args.createdBy ≠ .value [] ∧ (∀ text ∈ args.texts, Utf16.WellFormed text ∧ hasNul (parameter text) = false) ∧
      Readable (itemPages postgres) args.position)

def Graphql.ReviewFiltersArgs.Answerable (args : Graphql.ReviewFiltersArgs) : Prop :=
  args.createdBy.malformed ∨ args.relatedItem.malformed ∨
    (args.createdBy ≠ .value [] ∧ args.relatedItem ≠ .value [] ∧ Readable (reviewPages postgres) args.position)

theorem malformed_nameless (id : Nullable JsString) (malformed : id.malformed) (named : JsString → Prop)
    (valid : ∀ text, named text → validUUID (parameter text) = true) : ¬ ∀ text, id = .value text → text ≠ [] → named text := by
  obtain ⟨text, given, nonempty, invalid⟩ := malformed
  intro all
  rw [valid text (all text given nonempty)] at invalid
  cases invalid

theorem column_equals (text : JsString) (safe : Utf16.WellFormed text) (column : Text) :
    column = parameter text ↔ Utf16.ofText column = text := by
  constructor
  · rintro rfl
    exact safe
  · rintro rfl
    exact (Utf16.to_text_of_text column).symm

theorem shown_well_formed (column : Text) : Utf16.WellFormed (Utf16.ofText column) := by
  rw [Utf16.WellFormed, Utf16.to_text_of_text]

theorem empty_names_nothing : uuidIn (parameter []) = none := by decide

theorem id_filtered (id : Nullable JsString) (given : id ≠ .value []) (column : Uuid) :
    (id.given.all fun text => text.isEmpty || decide (uuidIn (parameter text) = some column)) =
      id.given.all fun text => decide (uuidIn (parameter text) = some column) := by
  cases id with
  | value text =>
      have nonempty : text ≠ [] := fun empty => given (congrArg Nullable.value empty)
      simp [Nullable.given, nonempty]
  | _ => rfl

theorem lone_satisfied {α : Type} (row : α) (selects satisfies : α → Bool) (selected : selects row = true)
    (counted : ([row].filter selects).length = ([row].filter satisfies).length) : satisfies row = true := by
  by_contra missed
  simp [selected, missed] at counted

section Items

variable {hashtext : Text → Int32} {postgres : Postgres}

theorem selects_satisfies (args : Graphql.ItemFiltersArgs) (creator : args.createdBy ≠ .value [])
    (texts : ∀ text ∈ args.texts, text ≠ [] ∧ Utf16.WellFormed text) : args.filters.selects = args.filters.satisfies := by
  funext row
  obtain ⟨paging, createdBy, category, tag⟩ := args
  have kind : (category.given.all fun category => category.isEmpty || row.category == parameter category) =
      category.given.all fun category => decide (Utf16.ofText row.category = category) := by
    cases category with
    | value text =>
        obtain ⟨nonempty, safe⟩ := texts text (by simp [Graphql.ItemFiltersArgs.texts, Nullable.given])
        simp [Nullable.given, nonempty, beq_eq_decide, column_equals text safe]
    | _ => rfl
  have tagged : (tag.given.all fun tag => tag.isEmpty || row.tags.contains (parameter tag)) =
      tag.given.all fun tag => decide (tag ∈ row.tags.map Utf16.ofText) := by
    cases tag with
    | value text =>
        obtain ⟨nonempty, safe⟩ := texts text (by simp [Graphql.ItemFiltersArgs.texts, Nullable.given])
        have inColumn : parameter text ∈ row.tags ↔ text ∈ row.tags.map Utf16.ofText := by
          rw [List.mem_map]
          constructor
          · exact fun member => ⟨parameter text, member, safe⟩
          · rintro ⟨column, member, shown⟩
            exact (column_equals text safe column).mpr shown ▸ member
        simp [Nullable.given, nonempty, inColumn]
    | _ => rfl
  simp only [ItemFiltersArgs.selects, ItemFiltersArgs.satisfies, Graphql.ItemFiltersArgs.filters,
    id_filtered createdBy creator row.createdBy, kind, tagged]

theorem creator_rejected (args : Graphql.ItemFiltersArgs) (call : ItemSystem × Shuffle Item) (cursor : Option JsString)
    (fault : ListFault)
    (check : ifGiven hashtext call.1.world args.filters.createdBy UsersService.findOneByIdOrThrow = .error fault) :
    ItemsResolver.filterItems hashtext postgres args call cursor = .error fault := by
  unfold ItemsResolver.filterItems ItemsService.filterItems
  split <;> rw [check] <;> rfl

theorem items_listed (args : Graphql.ItemFiltersArgs) (call : ItemSystem × Shuffle Item) (cursor : Option JsString)
    (plain : ∀ text ∈ args.texts, hasNul (parameter text) = false)
    (check : ifGiven hashtext call.1.world args.filters.createdBy UsersService.findOneByIdOrThrow = .ok ()) :
    ItemsResolver.filterItems hashtext postgres args call cursor =
      (PaginationService.create (call.1.store postgres call.2) true args.size cursor (some args.filters.selects)).mapError
        .cursor := by
  have sent : (args.texts.any fun text => hasNul (parameter text)) = false := by
    simpa only [List.any_eq_false, Bool.not_eq_true] using plain
  rw [ItemsResolver.filterItems, sent, ItemsService.filterItems, check]
  rfl

theorem faithful_items (s : ItemSystem) (faithful : s.Faithful) (scan : Shuffle Item) (selects : Item → Bool) :
    Copies (s.store postgres scan) selects := by
  intro id value cached
  obtain ⟨record, same, rfl, only⟩ := faithful id value cached
  exact ⟨record, same, rfl, fun row stored named => by rw [only row stored named]⟩

-- A page shows filtered items, whether from the cache or from the table, and
-- counts them all.
theorem filter_items_shown (s : ItemSystem) (faithful : s.Faithful) (filters : ItemFiltersArgs) (limit : Nat)
    (cursor : Option JsString) (scan : Shuffle Item) (page : IPaginatedType Item ItemEntity) (jobs : List (ICacheJobData Item))
    (answered : ItemsService.filterItems hashtext postgres s filters limit cursor scan = .ok (page, jobs)) :
    page.totalCount = (filteredItems s.world.db filters).length ∧
      ∀ node ∈ page.nodes, ∃ shown, node = some shown ∧ (itemPages postgres).json shown ∈ filteredItems s.world.db filters := by
  have created := listed_without_fault _ _ (checked _ _ _ answered)
  have readable := PaginationService.created_readable (s.store postgres scan) limit cursor _ page jobs created
  obtain ⟨other, again, same, total, nodes⟩ := PaginationService.selected_page (s.store postgres scan) filters.selects limit cursor readable
  rw [created] at same
  cases same
  refine ⟨total.trans (List.length_map _).symm, fun node member => ?_⟩
  obtain ⟨row, stored, selected, rfl⟩ := nodes node member
  refine ⟨_, rfl, List.mem_map.mpr ⟨row, List.mem_filter.mpr ⟨stored, selected⟩, ?_⟩⟩
  unfold PaginationService.served
  cases cached : (s.store postgres scan).cache ((itemPages postgres).createCacheKeyFunction ((itemPages postgres).id row).text) with
  | none => rfl
  | some value =>
      obtain ⟨record, -, rfl, only⟩ := faithful row.id value cached
      exact congrArg Item.entity (only row stored rfl)

theorem answerable_items (prints : ∀ instant : Nat, postgres.timestamptzIn (postgres.timestamptzOut instant) = some (instant : Int))
    (args : Graphql.ItemFiltersArgs) (positive : 1 ≤ args.size) (nonempty : ∀ text ∈ args.texts, text ≠ [])
    (answerable : args.Answerable postgres) : ItemsResolver.FiltersExactly hashtext postgres args := by
  intro call faithful
  rcases creator_verdict hashtext call.1.world args.createdBy with ⟨check, named⟩ | ⟨⟨id, given, -, nameless⟩, rejected⟩
  · rcases answerable with malformed | ⟨creator, texts, readable⟩
    · exact absurd named (malformed_nameless args.createdBy malformed _ fun _ both => both.1)
    · have selects := selects_satisfies args creator fun text member => ⟨nonempty text member, (texts text member).1⟩
      refine .inr (PaginationService.exact_filter _ _ args.size positive _ (fun later => later.1.store postgres later.2)
        ListFault.cursor call args.position _ ⟨rfl, faithful⟩ ?_ ?_ ?_ (fun row _ => prints row.createdAt) readable)
      · rintro later ⟨same, -⟩ cursor
        rw [← selects]
        exact items_listed args later cursor (fun text member => (texts text member).2) (by rw [same]; exact check)
      · rintro later ⟨same, -⟩
        exact congrArg (fun world => world.db.items) same
      · rintro later ⟨-, copied⟩
        exact faithful_items later.1 copied later.2 _
  · exact .inl ⟨⟨id, given, nameless⟩, creator_rejected args call _ _ rejected⟩

def asScanned : Shuffle Item := ⟨fun rows => rows, fun _ => .rfl⟩

def namedOr (fallback : Uuid) (id : Nullable JsString) : Uuid := (id.given.bind fun id => uuidIn (parameter id)).getD fallback

theorem well_formed_valid (id : Nullable JsString) (wellFormed : ¬ id.malformed) (text : JsString) (given : id = .value text)
    (nonempty : text ≠ []) : validUUID (parameter text) = true := by
  by_contra invalid
  exact wellFormed ⟨text, given, nonempty, by simpa using invalid⟩

theorem named_parses (fallback : Uuid) (id : Nullable JsString) (wellFormed : ¬ id.malformed) (text : JsString)
    (given : id = .value text) (nonempty : text ≠ []) : uuidIn (parameter text) = some (namedOr fallback id) := by
  obtain ⟨uuid, parses⟩ := valid_uuid_parses _ (well_formed_valid id wellFormed text given nonempty)
  simp [namedOr, given, Nullable.given, parses]

theorem named_filtered (fallback : Uuid) (id : Nullable JsString) (wellFormed : ¬ id.malformed) :
    (id.given.all fun text => text.isEmpty || decide (uuidIn (parameter text) = some (namedOr fallback id))) = true := by
  cases id with
  | value text =>
      by_cases nonempty : text = []
      · simp [Nullable.given, nonempty]
      · simp [Nullable.given, named_parses fallback _ wellFormed text rfl nonempty]
  | _ => rfl

def loneItem (args : Graphql.ItemFiltersArgs) : Item :=
  { (⟨drawnItem, kettle.title, kettle.description, kettle.category, [], hostId⟩ : Item) with
    category := (args.category.given.map parameter).getD kettle.category
    tags := args.tag.given.toList.map parameter
    createdBy := namedOr hostId args.createdBy }

def loneItems (args : Graphql.ItemFiltersArgs) : ItemSystem where
  world := ⟨{ Tables.empty with
    accounts := [{ hostAccount with id := namedOr hostId args.createdBy }]
    items := [loneItem args] }, Redis.empty⟩
  copies := .empty
  distinct := List.pairwise_singleton _ _

theorem lone_item_selected (args : Graphql.ItemFiltersArgs) (wellFormed : ¬ args.createdBy.malformed) :
    args.filters.selects (loneItem args) = true := by
  have owner := named_filtered hostId args.createdBy wellFormed
  obtain ⟨paging, createdBy, category, tag⟩ := args
  simp only [ItemFiltersArgs.selects, Graphql.ItemFiltersArgs.filters, loneItem, Bool.and_eq_true]
  refine ⟨⟨owner, ?_⟩, ?_⟩
  · cases category <;> simp [Nullable.given]
  · cases tag <;> simp [Nullable.given]

theorem lone_creator_passes (args : Graphql.ItemFiltersArgs) (wellFormed : ¬ args.createdBy.malformed) :
    ifGiven hashtext (loneItems args).world args.filters.createdBy UsersService.findOneByIdOrThrow = .ok () := by
  rcases creator_verdict hashtext (loneItems args).world args.createdBy with ⟨passed, -⟩ | ⟨⟨id, given, nonempty, nameless⟩, -⟩
  · exact passed
  · exact absurd ⟨well_formed_valid _ wellFormed id given nonempty, _, List.mem_singleton.mpr rfl,
      named_parses _ _ wellFormed id given nonempty⟩ nameless

theorem satisfied_texts (args : Graphql.ItemFiltersArgs) (row : Item) (satisfied : args.filters.satisfies row = true) :
    args.createdBy ≠ .value [] ∧ ∀ text ∈ args.texts, Utf16.WellFormed text := by
  obtain ⟨paging, createdBy, category, tag⟩ := args
  simp only [ItemFiltersArgs.satisfies, Graphql.ItemFiltersArgs.filters, Bool.and_eq_true] at satisfied
  obtain ⟨⟨owner, kind⟩, tagged⟩ := satisfied
  constructor
  · rintro rfl
    simp [Nullable.given, empty_names_nothing] at owner
  · intro text member
    simp only [Graphql.ItemFiltersArgs.texts, List.mem_append, Option.mem_toList] at member
    rcases member with given | given
    · simp only [given, Option.all_some, decide_eq_true_eq] at kind
      exact kind ▸ shown_well_formed row.category
    · simp only [given, Option.all_some, decide_eq_true_eq, List.mem_map] at tagged
      obtain ⟨column, -, shown⟩ := tagged
      exact shown ▸ shown_well_formed column

theorem exact_items_answerable (args : Graphql.ItemFiltersArgs)
    (exactly : ItemsResolver.FiltersExactly hashtext postgres args) : args.Answerable postgres := by
  by_cases malformed : args.createdBy.malformed
  · exact .inl malformed
  have check := @lone_creator_passes hashtext args malformed
  let call : ItemSystem × Shuffle Item := ⟨loneItems args, asScanned⟩
  have faithful : call.1.Faithful := fun id value cached => by cases cached
  rcases exactly call faithful with ⟨⟨id, given, nameless⟩, rejected⟩ | ⟨⟨page, jobs, answered, counted, -⟩, -⟩
  · -- The check passed, so that NOT_FOUND has no other source.
    exfalso
    unfold ItemsResolver.filterItems ItemsService.filterItems at rejected
    rw [check] at rejected
    split at rejected
    · cases read : PaginationService.decodedCursor args.position <;>
        simp [read, Except.mapError, bind, Except.bind, userNotFound] at rejected
    · cases listed : PaginationService.create (call.1.store postgres call.2) true args.size args.position
        (some args.filters.selects) <;> simp [listed, Except.mapError, bind, Except.bind] at rejected
  · have plain : (args.texts.any fun text => hasNul (parameter text)) = false := by
      by_contra nul
      rw [Bool.not_eq_false] at nul
      unfold ItemsResolver.filterItems at answered
      rw [nul, check] at answered
      cases read : PaginationService.decodedCursor args.position <;> simp [read, Except.mapError, bind, Except.bind] at answered
    have sent : ∀ text ∈ args.texts, hasNul (parameter text) = false := by
      simpa only [List.any_eq_false, Bool.not_eq_true] using plain
    rw [items_listed args call args.position sent check] at answered
    have listed := listed_without_fault _ _ answered
    obtain ⟨readable, total⟩ := PaginationService.created_counts (call.1.store postgres call.2) args.filters.selects args.size
      args.position page jobs listed
    have satisfied := lone_satisfied (loneItem args) _ _ (lone_item_selected args malformed) (total.symm.trans counted)
    obtain ⟨creator, safe⟩ := satisfied_texts args (loneItem args) satisfied
    exact .inr ⟨creator, fun text member => ⟨safe text member, sent text member⟩, readable⟩

end Items

section Reviews

variable {hashtext : Text → Int32} {postgres : Postgres}

theorem review_selects_satisfies (args : Graphql.ReviewFiltersArgs) (creator : args.createdBy ≠ .value [])
    (related : args.relatedItem ≠ .value []) : args.filters.selects = args.filters.satisfies := by
  funext row
  simp only [ReviewFiltersArgs.selects, ReviewFiltersArgs.satisfies, Graphql.ReviewFiltersArgs.filters,
    id_filtered _ creator row.createdBy, id_filtered _ related row.relatedItem]

theorem reviews_listed (args : Graphql.ReviewFiltersArgs) (call : ReviewSystem × Shuffle Review) (cursor : Option JsString)
    (creator : ifGiven hashtext call.1.world args.filters.createdBy UsersService.findOneByIdOrThrow = .ok ())
    (related : ifGiven hashtext call.1.world args.filters.relatedItem ItemsService.findOneByIdOrThrow = .ok ()) :
    ReviewResolver.filterReviews hashtext postgres args call cursor =
      (PaginationService.create (call.1.store postgres call.2) true args.size cursor (some args.filters.selects)).mapError
        .cursor := by
  rw [ReviewResolver.filterReviews, ReviewService.filterReviews, creator, related]
  rfl

theorem faithful_reviews (s : ReviewSystem) (faithful : s.Faithful) (scan : Shuffle Review) (filters : ReviewFiltersArgs) :
    Copies (s.store postgres scan) filters.selects := by
  intro id value cached
  obtain ⟨same, kept⟩ := faithful id value cached
  refine ⟨value, same, rfl, fun row stored named => ?_⟩
  have key := kept row stored named
  simp only [Review.key, ReviewKey.mk.injEq] at key
  simp only [ReviewFiltersArgs.selects, key.2.1, key.2.2]

theorem answerable_reviews
    (prints : ∀ instant : Nat, postgres.timestamptzIn (postgres.timestamptzOut instant) = some (instant : Int))
    (args : Graphql.ReviewFiltersArgs) (positive : 1 ≤ args.size) (answerable : args.Answerable postgres) :
    ReviewResolver.FiltersExactly hashtext postgres args := by
  intro call faithful
  rcases creator_verdict hashtext call.1.world args.createdBy with ⟨first, creator⟩ | ⟨⟨id, given, -, nameless⟩, rejected⟩
  · rcases related_verdict hashtext call.1.world args.relatedItem with ⟨second, related⟩ | ⟨⟨id, given, -, nameless⟩, rejected⟩
    · rcases answerable with malformed | malformed | ⟨creatorGiven, relatedGiven, readable⟩
      · exact absurd creator (malformed_nameless args.createdBy malformed _ fun _ both => both.1)
      · exact absurd related (malformed_nameless args.relatedItem malformed _ fun _ both => both.1)
      · have selects := review_selects_satisfies args creatorGiven relatedGiven
        refine .inr (.inr (PaginationService.exact_filter _ _ args.size positive _ (fun later => later.1.store postgres later.2)
          ListFault.cursor call args.position _ ⟨rfl, faithful⟩ ?_ ?_ ?_ (fun row _ => prints row.createdAt) readable))
        · rintro later ⟨same, -⟩ cursor
          rw [← selects]
          exact reviews_listed args later cursor (by rw [same]; exact first) (by rw [same]; exact second)
        · rintro later ⟨same, -⟩
          exact congrArg (fun world => world.db.reviews) same
        · rintro later ⟨-, copied⟩
          rw [← selects]
          exact faithful_reviews later.1 copied later.2 _
    · refine .inr (.inl ⟨⟨id, given, nameless⟩, ?_⟩)
      have missing : ifGiven hashtext call.1.world args.filters.relatedItem ItemsService.findOneByIdOrThrow =
        .error (.rejected ItemsService.notFound) := rejected
      have passed : ifGiven hashtext call.1.world args.filters.createdBy UsersService.findOneByIdOrThrow = .ok () := first
      rw [ReviewResolver.filterReviews, ReviewService.filterReviews, passed, missing]
      rfl
  · refine .inl ⟨⟨id, given, nameless⟩, ?_⟩
    have missing : ifGiven hashtext call.1.world args.filters.createdBy UsersService.findOneByIdOrThrow =
      .error (.rejected userNotFound) := rejected
    rw [ReviewResolver.filterReviews, ReviewService.filterReviews, missing]
    rfl

def loneReview (args : Graphql.ReviewFiltersArgs) : Review :=
  ⟨⟨cook, 0⟩, "boils water well".toList, 9, 0, 0, namedOr hostId args.createdBy, namedOr kettleId args.relatedItem⟩

def loneReviews (args : Graphql.ReviewFiltersArgs) : ReviewSystem where
  world := ⟨{ Tables.empty with
    accounts := [{ hostAccount with id := namedOr hostId args.createdBy }]
    items := [⟨⟨namedOr kettleId args.relatedItem, 0⟩, kettle.title, kettle.description, kettle.category, [], cook⟩]
    reviews := [loneReview args] }, Redis.empty⟩
  copies := .empty
  valid := ⟨.nil, .nil, List.pairwise_singleton _ _, fun _ member => by cases member⟩
  exact row stored action := by
    rw [List.mem_singleton.mp stored]
    cases action <;> rfl

theorem lone_review_selected (args : Graphql.ReviewFiltersArgs) (creator : ¬ args.createdBy.malformed)
    (related : ¬ args.relatedItem.malformed) : args.filters.selects (loneReview args) = true :=
  Bool.and_eq_true_iff.mpr ⟨named_filtered hostId _ creator, named_filtered kettleId _ related⟩

theorem lone_reviewer_passes (args : Graphql.ReviewFiltersArgs) (wellFormed : ¬ args.createdBy.malformed) :
    ifGiven hashtext (loneReviews args).world args.filters.createdBy UsersService.findOneByIdOrThrow = .ok () := by
  rcases creator_verdict hashtext (loneReviews args).world args.createdBy with
    ⟨passed, -⟩ | ⟨⟨id, given, nonempty, nameless⟩, -⟩
  · exact passed
  · exact absurd ⟨well_formed_valid _ wellFormed id given nonempty, _, List.mem_singleton.mpr rfl,
      named_parses _ _ wellFormed id given nonempty⟩ nameless

theorem lone_related_passes (args : Graphql.ReviewFiltersArgs) (wellFormed : ¬ args.relatedItem.malformed) :
    ifGiven hashtext (loneReviews args).world args.filters.relatedItem ItemsService.findOneByIdOrThrow = .ok () := by
  rcases related_verdict hashtext (loneReviews args).world args.relatedItem with
    ⟨passed, -⟩ | ⟨⟨id, given, nonempty, nameless⟩, -⟩
  · exact passed
  · exact absurd ⟨well_formed_valid _ wellFormed id given nonempty, _, List.mem_singleton.mpr rfl,
      named_parses _ _ wellFormed id given nonempty⟩ nameless

theorem exact_reviews_answerable (args : Graphql.ReviewFiltersArgs)
    (exactly : ReviewResolver.FiltersExactly hashtext postgres args) : args.Answerable postgres := by
  by_cases creator : args.createdBy.malformed
  · exact .inl creator
  by_cases related : args.relatedItem.malformed
  · exact .inr (.inl related)
  let call : ReviewSystem × Shuffle Review := ⟨loneReviews args, inTableOrder⟩
  have faithful : call.1.Faithful := fun id value cached => by cases cached
  have listing := @reviews_listed hashtext postgres args call args.position (lone_reviewer_passes args creator)
    (lone_related_passes args related)
  rcases exactly call faithful with ⟨-, rejected⟩ | ⟨-, rejected⟩ | ⟨⟨page, jobs, answered, counted, -⟩, -⟩
  · rw [listing] at rejected
    cases listed : PaginationService.create (call.1.store postgres call.2) true args.size args.position
      (some args.filters.selects) <;> simp [listed, Except.mapError] at rejected
  · rw [listing] at rejected
    cases listed : PaginationService.create (call.1.store postgres call.2) true args.size args.position
      (some args.filters.selects) <;> simp [listed, Except.mapError] at rejected
  · rw [listing] at answered
    have listed := listed_without_fault _ _ answered
    obtain ⟨readable, total⟩ := PaginationService.created_counts (call.1.store postgres call.2) args.filters.selects args.size
      args.position page jobs listed
    have satisfied := lone_satisfied (loneReview args) _ _ (lone_review_selected args creator related) (total.symm.trans counted)
    simp only [ReviewFiltersArgs.satisfies, Graphql.ReviewFiltersArgs.filters, Bool.and_eq_true] at satisfied
    refine .inr (.inr ⟨fun empty => ?_, fun empty => ?_, readable⟩)
    · simp [empty, Nullable.given, empty_names_nothing] at satisfied
    · simp [empty, Nullable.given, empty_names_nothing] at satisfied

end Reviews

theorem accepted_text (presentationSequences : JsString → Nat) (rule : LengthRule) (positive : 0 < rule.MIN) (text : JsString)
    (accepted : hasLength presentationSequences rule text = true) : text ≠ [] := by
  intro empty
  have counted := length_count_text presentationSequences text
  have short : (parameter text).length = 0 := by rw [empty]; rfl
  simp only [hasLength, minLength, Bool.and_eq_true, decide_eq_true_eq] at accepted
  omega

variable {toLowerCase : JsString → JsString} {presentationSequences : JsString → Nat}

theorem piped_items_valid (stable : ∀ value, trimAndLowercase toLowerCase (trimAndLowercase toLowerCase value) =
    trimAndLowercase toLowerCase value) (input args : Graphql.ItemFiltersArgs)
    (accepted : input.piped toLowerCase presentationSequences = some args) :
    1 ≤ args.size ∧ ∀ text ∈ args.texts, text ≠ [] := by
  have twice (text : Nullable JsString) : Graphql.Nullable.lowercased toLowerCase (Graphql.Nullable.lowercased toLowerCase text) =
      Graphql.Nullable.lowercased toLowerCase text := by
    cases text with
    | value text => exact congrArg Nullable.value (stable text)
    | _ => rfl
  simp only [Graphql.ItemFiltersArgs.piped, Graphql.ItemFiltersArgs.transform, twice] at accepted
  split at accepted
  · rename_i valid
    cases accepted
    simp only [Graphql.ItemFiltersArgs.valid, Bool.and_eq_true] at valid
    obtain ⟨⟨paged, kind⟩, tagged⟩ := valid
    refine ⟨Graphql.PaginationArgs.valid_size _ paged, fun text member => ?_⟩
    simp only [Graphql.ItemFiltersArgs.texts, List.mem_append, Option.mem_toList] at member
    rcases member with given | given
    · rw [given] at kind
      exact accepted_text presentationSequences ITEM_RULES.CATEGORY (by decide) text kind
    · rw [given] at tagged
      exact accepted_text presentationSequences ITEM_RULES.TAG (by decide) text tagged
  · cases accepted

theorem piped_reviews_valid (input args : Graphql.ReviewFiltersArgs) (accepted : input.piped = some args) : 1 ≤ args.size := by
  simp only [Graphql.ReviewFiltersArgs.piped] at accepted
  split at accepted
  · rename_i valid
    cases accepted
    exact Graphql.PaginationArgs.valid_size _ valid
  · cases accepted

theorem filters_exact_iff
    (prints : ∀ instant : Nat, postgres.timestamptzIn (postgres.timestamptzOut instant) = some (instant : Int))
    (stable : ∀ value, trimAndLowercase toLowerCase (trimAndLowercase toLowerCase value) = trimAndLowercase toLowerCase value) :
    (∀ input args : Graphql.ItemFiltersArgs, input.piped toLowerCase presentationSequences = some args →
      (ItemsResolver.FiltersExactly hashtext postgres args ↔ args.Answerable postgres)) ∧
    ∀ input args : Graphql.ReviewFiltersArgs, input.piped = some args →
      (ReviewResolver.FiltersExactly hashtext postgres args ↔ args.Answerable postgres) := by
  constructor
  · intro input args accepted
    obtain ⟨positive, nonempty⟩ := piped_items_valid stable input args accepted
    exact ⟨exact_items_answerable args, answerable_items prints args positive nonempty⟩
  · intro input args accepted
    exact ⟨exact_reviews_answerable args, answerable_reviews prints args (piped_reviews_valid input args accepted)⟩

end Listings

def everyInstant : Postgres :=
  { PaginationService.twoInstants with
    timestamptzOut := fun time =>
      if time = 0 ∨ time = 1 then PaginationService.twoInstants.timestamptzOut time else List.replicate time.toNat 'x'
    timestamptzIn := fun text =>
      (PaginationService.twoInstants.timestamptzIn text).or (some text.length) }

theorem every_instant_printed (instant : Nat) :
    everyInstant.timestamptzIn (everyInstant.timestamptzOut instant) = some (instant : Int) := by
  match instant with
  | 0 => rfl
  | 1 => rfl
  | n + 2 =>
      have later : ¬ (((n + 2 : Nat) : Int) = 0 ∨ ((n + 2 : Nat) : Int) = 1) := by omega
      simp only [everyInstant, if_neg later, Int.toNat_natCast]
      have first : (List.replicate (n + 2) 'x').head? = some 'x' := rfl
      have zero : List.replicate (n + 2) 'x' ≠ "2026-11-20 10:00:00+00".toList := fun same => by rw [same] at first; cases first
      have one : List.replicate (n + 2) 'x' ≠ "2026-11-20 10:00:00.000001+00".toList := fun same => by
        rw [same] at first
        cases first
      simp only [PaginationService.twoInstants, if_neg zero, if_neg one, Option.none_or, List.length_replicate]

def kitchenOfHost : Graphql.ItemFiltersArgs :=
  ⟨⟨.absent, .value 10⟩, .value (Utf16.ofText hostId.text), .value (Utf16.ofText "kitchen".toList), .absent⟩

def reviewsOfHost : Graphql.ReviewFiltersArgs := ⟨⟨.absent, .value 10⟩, .value (Utf16.ofText hostId.text), .absent⟩

theorem filters_exact_iff_host :
    ItemsResolver.FiltersExactly (fun _ => 0) everyInstant kitchenOfHost ∧
      ReviewResolver.FiltersExactly (fun _ => 0) everyInstant reviewsOfHost := by
  have stable : ∀ value, trimAndLowercase (fun value => value) (trimAndLowercase (fun value => value) value) =
      trimAndLowercase (fun value => value) value := trim_trim
  have exact_ := @filters_exact_iff (fun _ => 0) everyInstant (fun value => value) (fun _ => 0) every_instant_printed stable
  refine ⟨(exact_.1 kitchenOfHost kitchenOfHost (by decide)).mpr (.inr ⟨by decide, ?_, PaginationService.no_cursor_readable⟩),
    (exact_.2 reviewsOfHost reviewsOfHost (by decide)).mpr (.inr (.inr ⟨by decide, by decide, PaginationService.no_cursor_readable⟩))⟩
  intro text member
  rw [List.mem_singleton.mp member]
  exact ⟨shown_well_formed _, by decide⟩

def emptyCreator : Graphql.ItemFiltersArgs := ⟨⟨.absent, .value 10⟩, .value [], .absent, .absent⟩

-- The empty creator passes the pipe and names no account, and all items are
-- counted.
theorem empty_creator_counts_all :
    emptyCreator.piped (fun value => value) (fun _ => 0) = some emptyCreator ∧
    ¬ NamesAccount (loneItems emptyCreator).world.db [] ∧
    (ItemsResolver.filterItems (fun _ => 0) everyInstant emptyCreator (loneItems emptyCreator, asScanned) none).toOption.map
      (fun answer => answer.1.totalCount) = some 1 ∧
    ((loneItems emptyCreator).world.db.items.filter emptyCreator.filters.satisfies).length = 0 ∧
    ¬ ItemsResolver.FiltersExactly (fun _ => 0) everyInstant emptyCreator := by
  refine ⟨by decide, (fun named => by cases named.1), by decide, by decide, fun exactly => ?_⟩
  rcases exact_items_answerable emptyCreator exactly with ⟨text, given, nonempty, -⟩ | ⟨creator, -⟩
  · exact nonempty (Nullable.value.inj given).symm
  · exact creator rfl

end RateWise
