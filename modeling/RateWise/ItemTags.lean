import RateWise.ItemInputs

set_option autoImplicit false

namespace RateWise

-- The text form that PostgreSQL gives an array (array_out).
section ArrayText

def spellsNull (element : Text) : Bool := element.map Char.toUpper == "NULL".toList

def quotedChars : List Char := ['"', '\\', '{', '}', ',', ' ', '\t', '\n', '\r', '\x0b', '\x0c']

def needsQuotes (element : Text) : Bool := element.isEmpty || spellsNull element || element.any quotedChars.contains

def escaped (c : Char) : Text := if c = '"' ∨ c = '\\' then ['\\', c] else [c]

def arrayElement (element : Text) : Text :=
  if needsQuotes element then '"' :: (element.flatMap escaped ++ ['"']) else element

def arrayOut (elements : List Text) : Text := '{' :: (List.intercalate [','] (elements.map arrayElement) ++ ['}'])

end ArrayText

-- What the driver hands to a value transformer.
inductive RawColumn where
  | null
  | array (value : List JsString)
  | text (value : JsString)
deriving DecidableEq

namespace customArrayTransformer

-- value.replace(/^opening|closing$/g, '')
def withoutEnds (opening closing : UInt16) (value : JsString) : JsString :=
  let rest := if value.head? = some opening then value.tail else value
  if rest.getLast? = some closing then rest.dropLast else rest

def comma : UInt16 := 0x2C

def quote : UInt16 := 0x22

def openBrace : UInt16 := 0x7B

def closeBrace : UInt16 := 0x7D

def stripTag (tag : JsString) : JsString := withoutEnds quote quote tag

-- from(value)
def fromColumn : RawColumn → List JsString
  | .null => []
  | .array value => value
  | .text value =>
      if value = [] then []
      else if value = [openBrace, closeBrace] then []
      else ((withoutEnds openBrace closeBrace value).splitOn comma).map stripTag

end customArrayTransformer

open customArrayTransformer

-- The column of a domain type reaches the transformer as text.
def restoredTags (column : List Text) : List JsString := fromColumn (.text (Utf16.ofText (arrayOut column)))

theorem length_split_on (c : UInt16) (value : JsString) : (value.splitOn c).length = value.count c + 1 := by
  induction value with
  | nil => rfl
  | cons u rest ih =>
      rw [List.splitOn_cons_eq_if_modifyHead]
      by_cases same : u = c
      · simp [same, ih]
      · simp [same, ih]

theorem count_intercalate (c : UInt16) (parts : List JsString) (nonempty : parts ≠ []) :
    (List.intercalate [c] parts).count c + 1 = parts.length + (parts.map fun part => part.count c).sum := by
  induction parts with
  | nil => exact absurd rfl nonempty
  | cons part rest ih =>
      cases rest with
      | nil =>
          simp
          omega
      | cons next others =>
          have inner := ih (by simp)
          rw [List.intercalate_cons_cons]
          simp only [List.count_append, List.map_cons, List.sum_cons, List.length_cons, List.count_cons_self,
            List.count_nil] at inner ⊢
          omega

theorem of_text_intercalate (parts : List Text) :
    Utf16.ofText (List.intercalate [','] parts) = List.intercalate [comma] (parts.map Utf16.ofText) := by
  induction parts with
  | nil => rfl
  | cons part rest ih =>
      cases rest with
      | nil => simp
      | cons next others =>
          simp only [List.map_cons] at ih
          rw [List.intercalate_cons_cons, Utf16.of_text_append, Utf16.of_text_append, ih, List.map_cons, List.map_cons,
            List.intercalate_cons_cons]
          rfl

theorem without_ends_wrapped (opening closing : UInt16) (inner : JsString) :
    withoutEnds opening closing (opening :: (inner ++ [closing])) = inner := by
  simp [withoutEnds]

theorem stripped_braces (elements : List Text) :
    withoutEnds openBrace closeBrace (Utf16.ofText (arrayOut elements)) =
      List.intercalate [comma] ((elements.map arrayElement).map Utf16.ofText) := by
  have whole : Utf16.ofText (arrayOut elements) = openBrace ::
      (List.intercalate [comma] ((elements.map arrayElement).map Utf16.ofText) ++ [closeBrace]) := by
    rw [arrayOut, Utf16.of_text_cons, Utf16.of_text_append, of_text_intercalate]
    rfl
  rw [whole, without_ends_wrapped]

theorem array_element_nonempty (element : Text) : arrayElement element ≠ [] := by
  intro empty
  rw [arrayElement] at empty
  split at empty
  · cases empty
  · rename_i plain
    exact plain (by simp [needsQuotes, empty])

def stripped (element : Text) : Text := if needsQuotes element then element.flatMap escaped else element

theorem unquoted_plain (element : Text) (plain : needsQuotes element = false) :
    ',' ∉ element ∧ '"' ∉ element ∧ '\\' ∉ element := by
  simp only [needsQuotes, Bool.or_eq_false_iff, List.any_eq_false] at plain
  refine ⟨fun member => plain.2 _ member (by decide), fun member => plain.2 _ member (by decide), fun member => ?_⟩
  exact plain.2 _ member (by decide)

theorem strip_element (element : Text) : stripTag (Utf16.ofText (arrayElement element)) = Utf16.ofText (stripped element) := by
  cases quoted : needsQuotes element with
  | true =>
      simp only [arrayElement, stripped, quoted, if_true, Utf16.of_text_cons, Utf16.of_text_append]
      exact without_ends_wrapped quote quote _
  | false =>
      have absent : quote ∉ Utf16.ofText element := by
        rw [show quote = UInt16.ofNat 0x22 from rfl, Utf16.mem_of_text _ _ (by decide)]
        exact (unquoted_plain element quoted).2.1
      have head : (Utf16.ofText element).head? ≠ some quote := fun found => absent (List.mem_of_head? found)
      have last : (Utf16.ofText element).getLast? ≠ some quote := fun found => absent (List.mem_of_getLast? found)
      simp only [arrayElement, stripped, quoted, Bool.false_eq_true, if_false, stripTag, withoutEnds, if_neg head,
        if_neg last]

theorem length_escaped (element : Text) :
    (element.flatMap escaped).length = element.length + element.count '"' + element.count '\\' := by
  induction element with
  | nil => rfl
  | cons c rest ih =>
      rw [List.flatMap_cons, List.length_append, ih, List.length_cons, List.count_cons, List.count_cons]
      by_cases double : c = '"'
      · subst double
        simp [escaped]
        omega
      · by_cases back : c = '\\'
        · subst back
          simp [escaped]
          omega
        · simp [escaped, double, back]
          omega

theorem escaped_plain (element : Text) (noQuote : '"' ∉ element) (noBackslash : '\\' ∉ element) :
    element.flatMap escaped = element := by
  induction element with
  | nil => rfl
  | cons c rest ih =>
      simp only [List.mem_cons, not_or] at noQuote noBackslash
      rw [List.flatMap_cons, ih noQuote.2 noBackslash.2, escaped, if_neg]
      · rfl
      · exact fun either => either.elim (fun same => noQuote.1 same.symm) fun same => noBackslash.1 same.symm

theorem stripped_iff (element : Text) : stripped element = element ↔ '"' ∉ element ∧ '\\' ∉ element := by
  cases quoted : needsQuotes element with
  | false =>
      have plain := unquoted_plain element quoted
      simp only [stripped, quoted, Bool.false_eq_true, if_false, true_iff]
      exact plain.2
  | true =>
      simp only [stripped, quoted, if_true]
      constructor
      · intro same
        have longer := length_escaped element
        rw [same] at longer
        exact ⟨List.count_eq_zero.mp (by omega), List.count_eq_zero.mp (by omega)⟩
      · rintro ⟨noQuote, noBackslash⟩
        exact escaped_plain element noQuote noBackslash

theorem comma_in_element (element : Text) : comma ∈ Utf16.ofText (arrayElement element) ↔ ',' ∈ element := by
  rw [show comma = UInt16.ofNat 0x2C from rfl, Utf16.mem_of_text _ _ (by decide)]
  show ',' ∈ arrayElement element ↔ ',' ∈ element
  cases quoted : needsQuotes element with
  | false => simp [arrayElement, quoted]
  | true =>
      have kept : ',' ∈ element.flatMap escaped ↔ ',' ∈ element := by
        simp only [List.mem_flatMap, escaped]
        constructor
        · rintro ⟨c, member, inside⟩
          split at inside
          · rename_i special
            rcases special with rfl | rfl <;> simp at inside
          · simp only [List.mem_singleton] at inside
            rwa [inside]
        · intro member
          exact ⟨',', member, by decide⟩
      simp [arrayElement, quoted, kept]

theorem restored_split (column : List Text) (nonempty : column ≠ []) : restoredTags column =
    ((List.intercalate [comma] ((column.map arrayElement).map Utf16.ofText)).splitOn comma).map stripTag := by
  have braces : Utf16.ofText (arrayOut column) ≠ [openBrace, closeBrace] := by
    intro same
    have text : arrayOut column = ['{', '}'] := Utf16.of_text_injective _ ['{', '}'] same
    rw [arrayOut, List.cons.injEq, show ['}'] = [] ++ ['}'] from rfl] at text
    have inside := List.append_cancel_right text.2
    cases column with
    | nil => exact nonempty rfl
    | cons element rest =>
        cases rest with
        | nil => exact array_element_nonempty element (by simpa using inside)
        | cons next others =>
            rw [List.map_cons, List.map_cons, List.intercalate_cons_cons] at inside
            simp at inside
  have some_text : Utf16.ofText (arrayOut column) ≠ [] := fun empty => by
    have text : arrayOut column = [] := Utf16.of_text_injective _ [] empty
    cases text
  rw [restoredTags, fromColumn, if_neg some_text, if_neg braces, stripped_braces]

theorem restored_without_commas (column : List Text) (plain : ∀ element ∈ column, ',' ∉ element) :
    restoredTags column = column.map fun element => Utf16.ofText (stripped element) := by
  cases column with
  | nil => decide
  | cons element rest =>
      have parts : ∀ part ∈ ((element :: rest).map arrayElement).map Utf16.ofText, comma ∉ part := by
        intro part member
        simp only [List.map_map, List.mem_map, Function.comp_apply] at member
        obtain ⟨source, inColumn, rfl⟩ := member
        rw [comma_in_element]
        exact plain source inColumn
      rw [restored_split _ (by simp), List.splitOn_intercalate comma parts (by simp), List.map_map, List.map_map]
      exact List.map_congr_left fun source _ => strip_element source

theorem restored_no_commas (column : List Text) (same : (restoredTags column).length = column.length) :
    ∀ element ∈ column, ',' ∉ element := by
  intro element member inside
  have nonempty : column ≠ [] := List.ne_nil_of_mem member
  have many := count_intercalate comma ((column.map arrayElement).map Utf16.ofText) (by simpa using nonempty)
  rw [restored_split column nonempty, List.length_map, length_split_on] at same
  have counted : 0 < ((column.map arrayElement).map Utf16.ofText |>.map fun part => part.count comma).sum := by
    rw [List.sum_pos_iff_exists_pos_nat]
    refine ⟨(Utf16.ofText (arrayElement element)).count comma, ?_, ?_⟩
    · simp only [List.map_map, List.mem_map, Function.comp_apply]
      exact ⟨element, member, rfl⟩
    · exact List.count_pos_iff.mpr ((comma_in_element element).mpr inside)
  simp only [List.length_map] at many
  have fewer := many.symm.trans same
  have none_left := Nat.add_eq_left.mp fewer
  rw [none_left] at counted
  exact Nat.lt_irrefl 0 counted

def PlainTag (tag : JsString) : Prop :=
  Utf16.WellFormed tag ∧ ∀ c ∈ parameter tag, c ≠ ',' ∧ c ≠ '"' ∧ c ≠ '\\'

theorem restored_tags_iff (tags : List JsString) :
    restoredTags (tags.map parameter) = tags ↔ ∀ tag ∈ tags, PlainTag tag := by
  constructor
  · intro same
    have commas := restored_no_commas (tags.map parameter) (by rw [same, List.length_map])
    rw [restored_without_commas _ commas, List.map_map] at same
    intro tag member
    have here : Utf16.ofText (stripped (parameter tag)) = tag :=
      List.map_inj_left.mp (same.trans (List.map_id tags).symm) tag member
    have text : stripped (parameter tag) = parameter tag := by
      have back := congrArg Utf16.toText here
      rwa [Utf16.to_text_of_text] at back
    obtain ⟨noQuote, noBackslash⟩ := (stripped_iff _).mp text
    refine ⟨by rwa [text] at here, fun c inside => ⟨?_, ?_, ?_⟩⟩
    · rintro rfl
      exact commas _ (List.mem_map_of_mem member) inside
    · rintro rfl
      exact noQuote inside
    · rintro rfl
      exact noBackslash inside
  · intro plain
    have commas : ∀ element ∈ tags.map parameter, ',' ∉ element := by
      intro element member inside
      obtain ⟨tag, inTags, rfl⟩ := List.mem_map.mp member
      exact ((plain tag inTags).2 _ inside).1 rfl
    rw [restored_without_commas _ commas, List.map_map]
    refine (List.map_inj_left.mpr fun tag member => ?_).trans (List.map_id tags)
    have clean : stripped (parameter tag) = parameter tag :=
      (stripped_iff _).mpr ⟨fun inside => ((plain tag member).2 _ inside).2.1 rfl,
        fun inside => ((plain tag member).2 _ inside).2.2 rfl⟩
    show Utf16.ofText (stripped (parameter tag)) = tag
    rw [clean]
    exact (plain tag member).1

structure ItemEntity extends Generated where
  title : JsString
  description : JsString
  category : JsString
  tags : List JsString
  createdBy : Uuid
deriving DecidableEq

def Item.entity (row : Item) : ItemEntity :=
  ⟨row.toGenerated, Utf16.ofText row.title, Utf16.ofText row.description, Utf16.ofText row.category,
    restoredTags row.tags, row.createdBy⟩

def createItemCacheKey (itemId : Text) : Text := "cache:item:".toList ++ itemId

abbrev ItemCache := Text → Option ItemEntity

-- findItemById: the answer and the cache that it leaves.
def ItemsService.findOneByIdOrThrowCached (cache : ItemCache) (t : Tables) (id : Text) : Except Err ItemEntity × ItemCache :=
  if !validUUID id then (.error ItemsService.notFound, cache)
  else match cache (createItemCacheKey id) with
    | some itemInCache => (.ok itemInCache, cache)
    | none => match t.answer (.findItem id) with
      | none => (.error ItemsService.notFound, cache)
      | some itemFound =>
          (.ok itemFound.entity, Function.update cache (createItemCacheKey id) (some itemFound.entity))

structure ItemFiltersArgs where
  createdBy : Option JsString
  category : Option JsString
  tag : Option JsString
deriving DecidableEq

-- The WHERE of filterItems; an empty argument sets no condition.
def ItemFiltersArgs.selects (filters : ItemFiltersArgs) (row : Item) : Bool :=
  (filters.createdBy.all fun id => id.isEmpty || decide (uuidIn (parameter id) = some row.createdBy)) &&
  (filters.category.all fun category => category.isEmpty || row.category == parameter category) &&
  filters.tag.all fun tag => tag.isEmpty || row.tags.contains (parameter tag)

-- What the pages of filterItems are made of.
def filteredItems (t : Tables) (filters : ItemFiltersArgs) : List ItemEntity := (t.items.filter filters.selects).map Item.entity

-- A cached item is the one that the database would give.
def Coherent (cache : ItemCache) (t : Tables) : Prop :=
  ∀ row ∈ t.items, ∀ entity, cache (createItemCacheKey row.id.text) = some entity → entity = row.entity

def byTag (tag : JsString) : ItemFiltersArgs := ⟨none, none, some tag⟩

structure TagsAgree (created : List JsString) (t : Tables) (row : Item) : Prop where
  found : ∀ cache, Coherent cache t →
    ∃ entity after, ItemsService.findOneByIdOrThrowCached cache t row.id.text = (.ok entity, after) ∧ entity.tags = created
  filtered : ∀ filters, ∀ entity ∈ filteredItems t filters, entity.id = row.id → entity.tags = created
  tagged : ∀ tag ∈ created, row.entity ∈ filteredItems t (byTag tag)
  only : ∀ tag, tag ≠ [] → Utf16.WellFormed tag → ∀ entity ∈ filteredItems t (byTag tag), entity.id = row.id → tag ∈ entity.tags

theorem finds_item (t : Tables) (distinct : t.items.Pairwise fun a b => a.id ≠ b.id) (row : Item) (stored : row ∈ t.items) :
    t.answer (.findItem row.id.text) = some row := by
  show t.items.find? (fun other => some other.id = uuidIn row.id.text) = some row
  have only := filter_key (fun item : Item => item.id) t.items row stored distinct
  rw [uuid_in_text, ← List.head?_filter]
  simp only [Option.some.injEq]
  rw [only]
  rfl

theorem cache_key_injective (a b : Text) (same : createItemCacheKey a = createItemCacheKey b) : a = b :=
  List.append_cancel_left same

theorem same_item (t : Tables) (distinct : t.items.Pairwise fun a b => a.id ≠ b.id) (a b : Item) (inA : a ∈ t.items)
    (inB : b ∈ t.items) (same : a.id = b.id) : a = b := by
  have only := filter_key (fun row : Item => row.id) t.items b inB distinct
  have listed : a ∈ t.items.filter fun row => row.id = b.id := List.mem_filter.mpr ⟨inA, by simpa using same⟩
  rw [only] at listed
  exact List.mem_singleton.mp listed

theorem find_coherent (cache : ItemCache) (t : Tables) (id : Text) (coherent : Coherent cache t)
    (distinct : t.items.Pairwise fun a b => a.id ≠ b.id) :
    Coherent (ItemsService.findOneByIdOrThrowCached cache t id).2 t := by
  unfold ItemsService.findOneByIdOrThrowCached
  split
  · exact coherent
  · split
    · exact coherent
    · split
      · exact coherent
      · rename_i item found
        intro row stored entity cached
        by_cases same : createItemCacheKey row.id.text = createItemCacheKey id
        · have named := cache_key_injective _ _ same
          rw [← named, finds_item t distinct row stored] at found
          cases found
          simp only [same, Function.update_self] at cached
          cases cached
          rfl
        · simp only [Function.update_of_ne same] at cached
          exact coherent row stored entity cached

theorem found_entity (cache : ItemCache) (t : Tables) (coherent : Coherent cache t)
    (distinct : t.items.Pairwise fun a b => a.id ≠ b.id) (row : Item) (stored : row ∈ t.items)
    (drawn : validUUID row.id.text = true) :
    (ItemsService.findOneByIdOrThrowCached cache t row.id.text).1 = .ok row.entity := by
  simp only [ItemsService.findOneByIdOrThrowCached, drawn, Bool.not_true, Bool.false_eq_true, if_false]
  cases cached : cache (createItemCacheKey row.id.text) with
  | some entity =>
      rw [coherent row stored entity cached]
  | none =>
      simp only [finds_item t distinct row stored]

theorem mem_filtered_items (t : Tables) (filters : ItemFiltersArgs) (entity : ItemEntity) :
    entity ∈ filteredItems t filters ↔ ∃ row ∈ t.items, filters.selects row = true ∧ row.entity = entity := by
  simp only [filteredItems, List.mem_map, List.mem_filter, and_assoc]

theorem selects_tag (tag : JsString) (row : Item) : (byTag tag).selects row = true ↔ tag = [] ∨ parameter tag ∈ row.tags := by
  simp [ItemFiltersArgs.selects, byTag]

theorem sent_tags (item : Graphql.CreateItemInput) (columns : CreateItemInput) (sent : itemParameters item = some columns) :
    columns.tags = item.listed.map parameter := by
  obtain ⟨title, description, category, tags⟩ := item
  cases tags with
  | null => cases sent
  | absent =>
      cases sent
      rfl
  | value tags =>
      cases sent
      rfl

theorem tags_agree (created : List JsString) (t : Tables) (distinct : t.items.Pairwise fun a b => a.id ≠ b.id)
    (row : Item) (stored : row ∈ t.items) (drawn : validUUID row.id.text = true)
    (sent : row.tags = created.map parameter) (restored : restoredTags row.tags = created) : TagsAgree created t row where
  found cache coherent := ⟨row.entity, _, Prod.ext (found_entity cache t coherent distinct row stored drawn) rfl, restored⟩
  filtered filters entity member same := by
    obtain ⟨other, inItems, -, rfl⟩ := (mem_filtered_items t filters entity).mp member
    rw [same_item t distinct other row inItems stored same]
    exact restored
  tagged tag member := by
    refine (mem_filtered_items t _ _).mpr ⟨row, stored, (selects_tag tag row).mpr (.inr ?_), rfl⟩
    rw [sent]
    exact List.mem_map_of_mem member
  only tag nonempty safe entity member same := by
    obtain ⟨other, inItems, selected, rfl⟩ := (mem_filtered_items t _ entity).mp member
    have mine := same_item t distinct other row inItems stored same
    subst mine
    rcases (selects_tag tag other).mp selected with empty | inTags
    · exact absurd empty nonempty
    · rw [sent] at inTags
      obtain ⟨served, inCreated, text⟩ := List.mem_map.mp inTags
      have servedSafe : Utf16.WellFormed served :=
        ((restored_tags_iff created).mp (by rw [← sent]; exact restored) served inCreated).1
      have equal : served = tag := by
        rw [← servedSafe, ← safe]
        exact congrArg Utf16.ofText text
      show tag ∈ restoredTags other.tags
      rw [restored, ← equal]
      exact inCreated

-- The tags of a created item come back exactly when none of them holds a
-- comma, a double quote, a backslash or a lone surrogate.
theorem created_tags_survive_iff (item : Graphql.CreateItemInput) (columns : CreateItemInput)
    (sent : itemParameters item = some columns) (t : Tables) (distinct : t.items.Pairwise fun a b => a.id ≠ b.id)
    (drawn : Generated) (version : validUUID drawn.id.text = true) (owner : Uuid)
    (stored : columns.row drawn owner ∈ t.items) :
    (restoredTags columns.tags = item.listed ∧ TagsAgree item.listed t (columns.row drawn owner)) ↔
      ∀ tag ∈ item.listed, PlainTag tag := by
  have tags := sent_tags item columns sent
  rw [← restored_tags_iff item.listed, ← tags]
  constructor
  · exact fun both => both.1
  · intro restored
    exact ⟨restored, tags_agree item.listed t distinct _ stored version tags restored⟩

def taggedItem (tags : List JsString) : Graphql.CreateItemInput :=
  ⟨Utf16.ofText "kettle".toList, Utf16.ofText "boils water".toList, Utf16.ofText "kitchen".toList, .value tags⟩

def drawnItem : Generated := ⟨⟨"9b2f4a6c-1d3e-4f50-8a7b-6c5d4e3f2a1b".toList, by decide⟩, 0⟩

def cook : Uuid := ⟨repeated '5', by decide⟩

def taggedRow (tags : List JsString) : Item :=
  ⟨drawnItem, "kettle".toList, "boils water".toList, "kitchen".toList, tags.map parameter, cook⟩

def spacedTags : List JsString := [Utf16.ofText "tea time".toList, Utf16.ofText "null".toList]

theorem created_tags_survive_iff_spaces :
    (restoredTags (spacedTags.map parameter) = spacedTags ∧
      TagsAgree spacedTags ⟨[], [taggedRow spacedTags], [], []⟩ (taggedRow spacedTags)) ↔
      ∀ tag ∈ spacedTags, PlainTag tag :=
  created_tags_survive_iff (taggedItem spacedTags)
    ⟨"kettle".toList, "boils water".toList, "kitchen".toList, spacedTags.map parameter⟩ (by decide)
    ⟨[], [taggedRow spacedTags], [], []⟩ (by simp) drawnItem (by decide) cook (by decide)

def commaTags : List JsString := [Utf16.ofText "salt,pepper".toList]

-- One tag goes in, two come back.
theorem comma_splits_tag :
    (taggedItem commaTags).piped (fun value => value) (fun _ => 0) = some (taggedItem commaTags) ∧
      restoredTags (commaTags.map parameter) = [Utf16.ofText "salt".toList, Utf16.ofText "pepper".toList] ∧
      restoredTags (commaTags.map parameter) ≠ commaTags := by
  decide

end RateWise
